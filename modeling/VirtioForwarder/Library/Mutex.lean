import Mathlib.Logic.Function.Basic

/-! Locks that are atomic bits, shared by any number of threads.
Every lock remembers the thread that took it. Releasing a lock clears it whoever does it, so
that a program can release a lock it does not hold.
-/

namespace Mutex

variable {ι κ : Type*}

/-- The holder of each lock. -/
abbrev Owners (ι κ : Type*) := κ → Option ι

section Operations

variable [DecidableEq κ]

/-- Take `lock` for `thread` if it is free, and say whether it was. -/
def tryLock (owners : Owners ι κ) (lock : κ) (thread : ι) : Bool × Owners ι κ :=
  match owners lock with
  | none => (true, Function.update owners lock (some thread))
  | some _ => (false, owners)

/-- Clear `lock`. -/
def unlock (owners : Owners ι κ) (lock : κ) : Owners ι κ :=
  Function.update owners lock none

theorem tryLock_free {owners : Owners ι κ} {lock : κ} (thread : ι) (free : owners lock = none)
    : tryLock owners lock thread = (true, Function.update owners lock (some thread)) := by
  simp [tryLock, free]

theorem tryLock_taken {owners : Owners ι κ} {lock : κ} {holder : ι} (thread : ι)
    (taken : owners lock = some holder)
    : tryLock owners lock thread = (false, owners) := by
  simp [tryLock, taken]

end Operations

/-- Every thread holds the locks that it relies on. -/
def Respected (owners : Owners ι κ) (needs : ι → κ → Prop) : Prop :=
  ∀ thread lock, needs thread lock → owners lock = some thread

variable {owners : Owners ι κ} {needs needs' : ι → κ → Prop}

/-- Two threads that rely on one lock are the same thread. -/
theorem Respected.unique (h : Respected owners needs) {first second : ι} {lock : κ}
    (hl : needs first lock) (hr : needs second lock)
    : first = second :=
  Option.some.inj ((h first lock hl).symm.trans (h second lock hr))

/-- Relying on less, or on a lock that is held anyway, is always possible. -/
theorem Respected.mono (h : Respected owners needs)
    (fewer : ∀ t l, needs' t l → needs t l ∨ owners l = some t)
    : Respected owners needs' := by
  intro t l need
  rcases fewer t l need with before | held
  · exact h t l before
  · exact held

variable [DecidableEq κ]

/-- Nobody relies on a free lock, so it may be taken. -/
theorem Respected.take (h : Respected owners needs) {lock : κ} {thread : ι}
    (free : owners lock = none)
    (fewer : ∀ t l, needs' t l → needs t l ∨ t = thread ∧ l = lock)
    : Respected (Function.update owners lock (some thread)) needs' := by
  intro t l need
  rcases fewer t l need with before | ⟨rfl, rfl⟩
  · have held := h t l before
    have other : l ≠ lock := by
      rintro rfl
      rw [free] at held
      cases held
    rw [Function.update_of_ne other]
    exact held
  · rw [Function.update_self]

/-- A thread may release a lock it relied on, if it does not rely on it any more. -/
theorem Respected.release (h : Respected owners needs) {lock : κ} {thread : ι}
    (relied : needs thread lock)
    (fewer : ∀ t l, needs' t l → needs t l ∧ (t = thread → l ≠ lock))
    : Respected (unlock owners lock) needs' := by
  intro t l need
  obtain ⟨before, kept⟩ := fewer t l need
  have other : l ≠ lock := by
    rintro rfl
    exact kept (h.unique before relied) rfl
  rw [unlock, Function.update_of_ne other]
  exact h t l before

end Mutex
