import VirtioForwarder.Library.Traces

/-! A thread that polls a stop flag, and the thread that stops it: it raises the flag, waits for
the other one for a limited time, cancels it if the time was too short, and joins it.
-/

namespace TimedStop

open Traces

/-- A thread by its statements, which see the flag and may change it. -/
structure Thread (σ α : Type) where
  step : Bool → σ → α → Option (Bool × σ)
  ended : σ → Bool
  halts : ∀ mustStop t a, ended t = true → step mustStop t a = none

/-- The next call of the thread that stops the other one. -/
inductive Stopper
  | raise
  | timedJoin
  | cancel
  | join
  | done
  deriving DecidableEq, Repr

/-- Both threads. A cancellation is requested before the thread acts on it. -/
structure State (σ : Type) where
  thread : σ
  mustStop : Bool
  stopper : Stopper
  requested : Bool
  cancelled : Bool
  joins : Nat

/-- A statement of the thread, its reaction to the cancellation, or a call of the other one; the
limited wait may find that the thread has ended.
-/
inductive Event (α : Type)
  | thread (a : α)
  | actOnCancel
  | raise
  | timedJoin (inTime : Bool)
  | cancel
  | join
  deriving DecidableEq, Repr

variable {σ α : Type} {T : Thread σ α} {t : σ} {flag : Bool} {s s' : State σ} {e : Event α}
  {trace : List (Event α)}

/-- The thread has been created. -/
def State.initial (flag : Bool) (t : σ) : State σ := ⟨t, flag, .raise, false, false, 0⟩

/-- What happens next. -/
def Thread.next (T : Thread σ α) (s : State σ) : Event α → Option (State σ)
  | .thread a =>
      if s.cancelled then none
      else (T.step s.mustStop s.thread a).map fun after =>
        { s with mustStop := after.1, thread := after.2 }
  | .actOnCancel =>
      if s.requested && !T.ended s.thread then some { s with cancelled := true } else none
  | .raise =>
      if s.stopper = .raise then some { s with mustStop := true, stopper := .timedJoin } else none
  | .timedJoin inTime =>
      if s.stopper = .timedJoin ∧ T.ended s.thread = inTime then
        some (if inTime then { s with stopper := .join, joins := s.joins + 1 }
          else { s with stopper := .cancel })
      else none
  | .cancel =>
      if s.stopper = .cancel then some { s with requested := true, stopper := .join } else none
  | .join =>
      if s.stopper = .join ∧ (T.ended s.thread || s.cancelled) then
        some { s with stopper := .done, joins := s.joins + 1 }
      else none

/-- What an event can do. -/
inductive Thread.Moved (T : Thread σ α) (s : State σ) : Event α → State σ → Prop
  | thread {a : α} {mustStop : Bool} {after : σ} (there : s.cancelled = false)
    (stepped : T.step s.mustStop s.thread a = some (mustStop, after))
    : T.Moved s (.thread a) { s with mustStop := mustStop, thread := after }
  | actOnCancel (requested : s.requested = true) (going : T.ended s.thread = false)
    : T.Moved s .actOnCancel { s with cancelled := true }
  | raise (first : s.stopper = .raise)
    : T.Moved s .raise { s with mustStop := true, stopper := .timedJoin }
  | inTime (waiting : s.stopper = .timedJoin) (ended : T.ended s.thread = true)
    : T.Moved s (.timedJoin true) { s with stopper := .join, joins := s.joins + 1 }
  | timeout (waiting : s.stopper = .timedJoin) (going : T.ended s.thread = false)
    : T.Moved s (.timedJoin false) { s with stopper := .cancel }
  | cancel (late : s.stopper = .cancel)
    : T.Moved s .cancel { s with requested := true, stopper := .join }
  | join (last : s.stopper = .join) (gone : T.ended s.thread = true ∨ s.cancelled = true)
    : T.Moved s .join { s with stopper := .done, joins := s.joins + 1 }

theorem moved_of_next (h : T.next s e = some s') : T.Moved s e s' := by
  unfold Thread.next at h
  split at h
  · split at h
    · cases h
    · rename_i a there
      obtain ⟨after, stepped, rfl⟩ := Option.map_eq_some_iff.mp h
      exact .thread (Bool.eq_false_iff.mpr there) stepped
  · split at h
    · rename_i ready
      cases h
      rw [Bool.and_eq_true, Bool.not_eq_true'] at ready
      exact .actOnCancel ready.1 ready.2
    · cases h
  · split at h
    · cases h
      exact .raise ‹_›
    · cases h
  · rename_i inTime
    split at h
    · rename_i waiting
      cases h
      cases inTime with
      | true => exact .inTime waiting.1 waiting.2
      | false => exact .timeout waiting.1 waiting.2
    · cases h
  · split at h
    · cases h
      exact .cancel ‹_›
    · cases h
  · split at h
    · rename_i last
      cases h
      exact .join last.1 (by simpa using last.2)
    · cases h

/-- The statements of the thread in a trace. -/
def statements (trace : List (Event α)) : List α :=
  trace.filterMap fun
    | .thread a => some a
    | _ => none

/-- The rule for what a thread keeps, whenever the flag is raised. -/
theorem thread_induct {P : List α → Bool → σ → Prop} (first : P [] flag t)
    (own : ∀ ⦃executed mustStop t a after⦄, P executed mustStop t
      → T.step mustStop t a = some after → P (executed ++ [a]) after.1 after.2)
    (raised : ∀ ⦃executed mustStop t⦄, P executed mustStop t → P executed true t)
    (reached : run T.next (.initial flag t) trace = some s)
    : P (statements trace) s.mustStop s.thread := by
  refine run_induct (P := fun trace s => P (statements trace) s.mustStop s.thread) (by exact first)
    (fun trace s e after known stepped => ?_) reached
  have grown : statements (trace ++ [e]) = statements trace ++ statements [e] :=
    List.filterMap_append
  rw [grown]
  cases moved_of_next stepped with
  | thread _ step => exact own known step
  | raise _ => exact (List.append_nil _).symm ▸ raised known
  | actOnCancel | inTime | timeout | cancel | join => exact (List.append_nil _).symm ▸ known

/-- Where the other thread has come, and how often it has joined the thread. -/
structure Accounted (T : Thread σ α) (s : State σ) : Prop where
  unasked : s.cancelled = true → s.requested = true
  early : s.stopper ≠ .join → s.stopper ≠ .done → s.requested = false ∧ s.joins = 0
  late
    : s.stopper = .join ∨ s.stopper = .done
      → s.joins + s.requested.toNat = if s.stopper = .join then 1 else 2
  ended : s.requested = false → s.joins ≠ 0 → T.ended s.thread = true
  gone : s.stopper = .done → T.ended s.thread = true ∨ s.cancelled = true

theorem accounted_run (reached : run T.next (.initial flag t) trace = some s)
    : Accounted T s := by
  refine run_induct (P := fun _ s => Accounted T s) ?_ (fun _ s e after known stepped => ?_) reached
  · exact ⟨nofun, fun _ _ => ⟨rfl, rfl⟩, fun h => by simp [State.initial] at h,
      fun _ h => absurd rfl h, nofun⟩
  · obtain ⟨unasked, early, late, ended, gone⟩ := known
    cases moved_of_next stepped with
    | thread there step =>
        have going : T.ended s.thread = false := by
          by_contra finished
          rw [T.halts _ _ _ (by simpa using finished)] at step
          cases step
        refine ⟨unasked, early, late, fun unasked joined => ?_, fun done => ?_⟩
        · rw [ended unasked joined] at going
          cases going
        · rcases gone done with finished | cancelled
          · rw [finished] at going
            cases going
          · exact Or.inr cancelled
    | actOnCancel requested going =>
        exact ⟨fun _ => requested, early, late, ended, fun _ => Or.inr rfl⟩
    | raise first =>
        obtain ⟨unrequested, none⟩ := early (by simp [first]) (by simp [first])
        refine ⟨unasked, fun _ _ => ⟨unrequested, none⟩, by simp, ?_, by simp⟩
        exact fun _ joined => absurd none joined
    | inTime waiting finished =>
        obtain ⟨unrequested, none⟩ := early (by simp [waiting]) (by simp [waiting])
        exact ⟨unasked, by simp, fun _ => by simp [unrequested, none], fun _ _ => finished, by simp⟩
    | timeout waiting going =>
        obtain ⟨unrequested, none⟩ := early (by simp [waiting]) (by simp [waiting])
        exact ⟨unasked, fun _ _ => ⟨unrequested, none⟩, by simp,
          fun _ joined => absurd none joined, by simp⟩
    | cancel waiting =>
        obtain ⟨_, none⟩ := early (by simp [waiting]) (by simp [waiting])
        exact ⟨fun _ => rfl, by simp, fun _ => by simp [none], by simp, by simp⟩
    | join last finished =>
        have once := late (Or.inl last)
        rw [if_pos last] at once
        refine ⟨unasked, by simp, fun _ => ?_, fun unrequested _ => ?_, fun _ => finished⟩
        · simp only [reduceCtorEq, if_false]
          omega
        · refine ended unrequested ?_
          rw [unrequested] at once
          intro none
          rw [none] at once
          exact absurd once (by decide)

/-- When the other thread is done, the thread has ended in time and has been joined twice, or it
was to be cancelled and has been joined once.
-/
theorem joined_of_done (reached : run T.next (.initial flag t) trace = some s)
    (done : s.stopper = .done)
    : s.requested = false ∧ T.ended s.thread = true ∧ s.joins = 2
      ∨ s.requested = true ∧ (T.ended s.thread = true ∨ s.cancelled = true) ∧ s.joins = 1 := by
  obtain ⟨_, _, late, ended, gone⟩ := accounted_run reached
  have joins := late (Or.inr done)
  simp only [done, reduceCtorEq, if_false] at joins
  cases asked : s.requested with
  | false =>
      rw [asked] at joins
      have two : s.joins = 2 := by simpa using joins
      exact Or.inl ⟨rfl, ended asked (by omega), two⟩
  | true =>
      rw [asked] at joins
      exact Or.inr ⟨rfl, gone done, by simpa using joins⟩

/-- The thread clears the flag first, leaves it alone later, and passes its loop only while the
flag is raised.
-/
structure Polls (T : Thread σ α) (starting past : σ → Prop) : Prop where
  clears
    : ∀ ⦃mustStop t a after⦄, starting t → T.step mustStop t a = some after
      → after.1 = false ∧ ¬ past after.2
  keeps
    : ∀ ⦃mustStop t a after⦄, ¬ starting t → T.step mustStop t a = some after
      → after.1 = mustStop ∧ ¬ starting after.2
  leaves
    : ∀ ⦃mustStop t a after⦄, ¬ past t → T.step mustStop t a = some after → past after.2
      → mustStop = true

/-- A flag that is raised before the thread clears it is lost: the thread never passes its loop.
-/
theorem lost_stop {starting past : σ → Prop} (polls : Polls T starting past)
    (begins : starting s.thread) (outside : ¬ past s.thread)
    (after : run T.next s (.raise :: trace) = some s')
    : ¬ past s'.thread := by
  obtain ⟨raised, first, rest⟩ := Option.bind_eq_some_iff.mp after
  have lost : raised.stopper ≠ .raise ∧ (starting raised.thread ∨ raised.mustStop = false)
      ∧ ¬ past raised.thread := by
    cases moved_of_next first
    exact ⟨by simp, Or.inl begins, outside⟩
  refine (run_induct (P := fun _ s => s.stopper ≠ .raise
    ∧ (starting s.thread ∨ s.mustStop = false) ∧ ¬ past s.thread) lost
    (fun _ s e s' known stepped => ?_) rest).2.2
  obtain ⟨done, cleared, outside⟩ := known
  cases moved_of_next stepped with
  | thread _ step =>
      by_cases early : starting s.thread
      · obtain ⟨off, outside⟩ := polls.clears early step
        exact ⟨done, Or.inr off, outside⟩
      · obtain ⟨same, _⟩ := polls.keeps early step
        have off := cleared.resolve_left early
        refine ⟨done, Or.inr (same.trans off), fun passed => ?_⟩
        have raised := polls.leaves outside step passed
        rw [off] at raised
        cases raised
  | actOnCancel _ _ => exact ⟨done, cleared, outside⟩
  | raise first => exact absurd first done
  | inTime _ _ | timeout _ _ | cancel _ | join _ _ => exact ⟨by simp, cleared, outside⟩

end TimedStop
