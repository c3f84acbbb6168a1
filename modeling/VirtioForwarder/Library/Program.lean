import Mathlib.Logic.Function.Basic

/-! Programs of atomic instructions, run by several threads over one shared state.
An instruction is answered by the environment and observes the state it runs in; between
two instructions of a thread the other threads and the environment may do anything.
-/

namespace Program

/-- A program returns, fails, or executes an instruction and goes on with the answer and
with what it observed when the instruction was executed.
-/
inductive Prog (ι ρ ω ε α : Type)
  | ret (value : α)
  | fail (error : ε)
  | instr (i : ι) (next : ρ → ω → Prog ι ρ ω ε α)

namespace Prog

variable {ι ρ ω ε α β : Type}

/-- Run a program and go on with its value. -/
protected def bind : Prog ι ρ ω ε α → (α → Prog ι ρ ω ε β) → Prog ι ρ ω ε β
  | .ret a, next => next a
  | .fail e, _ => .fail e
  | .instr i rest, next => .instr i fun r w => (rest r w).bind next

instance : Monad (Prog ι ρ ω ε) where
  pure := .ret
  bind := .bind

theorem bind_ret (p : Prog ι ρ ω ε α) : p.bind .ret = p := by
  induction p with
  | ret a => rfl
  | fail e => rfl
  | instr i next ih => exact congrArg (Prog.instr i) (funext fun r => funext fun w => ih r w)

protected theorem bind_assoc {γ : Type} (p : Prog ι ρ ω ε α) (next : α → Prog ι ρ ω ε β)
    (last : β → Prog ι ρ ω ε γ)
    : (p.bind next).bind last = p.bind fun a => (next a).bind last := by
  induction p with
  | ret a => rfl
  | fail e => rfl
  | instr i more ih => exact congrArg (Prog.instr i) (funext fun r => funext fun w => ih r w)

instance : LawfulMonad (Prog ι ρ ω ε) :=
  LawfulMonad.mk' _ (fun p => bind_ret p) (fun _ _ => rfl) Prog.bind_assoc

/-- Execute one instruction; its value depends on the answer and the observed state. -/
def perform (i : ι) (value : ρ → ω → α) : Prog ι ρ ω ε α :=
  .instr i fun r w => .ret (value r w)

/-- The program as a part of a larger one, with its instructions, its view of the observed
state and its errors translated.
-/
def embed {ι' ω' ε' : Type} (f : ι → ι') (view : ω' → ω) (error : ε → ε')
    : Prog ι ρ ω ε α → Prog ι' ρ ω' ε' α
  | .ret a => .ret a
  | .fail e => .fail (error e)
  | .instr i next => .instr (f i) fun r w => (next r (view w)).embed f view error

/-- The value of a program that has returned. -/
def value? : Prog ι ρ ω ε α → Option α
  | .ret a => some a
  | _ => none

theorem eq_ret_of_value? {p : Prog ι ρ ω ε α} {a : α} (h : p.value? = some a) : p = .ret a := by
  cases p with
  | ret b => exact congrArg Prog.ret (Option.some.inj h)
  | fail | instr => cases h

/-- The instruction that the program executes next. -/
def next? : Prog ι ρ ω ε α → Option ι
  | .instr i _ => some i
  | _ => none

theorem eq_instr_of_next? {p : Prog ι ρ ω ε α} {i : ι} (h : p.next? = some i)
    : ∃ next, p = .instr i next := by
  cases p with
  | instr j next =>
      cases h
      exact ⟨next, rfl⟩
  | ret | fail => cases h

/-- The program with each instruction carried out by a program that provides its answer. -/
def expand {ι' ρ' ω' : Type} (impl : ι → Prog ι' ρ' ω' ε ρ) : Prog ι ρ Unit ε α → Prog ι' ρ' ω' ε α
  | .ret a => .ret a
  | .fail e => .fail e
  | .instr i next => (impl i).bind fun r => (next r ()).expand impl

/-- The program after its first instructions have been answered. -/
def fed : Prog ι ρ Unit ε α → List ρ → Prog ι ρ Unit ε α
  | .instr _ next, r :: rs => (next r ()).fed rs
  | p, _ => p

/-- Every instruction that the program can execute satisfies `P`, every error `E`. -/
def All (P : ι → Prop) (E : ε → Prop) : Prog ι ρ ω ε α → Prop
  | .ret _ => True
  | .fail e => E e
  | .instr i next => P i ∧ ∀ r w, (next r w).All P E

theorem All.bind {P : ι → Prop} {E : ε → Prop} {p : Prog ι ρ ω ε α}
    {next : α → Prog ι ρ ω ε β} (first : p.All P E) (rest : ∀ a, (next a).All P E)
    : (p >>= next).All P E := by
  induction p with
  | ret a => exact rest a
  | fail e => exact first
  | instr i more ih =>
      obtain ⟨here, later⟩ := first
      refine ⟨here, fun answer seen => ?_⟩
      exact ih answer seen (later answer seen)

theorem All.perform {P : ι → Prop} {E : ε → Prop} {i : ι} {value : ρ → ω → α} (h : P i)
    : (Prog.perform i value : Prog ι ρ ω ε α).All P E :=
  ⟨h, fun _ _ => trivial⟩

theorem All.mono {P P' : ι → Prop} {E E' : ε → Prop} {p : Prog ι ρ ω ε α} (h : p.All P E)
    (instrs : ∀ i, P i → P' i) (errors : ∀ e, E e → E' e)
    : p.All P' E' := by
  induction p with
  | ret a => trivial
  | fail e => exact errors e h
  | instr i next ih => exact ⟨instrs i h.1, fun r w => ih r w (h.2 r w)⟩

/-- With some answers and observations the program executes these instructions and returns. -/
inductive Executes : Prog ι ρ ω ε α → List ι → α → Prop
  | ret (a : α) : Executes (.ret a) [] a
  | instr {i : ι} {next : ρ → ω → Prog ι ρ ω ε α} {is : List ι} {a : α} (r : ρ) (w : ω)
    (rest : Executes (next r w) is a)
    : Executes (.instr i next) (i :: is) a

/-- Every value that the program can return satisfies `Q`. -/
def Returns (Q : α → Prop) : Prog ι ρ ω ε α → Prop
  | .ret a => Q a
  | .fail _ => True
  | .instr _ next => ∀ r w, (next r w).Returns Q

theorem Returns.bind {Q : β → Prop} {p : Prog ι ρ ω ε α} {next : α → Prog ι ρ ω ε β}
    (rest : ∀ a, (next a).Returns Q)
    : (p >>= next).Returns Q := by
  induction p with
  | ret a => exact rest a
  | fail e => trivial
  | instr i more ih => exact fun r w => ih r w

theorem Returns.of_forall {Q : α → Prop} (h : ∀ a, Q a) (p : Prog ι ρ ω ε α)
    : p.Returns Q := by
  induction p with
  | ret a => exact h a
  | fail e => trivial
  | instr i next ih => exact fun r w => ih r w

theorem Returns.mono {Q R : α → Prop} {p : Prog ι ρ ω ε α} (h : p.Returns Q)
    (weaker : ∀ a, Q a → R a)
    : p.Returns R := by
  induction p with
  | ret a => exact weaker a h
  | fail e => trivial
  | instr i next ih => exact fun r w => ih r w (h r w)

theorem Returns.bind_returns {Q : α → Prop} {R : β → Prop} {p : Prog ι ρ ω ε α}
    {next : α → Prog ι ρ ω ε β} (first : p.Returns Q) (rest : ∀ a, Q a → (next a).Returns R)
    : (p >>= next).Returns R := by
  induction p with
  | ret a => exact rest a first
  | fail e => trivial
  | instr i more ih => exact fun r w => ih r w (first r w)

theorem Returns.embed {ι' ω' ε' : Type} {Q : α → Prop} {f : ι → ι'} {view : ω' → ω}
    {error : ε → ε'} {p : Prog ι ρ ω ε α} (h : p.Returns Q)
    : (p.embed f view error).Returns Q := by
  induction p with
  | ret a => exact h
  | fail e => trivial
  | instr i next ih => exact fun r w => ih r _ (h r _)

/-- The instructions of the first program are instructions of the whole. -/
theorem All.of_bind {P : ι → Prop} {E : ε → Prop} {p : Prog ι ρ ω ε α}
    {next : α → Prog ι ρ ω ε β} (all : (p >>= next).All P E)
    : p.All P E := by
  induction p with
  | ret a => trivial
  | fail e => exact all
  | instr i more ih => exact ⟨all.1, fun r w => ih r w (all.2 r w)⟩

/-- Only the values that the first program can return matter for the second one. -/
theorem All.bind_returns {P : ι → Prop} {E : ε → Prop} {Q : α → Prop} {p : Prog ι ρ ω ε α}
    {next : α → Prog ι ρ ω ε β} (first : p.All P E) (returns : p.Returns Q)
    (rest : ∀ a, Q a → (next a).All P E)
    : (p >>= next).All P E := by
  induction p with
  | ret a => exact rest a returns
  | fail e => exact first
  | instr i more ih =>
      obtain ⟨here, later⟩ := first
      exact ⟨here, fun answer seen => ih answer seen (later answer seen) (returns answer seen)⟩

/-- The instructions of a part are instructions of the whole. -/
theorem All.embed {ι' ω' ε' : Type} {P : ι' → Prop} {E : ε' → Prop} {f : ι → ι'} {view : ω' → ω}
    {error : ε → ε'} {p : Prog ι ρ ω ε α}
    (h : p.All (fun i => P (f i)) fun e => E (error e))
    : (p.embed f view error).All P E := by
  induction p with
  | ret a => trivial
  | fail e => exact h
  | instr i next ih => exact ⟨h.1, fun answer seen => ih answer _ (h.2 answer _)⟩

/-- The program with a check before every instruction, which fails with the given error. -/
def checked (ok : ι → Prop) [DecidablePred ok] (error : ε) : Prog ι ρ ω ε α → Prog ι ρ ω ε α
  | .ret a => .ret a
  | .fail e => .fail e
  | .instr i next =>
      if ok i then .instr i fun r w => (next r w).checked ok error else .fail error

theorem checked_bind {ok : ι → Prop} [DecidablePred ok] {error : ε} {p : Prog ι ρ ω ε α}
    {next : α → Prog ι ρ ω ε β}
    : (p >>= next).checked ok error
      = p.checked ok error >>= fun a => (next a).checked ok error := by
  induction p with
  | ret a => rfl
  | fail e => rfl
  | instr i more ih =>
      have inner : (fun r w => (more r w >>= next).checked ok error)
          = fun r w => (more r w).checked ok error >>= fun a => (next a).checked ok error :=
        funext fun r => funext fun w => ih r w
      change (if ok i then Prog.instr i fun r w => (more r w >>= next).checked ok error
        else .fail error) = Prog.bind (if ok i then _ else _) _
      rw [inner]
      split <;> rfl

/-- Checks that succeed change nothing. -/
theorem All.checked {ok : ι → Prop} [DecidablePred ok] {E : ε → Prop} (error : ε)
    {p : Prog ι ρ ω ε α} (all : p.All ok E)
    : p.checked ok error = p := by
  induction p with
  | ret a => rfl
  | fail e => rfl
  | instr i next ih =>
      have inner : (fun r w => (next r w).checked ok error) = next :=
        funext fun r => funext fun w => ih r w (all.2 r w)
      rw [Prog.checked, if_pos all.1, inner]

/-- What the program comes to if it always gets the same answer and observes the same. -/
def steady (answer : ρ) (seen : ω) : Prog ι ρ ω ε α → Except ε α
  | .ret a => .ok a
  | .fail e => .error e
  | .instr _ next => (next answer seen).steady answer seen

@[simp] theorem steady_ret {answer : ρ} {seen : ω} (a : α)
    : (pure a : Prog ι ρ ω ε α).steady answer seen = .ok a :=
  rfl

theorem steady_bind {answer : ρ} {seen : ω} {p : Prog ι ρ ω ε α} {a : α}
    (first : p.steady answer seen = .ok a) (next : α → Prog ι ρ ω ε β)
    : (p >>= next).steady answer seen = (next a).steady answer seen := by
  induction p with
  | ret b =>
      cases first
      rfl
  | fail e => cases first
  | instr i more ih => exact ih answer seen first

theorem steady_embed {ι' ω' ε' : Type} {f : ι → ι'} {view : ω' → ω} {error : ε → ε'} {answer : ρ}
    {seen : ω'} {p : Prog ι ρ ω ε α} {a : α} (h : p.steady answer (view seen) = .ok a)
    : (p.embed f view error).steady answer seen = .ok a := by
  induction p with
  | ret b =>
      cases h
      rfl
  | fail e => cases h
  | instr i next ih => exact ih answer (view seen) h

/-- What follows a program that can return a value is part of the whole. -/
theorem All.of_bind_steady {P : ι → Prop} {E : ε → Prop} {p : Prog ι ρ ω ε α}
    {next : α → Prog ι ρ ω ε β} {answer : ρ} {seen : ω} {a : α} (all : (p >>= next).All P E)
    (returned : p.steady answer seen = .ok a)
    : (next a).All P E := by
  induction p with
  | ret b =>
      cases returned
      exact all
  | fail e => cases returned
  | instr i more ih => exact ih answer seen (all.2 answer seen) returned

end Prog

-----------------------------------------------------------------------------------------
-- One thread among others
-----------------------------------------------------------------------------------------

/-- What one thread may assume and must provide while it runs: the invariant of the shared
state, what the others may change between two of its instructions, what it may change, the
answers it can get, and the errors it may end with.
-/
structure Contract (ι ρ ε σ : Type) where
  inv : σ → Prop
  rely : σ → σ → Prop
  guar : σ → σ → Prop
  admits : ι → ρ → σ → Prop
  fault : ε → Prop

/-- How instructions act on the state and what they observe of it. -/
structure Machine (ι ρ ω σ : Type) where
  exec : ι → ρ → σ → σ
  obs : σ → ω

variable {ι ρ ω ε σ α β : Type}

/-- What a program comes to, and the state it leaves, if nobody else does anything. -/
def Prog.alone (m : Machine ι ρ ω σ) (answers : ι → ρ) : Prog ι ρ ω ε α → σ → Except ε α × σ
  | .ret a, s => (.ok a, s)
  | .fail e, s => (.error e, s)
  | .instr i next, s => (next (answers i) (m.obs s)).alone m answers (m.exec i (answers i) s)

/-- A program that returns is followed by the next one, by induction on the first. -/
theorem Prog.alone_bind {m : Machine ι ρ ω σ} {answers : ι → ρ} {p : Prog ι ρ ω ε α} {s s' : σ}
    {a : α} (first : p.alone m answers s = (.ok a, s')) (next : α → Prog ι ρ ω ε β)
    : (p >>= next).alone m answers s = (next a).alone m answers s' := by
  induction p generalizing s with
  | ret b =>
      cases first
      rfl
  | fail e => cases first
  | instr i more ih => exact ih (answers i) (m.obs s) first

/-- A sequence returns only if both parts do. -/
theorem Prog.alone_of_bind {m : Machine ι ρ ω σ} {answers : ι → ρ} {p : Prog ι ρ ω ε α}
    {next : α → Prog ι ρ ω ε β} {s s'' : σ} {b : β}
    (h : (p >>= next).alone m answers s = (.ok b, s''))
    : ∃ a s', p.alone m answers s = (.ok a, s') ∧ (next a).alone m answers s' = (.ok b, s'') := by
  induction p generalizing s with
  | ret a => exact ⟨a, s, rfl, h⟩
  | fail e => cases h
  | instr i more ih => exact ih (answers i) (m.obs s) h

/-- A program does as a part of a larger one what it does by itself, on the part of the state
that it works on.
-/
theorem Prog.alone_embed {ι' ω' ε' σ' : Type} {m : Machine ι ρ ω σ} (m' : Machine ι' ρ ω' σ')
    (f : ι → ι') {view : ω' → ω} {error : ε → ε'} {answers : ι → ρ} {answers' : ι' → ρ}
    (part : σ' → σ) (obs : ∀ s, view (m'.obs s) = m.obs (part s))
    (exec : ∀ i r s, part (m'.exec (f i) r s) = m.exec i r (part s))
    (answer : ∀ i, answers' (f i) = answers i) {p : Prog ι ρ ω ε α} {s : σ'} {a : α} {after : σ}
    (h : p.alone m answers (part s) = (.ok a, after))
    : ∃ after', (p.embed f view error).alone m' answers' s = (.ok a, after')
        ∧ part after' = after := by
  induction p generalizing s with
  | ret b =>
      cases h
      exact ⟨s, rfl, rfl⟩
  | fail e => cases h
  | instr i next ih =>
      simp only [Prog.alone, ← obs, ← exec, ← answer] at h
      exact ih _ _ h

theorem Prog.Returns.alone {m : Machine ι ρ ω σ} {answers : ι → ρ} {p : Prog ι ρ ω ε α} {s s' : σ}
    {a : α} {Q : α → Prop} (returns : p.Returns Q) (h : p.alone m answers s = (.ok a, s'))
    : Q a := by
  induction p generalizing s with
  | ret b =>
      cases h
      exact returns
  | fail e => cases h
  | instr i next ih => exact ih (answers i) (m.obs s) (returns _ _) h

/-- Assertions that the other threads keep. -/
def Contract.Stable (c : Contract ι ρ ε σ) (assertion : σ → Prop) : Prop :=
  ∀ ⦃s s'⦄, c.rely s s' → c.inv s' → assertion s → assertion s'

/-- From this state, whatever the others do and whatever is answered, the thread keeps its
contract, and `post` holds if it returns.
-/
def wp (m : Machine ι ρ ω σ) (c : Contract ι ρ ε σ)
    : Prog ι ρ ω ε α → (α → σ → Prop) → σ → Prop
  | .ret a, post, s => post a s
  | .fail e, _, _ => c.fault e
  | .instr i next, post, s =>
      ∀ s', c.rely s s' → c.inv s'
      → ∀ r, c.admits i r s'
        → c.inv (m.exec i r s')
          ∧ c.guar s' (m.exec i r s')
          ∧ wp m c (next r (m.obs s')) post (m.exec i r s')

section Rules

variable {m : Machine ι ρ ω σ} {c : Contract ι ρ ε σ} {p : Prog ι ρ ω ε α} {s : σ}

/-- The rule of consequence, by induction on the program. -/
theorem wp.mono {post post' : α → σ → Prop} (h : wp m c p post s)
    (weaker : ∀ a s, post a s → post' a s)
    : wp m c p post' s := by
  induction p generalizing s with
  | ret a => exact weaker a s h
  | fail e => exact h
  | instr i next ih =>
      intro s' later inv r admitted
      obtain ⟨inv', guar, rest⟩ := h s' later inv r admitted
      exact ⟨inv', guar, ih r _ rest⟩

/-- The rule of sequential composition, by induction on the first program. -/
theorem wp.bind {next : α → Prog ι ρ ω ε β} {post : β → σ → Prop}
    (h : wp m c p (fun a => wp m c (next a) post) s)
    : wp m c (p >>= next) post s := by
  induction p generalizing s with
  | ret a => exact h
  | fail e => exact h
  | instr i more ih =>
      intro s' later inv r admitted
      obtain ⟨inv', guar, rest⟩ := h s' later inv r admitted
      exact ⟨inv', guar, ih r _ rest⟩

/-- The rule for one instruction: start from an assertion that the others keep. -/
theorem wp.perform {i : ι} {value : ρ → ω → α} {post : α → σ → Prop} {assertion : σ → Prop}
    (stable : c.Stable assertion) (h : assertion s)
    (step : ∀ s r, c.inv s → assertion s → c.admits i r s
      → c.inv (m.exec i r s)
        ∧ c.guar s (m.exec i r s)
        ∧ post (value r (m.obs s)) (m.exec i r s))
    : wp m c (Prog.perform i value) post s :=
  fun s' later inv r admitted => step s' r inv (stable later inv h) admitted

/-- Instructions that all keep an assertion keep it together, by induction. -/
theorem Prog.All.wp {P : ι → Prop} {E : ε → Prop} (all : p.All P E) {assertion : σ → Prop}
    (errors : ∀ e, E e → c.fault e) (stable : c.Stable assertion)
    (step : ∀ i, P i → ∀ s r, c.inv s → assertion s → c.admits i r s
      → c.inv (m.exec i r s) ∧ c.guar s (m.exec i r s) ∧ assertion (m.exec i r s))
    (h : assertion s)
    : wp m c p (fun _ => assertion) s := by
  induction p generalizing s with
  | ret a => exact h
  | fail e => exact errors e all
  | instr i next ih =>
      intro s' later inv r admitted
      obtain ⟨inv', guar, kept⟩ := step i all.1 s' r inv (stable later inv h) admitted
      exact ⟨inv', guar, ih r _ (all.2 r _) kept⟩

/-- A log of the thread's own instructions shows an execution of the program, by induction. -/
theorem Prog.All.wp_executes {P : ι → Prop} {E : ε → Prop} (all : p.All P E) (log : σ → List ι)
    (errors : ∀ e, E e → c.fault e) (kept : ∀ ⦃s s'⦄, c.rely s s' → log s' = log s)
    (step : ∀ i, P i → ∀ s r, c.inv s → c.admits i r s
      → c.inv (m.exec i r s) ∧ c.guar s (m.exec i r s) ∧ log (m.exec i r s) = log s ++ [i])
    : Program.wp m c p (fun a s' => ∃ is, log s' = log s ++ is ∧ p.Executes is a) s := by
  induction p generalizing s with
  | ret a => exact ⟨[], (List.append_nil _).symm, .ret a⟩
  | fail e => exact errors e all
  | instr i next ih =>
      intro s' later inv r admitted
      obtain ⟨inv', guar, logged⟩ := step i all.1 s' r inv admitted
      refine ⟨inv', guar, (ih r _ (all.2 r _)).mono fun a s'' rest => ?_⟩
      obtain ⟨is, grown, executed⟩ := rest
      refine ⟨i :: is, ?_, .instr r _ executed⟩
      rw [grown, logged, kept later, List.append_assoc]
      rfl

/-- What no instruction of the thread and none of the others breaks is still there. -/
theorem wp.frame {post : α → σ → Prop} {frame : σ → Prop} (h : wp m c p post s)
    (stable : c.Stable frame) (step : ∀ i r s, frame s → frame (m.exec i r s)) (first : frame s)
    : wp m c p (fun a s => post a s ∧ frame s) s := by
  induction p generalizing s with
  | ret a => exact ⟨h, first⟩
  | fail e => exact h
  | instr i next ih =>
      intro s' later inv r admitted
      obtain ⟨inv', guar, rest⟩ := h s' later inv r admitted
      exact ⟨inv', guar, ih r _ rest (step i r s' (stable later inv first))⟩

/-- Two things that are proved of a program hold together. -/
theorem wp.and {post post' : α → σ → Prop} (first : wp m c p post s) (second : wp m c p post' s)
    : wp m c p (fun a s => post a s ∧ post' a s) s := by
  induction p generalizing s with
  | ret a => exact ⟨first, second⟩
  | fail e => exact first
  | instr i next ih =>
      intro s' later inv r admitted
      obtain ⟨inv', guar, rest⟩ := first s' later inv r admitted
      exact ⟨inv', guar, ih r _ rest (second s' later inv r admitted).2.2⟩

theorem wp.returns {Q : α → Prop} {post : α → σ → Prop} (h : wp m c p post s)
    (returns : p.Returns Q)
    : wp m c p (fun a s => Q a ∧ post a s) s := by
  induction p generalizing s with
  | ret a => exact ⟨returns, h⟩
  | fail e => exact h
  | instr i next ih =>
      intro s' later inv r admitted
      obtain ⟨inv', guar, rest⟩ := h s' later inv r admitted
      exact ⟨inv', guar, ih r _ rest (returns r _)⟩

/-- A program with known errors fails with one of these. -/
theorem wp.errors {P : ι → Prop} {E : ε → Prop} {post : α → σ → Prop} (h : wp m c p post s)
    (all : p.All P E)
    : wp m { c with fault := E } p post s := by
  induction p generalizing s with
  | ret a => exact h
  | fail e => exact all
  | instr i next ih =>
      intro s' later inv r admitted
      obtain ⟨inv', guar, rest⟩ := h s' later inv r admitted
      exact ⟨inv', guar, ih r _ rest (all.2 r _)⟩

/-- What is proved for all answers holds for the admitted ones. -/
theorem wp.narrow {post : α → σ → Prop} {admits : ι → ρ → σ → Prop} (h : wp m c p post s)
    (fewer : ∀ i r s, admits i r s → c.admits i r s)
    : wp m { c with admits := admits } p post s := by
  induction p generalizing s with
  | ret a => exact h
  | fail e => exact h
  | instr i next ih =>
      intro s' later inv r admitted
      obtain ⟨inv', guar, rest⟩ := h s' later inv r (fewer i r s' admitted)
      exact ⟨inv', guar, ih r _ rest⟩

/-- A program whose checks succeed does what is proved of it without them. -/
theorem wp.checked {ok : ι → Prop} [DecidablePred ok] {error : ε} {E : ε → Prop}
    {post : α → σ → Prop} (h : wp m c p post s)
    (safe : wp m { c with fault := E } (p.checked ok error) (fun _ _ => True) s)
    : wp m { c with fault := E } (p.checked ok error) post s := by
  induction p generalizing s with
  | ret a => exact h
  | fail e => exact safe
  | instr i next ih =>
      rw [Prog.checked] at safe ⊢
      split
      · rename_i good
        rw [if_pos good] at safe
        intro s' later inv r admitted
        obtain ⟨inv', guar, rest⟩ := h s' later inv r admitted
        exact ⟨inv', guar, ih r _ rest (safe s' later inv r admitted).2.2⟩
      · rename_i bad
        rwa [if_neg bad] at safe

/-- The machine with a record beside its state. -/
def Machine.recorded {γ : Type} (m : Machine ι ρ ω σ) (update : ι → ρ → σ → γ → γ)
    : Machine ι ρ ω (σ × γ) :=
  ⟨fun i r s => (m.exec i r s.1, update i r s.1 s.2), fun s => m.obs s.1⟩

/-- The contract of a thread on the state with a record, which the others do not change. -/
def Contract.recorded {γ : Type} (c : Contract ι ρ ε σ) (admits : ι → ρ → σ × γ → Prop)
    : Contract ι ρ ε (σ × γ) :=
  ⟨fun s => c.inv s.1, fun s s' => c.rely s.1 s'.1 ∧ s'.2 = s.2, fun s s' => c.guar s.1 s'.1,
    admits, c.fault⟩

/-- A record does not change what is proved of the state. -/
theorem wp.recorded {γ : Type} {update : ι → ρ → σ → γ → γ} {admits : ι → ρ → σ × γ → Prop}
    {post : α → σ → Prop} {record : γ} (h : wp m c p post s)
    (weaker : ∀ i r s, admits i r s → c.admits i r s.1)
    : wp (m.recorded update) (c.recorded admits) p (fun a s => post a s.1) (s, record) := by
  induction p generalizing s record with
  | ret a => exact h
  | fail e => exact h
  | instr i next ih =>
      intro s' later inv r admitted
      obtain ⟨inv', guar, rest⟩ := h s'.1 later.1 inv r (weaker i r s' admitted)
      exact ⟨inv', guar, ih r _ rest⟩

/-- Instructions that leave the record alone leave it alone together. -/
theorem wp.recorded_kept {γ : Type} {update : ι → ρ → σ → γ → γ} {admits : ι → ρ → σ × γ → Prop}
    {E : ε → Prop} {post : α → σ → Prop} {record : γ} (h : wp m c p post s)
    (weaker : ∀ i r s, admits i r s → c.admits i r s.1)
    (all : p.All (fun i => ∀ r s record, update i r s record = record) E)
    : wp (m.recorded update) (c.recorded admits) p (fun a s => post a s.1 ∧ s.2 = record)
        (s, record) := by
  induction p generalizing s with
  | ret a => exact ⟨h, rfl⟩
  | fail e => exact h
  | instr i next ih =>
      intro s' later inv r admitted
      obtain ⟨inv', guar, rest⟩ := h s'.1 later.1 inv r (weaker i r s' admitted)
      have same : (m.recorded update).exec i r s' = (m.exec i r s'.1, record) :=
        Prod.ext rfl ((all.1 r s'.1 s'.2).trans later.2)
      rw [same]
      exact ⟨inv', guar, ih r _ rest (all.2 r _)⟩

/-- What the others do cannot break a thread whose postcondition is stable. -/
theorem wp.later {post : α → σ → Prop} {s' : σ} (h : wp m c p post s)
    (trans : ∀ ⦃a b d⦄, c.rely a b → c.rely b d → c.rely a d)
    (stable : ∀ a, c.Stable (post a)) (change : c.rely s s') (inv : c.inv s')
    : wp m c p post s' := by
  cases p with
  | ret a => exact stable a change inv h
  | fail e => exact h
  -- only the next instruction sees what the others have done
  | instr i next => exact fun s'' later => h s'' (trans change later)

end Rules

-----------------------------------------------------------------------------------------
-- Counting loops
-----------------------------------------------------------------------------------------

/-- Run the body for the numbers below `count`, in their order. -/
def Prog.forRange (body : Nat → Prog ι ρ ω ε Unit) : Nat → Prog ι ρ ω ε Unit
  | 0 => .ret ()
  | count + 1 => forRange body count >>= fun _ => body count

theorem Prog.All.forRange {P : ι → Prop} {E : ε → Prop} {body : Nat → Prog ι ρ ω ε Unit}
    (all : ∀ i, (body i).All P E) (count : Nat)
    : (Prog.forRange body count).All P E := by
  induction count with
  | zero => trivial
  | succ count ih => exact ih.bind fun _ => all count

/-- The rule for a counting loop, by induction on the number of rounds. -/
theorem wp.forRange {m : Machine ι ρ ω σ} {c : Contract ι ρ ε σ}
    {body : Nat → Prog ι ρ ω ε Unit} {count : Nat} {s : σ} (invariant : Nat → σ → Prop)
    (step : ∀ i < count, ∀ s, invariant i s → wp m c (body i) (fun _ => invariant (i + 1)) s)
    (h : invariant 0 s)
    : wp m c (.forRange body count) (fun _ => invariant count) s := by
  induction count with
  | zero => exact h
  | succ count ih =>
      have earlier := ih fun i below => step i (Nat.lt_succ_of_lt below)
      exact wp.bind (earlier.mono fun _ s held => step count (Nat.lt_succ_self count) s held)

-----------------------------------------------------------------------------------------
-- Several threads
-----------------------------------------------------------------------------------------

variable {κ η : Type}

/-- Threads that run operations: the effect of an instruction of an operation, what a
program observes, the steps of the environment, and the program of each operation.
-/
structure System (κ ι ρ ω ε σ η β : Type) where
  exec : κ → ι → ρ → σ → σ
  obs : σ → ω
  env : η → σ → Option σ
  code : κ → Prog ι ρ ω ε β

/-- The system that also records the labelled instructions, the first one first. -/
def System.traced {γ : Type} (sys : System κ ι ρ ω ε σ η β) (label : κ → ι → Option γ)
    : System κ ι ρ ω ε (σ × List γ) η β where
  exec op i r s := (sys.exec op i r s.1, s.2 ++ (label op i).toList)
  obs s := sys.obs s.1
  env event s := (sys.env event s.1).map fun state => (state, s.2)
  code := sys.code

/-- The system with a record beside its state, which the answered instructions of the operations
change.
-/
def System.recorded {γ : Type} (sys : System κ ι ρ ω ε σ η β) (update : κ → ι → ρ → σ → γ → γ)
    : System κ ι ρ ω ε (σ × γ) η β where
  exec op i r s := (sys.exec op i r s.1, update op i r s.1 s.2)
  obs s := sys.obs s.1
  env event s := (sys.env event s.1).map fun state => (state, s.2)
  code := sys.code

/-- The system with a ghost state, which the instructions of the operations change. -/
def System.ghosted {γ : Type} (sys : System κ ι ρ ω ε σ η β) (update : κ → ι → σ → γ → γ)
    : System κ ι ρ ω ε (σ × γ) η β :=
  sys.recorded fun op i _ => update op i

/-- The system whose environment only takes the steps that a guard admits. -/
def System.guarded (sys : System κ ι ρ ω ε σ η β) (guard : η → σ → Prop)
    [∀ event s, Decidable (guard event s)]
    : System κ ι ρ ω ε σ η β :=
  { sys with env := fun event s => if guard event s then sys.env event s else none }

theorem System.guarded_env {sys : System κ ι ρ ω ε σ η β} {guard : η → σ → Prop}
    [∀ event s, Decidable (guard event s)] {event : η} {s s' : σ}
    (h : (sys.guarded guard).env event s = some s')
    : guard event s ∧ sys.env event s = some s' := by
  by_cases admitted : guard event s
  · simp only [System.guarded, admitted, if_true] at h
    exact ⟨admitted, h⟩
  · simp [System.guarded, admitted] at h

/-- An order that ends with a record that is not among the latest was there before. -/
theorem sublist_of_append {γ : Type} {order trace latest : List γ} {last : γ}
    (h : order.Sublist (trace ++ latest)) (ends : order.getLast? = some last)
    (away : last ∉ latest)
    : order.Sublist trace := by
  obtain ⟨old, new, rfl, inTrace, inLatest⟩ := List.sublist_append_iff.mp h
  cases new with
  | nil => rwa [List.append_nil]
  | cons record more =>
      rw [List.getLast?_append, List.getLast?_cons, Option.some_or] at ends
      have final : (record :: more).getLast? = some last := by rw [List.getLast?_cons, ends]
      exact absurd (inLatest.subset (List.mem_of_getLast? final)) away

/-- The shared state and, for each thread, its operation with the rest of its program. -/
structure Config (τ κ ι ρ ω ε σ β : Type) where
  state : σ
  running : τ → κ × Prog ι ρ ω ε β

/-- A thread executes an instruction that is answered, or calls an operation after the last
one has returned, or the environment takes a step.
-/
inductive Choice (τ κ ρ η : Type)
  | instr (thread : τ) (answer : ρ)
  | call (thread : τ) (op : κ)
  | env (event : η)

/-- A thread executes as many instructions as there are answers. -/
def answered {τ κ ρ η : Type} (thread : τ) (answers : List ρ) : List (Choice τ κ ρ η) :=
  answers.map (.instr thread)

/-- Which instructions may be executed with which answers, and which operations called. -/
structure Policy (τ κ ι ρ σ : Type) where
  instr : κ → ι → ρ → σ → Prop
  call : τ → κ → σ → Prop

variable {τ : Type}

/-- The policy admits a choice. -/
def Policy.Allows (policy : Policy τ κ ι ρ σ) (c : Config τ κ ι ρ ω ε σ β)
    : Choice τ κ ρ η → Prop
  | .instr thread answer =>
      match c.running thread with
      | (op, .instr i _) => policy.instr op i answer c.state
      | _ => True
  | .call thread op => policy.call thread op c.state
  | .env _ => True

/-- A proof outline for a system: an invariant, the part of each thread, and a proof that
each operation keeps to its part.
-/
structure Outline (sys : System κ ι ρ ω ε σ η β) (policy : Policy τ κ ι ρ σ) where
  inv : σ → Prop
  rely : τ → σ → σ → Prop
  guar : τ → σ → σ → Prop
  done : τ → κ → β → σ → Prop
  fault : ε → Prop
  refl : ∀ t s, rely t s s
  trans : ∀ t, ∀ ⦃a b d⦄, rely t a b → rely t b d → rely t a d
  stable : ∀ t op value, ∀ ⦃s s'⦄, rely t s s' → inv s' → done t op value s → done t op value s'
  others : ∀ ⦃t t'⦄, t ≠ t' → ∀ ⦃s s'⦄, guar t s s' → rely t' s s'
  env : ∀ event s s', inv s → sys.env event s = some s' → inv s' ∧ ∀ t, rely t s s'
  ops
    : ∀ t op s last value,
        inv s → policy.call t op s → done t last value s
        → wp ⟨sys.exec op, sys.obs⟩ ⟨inv, rely t, guar t, policy.instr op, fault⟩
            (sys.code op) (done t op) s

variable {sys : System κ ι ρ ω ε σ η β} {policy : Policy τ κ ι ρ σ}

/-- The contract of a thread while it runs an operation. -/
def Outline.contract (o : Outline sys policy) (t : τ) (op : κ) : Contract ι ρ ε σ :=
  ⟨o.inv, o.rely t, o.guar t, policy.instr op, o.fault⟩

/-- The invariant holds and every thread is on its way to its postcondition. -/
def Outline.Good (o : Outline sys policy) (c : Config τ κ ι ρ ω ε σ β) : Prop :=
  o.inv c.state
  ∧ ∀ t, wp ⟨sys.exec (c.running t).1, sys.obs⟩ (o.contract t (c.running t).1)
      (c.running t).2 (o.done t (c.running t).1) c.state

/-- A thread that has returned has reached its postcondition. -/
theorem Outline.Good.returned {o : Outline sys policy} {c : Config τ κ ι ρ ω ε σ β}
    (good : o.Good c) {t : τ} {op : κ} {value : β} (h : c.running t = (op, .ret value))
    : o.done t op value c.state := by
  have mine := good.2 t
  rw [h] at mine
  exact mine

/-- A thread fails only with an error that the outline admits. -/
theorem Outline.Good.failed {o : Outline sys policy} {c : Config τ κ ι ρ ω ε σ β}
    (good : o.Good c) {t : τ} {op : κ} {error : ε} (h : c.running t = (op, .fail error))
    : o.fault error := by
  have mine := good.2 t
  rw [h] at mine
  exact mine

section Runs

variable [DecidableEq τ]

/-- The configuration after a choice, if the choice is possible. -/
def System.next (sys : System κ ι ρ ω ε σ η β) (c : Config τ κ ι ρ ω ε σ β)
    : Choice τ κ ρ η → Option (Config τ κ ι ρ ω ε σ β)
  | .instr thread answer =>
      match c.running thread with
      | (op, .instr i next) =>
          some {
            state := sys.exec op i answer c.state
            running :=
              Function.update c.running thread (op, next answer (sys.obs c.state))
          }
      | _ => none
  | .call thread op =>
      match (c.running thread).2 with
      | .ret _ => some { c with running := Function.update c.running thread (op, sys.code op) }
      | _ => none
  | .env event => (sys.env event c.state).map fun state => { c with state := state }

/-- The configurations reached by admitted choices. -/
inductive Run (sys : System κ ι ρ ω ε σ η β) (policy : Policy τ κ ι ρ σ)
    (start : Config τ κ ι ρ ω ε σ β)
    : Config τ κ ι ρ ω ε σ β → Prop
  | start : Run sys policy start start
  | step {before after : Config τ κ ι ρ ω ε σ β} (run : Run sys policy start before)
    (choice : Choice τ κ ρ η) (allowed : policy.Allows before choice)
    (next : sys.next before choice = some after)
    : Run sys policy start after

/-- What a choice does: an instruction of one thread, a call, or an environment step. -/
theorem System.next_cases {sys : System κ ι ρ ω ε σ η β} {c c' : Config τ κ ι ρ ω ε σ β}
    {choice : Choice τ κ ρ η} (h : sys.next c choice = some c')
    : (∃ thread answer op i next,
        choice = .instr thread answer
        ∧ c.running thread = (op, .instr i next)
        ∧ c' = ⟨sys.exec op i answer c.state,
            Function.update c.running thread (op, next answer (sys.obs c.state))⟩)
      ∨ (∃ thread op value old,
        choice = .call thread op
        ∧ c.running thread = (old, .ret value)
        ∧ c' = ⟨c.state, Function.update c.running thread (op, sys.code op)⟩)
      ∨ ∃ event state,
        choice = .env event ∧ sys.env event c.state = some state ∧ c' = ⟨state, c.running⟩ := by
  cases choice with
  | instr thread answer =>
      simp only [System.next] at h
      split at h
      · rename_i op i next running
        exact Or.inl ⟨thread, answer, op, i, next, rfl, running, (Option.some.inj h).symm⟩
      · cases h
  | call thread op =>
      simp only [System.next] at h
      split at h
      · rename_i value running
        exact Or.inr (Or.inl ⟨thread, op, value, (c.running thread).1, rfl,
          Prod.ext rfl running, (Option.some.inj h).symm⟩)
      · cases h
  | env event =>
      obtain ⟨state, stepped, same⟩ := Option.map_eq_some_iff.mp h
      exact Or.inr (Or.inr ⟨event, state, rfl, stepped, same.symm⟩)

/-- One choice keeps a configuration good: the thread that moves follows its program, and
the others are protected by the guarantee of that thread or by the environment's.
-/
theorem Outline.Good.next {o : Outline sys policy} {c c' : Config τ κ ι ρ ω ε σ β}
    (good : o.Good c) {choice : Choice τ κ ρ η} (allowed : policy.Allows c choice)
    (h : sys.next c choice = some c')
    : o.Good c' := by
  obtain ⟨inv, threads⟩ := good
  rcases System.next_cases h with
    ⟨thread, answer, op, i, next, rfl, running, rfl⟩
    | ⟨thread, op, value, old, rfl, running, rfl⟩
    | ⟨event, state, rfl, stepped, rfl⟩
  · -- the thread that moves follows its program, the others rely on its guarantee
    have mine := threads thread
    simp only [Policy.Allows, running] at allowed
    rw [running] at mine
    obtain ⟨inv', guar, rest⟩ := mine c.state (o.refl thread c.state) inv answer allowed
    refine ⟨inv', fun t => ?_⟩
    rcases eq_or_ne t thread with rfl | other
    · simp only [Function.update_self]
      exact rest
    · simp only [Function.update_of_ne other]
      exact (threads t).later (o.trans t) (o.stable t _) (o.others other.symm guar) inv'
  · have mine := threads thread
    rw [running] at mine
    refine ⟨inv, fun t => ?_⟩
    rcases eq_or_ne t thread with rfl | other
    · simp only [Function.update_self]
      exact o.ops t op c.state old value inv allowed mine
    · simp only [Function.update_of_ne other]
      exact threads t
  · obtain ⟨inv', rely⟩ := o.env event c.state state inv stepped
    exact ⟨inv', fun t => (threads t).later (o.trans t) (o.stable t _) (rely t) inv'⟩

/-- Every reachable configuration of a system with a proof outline is good. -/
theorem Run.good {o : Outline sys policy} {start c : Config τ κ ι ρ ω ε σ β}
    (run : Run sys policy start c) (first : o.Good start)
    : o.Good c := by
  induction run with
  | start => exact first
  | step _ choice allowed next ih => exact ih.next allowed next

/-- The system with a check before every instruction of an operation. -/
def System.checked (sys : System κ ι ρ ω ε σ η β) (ok : ι → Prop) [DecidablePred ok] (error : ε)
    : System κ ι ρ ω ε σ η β :=
  { sys with code := fun op => (sys.code op).checked ok error }

/-- The configuration with the checks in what remains of the programs. -/
def Config.checked (c : Config τ κ ι ρ ω ε σ β) (ok : ι → Prop) [DecidablePred ok] (error : ε)
    : Config τ κ ι ρ ω ε σ β :=
  ⟨c.state, fun t => ((c.running t).1, (c.running t).2.checked ok error)⟩

section Checked

variable {ok : ι → Prop} [DecidablePred ok] {error : ε}

theorem Config.checked_update (state : σ) (running : τ → κ × Prog ι ρ ω ε β) (thread : τ) (op : κ)
    (p : Prog ι ρ ω ε β)
    : (⟨state, Function.update running thread (op, p)⟩ : Config τ κ ι ρ ω ε σ β).checked ok error
      = ⟨state, Function.update (fun t => ((running t).1, (running t).2.checked ok error)) thread
          (op, p.checked ok error)⟩ := by
  refine congrArg (Config.mk state) (funext fun t => ?_)
  rcases eq_or_ne t thread with rfl | other
  · simp only [Function.update_self]
  · simp only [Function.update_of_ne other]

omit [DecidableEq τ] in
/-- In a good configuration the next instruction passes its check. -/
theorem Outline.Good.passes {o : Outline (sys.checked ok error) policy}
    {c : Config τ κ ι ρ ω ε σ β} (good : o.Good (c.checked ok error)) (never : ¬ o.fault error)
    {t : τ} {op : κ} {i : ι} {next : ρ → ω → Prog ι ρ ω ε β}
    (h : c.running t = (op, .instr i next))
    : ok i := by
  by_contra bad
  apply never
  have failed : (c.checked ok error).running t = (op, .fail error) := by
    simp only [Config.checked, h, Prog.checked, if_neg bad]
  exact good.failed failed

theorem Outline.Good.next_checked {o : Outline (sys.checked ok error) policy}
    {c c' : Config τ κ ι ρ ω ε σ β} (good : o.Good (c.checked ok error))
    (never : ¬ o.fault error) {choice : Choice τ κ ρ η} (allowed : policy.Allows c choice)
    (h : sys.next c choice = some c')
    : o.Good (c'.checked ok error) := by
  rcases System.next_cases h with
    ⟨thread, answer, op, i, next, rfl, running, rfl⟩
    | ⟨thread, op, value, old, rfl, running, rfl⟩
    | ⟨event, state, rfl, stepped, rfl⟩
  · have passes := good.passes never running
    have same : (c.checked ok error).running thread
        = (op, .instr i fun r w => (next r w).checked ok error) := by
      simp only [Config.checked, running, Prog.checked, if_pos passes]
    have admitted : policy.Allows (c.checked ok error)
        (Choice.instr thread answer : Choice τ κ ρ η) := by
      simp only [Policy.Allows, running] at allowed
      simp only [Policy.Allows, same]
      exact allowed
    refine good.next admitted ?_
    simp only [System.next, same, Config.checked_update]
    rfl
  · have same : (c.checked ok error).running thread = (old, .ret value) := by
      simp only [Config.checked, running, Prog.checked]
    have called : (sys.checked ok error).next (c.checked ok error) (.call thread op)
        = some (Config.checked ⟨c.state, Function.update c.running thread (op, sys.code op)⟩
            ok error) := by
      simp only [System.next, same, Config.checked_update]
      rfl
    refine good.next ?_ called
    exact allowed
  · have happened : (sys.checked ok error).next (c.checked ok error) (.env event)
        = some (Config.checked ⟨state, c.running⟩ ok error) := by
      have inner : (sys.checked ok error).env event (c.checked ok error).state = some state :=
        stepped
      simp only [System.next, inner, Option.map_some]
      rfl
    refine good.next ?_ happened
    trivial

/-- If the system with checks has a proof outline in which no check fails, every reachable
configuration of the system without them is good with them.
-/
theorem Run.good_checked {o : Outline (sys.checked ok error) policy}
    {start c : Config τ κ ι ρ ω ε σ β} (run : Run sys policy start c) (never : ¬ o.fault error)
    (first : o.Good (start.checked ok error))
    : o.Good (c.checked ok error) := by
  induction run with
  | start => exact first
  | step _ choice allowed next ih => exact ih.next_checked never allowed next

end Checked

/-- Nobody runs an operation. -/
def Config.idle (state : σ) (op : κ) (value : β) : Config τ κ ι ρ ω ε σ β :=
  ⟨state, fun _ => (op, .ret value)⟩

/-- A run goes on from where another one ends. -/
theorem Run.trans {start middle last : Config τ κ ι ρ ω ε σ β} (first : Run sys policy start middle)
    (rest : Run sys policy middle last)
    : Run sys policy start last := by
  induction rest with
  | start => exact first
  | step _ choice allowed next ih => exact ih.step choice allowed next

/-- What a program is proved to do beside an environment, it does in every run of one thread
that calls nothing else.
-/
theorem Run.solo (sys : System κ ι ρ ω ε σ η β) {policy : Policy Unit κ ι ρ σ}
    (rely : σ → σ → Prop) (fault : ε → Prop) (alone : ∀ t op s, ¬ policy.call t op s)
    (refl : ∀ s, rely s s)
    (trans : ∀ ⦃a b d⦄, rely a b → rely b d → rely a d)
    (env : ∀ event s s', sys.env event s = some s' → rely s s') {op : κ}
    {p : Prog ι ρ ω ε β} {s : σ} {post : β → σ → Prop}
    (stable : ∀ value ⦃s s'⦄, rely s s' → post value s → post value s')
    (spec : wp ⟨sys.exec op, sys.obs⟩
      ⟨fun _ => True, rely, fun _ _ => True, policy.instr op, fault⟩ p post s)
    {config : Config Unit κ ι ρ ω ε σ β} (run : Run sys policy ⟨s, fun _ => (op, p)⟩ config)
    : (∀ op' value, config.running () = (op', .ret value) → post value config.state)
      ∧ ∀ op' error, config.running () = (op', .fail error) → fault error := by
  let outline : Outline sys policy := {
    inv := fun _ => True
    rely := fun _ => rely
    guar := fun _ _ _ => True
    done := fun _ _ => post
    fault := fault
    refl := fun _ => refl
    trans := fun _ => trans
    stable := fun _ _ value _ _ later _ held => stable value later held
    others := fun _ _ different => absurd rfl different
    env := fun event s s' _ happened => ⟨trivial, fun _ => env event s s' happened⟩
    ops := fun t op s _ _ _ called _ => absurd called (alone t op s) }
  have good : outline.Good config := run.good ⟨trivial, fun _ => spec⟩
  exact ⟨fun _ _ returned => good.returned returned, fun _ _ failed => good.failed failed⟩

/-- A program that gets an answer to everything comes to its end, by induction on the program. -/
theorem Run.finishes [Inhabited ρ] (sys : System κ ι ρ ω ε σ η β)
    (policy : Policy Unit κ ι ρ σ)
    (answers : ∀ op i r s, policy.instr op i r s) (op : κ) (p : Prog ι ρ ω ε β) (s : σ)
    : ∃ config, Run sys policy ⟨s, fun _ => (op, p)⟩ config
        ∧ ((∃ value, config.running () = (op, .ret value))
          ∨ ∃ error, config.running () = (op, .fail error)) := by
  induction p generalizing s with
  | ret value => exact ⟨_, .start, Or.inl ⟨value, rfl⟩⟩
  | fail error => exact ⟨_, .start, Or.inr ⟨error, rfl⟩⟩
  | instr i next ih =>
      obtain ⟨config, rest, ended⟩ := ih default (sys.obs s) (sys.exec op i default s)
      have same : (fun _ => (op, next default (sys.obs s)))
          = Function.update (fun _ => (op, .instr i next)) () (op, next default (sys.obs s)) := by
        funext thread
        cases thread
        rw [Function.update_self]
      rw [same] at rest
      refine ⟨config, Run.trans ?_ rest, ended⟩
      exact Run.start.step (.instr () default) (answers op i default s) rfl

/-- A program that returns if nobody else does anything has a run that does the same, and goes on
with what follows.
-/
theorem Run.alone (sys : System κ ι ρ ω ε σ η β) (policy : Policy Unit κ ι ρ σ)
    (answers : ι → ρ) {op : κ} {p : Prog ι ρ ω ε α} {next : α → Prog ι ρ ω ε β} {s s' : σ} {a : α}
    (admitted : p.All (fun i => ∀ s, policy.instr op i (answers i) s) fun _ => True)
    (h : p.alone ⟨sys.exec op, sys.obs⟩ answers s = (.ok a, s'))
    : Run sys policy ⟨s, fun _ => (op, p >>= next)⟩ ⟨s', fun _ => (op, next a)⟩ := by
  induction p generalizing s with
  | ret b =>
      cases h
      exact .start
  | fail e => cases h
  | instr i more ih =>
      have rest := ih (answers i) (sys.obs s) (admitted.2 _ _) h
      have same : (fun _ => (op, more (answers i) (sys.obs s) >>= next))
          = Function.update (fun _ => (op, .instr i fun r o => more r o >>= next)) ()
              (op, more (answers i) (sys.obs s) >>= next) := by
        funext thread
        cases thread
        rw [Function.update_self]
      rw [same] at rest
      refine Run.trans ?_ rest
      exact Run.start.step (.instr () (answers i)) (admitted.1 s) rfl

variable [∀ op i r s, Decidable (policy.instr op i r s)] [∀ t op s, Decidable (policy.call t op s)]

instance Policy.decidableAllows (c : Config τ κ ι ρ ω ε σ β)
    : (choice : Choice τ κ ρ η) → Decidable (policy.Allows c choice)
  | .instr thread answer =>
      match h : c.running thread with
      | (op, .instr i _) =>
          decidable_of_iff (policy.instr op i answer c.state) (by simp only [Policy.Allows, h])
      | (_, .ret _) => .isTrue (by simp only [Policy.Allows, h])
      | (_, .fail _) => .isTrue (by simp only [Policy.Allows, h])
  | .call thread op => inferInstanceAs (Decidable (policy.call thread op c.state))
  | .env _ => .isTrue trivial

/-- Make a sequence of choices, as long as the policy admits them. -/
def System.follow (sys : System κ ι ρ ω ε σ η β) (policy : Policy τ κ ι ρ σ)
    [∀ op i r s, Decidable (policy.instr op i r s)] [∀ t op s, Decidable (policy.call t op s)]
    : Config τ κ ι ρ ω ε σ β → List (Choice τ κ ρ η) → Option (Config τ κ ι ρ ω ε σ β)
  | c, [] => some c
  | c, choice :: choices =>
      if policy.Allows c choice then
        match sys.next c choice with
        | some c' => sys.follow policy c' choices
        | none => none
      else none

theorem Run.follow {start c last : Config τ κ ι ρ ω ε σ β} {choices : List (Choice τ κ ρ η)}
    (run : Run sys policy start c) (h : sys.follow policy c choices = some last)
    : Run sys policy start last := by
  induction choices generalizing c with
  | nil =>
      cases Option.some.inj h
      exact run
  | cons choice choices ih =>
      simp only [System.follow] at h
      split at h
      · rename_i admitted
        split at h
        · rename_i c' next
          exact ih (run.step choice admitted next) h
        · cases h
      · cases h

/-- A sequence of choices that reaches a configuration with some property makes a run. -/
theorem Run.of_follow (sys : System κ ι ρ ω ε σ η β) (policy : Policy τ κ ι ρ σ)
    [∀ op i r s, Decidable (policy.instr op i r s)] [∀ t op s, Decidable (policy.call t op s)]
    (start : Config τ κ ι ρ ω ε σ β) (choices : List (Choice τ κ ρ η))
    (test : Config τ κ ι ρ ω ε σ β → Bool)
    (h : (sys.follow policy start choices).any test = true)
    : ∃ last, Run sys policy start last ∧ test last = true := by
  obtain ⟨last, reached, passed⟩ := (Option.any_eq_true test _).mp h
  exact ⟨last, Run.start.follow reached, passed⟩

end Runs

end Program
