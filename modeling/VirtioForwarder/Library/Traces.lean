import Mathlib.Data.List.Induction

/-! Runs of a labelled transition function. What holds of the empty trace and is kept by one
more step holds of every run; a measure that every step decreases bounds the length of runs.
-/

namespace Traces

variable {σ α : Type} {step : σ → α → Option σ} {s s' : σ} {trace : List α} {a : α}

/-- The state after a sequence of labels, if each of them can happen in its turn. -/
def run (step : σ → α → Option σ) : σ → List α → Option σ
  | s, [] => some s
  | s, a :: trace => (step s a).bind fun s' => run step s' trace

/-- A run goes on from where another one ends, by induction on the first. -/
theorem run_append (first rest : List α)
    : run step s (first ++ rest) = (run step s first).bind fun s' => run step s' rest := by
  induction first generalizing s with
  | nil => rfl
  | cons a first ih =>
      simp only [List.cons_append, run, Option.bind_assoc]
      exact congrArg _ (funext fun s' => ih)

/-- The last step of a run. -/
theorem run_snoc (h : run step s (trace ++ [a]) = some s')
    : ∃ middle, run step s trace = some middle ∧ step middle a = some s' := by
  rw [run_append] at h
  obtain ⟨middle, reached, last⟩ := Option.bind_eq_some_iff.mp h
  exact ⟨middle, reached, by simpa [run] using last⟩

/-- The rule of invariants, which may speak of the trace, by induction on its last label. -/
theorem run_induct {P : List α → σ → Prop} (first : P [] s)
    (next : ∀ ⦃trace middle a after⦄, P trace middle → step middle a = some after
      → P (trace ++ [a]) after)
    (reached : run step s trace = some s')
    : P trace s' := by
  induction trace using List.reverseRecOn generalizing s' with
  | nil =>
      cases reached
      exact first
  | append_singleton trace a ih =>
      obtain ⟨middle, earlier, last⟩ := run_snoc reached
      exact next (ih earlier) last

/-- Every step costs one unit of a measure, as long as an invariant holds. -/
theorem run_length_le {I : σ → Prop} {measure : σ → Nat} (first : I s)
    (next : ∀ ⦃middle a after⦄, I middle → step middle a = some after
      → I after ∧ measure after < measure middle)
    (reached : run step s trace = some s')
    : I s' ∧ trace.length + measure s' ≤ measure s := by
  refine run_induct (P := fun trace s' => I s' ∧ trace.length + measure s' ≤ measure s)
    ⟨first, by simp⟩ (fun trace middle a after known last => ?_) reached
  obtain ⟨kept, less⟩ := next known.1 last
  refine ⟨kept, ?_⟩
  have bound := known.2
  rw [List.length_append, List.length_singleton]
  omega

/-- The steps that a condition on the state and the label admits. -/
def guarded (ok : σ → α → Prop) [∀ s a, Decidable (ok s a)] (step : σ → α → Option σ) (s : σ)
    (a : α)
    : Option σ :=
  if ok s a then step s a else none

theorem guarded_eq_some {ok : σ → α → Prop} [∀ s a, Decidable (ok s a)]
    : guarded ok step s a = some s' ↔ ok s a ∧ step s a = some s' := by
  unfold guarded
  split
  · exact ⟨fun stepped => ⟨‹_›, stepped⟩, fun h => h.2⟩
  · exact ⟨nofun, fun h => absurd h.1 ‹_›⟩

end Traces
