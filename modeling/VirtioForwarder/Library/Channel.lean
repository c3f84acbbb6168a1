import Mathlib.Data.List.Forall2
import Mathlib.Logic.Relation

/-! A channel that holds one burst at a time.
A burst enters while nothing is held, the front of what is held leaves, and a lossy channel
may give up what it holds.
-/

namespace Channel

variable {α : Type*}

/-- The bursts that have entered a channel, what it holds, and what has left it, in order. -/
structure Contents (α : Type*) where
  entered : List (List α)
  held : List α
  left : List α

/-- A channel before its first burst. -/
def Contents.empty : Contents α := ⟨[], [], []⟩

/-- One step of a channel; only a channel that `mayLose` gives up what it holds. -/
inductive Step (mayLose : Prop) (before : Contents α) : Contents α → Prop
  | enter (burst : List α) (free : before.held = [])
    : Step mayLose before ⟨before.entered ++ [burst], burst, before.left⟩
  | leave (count : Nat)
    : Step mayLose before
        ⟨before.entered, before.held.drop count, before.left ++ before.held.take count⟩
  | lose (may : mayLose) : Step mayLose before ⟨before.entered, [], before.left⟩

/-- Any number of steps. -/
abbrev Run (mayLose : Prop) : Contents α → Contents α → Prop :=
  Relation.ReflTransGen (Step mayLose)

/-- Every burst has left up to some point and, but for what the last burst still holds, the
rest of it is lost: `parts` lists what has left of each burst.
-/
structure InOrder (contents : Contents α) (parts : List (List α)) : Prop where
  cut : List.Forall₂ (· <+: ·) parts contents.entered
  left : contents.left = parts.flatten
  held
    : contents.held = []
      ∨ ∃ earlier bursts part,
          parts = earlier ++ [part] ∧ contents.entered = bursts ++ [part ++ contents.held]

/-- Two related lists stay related without their last entries. -/
theorem forall₂_dropLast {R : α → α → Prop} {first second : List α} {a b : α}
    (h : List.Forall₂ R (first ++ [a]) (second ++ [b]))
    : List.Forall₂ R first second := by
  have lengths := h.length_eq
  simp only [List.length_append, List.length_singleton, Nat.add_right_cancel_iff] at lengths
  have taken := List.forall₂_take first.length h
  rwa [List.take_left' rfl, List.take_left' lengths.symm] at taken

/-- One step keeps the order; a burst that leaves in several pieces extends its part. -/
theorem Step.inOrder {mayLose : Prop} {before after : Contents α} {parts : List (List α)}
    (step : Step mayLose before after) (h : InOrder before parts)
    : ∃ parts, InOrder after parts := by
  obtain ⟨cut, left, held⟩ := h
  cases step with
  | enter burst free =>
      refine ⟨parts ++ [[]], ?_, ?_, Or.inr ⟨parts, before.entered, [], rfl, rfl⟩⟩
      · exact List.rel_append cut (.cons List.nil_prefix .nil)
      · rw [List.flatten_append, ← left]
        simp
  | leave count =>
      rcases held with none | ⟨earlier, bursts, part, rfl, entered⟩
      · refine ⟨parts, cut, ?_, Or.inl ?_⟩
        · simpa [none] using left
        · simp [none]
      · have grown : part ++ before.held.take count ++ before.held.drop count
            = part ++ before.held := by
          rw [List.append_assoc, List.take_append_drop]
        have firsts := forall₂_dropLast (entered ▸ cut)
        refine ⟨earlier ++ [part ++ before.held.take count], ?_, ?_, Or.inr
          ⟨earlier, bursts, _, rfl, by rw [entered, grown]⟩⟩
        · rw [entered]
          refine List.rel_append firsts (.cons ?_ .nil)
          rw [← grown]
          exact List.prefix_append ..
        · rw [left]
          simp
  | lose _ => exact ⟨parts, cut, left, Or.inl rfl⟩

/-- Every run from the empty channel keeps the order, by induction on the run. -/
theorem Run.inOrder {mayLose : Prop} {contents : Contents α}
    (run : Run mayLose .empty contents)
    : ∃ parts, InOrder contents parts := by
  induction run with
  | refl => exact ⟨[], .nil, rfl, Or.inl rfl⟩
  | tail _ step ih =>
      obtain ⟨parts, ordered⟩ := ih
      exact step.inOrder ordered

/-- What has left and what is held is what entered, with some of it missing. -/
theorem InOrder.sublist {contents : Contents α} {parts : List (List α)}
    (h : InOrder contents parts)
    : (contents.left ++ contents.held).Sublist contents.entered.flatten := by
  have whole {parts bursts : List (List α)} (cut : List.Forall₂ (· <+: ·) parts bursts)
      : parts.flatten.Sublist bursts.flatten := by
    induction cut with
    | nil => exact .slnil
    | cons first _ ih => exact first.sublist.append ih
  rw [h.left]
  rcases h.held with none | ⟨earlier, bursts, part, rfl, entered⟩
  · rw [none, List.append_nil]
    exact whole h.cut
  · have firsts := forall₂_dropLast (entered ▸ h.cut)
    rw [entered]
    simpa using (whole firsts).append (List.Sublist.refl (part ++ contents.held))

/-- A channel that never gives up what it holds loses nothing. -/
theorem Run.lossless {contents : Contents α} (run : Run False .empty contents)
    : contents.entered.flatten = contents.left ++ contents.held := by
  induction run with
  | refl => rfl
  | tail _ step ih =>
      cases step with
      | enter burst free => simp [ih, free]
      | leave count => simp [ih]
      | lose may => exact may.elim

end Channel
