import Mathlib.Data.List.Basic
import Mathlib.Data.List.Perm.Basic

/-! Grouping the entries of a list by a natural-number key. -/

namespace Grouping

variable {α : Type*}

/-- The entries of `entries` whose key is `k`, in their order in the list. -/
def group (key : α → Nat) (k : Nat) (entries : List α) : List α :=
  entries.filter fun entry => key entry = k

/-- Only entries with the requested key are in a group, by the defining filter. -/
@[simp]
theorem mem_group {key : α → Nat} {k : Nat} {entries : List α} {entry : α}
    : entry ∈ group key k entries ↔ entry ∈ entries ∧ key entry = k := by
  simp [group]

/-- A group of an appended list is the append of both groups. -/
@[simp]
theorem group_append (key : α → Nat) (k : Nat) (first second : List α)
    : group key k (first ++ second) = group key k first ++ group key k second := by
  simp [group]

/-- An empty list has empty groups. -/
@[simp]
theorem group_nil (key : α → Nat) (k : Nat) : group key k [] = [] :=
  rfl

/-- A group all of whose entries have another key is empty. -/
theorem group_eq_nil {key : α → Nat} {k : Nat} {entries : List α}
    (h : ∀ entry ∈ entries, key entry ≠ k)
    : group key k entries = [] := by
  simpa [group] using h

/-- A list all of whose entries have the key is its own group. -/
theorem group_eq_self {key : α → Nat} {k : Nat} {entries : List α}
    (h : ∀ entry ∈ entries, key entry = k)
    : group key k entries = entries := by
  simpa [group] using h

/-- The groups of the keys below `bound` hold exactly the entries with such a key.
Witness: induction on the bound, splitting off the entries with the largest key.
-/
theorem flatMap_group_perm (key : α → Nat) (entries : List α) (bound : Nat)
    : ((List.range bound).flatMap fun k => group key k entries).Perm
        (entries.filter fun entry => key entry < bound) := by
  induction bound with
  | zero => simp
  | succ bound ih =>
      simp only [List.range_succ, List.flatMap_append, List.flatMap_cons, List.flatMap_nil,
        List.append_nil]
      let below := entries.filter fun entry => key entry < bound + 1
      have small : below.filter (fun entry => key entry < bound)
          = entries.filter fun entry => key entry < bound := by
        simp only [below, List.filter_filter]
        apply List.filter_congr
        intro entry _
        simp only [← Bool.decide_and, decide_eq_decide]
        omega
      have large : below.filter (fun entry => !decide (key entry < bound))
          = group key bound entries := by
        simp only [below, group, List.filter_filter, ← decide_not, ← Bool.decide_and]
        apply List.filter_congr
        intro entry _
        simp only [decide_eq_decide]
        omega
      have split := List.filter_append_perm (fun entry => decide (key entry < bound)) below
      rw [small, large] at split
      exact (ih.append_right _).trans split

/-- If every key is below the bound, the groups hold exactly the entries of the list. -/
theorem flatMap_group_perm_of_lt {key : α → Nat} {entries : List α} {bound : Nat}
    (h : ∀ entry ∈ entries, key entry < bound)
    : ((List.range bound).flatMap fun k => group key k entries).Perm entries := by
  have all : (entries.filter fun entry => key entry < bound) = entries := by
    simpa using h
  simpa only [all] using flatMap_group_perm key entries bound

/-- Regrouping lists that each hold one key only selects the list of that key.
Witness: induction on the bound; every other list contributes an empty group.
-/
theorem group_flatMap_range {key : α → Nat} {lists : Nat → List α}
    (h : ∀ k, ∀ entry ∈ lists k, key entry = k) (k bound : Nat)
    : group key k ((List.range bound).flatMap lists) = if k < bound then lists k else [] := by
  induction bound with
  | zero => simp
  | succ bound ih =>
      simp only [List.range_succ, List.flatMap_append, List.flatMap_cons, List.flatMap_nil,
        List.append_nil, group_append, ih]
      by_cases same : k = bound
      · subst same
        simp [group_eq_self (h k)]
      · have other : group key k (lists bound) = [] :=
          group_eq_nil fun entry member => by rw [h bound entry member]; exact Ne.symm same
        by_cases below : k < bound
        · simp [other, below, Nat.lt_succ_of_lt below]
        · have above : ¬ k < bound + 1 := by omega
          simp [other, below, above]

end Grouping
