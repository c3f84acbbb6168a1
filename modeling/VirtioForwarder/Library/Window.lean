import Mathlib.Logic.Function.Basic
import Mathlib.Data.List.GetD

/-! Slices of a random-access buffer and the bursts stored into it.
A buffer is a total map from positions to cells, so bounds are separate statements.
-/

namespace Window

variable {α : Type*}

/-- The `len` cells of `buf` from position `start` on, in order. -/
def slice (buf : Nat → α) (start len : Nat) : List α :=
  (List.range len).map fun i => buf (start + i)

/-- Overwrite consecutive cells of `buf` with `burst`, the first one at `start`. -/
def store (buf : Nat → α) (start : Nat) (burst : List α) : Nat → α :=
  fun i => if start ≤ i then burst.getD (i - start) (buf i) else buf i

/-- A slice has the requested number of cells, by its defining range. -/
@[simp]
theorem length_slice (buf : Nat → α) (start len : Nat)
    : (slice buf start len).length = len := by
  simp [slice]

/-- An empty slice is the empty list, by its defining range. -/
@[simp]
theorem slice_zero (buf : Nat → α) (start : Nat) : slice buf start 0 = [] :=
  rfl

/-- The cell at a valid index of a slice is the buffer cell at that offset. -/
theorem getElem?_slice (buf : Nat → α) {start len i : Nat} (h : i < len)
    : (slice buf start len)[i]? = some (buf (start + i)) := by
  simp [slice, h]

/-- Storing no cells leaves the buffer as it is. -/
@[simp]
theorem store_nil (buf : Nat → α) (start : Nat) : store buf start [] = buf := by
  funext i
  simp [store]

/-- Cells below the start of a stored burst keep their contents. -/
theorem store_of_lt (buf : Nat → α) {start i : Nat} (burst : List α) (h : i < start)
    : store buf start burst i = buf i := by
  have below : ¬ start ≤ i := by omega
  simp [store, below]

/-- The stored burst is what a slice of its length reads back.
Witness: both lists agree at every index.
-/
@[simp]
theorem slice_store (buf : Nat → α) (start : Nat) (burst : List α)
    : slice (store buf start burst) start burst.length = burst := by
  apply List.ext_getElem (by simp)
  intro i hl hr
  simp only [slice, List.getElem_map, List.getElem_range, store]
  simp [hr]

/-- A slice splits at any inner position, by splitting its defining range. -/
theorem slice_add (buf : Nat → α) (start m n : Nat)
    : slice buf start (m + n) = slice buf start m ++ slice buf (start + m) n := by
  simp only [slice, List.range_add, List.map_append, List.map_map]
  congr 1
  apply List.map_congr_left
  intro i _
  simp [Nat.add_assoc]

/-- Dropping the first cells of a slice moves its start. -/
theorem drop_slice (buf : Nat → α) {start len n : Nat} (h : n ≤ len)
    : (slice buf start len).drop n = slice buf (start + n) (len - n) := by
  obtain ⟨rest, rfl⟩ := Nat.exists_eq_add_of_le h
  rw [slice_add, List.drop_left' (length_slice ..)]
  simp

/-- A burst stored right behind another one is the same as one longer burst.
Witness: the three ranges of positions, below, inside and behind the first burst.
-/
theorem store_append (buf : Nat → α) (start : Nat) (first second : List α)
    : store (store buf start first) (start + first.length) second
      = store buf start (first ++ second) := by
  funext i
  by_cases below : i < start
  · rw [store_of_lt _ _ (by omega), store_of_lt _ _ below, store_of_lt _ _ below]
  · by_cases inside : i < start + first.length
    · rw [store_of_lt _ _ inside]
      simp only [store, show start ≤ i by omega, if_true]
      rw [List.getD_append _ _ _ _ (by omega)]
    · simp only [store, show start ≤ i by omega, show start + first.length ≤ i by omega,
        if_true]
      rw [List.getD_append_right _ _ _ _ (by omega),
        List.getD_eq_default first _ (by omega)]
      congr 1
      omega

/-- A single cell written at `start` is a stored burst of one cell. -/
theorem update_eq_store (buf : Nat → α) (start : Nat) (cell : α)
    : Function.update buf start cell = store buf start [cell] := by
  funext i
  by_cases same : i = start
  · subst same
    simp [store]
  · by_cases below : start ≤ i
    · have behind : 1 ≤ i - start := by omega
      simp [store, below, Function.update_of_ne same, List.getElem?_eq_none, behind]
    · simp [store, below, Function.update_of_ne same]

end Window
