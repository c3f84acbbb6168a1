import Mathlib.Data.List.Sort
import Mathlib.Data.List.Nodup

/-! The set bits of a machine word as a sorted list of positions, with the bit-counting and
bit-scanning builtins of C compilers expressed by it.
-/

namespace Bits

variable {w : Nat}

/-- The positions of the set bits, in increasing order. -/
def setBits (word : BitVec w) : List Nat :=
  (List.range w).filter word.getLsbD

/-- Population count: the number of set bits. -/
def popcount (word : BitVec w) : Nat :=
  (setBits word).length

/-- Find first set: one plus the position of the lowest set bit, or 0 for the zero word. -/
def ffs (word : BitVec w) : Nat :=
  match setBits word with
  | [] => 0
  | lowest :: _ => lowest + 1

/-- A word with one bit set or cleared, the other bits unchanged. -/
def assignBit (word : BitVec w) (position : Nat) (value : Bool) : BitVec w :=
  if value then word ||| (1#w <<< position) else word &&& ~~~(1#w <<< position)

/-- A position is listed exactly if its bit is set. -/
@[simp]
theorem mem_setBits {word : BitVec w} {position : Nat}
    : position ∈ setBits word ↔ word.getLsbD position = true := by
  simp only [setBits, List.mem_filter, List.mem_range, and_iff_right_iff_imp]
  exact BitVec.lt_of_getLsbD

/-- Set bits are listed in strictly increasing order. -/
theorem pairwise_setBits (word : BitVec w) : (setBits word).Pairwise (· < ·) :=
  List.pairwise_lt_range.filter _

/-- No position is listed twice. -/
theorem nodup_setBits (word : BitVec w) : (setBits word).Nodup :=
  List.nodup_range.filter _

/-- Only the zero word has no set bits. -/
theorem setBits_eq_nil {word : BitVec w} : setBits word = [] ↔ word = 0 := by
  constructor
  · intro h
    apply BitVec.eq_of_getLsbD_eq
    intro position _
    have absent : position ∉ setBits word := by simp [h]
    simpa using absent
  · rintro rfl
    simp [setBits]

/-- The bit at a position after assigning it or another one. -/
theorem getLsbD_assignBit {word : BitVec w} {position other : Nat} {value : Bool}
    (h : position < w)
    : (assignBit word position value).getLsbD other
      = if other = position then value else word.getLsbD other := by
  have single : (1#w <<< position).getLsbD other = decide (other = position) := by
    rw [BitVec.getLsbD_shiftLeft, BitVec.getLsbD_one]
    by_cases same : other = position
    · have positive : 0 < w := by omega
      simp [same, h, positive]
    · by_cases below : other < position
      · simp [same, below]
      · have distance : other - position ≠ 0 := by omega
        simp [same, distance]
  cases value
  · rw [assignBit, if_neg Bool.false_ne_true, BitVec.getLsbD_and, BitVec.getLsbD_not, single]
    by_cases bound : other < w
    · by_cases same : other = position <;> simp [bound, same]
    · have beyond : other ≠ position := by omega
      simp [beyond, BitVec.getLsbD_of_ge word other (by omega)]
  · rw [assignBit, if_pos rfl, BitVec.getLsbD_or, single]
    by_cases same : other = position <;> simp [same]

/-- Clearing a bit removes its position from the list. -/
theorem setBits_clear {word : BitVec w} {position : Nat} (h : position < w)
    : setBits (word &&& ~~~(1#w <<< position)) = (setBits word).filter (· ≠ position) := by
  have cleared : word &&& ~~~(1#w <<< position) = assignBit word position false := rfl
  simp only [setBits, cleared, List.filter_filter]
  apply List.filter_congr
  intro other _
  rw [getLsbD_assignBit h]
  by_cases same : other = position <;> simp [same]

/-- Clearing the lowest set bit removes the head of the list. -/
theorem setBits_clear_lowest {word : BitVec w} {lowest : Nat} {rest : List Nat}
    (h : setBits word = lowest :: rest)
    : setBits (word &&& ~~~(1#w <<< lowest)) = rest := by
  have member : lowest ∈ setBits word := by simp [h]
  have bound : lowest < w := BitVec.lt_of_getLsbD (mem_setBits.mp member)
  have unique : (lowest :: rest).Nodup := h ▸ nodup_setBits word
  rw [setBits_clear bound, h, List.filter_cons_of_neg (by simp)]
  apply List.filter_eq_self.mpr
  intro other later
  have distinct : other ≠ lowest := by
    rintro rfl
    exact (List.nodup_cons.mp unique).1 later
  simpa using distinct

/-- A word whose set bits all lie below their number is a run of low bits.
Witness: an injective list of that many positions below its length misses none.
-/
theorem setBits_eq_range_of_lt {word : BitVec w}
    (h : ∀ position ∈ setBits word, position < popcount word)
    : setBits word = List.range (popcount word) := by
  have included : setBits word ⊆ List.range (popcount word) := by
    intro position member
    exact List.mem_range.mpr (h position member)
  have perm : (setBits word).Perm (List.range (popcount word)) :=
    (List.subperm_of_subset (nodup_setBits word) included).perm_of_length_le (by simp [popcount])
  exact (pairwise_setBits word).eq_of_mem_iff List.pairwise_lt_range fun _ => perm.mem_iff

end Bits
