import Mathlib.Data.List.Sort
import VirtioForwarder.Library.CText

/-! Values as Python programs handle them: `int` of a text. A character stands for an ASCII
character.
-/

namespace Python

open CText

/-- White space that `int` strips from a text. -/
def isSpace (c : Char) : Bool :=
  CText.isSpace c || ('\x1c' ≤ c && c ≤ '\x1f')

/-- `str.strip`. -/
def strip (text : List Char) : List Char :=
  ((text.dropWhile isSpace).reverse.dropWhile isSpace).reverse

/-- Digits that may be grouped by single underscores. -/
def groupedDigits (text : List Char) : Option Nat :=
  let groups := text.splitOn '_'
  if groups.all fun group => group ≠ [] && group.all Char.isDigit then some (decimal groups.flatten)
  else none

/-- `int(text)`; `none` is a `ValueError`. -/
def int (text : List Char) : Option Int :=
  let (negative, body) := scanSign (strip text)
  (groupedDigits body).map fun value : Nat => if negative then -(value : Int) else value

theorem isSpace_of_isDigit {c : Char} (digit : c.isDigit = true) : isSpace c = false := by
  have large : ¬ c ≤ '\x1f' := by
    simp only [Char.isDigit, Bool.and_eq_true, decide_eq_true_eq] at digit
    intro small
    have below : c.val ≤ 31 := small
    have above : 48 ≤ c.val := digit.1
    exact absurd (UInt32.le_trans above below) (by decide)
  simp [isSpace, CText.isSpace_of_isDigit digit, large]

/-- `int` reads digits. -/
theorem int_digits (number : Digits) : int number.chars = some (number.value : Int) := by
  obtain ⟨chars, nonempty, digits⟩ := number
  have spaces : ∀ c ∈ chars, ¬ isSpace c = true := by
    intro c member
    simp [isSpace_of_isDigit (digits c member)]
  have stripped : strip chars = chars := by
    have front : chars.dropWhile isSpace = chars :=
      List.dropWhile_eq_self_iff.mpr fun _ => spaces _ (List.getElem_mem _)
    have back : chars.reverse.dropWhile isSpace = chars.reverse :=
      List.dropWhile_eq_self_iff.mpr fun _ => spaces _ (List.mem_reverse.mp (List.getElem_mem _))
    rw [strip, front, back, List.reverse_reverse]
  have whole : '_' ∉ chars := by
    intro member
    exact absurd (digits '_' member) (by decide)
  have grouped : groupedDigits chars = some (decimal chars) := by
    have all : chars.all Char.isDigit = true := List.all_eq_true.mpr digits
    simp [groupedDigits, List.splitOn_eq_singleton whole, nonempty, all]
  obtain ⟨c, tail, rfl⟩ := List.exists_cons_of_ne_nil nonempty
  simp only [int, stripped, scanSign_of_isDigit tail (digits c List.mem_cons_self), grouped,
    Option.map_some, Bool.false_eq_true, if_false, Digits.value]

end Python
