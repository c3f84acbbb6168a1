import VirtioForwarder.Ovsdb.MapReads
import VirtioForwarder.Ovsdb.Rows

/-! The bytes that the parsers read. A row and a map end with a zero byte; it is checked of each
read that it is not behind the end of the memory.
-/

namespace VirtioForwarder

open CText

-----------------------------------------------------------------------------------------
-- Fields
-----------------------------------------------------------------------------------------

/-- The loop over a quoted string reads inside the memory: each character up to the zero byte,
and the one after each quote.
-/
def quotedFieldInside : List Char → Bool
  | [] => false
  | c :: rest =>
      if c = '\x00' then true
      else if c = '"' then
        match rest with
        | [] => false
        | d :: more =>
            if d = '"' then quotedFieldInside more
            else if d = '\x00' ∨ d = ',' then true
            else stopsInside (fun c => c ≠ '\x00' ∧ c ≠ ',') (d :: more)
      else quotedFieldInside rest

/-- `extract_field` reads inside the memory. A quoted string is searched for its zero byte by
`strlen`, and another one for a comma or a zero byte by `strchr`.
-/
def fieldInside (buf : List Char) (start : Nat) : Bool :=
  match buf.drop start with
  | [] => false
  | '"' :: text => stopsInside (· ≠ '\x00') text && quotedFieldInside text
  | text => stopsInside (fun c => c ≠ ',' ∧ c ≠ '\x00') text

theorem quotedFieldInside_zero (rest : List Char) : quotedFieldInside ('\x00' :: rest) = true := by
  cases rest <;> simp [quotedFieldInside]

theorem quotedFieldInside_plain {c : Char} (rest : List Char) (some : c ≠ '\x00') (plain : c ≠ '"')
    : quotedFieldInside (c :: rest) = quotedFieldInside rest := by
  cases rest <;> simp [quotedFieldInside, some, plain]

theorem quotedFieldInside_string {text : List Char} (rest : List Char) (plain : '\x00' ∉ text)
    : quotedFieldInside (text ++ '\x00' :: rest) = true := by
  induction text using scanQuotedField.induct with
  | case1 => exact quotedFieldInside_zero rest
  | case2 => simp [quotedFieldInside]
  | case3 more ih =>
      simp only [List.mem_cons, not_or] at plain
      simpa [quotedFieldInside] using ih plain.2.2
  | case4 more => simp [quotedFieldInside]
  | case5 d more quote comma =>
      simp only [List.mem_cons, not_or] at plain
      have stops : stopsInside (fun c => c ≠ '\x00' ∧ c ≠ ',') (d :: (more ++ '\x00' :: rest))
          = true :=
        stopsInside_of_mem (c := '\x00') (by simp) (by simp)
      simp only [List.cons_append, quotedFieldInside, quote, comma, Ne.symm plain.2.1, stops,
        Char.reduceEq, or_self, if_true, if_false]
  | case6 c more other ih =>
      simp only [List.mem_cons, not_or] at plain
      rw [List.cons_append, quotedFieldInside_plain _ (Ne.symm plain.1) other, ih plain.2]

/-- Up to the zero byte of the row, `extract_field` reads inside it. -/
theorem fieldInside_row {row : List Char} (rest : List Char) {start : Nat} (plain : '\x00' ∉ row)
    (inside : start ≤ row.length)
    : fieldInside (row ++ '\x00' :: rest) start = true := by
  have plain : '\x00' ∉ row.drop start := fun member => plain (List.mem_of_mem_drop member)
  rw [fieldInside, List.drop_append_of_le_length inside]
  generalize row.drop start = text at plain
  split
  · simp_all
  · rename_i here
    cases text with
    | nil => simp at here
    | cons c text =>
        obtain ⟨rfl, rfl⟩ := List.cons.inj here
        rw [List.mem_cons, not_or] at plain
        have stops : stopsInside (· ≠ '\x00') (text ++ '\x00' :: rest) = true :=
          stopsInside_of_mem (c := '\x00') (by simp) (by simp)
        exact Bool.and_eq_true_iff.mpr ⟨stops, quotedFieldInside_string rest plain.2⟩
  · exact stopsInside_of_mem (c := '\x00') (by simp) (by simp)

/-- Behind it, the first read is outside. -/
theorem fieldInside_past {row : List Char} {start : Nat} (past : row.length < start)
    : fieldInside (row ++ ['\x00']) start = false := by
  have empty : (row ++ ['\x00']).drop start = [] := by
    rw [List.drop_eq_nil_iff, List.length_append, List.length_singleton]
    exact past
  simp [fieldInside, empty]

/-- `extract_field`, if it reads the first bytes of `buf` only. -/
def extractFieldInside (bytes : Nat) (buf : List Char) (start : Nat) (field : List Char)
    : Option (Nat × List Char) :=
  if fieldInside (buf.take bytes) start then some (extractField buf start field) else none

/-- The strings that successive calls of `extract_field` leave in the arrays, the first at
`start` and each further one at the position that was returned; `none` if one of them reads
behind the first bytes.
-/
def extractFields (bytes : Nat) (buf : List Char)
    : Nat → List (List Char) → Option (List (List Char))
  | _, [] => some []
  | start, field :: fields =>
      match extractFieldInside bytes buf start field with
      | none => none
      | some (pos, memory) =>
          (extractFields bytes buf pos fields).map fun strings => cString memory :: strings

/-- A row in CSV. -/
def joinFields : List (List Char) → List Char
  | [] => []
  | [shown] => shown
  | shown :: more => shown ++ ',' :: joinFields more

theorem joinFields_plain {texts shown : List (List Char)} (csv : List.Forall₂ CsvField texts shown)
    (plain : ∀ text ∈ texts, PlainRow text)
    : PlainRow (joinFields shown) := by
  induction csv with
  | nil => exact ⟨List.not_mem_nil, List.not_mem_nil⟩
  | @cons text shown texts more printed csv ih =>
      have here := printed.plain (plain text List.mem_cons_self)
      have later := ih fun text member => plain text (List.mem_cons_of_mem _ member)
      cases more with
      | nil => exact here
      | cons next more => simp_all [PlainRow, joinFields]

/-- The calls from one of the fields on, by induction on the fields. -/
theorem extractFields_csv {texts shown arrays : List (List Char)} (before following : List Char)
    (zeroless : '\x00' ∉ before) (csv : List.Forall₂ CsvField texts shown)
    (plain : ∀ text ∈ texts, PlainRow text) (same : arrays.length = texts.length)
    : extractFields ((before ++ joinFields shown).length + 1)
        (before ++ joinFields shown ++ '\x00' :: following) before.length arrays
      = some texts := by
  induction csv generalizing before arrays with
  | nil =>
      obtain rfl := List.length_eq_zero_iff.mp same
      rfl
  | @cons text shown texts more printed csv ih =>
      obtain ⟨array, arrays, rfl⟩ := List.exists_cons_of_length_eq_add_one same
      have whole := (joinFields_plain (.cons printed csv) plain).2
      have plainText := plain text List.mem_cons_self
      have inside := @fieldInside_row (before ++ joinFields (shown :: more)) [] before.length
        (by simp [zeroless, whole]) (by simp)
      have bytes : ((before ++ joinFields (shown :: more)) ++ '\x00' :: following).take
          ((before ++ joinFields (shown :: more)).length + 1)
          = before ++ joinFields (shown :: more) ++ ['\x00'] := by
        rw [List.take_length_add_append]
        rfl
      cases more with
      | nil =>
          cases csv
          obtain rfl := List.length_eq_zero_iff.mp (Nat.succ.inj same)
          have split : (before ++ joinFields [shown] ++ '\x00' :: following).drop before.length
              = shown ++ '\x00' :: following := by simp [joinFields]
          have extracted := extractField_print array printed plainText split (Or.inr rfl)
          simp only [extractFields, extractFieldInside, bytes, inside, if_true, extracted,
            Option.map_some, overwrite_string, cString_append _ plainText.2]
      | cons next more =>
          have split
              : (before ++ joinFields (shown :: next :: more) ++ '\x00' :: following).drop
                  before.length
                = shown ++ ',' :: (joinFields (next :: more) ++ '\x00' :: following) := by
            simp [joinFields]
          have extracted := extractField_print array printed plainText split (Or.inl rfl)
          have later := ih (before ++ shown ++ [','])
            (by simp [zeroless, (printed.plain plainText).2])
            (fun text member => plain text (List.mem_cons_of_mem _ member)) (Nat.succ.inj same)
          have moved : before ++ joinFields (shown :: next :: more)
              = before ++ shown ++ [','] ++ joinFields (next :: more) := by
            simp [joinFields]
          have position : before.length + shown.length + 1 = (before ++ shown ++ [',']).length := by
            simp [Nat.add_assoc]
          simp only [extractFields, extractFieldInside, bytes, inside, if_true, extracted]
          rw [position, moved, later]
          simp only [Option.map_some, overwrite_string, cString_append _ plainText.2]

/-- **Fields**: the calls of `extract_field` for the fields of a row in CSV give the texts of the
fields back, and they read the row with its zero byte only. In `buf` the row is followed by
anything, and the arrays hold anything.
-/
theorem csv_fields_are_decoded {texts shown : List (List Char)} (arrays : List (List Char))
    (following : List Char) (csv : List.Forall₂ CsvField texts shown)
    (plain : ∀ text ∈ texts, PlainRow text) (same : arrays.length = texts.length)
    : extractFields ((joinFields shown).length + 1) (joinFields shown ++ '\x00' :: following) 0
        arrays
      = some texts :=
  extractFields_csv [] following List.not_mem_nil csv plain same

/-- Witness: a row with an empty field, a bare one and two in quotes. -/
theorem four_csv_fields_are_decoded
    : extractFields 13
        [',', 'a', ',', '"', '"', '"', '"', ',', '"', 'b', ',', '"', '\x00', 'x'] 0
        [[], [], ['y'], []]
      = some [[], ['a'], ['"'], ['b', ',']] := by
  have decoded := @csv_fields_are_decoded [[], ['a'], ['"'], ['b', ',']] _ [[], [], ['y'], []] ['x']
    (.cons (.bare (by simp)) (.cons (.bare (by simp)) (.cons .quoted (.cons .quoted .nil))))
    (by simp [PlainRow]) rfl
  simpa [joinFields, printFieldChar] using decoded

end VirtioForwarder
