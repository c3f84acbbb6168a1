import VirtioForwarder.Ovsdb.Client
import VirtioForwarder.Ovsdb.Maps

/-! The rows that `ovsdb-client` prints for the columns `name` and `external_ids`, in CSV with
the strings bare or in quotes. They are taken apart into what was printed.
-/

namespace VirtioForwarder

open CText

-----------------------------------------------------------------------------------------
-- Strings
-----------------------------------------------------------------------------------------

/-- A string as it is printed: bare, or in quotes with a backslash before some characters. -/
inductive OvsForm
  | bare (text : List Char)
  | quoted (chars : List (Bool × Char))
  deriving DecidableEq, Repr

/-- The strings that can be printed: only quotes and backslashes need a backslash. -/
def OvsForm.Valid : OvsForm → Prop
  | .bare text => text ≠ [] ∧ ∀ c ∈ text, isBareChar c = true
  | .quoted chars =>
      ∀ char ∈ chars, char.2 ≠ '\x00' ∧ char.2 ≠ '\n'
        ∧ (char.1 = false → char.2 ≠ '"' ∧ char.2 ≠ '\\')

instance (form : OvsForm) : Decidable form.Valid :=
  match form with
  | .bare text =>
      have : Decidable (∀ c ∈ text, isBareChar c = true) := List.decidableBAll _ _
      inferInstanceAs (Decidable (_ ∧ _))
  | .quoted _ => List.decidableBAll _ _

/-- A string with its printed form. -/
structure OvsString where
  form : OvsForm
  valid : form.Valid

/-- The string. -/
def OvsString.text (string : OvsString) : List Char :=
  match string.form with
  | .bare text => text
  | .quoted chars => chars.map Prod.snd

/-- What is printed for the string. -/
def OvsString.print (string : OvsString) : List Char :=
  match string.form with
  | .bare text => text
  | .quoted chars => '"' :: (chars.flatMap printChar ++ ['"'])

theorem OvsForm.Valid.quotable {chars : List (Bool × Char)} (valid : OvsForm.Valid (.quoted chars))
    : Quotable chars :=
  fun char member => ⟨(valid char member).1, (valid char member).2.2⟩

/-- The string as one of a map. -/
def OvsString.toMap (string : OvsString) : MapString where
  text := string.text
  shown := string.print
  shownAs := by
    obtain ⟨form, valid⟩ := string
    cases form with
    | bare text => exact .bare valid.1 valid.2
    | quoted chars => exact .quoted valid.quotable

/-- What is printed for a string is a part of a row. -/
theorem OvsString.print_plain (string : OvsString) : PlainRow string.print := by
  obtain ⟨form, valid⟩ := string
  suffices plain : ∀ c ∈ OvsString.print ⟨form, valid⟩, c ≠ '\n' ∧ c ≠ '\x00' from
    ⟨fun member => (plain _ member).1 rfl, fun member => (plain _ member).2 rfl⟩
  intro c member
  cases form with
  | bare text =>
      have bare := valid.2 c member
      constructor
      · rintro rfl
        exact absurd bare (by decide)
      · rintro rfl
        exact absurd bare (by decide)
  | quoted chars =>
      simp only [print, List.mem_cons, List.mem_append, List.mem_flatMap, List.not_mem_nil,
        or_false] at member
      rcases member with rfl | ⟨⟨escaped, d⟩, found, member⟩ | rfl
      · decide
      · have plain := valid _ found
        cases escaped with
        | true =>
            rcases List.mem_cons.mp member with rfl | member
            · decide
            · exact List.mem_singleton.mp member ▸ ⟨plain.2.1, plain.1⟩
        | false => exact List.mem_singleton.mp member ▸ ⟨plain.2.1, plain.1⟩
      · decide

/-- The loop of `unquote` copies characters one by one. -/
theorem unquoteText_append {chars : List (Bool × Char)} (copied : Copied chars) (rest : List Char)
    : unquoteText (chars.flatMap printChar ++ rest) = chars.map Prod.snd ++ unquoteText rest := by
  induction chars with
  | nil => rfl
  | cons char chars ih =>
      obtain ⟨escaped, c⟩ := char
      have later := ih fun char member => copied char (List.mem_cons_of_mem _ member)
      cases escaped with
      | true => simp [printChar, unquoteText, later]
      | false =>
          have here := copied (false, c) List.mem_cons_self rfl
          simp only [printChar, List.flatMap_cons, List.cons_append, List.nil_append,
            unquoteText_plain _ here.2, later, List.map_cons]

/-- The name that `unquote` leaves of a text. -/
def unquotedName : List Char → List Char
  | '"' :: text => unquoteText text
  | text => text

theorem mem_of_mem_unquoteText {text : List Char} {c : Char} (member : c ∈ unquoteText text)
    : c ∈ text := by
  fun_induction unquoteText text with
  | case1 => exact member
  | case2 => cases member
  | case3 => cases member
  | case4 _ d more ih =>
      rcases List.mem_cons.mp member with rfl | member
      · simp
      · simp [ih member]
  | case5 d rest _ _ ih =>
      rcases List.mem_cons.mp member with rfl | member
      · exact List.mem_cons_self
      · exact List.mem_cons_of_mem _ (ih member)

/-- A name is found again in the array that it was copied to. -/
theorem unquote_name {name : List Char} (rest : List Char) (zeroless : '\x00' ∉ name)
    : cString (unquote (name ++ '\x00' :: rest)) = unquotedName name := by
  have here := cString_append rest zeroless
  fun_cases unquotedName name with
  | case1 text =>
      have plain : '\x00' ∉ unquoteText text :=
        fun member => zeroless (List.mem_cons_of_mem _ (mem_of_mem_unquoteText member))
      rw [unquote_quoted here, overwrite_string, cString_append _ plain]
  | case2 =>
      rename_i bare
      have unquoted : ∀ text, cString (name ++ '\x00' :: rest) ≠ '"' :: text := by
        rw [here]
        exact bare
      rw [unquote_bare unquoted, here]

theorem OvsString.unquotedName_print (string : OvsString)
    : unquotedName string.print = string.text := by
  obtain ⟨form, valid⟩ := string
  cases form with
  | bare text =>
      obtain ⟨c, more, rfl, _, bare⟩ := bare_first valid.1 valid.2
      simp only [List.mem_cons, List.not_mem_nil, or_false, not_or] at bare
      simp [print, text, unquotedName, bare.1]
  | quoted chars =>
      have read := unquoteText_append valid.quotable.copied ['"']
      rwa [unquoteText_quote, List.append_nil] at read

-----------------------------------------------------------------------------------------
-- Maps
-----------------------------------------------------------------------------------------

/-- The value of the column `external_ids`. -/
abbrev ExternalIds := List (OvsString × OvsString)

/-- What is printed between the braces. -/
def printPairs : ExternalIds → List Char
  | [] => []
  | [(key, val)] => key.print ++ '=' :: val.print
  | (key, val) :: ids => key.print ++ '=' :: (val.print ++ ',' :: ' ' :: printPairs ids)

/-- What is printed for the column `external_ids`. -/
def printIds (ids : ExternalIds) : List Char := '{' :: (printPairs ids ++ ['}'])

/-- What `parse_map` reports for a value of `external_ids`. -/
def idsConfig (ids : ExternalIds) : PortConfig := parseMap [] (printIds ids)

/-- The pairs as those of a map. -/
def ExternalIds.toMap (ids : ExternalIds) : MapPairs :=
  ids.map fun pair => (pair.1.toMap, pair.2.toMap)

theorem printPairs_eq (ids : ExternalIds) : printPairs ids = showPairs ids.toMap := by
  fun_induction printPairs ids with
  | case1 => rfl
  | case2 key val => rfl
  | case3 key val ids _ ih =>
      cases ids with
      | nil => contradiction
      | cons next ids =>
          simp only [ExternalIds.toMap, List.map_cons, showPairs]
          rw [ih]
          rfl

-----------------------------------------------------------------------------------------
-- Rows
-----------------------------------------------------------------------------------------

/-- A character of a field in quotes. -/
def printFieldChar (c : Char) : List Char := if c = '"' then ['"', '"'] else [c]

/-- A field of a row in CSV: bare unless it has a comma or a quote, or in quotes. -/
inductive CsvField (text : List Char) : List Char → Prop
  | bare (plain : ∀ c ∈ text, c ≠ ',' ∧ c ≠ '"') : CsvField text text
  | quoted : CsvField text ('"' :: (text.flatMap printFieldChar ++ ['"']))

/-- The fields that `extract_field` finds before a comma or the end of a row: the characters of
the field, those that it copies, and whether it ends the copy with a zero byte. It does not if a
quote is followed by another character.
-/
inductive FieldShown : List Char → List Char → Bool → Prop
  | bare {text : List Char} (plain : ',' ∉ text) (first : ∀ c ∈ text.head?, c ≠ '"')
      : FieldShown text text true
  | quoted (text : List Char)
      : FieldShown ('"' :: (text.flatMap printFieldChar ++ ['"'])) text true
  | misquoted (text : List Char) {c : Char} {rest : List Char} (other : c ≠ '"')
      (plain : ',' ∉ c :: rest)
      : FieldShown ('"' :: (text.flatMap printFieldChar ++ '"' :: c :: rest)) text false

/-- The bytes that `extract_field` writes. -/
def written (copied : List Char) (ended : Bool) : List Char :=
  if ended then copied ++ ['\x00'] else copied

theorem CsvField.fieldShown {text shown : List Char} (printed : CsvField text shown)
    : FieldShown shown text true := by
  cases printed with
  | bare plain =>
      refine .bare (fun comma => (plain ',' comma).1 rfl) fun c first => ?_
      exact (plain c (List.mem_of_mem_head? first)).2
  | quoted => exact .quoted text

/-- The actions that `ovsdb-client` prints. -/
inductive RowAction
  | initial
  | insert
  | delete
  | old
  | new
  deriving DecidableEq, Repr

/-- The tokens of the actions. -/
def RowAction.token : RowAction → List Char
  | .initial => "initial".toList
  | .insert => "insert".toList
  | .delete => "delete".toList
  | .old => "old".toList
  | .new => "new".toList

@[simp] theorem RowAction.token_inj {a b : RowAction} : a.token = b.token ↔ a = b := by
  cases a <;> cases b <;> decide

/-- A row of the output: the action and the columns `name`, which is left out where it has not
changed, and `external_ids`.
-/
structure Row where
  action : RowAction
  name : Option OvsString
  externalIds : ExternalIds

/-- The text of the column `name`. -/
def Row.printName (row : Row) : List Char := (row.name.map OvsString.print).getD []

/-- The name. -/
def Row.nameText (row : Row) : List Char := (row.name.map OvsString.text).getD []

@[simp] theorem Row.nameText_shown {action : RowAction} {name : OvsString} {ids : ExternalIds}
    : (⟨action, some name, ids⟩ : Row).nameText = name.text :=
  rfl

/-- The configuration that `parse_map` reports for the row. -/
def Row.portConfig (row : Row) : PortConfig := idsConfig row.externalIds

/-- The line is printed for the row, with anything in its first column. -/
def Row.PrintedAs (row : Row) (line : List Char) : Prop :=
  ∃ hash first action name ids,
    PlainRow hash ∧ CsvField hash first ∧ CsvField row.action.token action
    ∧ CsvField row.printName name ∧ CsvField (printIds row.externalIds) ids
    ∧ line = first ++ ',' :: (action ++ ',' :: (name ++ ',' :: ids))

/-- What `process_external_ids` is called with for the row. -/
def Row.call (row : Row) : RowCall := ⟨row.action.token, row.nameText, row.portConfig⟩

/-- The loop of `extract_field` copies characters one by one. -/
theorem scanQuotedField_append (text rest : List Char)
    : scanQuotedField (text.flatMap printFieldChar ++ rest)
      = { scanQuotedField rest with
          copied := text ++ (scanQuotedField rest).copied
          passed := (text.flatMap printFieldChar).length + (scanQuotedField rest).passed } := by
  induction text with
  | nil => simp
  | cons c text ih =>
      by_cases quote : c = '"'
      · subst quote
        simp [printFieldChar, scanQuotedField, ih, QuotedField.push]
        omega
      · have printed : printFieldChar c = [c] := if_neg quote
        rw [List.flatMap_cons, printed, List.append_assoc, List.singleton_append,
          scanQuotedField_plain _ quote, ih]
        simp [QuotedField.push]
        omega

theorem CsvField.mem {text shown : List Char} {c : Char} (h : CsvField text shown)
    (member : c ∈ shown)
    : c = '"' ∨ c ∈ text := by
  cases h with
  | bare plain => exact Or.inr member
  | quoted =>
      simp only [List.mem_cons, List.mem_append, List.mem_flatMap, List.not_mem_nil,
        or_false] at member
      rcases member with rfl | ⟨d, found, member⟩ | rfl
      · exact Or.inl rfl
      · by_cases quote : d = '"'
        · simp only [printFieldChar, quote, if_true, List.mem_cons, List.not_mem_nil, or_false,
            or_self] at member
          exact Or.inl member
        · simp only [printFieldChar, quote, if_false, List.mem_singleton] at member
          exact Or.inr (member ▸ found)
      · exact Or.inl rfl

theorem CsvField.plain {text shown : List Char} (h : CsvField text shown) (plain : PlainRow text)
    : PlainRow shown := by
  constructor
  · intro member
    rcases h.mem member with quote | member
    · cases quote
    · exact plain.1 member
  · intro member
    rcases h.mem member with quote | member
    · cases quote
    · exact plain.2 member

/-- `extract_field` writes a field and goes on after the comma. -/
theorem extractField_shown {buf shown copied rest : List Char} {start : Nat} {ended : Bool} {c : Char}
    (field : List Char) (found : FieldShown shown copied ended) (zeroless : '\x00' ∉ shown)
    (here : buf.drop start = shown ++ c :: rest) (ends : c = ',' ∨ c = '\x00')
    : extractField buf start field
      = (start + shown.length + 1, overwrite field (written copied ended)) := by
  have all : ∀ d ∈ shown, decide (d ≠ '\x00') = true :=
    fun d member => decide_eq_true fun zero => zeroless (zero ▸ member)
  have string : cString (buf.drop start) = shown ++ cString (c :: rest) := by
    rw [here, cString, List.takeWhile_append_of_pos all]
    rfl
  have tail : cString (c :: rest) = [] ∨ (cString (c :: rest)).head? = some ',' := by
    rcases ends with rfl | rfl
    · exact Or.inr (by simp [cString])
    · exact Or.inl (by simp [cString])
  generalize cString (c :: rest) = after at string tail
  have taken {text : List Char} (plain : ',' ∉ text)
      : (text ++ after).takeWhile (· ≠ ',') = text := by
    have others : ∀ d ∈ text, decide (d ≠ ',') = true :=
      fun d member => decide_eq_true fun comma => plain (comma ▸ member)
    rw [List.takeWhile_append_of_pos others]
    cases after with
    | nil => simp
    | cons d after =>
        obtain rfl : d = ',' := by simpa using tail
        simp
  cases found with
  | bare plain first =>
      have bare : ∀ more, cString (buf.drop start) ≠ '"' :: more := by
        intro more same
        rw [string] at same
        cases shown with
        | nil =>
            simp only [List.nil_append] at same
            simp [same] at tail
        | cons d shown => exact first d rfl (List.cons.inj same).1
      rw [extractField_bare field bare, string, taken plain]
      rfl
  | quoted =>
      have closed : scanQuotedField ('"' :: after) = ⟨[], 1, true⟩ := by
        cases after with
        | nil => simp [scanQuotedField]
        | cons d after =>
            obtain rfl : d = ',' := by simpa using tail
            simp [scanQuotedField]
      have read := scanQuotedField_append copied ('"' :: after)
      rw [closed, List.append_nil] at read
      have quoted : cString (buf.drop start)
          = '"' :: (copied.flatMap printFieldChar ++ '"' :: after) := by simp [string]
      rw [extractField_quoted field quoted (by rw [read]), read]
      simp only [List.length_cons, List.length_append, List.length_nil, written, if_true]
  | @misquoted _ d junk other plain =>
      have comma : d ≠ ',' := fun same => plain (by simp [same])
      have long : ',' ∉ '"' :: d :: junk := by simpa using plain
      have broken : scanQuotedField ('"' :: d :: (junk ++ after))
          = ⟨[], junk.length + 2, false⟩ := by
        have whole := taken long
        rw [List.cons_append, List.cons_append] at whole
        simp only [scanQuotedField, other, comma, if_true, if_false, whole, List.length_cons]
      have read := scanQuotedField_append copied ('"' :: d :: (junk ++ after))
      rw [broken, List.append_nil] at read
      have quoted : cString (buf.drop start)
          = '"' :: (copied.flatMap printFieldChar ++ '"' :: d :: (junk ++ after)) := by simp [string]
      simp only [extractField, quoted, read, written, Bool.false_eq_true, if_false,
        List.length_cons, List.length_append]

/-- `extract_field` reads a field in CSV back. -/
theorem extractField_print {buf text shown rest : List Char} {start : Nat} {c : Char}
    (field : List Char) (printed : CsvField text shown) (plain : PlainRow text)
    (here : buf.drop start = shown ++ c :: rest) (ends : c = ',' ∨ c = '\x00')
    : extractField buf start field
      = (start + shown.length + 1, overwrite field (text ++ ['\x00'])) :=
  extractField_shown field printed.fieldShown (printed.plain plain).2 here ends

theorem drop_field {buf shown rest : List Char} {start : Nat} {c : Char}
    (here : buf.drop start = shown ++ c :: rest)
    : buf.drop (start + shown.length + 1) = rest := by
  rw [Nat.add_assoc, ← List.drop_drop, here, List.drop_length_add_append, List.drop_succ_cons,
    List.drop_zero]

theorem RowAction.token_plain (action : RowAction) : PlainRow action.token := by
  cases action <;> exact ⟨by decide, by decide⟩

theorem Row.printName_plain (row : Row) : PlainRow row.printName := by
  obtain ⟨_, name, _⟩ := row
  cases name with
  | none => exact ⟨List.not_mem_nil, List.not_mem_nil⟩
  | some name => exact name.print_plain

theorem Row.unquotedName_printName (row : Row) : unquotedName row.printName = row.nameText := by
  obtain ⟨_, name, _⟩ := row
  cases name with
  | none => rfl
  | some name => exact name.unquotedName_print

theorem printPairs_plain (ids : ExternalIds) : PlainRow (printPairs ids) := by
  fun_induction printPairs ids with
  | case1 => exact ⟨List.not_mem_nil, List.not_mem_nil⟩
  | case2 key val =>
      have := key.print_plain
      have := val.print_plain
      simp_all [PlainRow]
  | case3 key val ids _ ih =>
      have := key.print_plain
      have := val.print_plain
      simp_all [PlainRow]

theorem printIds_plain (ids : ExternalIds) : PlainRow (printIds ids) := by
  have := printPairs_plain ids
  simp_all [PlainRow, printIds]

/-- The line holds four fields in CSV, the last of them a map; this is the call for it. -/
def WellFormedRow (line : List Char) (call : RowCall) : Prop :=
  ∃ hash action name pairs first second third fourth,
    PlainRow hash ∧ PlainRow action ∧ PlainRow name ∧ PlainRow (showMap pairs)
    ∧ CsvField hash first ∧ CsvField action second ∧ CsvField name third
    ∧ CsvField (showMap pairs) fourth
    ∧ line = first ++ ',' :: (second ++ ',' :: (third ++ ',' :: fourth))
    ∧ call = ⟨action, unquotedName name, PortConfig.ofPairs ⟨false, 0⟩ pairs⟩

/-- **Rows**: a row is taken apart into its fields, whatever follows it and stood in the arrays. -/
theorem WellFormedRow.isolated {line : List Char} {call : RowCall} (row : WellFormedRow line call)
    : Isolated line call := by
  intro val following buffers
  obtain ⟨hash, action, name, pairs, first, second, third, fourth, plainHash, plainAction, plainName,
    plainMap, csvHash, csvAction, csvName, csvMap, rfl, rfl⟩ := row
  generalize memory : first ++ ',' :: (second ++ ',' :: (third ++ ',' :: fourth))
    ++ '\x00' :: following = buf
  have here : buf.drop 0 = first ++ ',' :: (second ++ ',' :: (third ++ ',' :: (fourth
      ++ '\x00' :: following))) := by simp [← memory]
  have atSecond := drop_field here
  have atThird := drop_field atSecond
  have atFourth := drop_field atThird
  simp only [parseRow, extractField_print _ csvHash plainHash here (Or.inl rfl),
    extractField_print _ csvAction plainAction atSecond (Or.inl rfl),
    extractField_print _ csvName plainName atThird (Or.inl rfl),
    extractField_print _ csvMap plainMap atFourth (Or.inr rfl), overwrite_string,
    cString_append _ plainAction.2, unquote_name _ plainName.2, parseMap_showMap]

/-- A well-formed row can be cut out of the output. -/
theorem WellFormedRow.plain {line : List Char} {call : RowCall} (row : WellFormedRow line call)
    : PlainRow line ∧ line ≠ [] := by
  obtain ⟨hash, action, name, pairs, first, second, third, fourth, plainHash, plainAction, plainName,
    plainMap, csvHash, csvAction, csvName, csvMap, rfl, rfl⟩ := row
  have := csvHash.plain plainHash
  have := csvAction.plain plainAction
  have := csvName.plain plainName
  have := csvMap.plain plainMap
  simp_all [PlainRow]

theorem printIds_eq (ids : ExternalIds) : printIds ids = showMap ids.toMap := by
  rw [printIds, printPairs_eq, showMap]

/-- What is printed for a row is well formed. -/
theorem Row.wellFormed {row : Row} {line : List Char} (printed : row.PrintedAs line)
    : WellFormedRow line row.call := by
  obtain ⟨hash, first, action, name, ids, plain, csvHash, csvAction, csvName, csvIds, rfl⟩ := printed
  have plainIds := printIds_plain row.externalIds
  rw [printIds_eq] at csvIds plainIds
  refine ⟨hash, row.action.token, row.printName, row.externalIds.toMap, first, action, name, ids,
    plain, row.action.token_plain, row.printName_plain, plainIds, csvHash, csvAction, csvName, csvIds,
    rfl, ?_⟩
  have alone := parseMap_showMap [] [] row.externalIds.toMap
  rw [List.append_nil] at alone
  rw [call, portConfig, idsConfig, printIds_eq, alone, row.unquotedName_printName]

theorem Row.isolated {row : Row} {line : List Char} (printed : row.PrintedAs line)
    : Isolated line row.call :=
  (Row.wellFormed printed).isolated

theorem Row.plain {row : Row} {line : List Char} (printed : row.PrintedAs line)
    : PlainRow line ∧ line ≠ [] :=
  (Row.wellFormed printed).plain

end VirtioForwarder
