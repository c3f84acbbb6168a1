import Mathlib.Data.List.TakeWhile
import Mathlib.Data.Nat.Digits.Lemmas

/-! Texts as the C library reads and prints them: strings in memory, the conversions of `sscanf`
and `strtol` that skip white space first, searches in strings, and hexadecimal numbers in either
case. A character stands for a byte.
-/

namespace CText

/-- `isspace` in the C locale. -/
def isSpace (c : Char) : Bool :=
  c = ' ' || c = '\t' || c = '\n' || c = '\x0b' || c = '\x0c' || c = '\r'

/-- The text from its first character that is not white space. -/
def skipSpace (text : List Char) : List Char := text.dropWhile isSpace

/-- `%Ns`: a word of at most `width` characters, with the rest of the text. -/
def scanWord (width : Nat) (text : List Char) : Option (List Char × List Char) :=
  let rest := skipSpace text
  let word := (rest.takeWhile (!isSpace ·)).take width
  if word = [] then none else some (word, rest.drop word.length)

/-- The value of decimal digits. -/
def decimal (digits : List Char) : Nat :=
  digits.foldl (fun value c => 10 * value + (c.toNat - '0'.toNat)) 0

/-- An optional sign; `true` is negative. -/
def scanSign : List Char → Bool × List Char
  | '-' :: rest => (true, rest)
  | '+' :: rest => (false, rest)
  | rest => (false, rest)

/-- `%u` into a variable of `bits` bits: the number is read as `strtoul` does, negated in 64
bits after a minus sign and saturated if it is too large, and then truncated.
-/
def scanUnsigned (bits : Nat) (text : List Char) : Option (Nat × List Char) :=
  let (negative, body) := scanSign (skipSpace text)
  let digits := body.takeWhile Char.isDigit
  if digits = [] then none
  else
    let value := decimal digits
    let long :=
      if 2 ^ 64 ≤ value then 2 ^ 64 - 1
      else if negative then (2 ^ 64 - value) % 2 ^ 64
      else value
    some (long % 2 ^ bits, body.drop digits.length)

/-- The tokens that `strtok_r` finds one after another. -/
def tokens (separator : Char) (text : List Char) : List (List Char) :=
  (text.splitOn separator).filter (· ≠ [])

/-- The text before and after the place that `strchr` finds. -/
def cutAt (c : Char) : List Char → Option (List Char × List Char)
  | [] => none
  | head :: rest =>
      if head = c then some ([], rest)
      else (cutAt c rest).map fun (before, after) => (head :: before, after)

/-- The text after the place that `strstr` finds. -/
def afterFirst (needle : List Char) : List Char → Option (List Char)
  | [] => if needle = [] then some [] else none
  | c :: rest =>
      if needle <+: c :: rest then some ((c :: rest).drop needle.length)
      else afterFirst needle rest

/-- The string that begins an area of memory, which is taken to be zero after its end. -/
def cString (memory : List Char) : List Char := memory.takeWhile (· ≠ '\x00')

/-- An area of memory after its first bytes have been written. -/
def overwrite (memory bytes : List Char) : List Char := bytes ++ memory.drop bytes.length

/-- An array after bytes were written from an index on; `none` if they reach past its end. -/
def store (array : List Char) (index : Nat) (bytes : List Char) : Option (List Char) :=
  if index + bytes.length ≤ array.length then
    some (array.take index ++ (bytes ++ array.drop (index + bytes.length)))
  else none

/-- `strcpy` to an index of the array. -/
def strcpy (array : List Char) (index : Nat) (text : List Char) : Option (List Char) :=
  store array index (text ++ ['\x00'])

/-- `snprintf` of the text with room for `len` bytes, which are not none. -/
def snprintf (array : List Char) (index len : Nat) (text : List Char) : Option (List Char) :=
  store array index (text.take (len - 1) ++ ['\x00'])

/-- The value of a digit of base 36 in either case. -/
def digitValue (c : Char) : Option Nat :=
  if c.isDigit then some (c.toNat - '0'.toNat)
  else if c.isLower then some (c.toNat - 'a'.toNat + 10)
  else if c.isUpper then some (c.toNat - 'A'.toNat + 10)
  else none

/-- The character is a digit of the base. -/
def isDigitOf (base : Nat) (c : Char) : Bool := (digitValue c).any (· < base)

/-- The base that base 0 of `strtol` stands for, with the text from its first digit. -/
def scanBase : List Char → Nat × List Char
  | '0' :: x :: d :: rest =>
      if (x = 'x' || x = 'X') && isDigitOf 16 d then (16, d :: rest) else (8, '0' :: x :: d :: rest)
  | '0' :: rest => (8, '0' :: rest)
  | rest => (10, rest)

/-- What `strtol` returns and leaves in `endptr` and `errno`. -/
structure Strtol where
  value : Int
  endptr : List Char
  erange : Bool
  deriving DecidableEq, Repr

/-- `LONG_MAX`. -/
def longMax : Int := 2 ^ 63 - 1

/-- `LONG_MIN`. -/
def longMin : Int := -2 ^ 63

/-- `strtol` in base 0. Without digits, `endptr` is the beginning of the text. -/
def strtol (text : List Char) : Strtol :=
  let (negative, body) := scanSign (skipSpace text)
  let (base, body) := scanBase body
  let digits := body.takeWhile (isDigitOf base)
  if digits = [] then ⟨0, text, false⟩
  else
    let size : Int := digits.foldl (fun n c => base * n + (digitValue c).getD 0) 0
    let value := if negative then -size else size
    let rest := body.drop digits.length
    if value < longMin then ⟨longMin, rest, true⟩
    else if longMax < value then ⟨longMax, rest, true⟩
    else ⟨value, rest, false⟩

/-- The text from its first digit where base 16 may have a prefix. -/
def dropHexPrefix : List Char → List Char
  | '0' :: x :: d :: rest =>
      if (x = 'x' || x = 'X') && isDigitOf 16 d then d :: rest else '0' :: x :: d :: rest
  | text => text

/-- The value that digits of a base stand for. -/
def number (base : Nat) (digits : List Char) : Nat :=
  digits.foldl (fun value c => base * value + (digitValue c).getD 0) 0

/-- `strtoul` or `strtoull` in base 10 or 16, with 64 bits: the value and what `endptr` points to. -/
def strtoul (base : Nat) (text : List Char) : Nat × List Char :=
  let (negative, body) := scanSign (skipSpace text)
  let body := if base = 16 then dropHexPrefix body else body
  let digits := body.takeWhile (isDigitOf base)
  if digits = [] then (0, text)
  else
    let size := number base digits
    let value :=
      if 2 ^ 64 ≤ size then 2 ^ 64 - 1
      else if negative then (2 ^ 64 - size) % 2 ^ 64
      else size
    (value, body.drop digits.length)

/-- The number at the beginning of a text, after white space and a sign; 0 if there is none. -/
def leadingNumber (text : List Char) : Int :=
  let (negative, body) := scanSign (skipSpace text)
  let size := number 10 (body.takeWhile (isDigitOf 10))
  if negative then -size else size

/-- `atoi`: `strtol` in base 10, converted to `int`. -/
def atoi (text : List Char) : Int :=
  (max longMin (min longMax (leadingNumber text))).bmod (2 ^ 32)

/-- `strspn`: the number of characters at the beginning that are in a set. -/
def strspn (text accepted : List Char) : Nat := (text.takeWhile (· ∈ accepted)).length

/-- A string without a zero byte is read back up to the zero byte that ends it. -/
theorem cString_append {text : List Char} (rest : List Char) (plain : '\x00' ∉ text)
    : cString (text ++ '\x00' :: rest) = text := by
  have all : ∀ c ∈ text, decide (c ≠ '\x00') = true :=
    fun c member => decide_eq_true fun zero => plain (zero ▸ member)
  rw [cString, List.takeWhile_append_of_pos all, List.takeWhile_cons_of_neg (by decide),
    List.append_nil]

theorem cString_eq_self {text : List Char} (plain : '\x00' ∉ text) : cString text = text := by
  rw [cString, List.takeWhile_eq_self_iff]
  exact fun c member => decide_eq_true fun zero => plain (zero ▸ member)

/-- A string goes on behind a text without a zero byte. -/
theorem cString_append_left {text : List Char} (rest : List Char) (plain : '\x00' ∉ text)
    : cString (text ++ rest) = text ++ cString rest := by
  apply List.takeWhile_append_of_pos
  intro c member
  exact decide_eq_true fun zero => plain (zero ▸ member)

theorem zero_not_mem_cString (memory : List Char) : '\x00' ∉ cString memory := by
  intro member
  have := List.mem_takeWhile_imp member
  simp at this

/-- Writing a string with its zero byte. -/
theorem overwrite_string (memory text : List Char)
    : overwrite memory (text ++ ['\x00'])
      = text ++ '\x00' :: memory.drop (text.length + 1) := by
  simp [overwrite]

theorem overwrite_overwrite (memory first second : List Char)
    : overwrite (overwrite memory first) second = overwrite memory (overwrite first second) := by
  simp only [overwrite, List.append_assoc, List.length_append, List.length_drop, List.drop_append,
    List.drop_drop]
  congr 3
  omega

/-- An array with given bytes behind those that are written. -/
theorem overwrite_replicate (bytes more : List Char)
    : overwrite (List.replicate bytes.length 'x' ++ more) bytes = bytes ++ more := by
  rw [overwrite, List.drop_left' (by simp)]

theorem store_eq_some {array bytes after : List Char} {index : Nat}
    : store array index bytes = some after
      ↔ index + bytes.length ≤ array.length
        ∧ after = array.take index ++ (bytes ++ array.drop (index + bytes.length)) := by
  rw [store]
  split
  · rename_i fits
    simp only [Option.some.injEq, fits, true_and, eq_comm]
  · rename_i past
    simp only [reduceCtorEq, past, false_and]

/-- Writing into an array does not change its size. -/
theorem store_length {array bytes after : List Char} {index : Nat}
    (stored : store array index bytes = some after)
    : after.length = array.length := by
  obtain ⟨fits, rfl⟩ := store_eq_some.mp stored
  simp only [List.length_append, List.length_take, List.length_drop]
  omega

/-- What stands before the index is kept. -/
theorem store_take {array bytes after : List Char} {index : Nat}
    (stored : store array index bytes = some after)
    : after.take index = array.take index := by
  obtain ⟨fits, rfl⟩ := store_eq_some.mp stored
  exact List.take_left' (by rw [List.length_take]; omega)

theorem store_isSome {array bytes : List Char} {index : Nat}
    (fits : index + bytes.length ≤ array.length)
    : ∃ after, store array index bytes = some after :=
  ⟨_, if_pos fits⟩

/-- What was written stands at the index. -/
theorem store_drop {array bytes after : List Char} {index : Nat}
    (stored : store array index bytes = some after)
    : bytes <+: after.drop index := by
  obtain ⟨fits, rfl⟩ := store_eq_some.mp stored
  rw [List.drop_left' (by rw [List.length_take]; omega)]
  exact List.prefix_append ..

theorem strcpy_isSome {array text : List Char} {index : Nat}
    : (strcpy array index text).isSome ↔ index + text.length < array.length := by
  rw [strcpy, store, Option.isSome_ite, List.length_append, List.length_singleton]
  exact Nat.succ_le_iff

theorem skipSpace_of_first {c : Char} (rest : List Char) (first : isSpace c = false)
    : skipSpace (c :: rest) = c :: rest :=
  List.dropWhile_cons_of_neg (by simp [first])

/-- A number as it is written with digits only. -/
structure Digits where
  chars : List Char
  some : chars ≠ []
  digits : ∀ c ∈ chars, c.isDigit = true

/-- The value of the digits. -/
def Digits.value (number : Digits) : Nat := decimal number.chars

theorem Digits.not_mem {number : Digits} {c : Char} (other : c.isDigit = false)
    : c ∉ number.chars := by
  intro member
  rw [number.digits c member] at other
  cases other

theorem ne_of_isDigit {c other : Char} (digit : c.isDigit = true) (different : other.isDigit = false)
    : c ≠ other := by
  rintro rfl
  rw [digit] at different
  cases different

theorem isSpace_of_isDigit {c : Char} (digit : c.isDigit = true) : isSpace c = false := by
  have other (space : Char) (different : space.isDigit = false) : decide (c = space) = false :=
    decide_eq_false (ne_of_isDigit digit different)
  rw [isSpace, other ' ' rfl, other '\t' rfl, other '\n' rfl, other '\x0b' rfl, other '\x0c' rfl,
    other '\r' rfl]
  rfl

theorem scanSign_of_isDigit {c : Char} (rest : List Char) (digit : c.isDigit = true)
    : scanSign (c :: rest) = (false, c :: rest) := by
  have minus := ne_of_isDigit digit (show ('-').isDigit = false by decide)
  have plus := ne_of_isDigit digit (show ('+').isDigit = false by decide)
  unfold scanSign
  split
  · rename_i same
    cases same
    exact absurd rfl minus
  · rename_i same
    cases same
    exact absurd rfl plus
  · rfl

/-- Digits that fit are read up to the first character that is none. -/
theorem scanUnsigned_digits (number : Digits) {bits : Nat} (fits : number.value < 2 ^ bits)
    (wide : bits ≤ 64) {rest : List Char} (ends : ∀ c ∈ rest.head?, c.isDigit = false)
    : scanUnsigned bits (number.chars ++ rest) = some (number.value, rest) := by
  obtain ⟨chars, nonempty, digits⟩ := number
  obtain ⟨c, tail, rfl⟩ := List.exists_cons_of_ne_nil nonempty
  have first := digits c List.mem_cons_self
  have stops : rest.takeWhile Char.isDigit = [] := by
    cases rest with
    | nil => rfl
    | cons next more => exact List.takeWhile_cons_of_neg (by simp [ends next rfl])
  have taken : (c :: tail ++ rest).takeWhile Char.isDigit = c :: tail := by
    rw [List.takeWhile_append_of_pos digits, stops, List.append_nil]
  have small : ¬ 2 ^ 64 ≤ decimal (c :: tail) := by
    have := Nat.pow_le_pow_right (show 0 < 2 by decide) wide
    change decimal (c :: tail) < 2 ^ bits at fits
    omega
  change decimal (c :: tail) < 2 ^ bits at fits
  have body : skipSpace (c :: tail ++ rest) = c :: tail ++ rest :=
    skipSpace_of_first _ (isSpace_of_isDigit first)
  have signless : scanSign (c :: tail ++ rest) = (false, c :: tail ++ rest) :=
    scanSign_of_isDigit _ first
  simp only [scanUnsigned, body, signless, taken, small, reduceCtorEq, if_false,
    Bool.false_eq_true, List.drop_left, Nat.mod_eq_of_lt fits, Digits.value]

/-- A word that fits is read whole. -/
theorem scanWord_of_word {width : Nat} {word rest : List Char} (some : word ≠ [])
    (fits : word.length ≤ width) (plain : ∀ c ∈ word, isSpace c = false)
    (ends : ∀ c ∈ rest.head?, isSpace c = true)
    : scanWord width (word ++ rest) = .some (word, rest) := by
  obtain ⟨c, tail, rfl⟩ := List.exists_cons_of_ne_nil some
  have skipped : skipSpace (c :: tail ++ rest) = c :: tail ++ rest :=
    skipSpace_of_first _ (plain c List.mem_cons_self)
  have stops : rest.takeWhile (!isSpace ·) = [] := by
    cases rest with
    | nil => rfl
    | cons first more => exact List.takeWhile_cons_of_neg (by simp [ends first rfl])
  have taken : (c :: tail ++ rest).takeWhile (!isSpace ·) = c :: tail := by
    rw [List.takeWhile_append_of_pos (fun c member => by simp [plain c member]), stops,
      List.append_nil]
  simp only [scanWord, skipped, taken, List.take_of_length_le fits, reduceCtorEq, if_false,
    List.drop_left]

theorem scanWord_space {c : Char} (width : Nat) (text : List Char) (space : isSpace c = true)
    : scanWord width (c :: text) = scanWord width text := by
  rw [scanWord, skipSpace, List.dropWhile_cons_of_pos space]
  rfl

/-- There is no word in white space, and a word in everything else. -/
theorem scanWord_eq_none {width : Nat} {text : List Char} (room : 0 < width)
    : scanWord width text = none ↔ ∀ c ∈ text, isSpace c = true := by
  rw [scanWord, ite_eq_left_iff]
  simp only [reduceCtorEq, imp_false, not_not]
  rw [List.take_eq_nil_iff, or_iff_right (by omega), ← List.dropWhile_eq_nil_iff]
  constructor
  · intro none
    by_contra some
    have first := List.head_dropWhile_not isSpace some
    obtain ⟨c, rest, same⟩ := List.exists_cons_of_ne_nil some
    rw [skipSpace, same] at none
    simp only [same, List.head_cons] at first
    rw [List.takeWhile_cons_of_pos (by simp [first])] at none
    cases none
  · intro none
    rw [skipSpace, none]
    rfl

theorem scanWord_length {width : Nat} {text word rest : List Char}
    (read : scanWord width text = some (word, rest))
    : word.length ≤ width := by
  rw [scanWord] at read
  split at read
  · cases read
  · cases read
    exact List.length_take_le _ _

theorem cutAt_append {c : Char} {before : List Char} (after : List Char) (absent : c ∉ before)
    : cutAt c (before ++ c :: after) = some (before, after) := by
  induction before with
  | nil => simp [cutAt]
  | cons head before ih =>
      rw [List.mem_cons, not_or] at absent
      simp [cutAt, Ne.symm absent.1, ih absent.2]

theorem cutAt_eq_none {c : Char} {text : List Char} (absent : c ∉ text) : cutAt c text = none := by
  induction text with
  | nil => rfl
  | cons head rest ih =>
      rw [List.mem_cons, not_or] at absent
      simp [cutAt, Ne.symm absent.1, ih absent.2]

/-- The text that is searched stands around the place that is found. -/
theorem afterFirst_eq_some {needle text rest : List Char} (found : afterFirst needle text = some rest)
    : ∃ before, text = before ++ (needle ++ rest) := by
  induction text with
  | nil =>
      rw [afterFirst] at found
      split at found
      · next empty =>
          cases found
          exact ⟨[], by rw [empty]; rfl⟩
      · cases found
  | cons c text ih =>
      rw [afterFirst] at found
      split at found
      · next here =>
          cases found
          exact ⟨[], (List.prefix_iff_eq_append.mp here).symm⟩
      · obtain ⟨before, rfl⟩ := ih found
        exact ⟨c :: before, rfl⟩

/-- A needle at the beginning is found there. -/
theorem afterFirst_append {needle : List Char} (rest : List Char) (some : needle ≠ [])
    : afterFirst needle (needle ++ rest) = .some rest := by
  obtain ⟨c, tail, rfl⟩ := List.exists_cons_of_ne_nil some
  have here : c :: tail <+: c :: (tail ++ rest) := ⟨rest, rfl⟩
  simp only [List.cons_append, afterFirst, here, if_true]
  rw [← List.cons_append, List.drop_left]

/-- What is found in a text is found with more behind the text. By induction on the text. -/
theorem afterFirst_append_right {needle text rest : List Char} (more : List Char)
    (found : afterFirst needle text = some rest)
    : afterFirst needle (text ++ more) = some (rest ++ more) := by
  induction text with
  | nil =>
      rw [afterFirst] at found
      split at found
      · next empty =>
          cases found
          subst empty
          cases more <;> simp [afterFirst]
      · cases found
  | cons c text ih =>
      have short : needle.length ≤ (c :: text).length := by
        obtain ⟨before, whole⟩ := afterFirst_eq_some found
        have sizes := congrArg List.length whole
        simp only [List.length_append] at sizes
        omega
      rw [afterFirst] at found
      rw [List.cons_append, afterFirst, ← List.cons_append]
      split at found
      · next here =>
          cases found
          rw [if_pos (here.trans (List.prefix_append _ more)), List.drop_append_of_le_length short]
      · next other =>
          rw [if_neg fun here =>
            other (List.prefix_of_prefix_length_le here (List.prefix_append _ more) short)]
          exact ih found

-----------------------------------------------------------------------------------------
-- Lines
-----------------------------------------------------------------------------------------

/-- Lines, each with the newline that ends it. -/
def unlines (lines : List (List Char)) : List Char := lines.flatMap (· ++ ['\n'])

@[simp] theorem unlines_nil : unlines [] = [] := rfl

@[simp] theorem unlines_cons (line : List Char) (lines : List (List Char))
    : unlines (line :: lines) = line ++ '\n' :: unlines lines := by
  simp [unlines]

theorem length_le_unlines (lines : List (List Char)) : lines.length ≤ (unlines lines).length := by
  induction lines with
  | nil => exact Nat.le_refl _
  | cons line lines ih =>
      simp only [unlines_cons, List.length_append, List.length_cons]
      omega

theorem length_lt_unlines {lines : List (List Char)} {line : List Char} (member : line ∈ lines)
    : line.length < (unlines lines).length := by
  induction lines with
  | nil => cases member
  | cons first lines ih =>
      simp only [unlines_cons, List.length_append, List.length_cons]
      rcases List.mem_cons.mp member with rfl | member
      · omega
      · have := ih member
        omega

theorem mem_unlines {lines : List (List Char)} {c : Char} (member : c ∈ unlines lines)
    : c = '\n' ∨ ∃ line ∈ lines, c ∈ line := by
  obtain ⟨line, found, member⟩ := List.mem_flatMap.mp member
  rcases List.mem_append.mp member with member | last
  · exact Or.inr ⟨line, found, member⟩
  · exact Or.inl (List.mem_singleton.mp last)

/-- The beginning of a text of lines consists of whole lines and of a part of the next one. -/
theorem unlines_split {lines : List (List Char)} {text rest : List Char}
    (whole : unlines lines = text ++ rest) (plain : ∀ line ∈ lines, '\n' ∉ line)
    : ∃ before after part, lines = before ++ after ∧ text = unlines before ++ part
        ∧ unlines after = part ++ rest ∧ '\n' ∉ part := by
  induction lines generalizing text with
  | nil => exact ⟨[], [], text, rfl, rfl, whole, by simp_all⟩
  | cons line lines ih =>
      rw [unlines_cons] at whole
      rcases List.append_eq_append_iff.mp whole with ⟨more, rfl, tail⟩ | ⟨more, rfl, tail⟩
      · -- the text reaches to the end of the first line or beyond it
        cases more with
        | nil =>
            refine ⟨[], line :: lines, line, rfl, by simp, ?_, plain line List.mem_cons_self⟩
            simpa using tail
        | cons c more =>
            obtain ⟨rfl, following⟩ := List.cons.inj tail
            obtain ⟨before, after, part, rfl, rfl, last, free⟩ :=
              ih following fun line member => plain line (List.mem_cons_of_mem _ member)
            exact ⟨line :: before, after, part, rfl, by simp, last, free⟩
      · refine ⟨[], (text ++ more) :: lines, text, rfl, by simp, by simp [tail], fun member => ?_⟩
        exact plain _ List.mem_cons_self (List.mem_append_left _ member)

-----------------------------------------------------------------------------------------
-- Hexadecimal numbers
-----------------------------------------------------------------------------------------

/-- A hexadecimal digit in upper or lower case. -/
def hexDigit (upper : Bool) (digit : Nat) : Char :=
  if digit < 10 then Char.ofNat ('0'.toNat + digit)
  else Char.ofNat ((if upper then 'A' else 'a').toNat + (digit - 10))

/-- `%0NX`, or `%0Nx` in lower case. -/
def hexText (upper : Bool) (width n : Nat) : List Char :=
  let digits := (Nat.digits 16 n).reverse.map (hexDigit upper)
  List.replicate (width - digits.length) '0' ++ digits

theorem hexText_length (upper : Bool) (width n : Nat)
    : (hexText upper width n).length = max width (Nat.digits 16 n).length := by
  simp only [hexText, List.length_append, List.length_replicate, List.length_map,
    List.length_reverse]
  omega

/-- A number below `16 ^ width` takes exactly `width` characters. -/
theorem hexText_length_of_lt {width n : Nat} (upper : Bool) (fits : n < 16 ^ width)
    : (hexText upper width n).length = width := by
  have short : (Nat.digits 16 n).length ≤ width := (Nat.digits_length_le_iff (by decide) n).mpr fits
  rw [hexText_length, max_eq_left short]

theorem hexDigit_upper_eq_lower {digit : Nat} (small : digit < 16)
    : hexDigit true digit = hexDigit false digit ↔ digit < 10 := by
  revert digit
  decide

/-- The two cases print the same text exactly if no digit is a letter. -/
theorem hexText_upper_eq_lower (width n : Nat)
    : hexText true width n = hexText false width n ↔ ∀ digit ∈ Nat.digits 16 n, digit < 10 := by
  simp only [hexText, List.length_map, List.append_cancel_left_eq, List.map_inj_left,
    List.mem_reverse]
  constructor
  · intro same digit member
    exact (hexDigit_upper_eq_lower (Nat.digits_lt_base (by decide) member)).mp (same digit member)
  · intro plain digit member
    exact (hexDigit_upper_eq_lower (Nat.digits_lt_base (by decide) member)).mpr
      (plain digit member)

theorem mem_hexText {upper : Bool} {width n : Nat} {c : Char} (h : c ∈ hexText upper width n)
    : ∃ digit < 16, c = hexDigit upper digit := by
  rw [hexText, List.mem_append, List.mem_map] at h
  rcases h with padding | ⟨digit, member, rfl⟩
  · rw [List.eq_of_mem_replicate padding]
    exact ⟨0, by decide, by cases upper <;> rfl⟩
  · rw [List.mem_reverse] at member
    exact ⟨digit, Nat.digits_lt_base (by decide) member, rfl⟩

/-- `%u`. -/
def decimalText (n : Nat) : List Char :=
  let digits := (Nat.digits 10 n).reverse.map (hexDigit false)
  List.replicate (1 - digits.length) '0' ++ digits

theorem mem_decimalText {n : Nat} {c : Char} (h : c ∈ decimalText n)
    : ∃ digit < 10, c = hexDigit false digit := by
  rw [decimalText, List.mem_append, List.mem_map] at h
  rcases h with padding | ⟨digit, member, rfl⟩
  · rw [List.eq_of_mem_replicate padding]
    exact ⟨0, by decide, rfl⟩
  · rw [List.mem_reverse] at member
    exact ⟨digit, Nat.digits_lt_base (by decide) member, rfl⟩

theorem decimalText_ne_nil (n : Nat) : decimalText n ≠ [] := by
  intro none
  have length := congrArg List.length none
  simp only [decimalText, List.length_append, List.length_replicate, List.length_nil] at length
  omega

theorem decimalText_length_le {n width : Nat} (some : 0 < width) (small : n < 10 ^ width)
    : (decimalText n).length ≤ width := by
  have digits : (Nat.digits 10 n).length ≤ width :=
    (Nat.digits_length_le_iff (by decide) n).mpr small
  simp only [decimalText, List.length_append, List.length_replicate, List.length_map,
    List.length_reverse]
  omega

theorem hexText_ne_nil (upper : Bool) {width : Nat} (n : Nat) (some : 0 < width)
    : hexText upper width n ≠ [] := by
  intro none
  have length := congrArg List.length none
  rw [hexText_length, List.length_nil] at length
  omega

theorem hexDigit_ne_zero {upper : Bool} {digit : Nat} (small : digit < 16)
    : hexDigit upper digit ≠ '\x00' := by
  revert digit upper
  decide

theorem zero_not_mem_hexText (upper : Bool) (width n : Nat) : '\x00' ∉ hexText upper width n := by
  intro member
  obtain ⟨digit, small, zero⟩ := mem_hexText member
  exact hexDigit_ne_zero small zero.symm

theorem number_append_singleton (base : Nat) (digits : List Char) (c : Char)
    : number base (digits ++ [c]) = base * number base digits + (digitValue c).getD 0 := by
  rw [number, List.foldl_append]
  rfl

theorem number_append (base : Nat) (digits rest : List Char)
    : number base (digits ++ rest)
      = base ^ rest.length * number base digits + number base rest := by
  induction rest using List.reverseRecOn with
  | nil => simp [number]
  | append_singleton rest c ih =>
      rw [← List.append_assoc, number_append_singleton, ih, number_append_singleton,
        List.length_append, List.length_singleton, pow_succ]
      ring

theorem digitValue_hexDigit {upper : Bool} {digit : Nat} (small : digit < 16)
    : digitValue (hexDigit upper digit) = some digit := by
  revert digit upper
  decide

/-- The digits of a number have its value. -/
theorem number_digits (upper : Bool) {base : Nat} (digits : List Nat)
    (small : ∀ digit ∈ digits, digit < 16)
    : number base (digits.reverse.map (hexDigit upper)) = Nat.ofDigits base digits := by
  induction digits with
  | nil => rfl
  | cons digit digits ih =>
      have rest : ∀ other ∈ digits, other < 16 :=
        fun other member => small other (List.mem_cons_of_mem _ member)
      have first : digitValue (hexDigit upper digit) = some digit :=
        digitValue_hexDigit (small digit List.mem_cons_self)
      rw [List.reverse_cons, List.map_append, List.map_singleton, number_append_singleton,
        ih rest, first, Nat.ofDigits_cons, Option.getD_some]
      exact Nat.add_comm _ _

/-- Leading zeros change nothing. -/
theorem number_padded (base padding : Nat) (digits : List Char)
    : number base (List.replicate padding '0' ++ digits) = number base digits := by
  induction padding with
  | zero => rfl
  | succ padding ih =>
      rw [List.replicate_succ, List.cons_append, ← ih]
      rfl

theorem number_hexText (upper : Bool) (width n : Nat) : number 16 (hexText upper width n) = n := by
  have small : ∀ digit ∈ Nat.digits 16 n, digit < 16 :=
    fun _ member => Nat.digits_lt_base (by decide) member
  rw [hexText, number_padded, number_digits upper _ small, Nat.ofDigits_digits]

theorem number_decimalText (n : Nat) : number 10 (decimalText n) = n := by
  have small : ∀ digit ∈ Nat.digits 10 n, digit < 16 := by
    intro digit member
    have ten := Nat.digits_lt_base (by decide) member
    omega
  rw [decimalText, number_padded, number_digits false _ small, Nat.ofDigits_digits]

theorem strspn_eq_length {text accepted : List Char}
    : strspn text accepted = text.length ↔ ∀ c ∈ text, c ∈ accepted := by
  rw [strspn, (List.takeWhile_prefix _).sublist.length_eq, List.takeWhile_eq_self_iff]
  simp only [decide_eq_true_eq]

theorem isSpace_of_isDigitOf {base : Nat} {c : Char} (digit : isDigitOf base c = true)
    : isSpace c = false := by
  by_contra space
  rw [Bool.not_eq_false, isSpace] at space
  simp only [Bool.or_eq_true, decide_eq_true_eq] at space
  rcases space with ((((rfl | rfl) | rfl) | rfl) | rfl) | rfl <;> cases digit

theorem scanSign_of_isDigitOf {base : Nat} {c : Char} (rest : List Char)
    (digit : isDigitOf base c = true)
    : scanSign (c :: rest) = (false, c :: rest) := by
  have minus : c ≠ '-' := by
    rintro rfl
    cases digit
  have plus : c ≠ '+' := by
    rintro rfl
    cases digit
  simp [scanSign, minus, plus]

/-- Digits have no prefix. -/
theorem dropHexPrefix_digits {text : List Char} (digits : ∀ c ∈ text, isDigitOf 16 c = true)
    : dropHexPrefix text = text := by
  unfold dropHexPrefix
  split
  · next x d rest =>
      have digit := digits x (by simp)
      have lower : x ≠ 'x' := by
        rintro rfl
        exact absurd digit (by decide)
      have upper : x ≠ 'X' := by
        rintro rfl
        exact absurd digit (by decide)
      simp [lower, upper]
  · rfl

/-- A text of digits only is read whole, and saturates. -/
theorem strtoul_digits {base : Nat} {text : List Char}
    (digits : ∀ c ∈ text, isDigitOf base c = true)
    : strtoul base text
      = (if 2 ^ 64 ≤ number base text then 2 ^ 64 - 1 else number base text, []) := by
  cases text with
  | nil => simp [strtoul, skipSpace, scanSign, dropHexPrefix, number]
  | cons c rest =>
      have first := digits c List.mem_cons_self
      have all : (c :: rest).takeWhile (isDigitOf base) = c :: rest :=
        List.takeWhile_eq_self_iff.mpr digits
      have body : (if base = 16 then dropHexPrefix (c :: rest) else c :: rest) = c :: rest := by
        split
        · next hex =>
            rw [hex] at digits
            exact dropHexPrefix_digits digits
        · rfl
      rw [strtoul, skipSpace_of_first rest (isSpace_of_isDigitOf first),
        scanSign_of_isDigitOf rest first]
      simp only [body, all]
      rw [if_neg (List.cons_ne_nil _ _), List.drop_length]
      rfl

/-- The characters of texts with separators between them. -/
theorem mem_intercalate {separator : List Char} {items : List (List Char)} {c : Char}
    (member : c ∈ separator.intercalate items)
    : c ∈ separator ∨ ∃ item ∈ items, c ∈ item := by
  induction items with
  | nil => cases member
  | cons first rest ih =>
      cases rest with
      | nil => exact Or.inr ⟨first, List.mem_cons_self, by simpa [List.intercalate] using member⟩
      | cons second rest =>
          simp only [List.intercalate, List.intersperse_cons_cons, List.flatten_cons,
            List.mem_append] at member ih
          rcases member with here | between | later
          · exact Or.inr ⟨first, List.mem_cons_self, here⟩
          · exact Or.inl between
          · rcases ih later with between | ⟨item, listed, inside⟩
            · exact Or.inl between
            · exact Or.inr ⟨item, List.mem_cons_of_mem _ listed, inside⟩

/-- The tokens of a list are its entries that are not empty. -/
theorem tokens_intercalate {separator : Char} {items : List (List Char)} (some : items ≠ [])
    (apart : ∀ item ∈ items, separator ∉ item)
    : tokens separator ([separator].intercalate items) = items.filter (· ≠ []) := by
  rw [tokens, List.splitOn_intercalate separator apart some]

/-- Digits that are followed by none are the number at the beginning. -/
theorem leadingNumber_digits {digits rest : List Char} (some : digits ≠ [])
    (all : ∀ c ∈ digits, isDigitOf 10 c = true) (last : ∀ c ∈ rest.head?, isDigitOf 10 c = false)
    : leadingNumber (digits ++ rest) = number 10 digits := by
  obtain ⟨c, more, rfl⟩ := List.exists_cons_of_ne_nil some
  have first := all c List.mem_cons_self
  have run : (c :: more ++ rest).takeWhile (isDigitOf 10) = c :: more := by
    rw [List.takeWhile_append_of_pos all]
    cases rest with
    | nil => exact List.append_nil _
    | cons d rest => rw [List.takeWhile_cons_of_neg (by simp [last d rfl]), List.append_nil]
  rw [List.cons_append] at run ⊢
  rw [leadingNumber, skipSpace_of_first _ (isSpace_of_isDigitOf first),
    scanSign_of_isDigitOf _ first]
  dsimp only
  rw [run]
  rfl

/-- What `atoi` returns, as an `unsigned`. -/
theorem atoi_emod (text : List Char)
    : atoi text % 2 ^ 32 = max longMin (min longMax (leadingNumber text)) % 2 ^ 32 :=
  Int.bmod_emod

theorem isDigitOf_ten (c : Char) : isDigitOf 10 c = c.isDigit := by
  rw [isDigitOf, digitValue]
  split
  · next digit =>
      have high : c.toNat ≤ '9'.toNat := by
        simp only [Char.isDigit, Bool.and_eq_true, decide_eq_true_eq] at digit
        exact digit.2
      have nine : '9'.toNat = '0'.toNat + 9 := rfl
      have small : c.toNat - '0'.toNat < 10 := by omega
      rw [digit, Option.any_some, decide_eq_true small]
  · split
    · simp [*]
    · split <;> simp [*]

theorem mem_of_mem_splitOn {separator : Char} {text item : List Char}
    (member : item ∈ text.splitOn separator)
    : ∀ c ∈ item, c ∈ text ∧ c ≠ separator := by
  induction text generalizing item with
  | nil =>
      rw [List.splitOn_nil, List.mem_singleton] at member
      simp [member]
  | cons first rest ih =>
      rw [List.splitOn_cons_eq_if_modifyHead] at member
      split at member
      · rcases List.mem_cons.mp member with rfl | later
        · simp
        · exact fun c inside => ⟨List.mem_cons_of_mem _ (ih later c inside).1, (ih later c inside).2⟩
      · next other =>
          obtain ⟨head, tail, split⟩ := List.exists_cons_of_ne_nil (List.splitOn_ne_nil separator rest)
          rw [split, List.modifyHead_cons] at member
          rw [split] at ih
          intro c inside
          rcases List.mem_cons.mp member with rfl | later
          · rcases List.mem_cons.mp inside with rfl | inside
            · exact ⟨List.mem_cons_self, by simpa using other⟩
            · have found := ih List.mem_cons_self c inside
              exact ⟨List.mem_cons_of_mem _ found.1, found.2⟩
          · have found := ih (List.mem_cons_of_mem _ later) c inside
            exact ⟨List.mem_cons_of_mem _ found.1, found.2⟩

-----------------------------------------------------------------------------------------
-- Texts that are printed one after another
-----------------------------------------------------------------------------------------

theorem intercalate_append_singleton {entries : List (List Char)} (separator : List Char)
    (some : entries ≠ []) (last : List Char)
    : separator.intercalate (entries ++ [last])
      = separator.intercalate entries ++ (separator ++ last) := by
  induction entries with
  | nil => exact absurd rfl some
  | cons first rest ih =>
      cases rest with
      | nil => simp [List.intercalate]
      | cons second rest =>
          have ih := ih (List.cons_ne_nil _ _)
          simp only [List.intercalate, List.cons_append, List.intersperse_cons_cons,
            List.flatten_cons, List.append_assoc] at ih ⊢
          rw [ih]

theorem zero_not_mem_decimalText (n : Nat) : '\x00' ∉ decimalText n := by
  intro member
  obtain ⟨digit, small, zero⟩ := mem_decimalText member
  exact hexDigit_ne_zero (by omega) zero.symm

/-- A string that begins an array and is followed by a zero byte is the string of the array. -/
theorem cString_of_prefix {array text : List Char} (plain : '\x00' ∉ text)
    (here : text ++ ['\x00'] <+: array)
    : cString array = text := by
  obtain ⟨rest, rfl⟩ := here
  rw [List.append_assoc]
  exact cString_append rest plain

/-- A text is printed behind another one in an array, as far as there is room. -/
theorem snprintf_at {array printed : List Char} (text : List Char) (here : printed <+: array)
    (room : printed.length < array.length)
    : ∃ after, snprintf array printed.length (array.length - printed.length) text = some after
        ∧ after.length = array.length
        ∧ printed ++ text.take (array.length - printed.length - 1) ++ ['\x00'] <+: after := by
  generalize cut : text.take (array.length - printed.length - 1) = short
  have fits : printed.length + (short ++ ['\x00']).length ≤ array.length := by
    rw [List.length_append, List.length_singleton, ← cut, List.length_take]
    omega
  obtain ⟨after, stored⟩ := store_isSome fits
  refine ⟨after, by rw [snprintf, cut]; exact stored, store_length stored, ?_⟩
  have first : after.take printed.length = printed := by
    rw [store_take stored]
    exact (List.prefix_iff_eq_take.mp here).symm
  obtain ⟨rest, next⟩ := store_drop stored
  refine ⟨rest, ?_⟩
  calc printed ++ short ++ ['\x00'] ++ rest
      = after.take printed.length ++ (short ++ ['\x00'] ++ rest) := by
        rw [first, List.append_assoc, List.append_assoc, List.append_assoc]
    _ = after := by rw [next, List.take_append_drop]

/-- With room for the whole text, all of it is printed. -/
theorem snprintf_behind {array printed : List Char} (text : List Char) (here : printed <+: array)
    (fits : printed.length + text.length < array.length)
    : ∃ after, snprintf array printed.length (array.length - printed.length) text = some after
        ∧ after.length = array.length ∧ printed ++ text ++ ['\x00'] <+: after := by
  obtain ⟨after, done, length, begins⟩ := snprintf_at text here (by omega)
  rw [List.take_of_length_le (by omega)] at begins
  exact ⟨after, done, length, begins⟩

/-- A zero byte in an array ends its string there. -/
theorem store_zero {array before : List Char} (here : before <+: array)
    (room : before.length < array.length)
    : ∃ after, store array before.length ['\x00'] = some after ∧ after.length = array.length
        ∧ before ++ ['\x00'] <+: after := by
  have fits : before.length + ['\x00'].length ≤ array.length := room
  obtain ⟨after, stored⟩ := store_isSome fits
  refine ⟨after, stored, store_length stored, ?_⟩
  have first : after.take before.length = before := by
    rw [store_take stored]
    exact (List.prefix_iff_eq_take.mp here).symm
  obtain ⟨more, next⟩ := store_drop stored
  refine ⟨more, ?_⟩
  calc before ++ ['\x00'] ++ more = after.take before.length ++ (['\x00'] ++ more) := by
        rw [first, List.append_assoc]
    _ = after := by rw [next, List.take_append_drop]

/-- A text that is printed at the beginning of an array is the string of the array, if it fits. -/
theorem snprintf_first {array : List Char} (text : List Char) (room : 0 < array.length)
    : ∃ after, snprintf array 0 array.length text = some after ∧ after.length = array.length
        ∧ text.take (array.length - 1) ++ ['\x00'] <+: after :=
  snprintf_at text List.nil_prefix room

/-- `snprintf` with some room leaves a zero byte. -/
theorem zero_mem_of_snprintf {array text after : List Char} {index len : Nat}
    (printed : snprintf array index len text = some after)
    : '\x00' ∈ after := by
  obtain ⟨rest, next⟩ := store_drop printed
  have member : '\x00' ∈ after.drop index := by
    rw [← next]
    exact List.mem_append_left _ (List.mem_append_right _ List.mem_cons_self)
  exact List.mem_of_mem_drop member

theorem cString_length_lt {array : List Char} (terminated : '\x00' ∈ array)
    : (cString array).length < array.length := by
  obtain ⟨rest, whole⟩ : cString array <+: array := List.takeWhile_prefix _
  cases rest with
  | nil =>
      rw [List.append_nil] at whole
      rw [← whole] at terminated
      exact absurd terminated (zero_not_mem_cString array)
  | cons c rest =>
      have length := congrArg List.length whole
      rw [List.length_append, List.length_cons] at length
      omega

end CText
