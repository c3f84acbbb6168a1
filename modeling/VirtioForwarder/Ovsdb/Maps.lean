import VirtioForwarder.Ovsdb.Parser

/-! Maps as OVSDB prints them: pairs in braces, with the strings bare or in quotes. `parse_map`
reads them back, and the last pair with a virtio key decides.
-/

namespace VirtioForwarder

open CText

-----------------------------------------------------------------------------------------
-- Strings of a map
-----------------------------------------------------------------------------------------

/-- The characters of a bare string. -/
def isBareChar (c : Char) : Bool :=
  !isSpace c && c ∉ ['\x00', ',', '=', '"', '\\', '{', '}']

/-- A character in quotes, with a backslash before it or without. -/
def printChar : Bool × Char → List Char
  | (true, c) => ['\\', c]
  | (false, c) => [c]

/-- Characters that can stand in quotes: quotes and backslashes need a backslash. -/
def Quotable (chars : List (Bool × Char)) : Prop :=
  ∀ char ∈ chars, char.2 ≠ '\x00' ∧ (char.1 = false → char.2 ≠ '"' ∧ char.2 ≠ '\\')

/-- The ways to print a string of a map. -/
inductive ShownAs : List Char → List Char → Prop
  | bare {text : List Char} (some : text ≠ []) (plain : ∀ c ∈ text, isBareChar c = true)
      : ShownAs text text
  | quoted {chars : List (Bool × Char)} (quotable : Quotable chars)
      : ShownAs (chars.map Prod.snd) ('"' :: (chars.flatMap printChar ++ ['"']))

/-- A string of a map with what is printed for it. -/
structure MapString where
  text : List Char
  shown : List Char
  shownAs : ShownAs text shown

theorem MapString.zero_not_mem_text (string : MapString) : '\x00' ∉ string.text := by
  obtain ⟨text, shown, shownAs⟩ := string
  intro member
  cases shownAs with
  | bare _ plain => exact absurd (plain _ member) (by decide)
  | quoted quotable =>
      obtain ⟨char, found, zero⟩ := List.mem_map.mp member
      exact (quotable char found).1 zero

/-- Characters that are copied from quotes: one after a backslash is copied in any case. -/
def Copied (chars : List (Bool × Char)) : Prop :=
  ∀ char ∈ chars, char.1 = false → char.2 ≠ '\x00' ∧ char.2 ≠ '"' ∧ char.2 ≠ '\\'

theorem Quotable.copied {chars : List (Bool × Char)} (quotable : Quotable chars) : Copied chars :=
  fun char member plain => ⟨(quotable char member).1, (quotable char member).2 plain⟩

/-- The loop over a quoted string copies characters one by one. -/
theorem scanQuotedString_append {chars : List (Bool × Char)} (copied : Copied chars)
    (map : List Char)
    : scanQuotedString (chars.flatMap printChar ++ map)
      = { scanQuotedString map with
          copied := chars.map Prod.snd ++ (scanQuotedString map).copied } := by
  induction chars with
  | nil => rfl
  | cons char chars ih =>
      obtain ⟨escaped, c⟩ := char
      have later := ih fun char member => copied char (List.mem_cons_of_mem _ member)
      cases escaped with
      | true => simp [printChar, scanQuotedString, later, QuotedString.push]
      | false =>
          have here := copied (false, c) List.mem_cons_self rfl
          simp only [printChar, List.flatMap_cons, List.cons_append, List.nil_append,
            scanQuotedString_plain _ here.1 here.2, later, QuotedString.push, List.map_cons]

/-- `parse_map` reads the string in quotes back. -/
theorem scanQuotedString_print {chars : List (Bool × Char)} (rest : List Char)
    (copied : Copied chars)
    : scanQuotedString (chars.flatMap printChar ++ '"' :: rest)
      = ⟨chars.map Prod.snd, true, rest⟩ := by
  rw [scanQuotedString_append copied, scanQuotedString_quote, List.append_nil]

/-- The beginning of a bare string is neither white space nor one of the marks. -/
theorem bare_first {text : List Char} (some : text ≠ [])
    (plain : ∀ c ∈ text, isBareChar c = true)
    : ∃ c more, text = c :: more ∧ isSpace c = false ∧ c ∉ ['"', '}'] := by
  obtain ⟨c, more, rfl⟩ := List.exists_cons_of_ne_nil some
  have first := plain c List.mem_cons_self
  simp only [isBareChar, Bool.and_eq_true, Bool.not_eq_true', decide_eq_true_eq] at first
  refine ⟨c, more, rfl, first.1, fun member => first.2 ?_⟩
  revert member
  simp only [List.mem_cons, List.not_mem_nil, or_false]
  rintro (rfl | rfl) <;> simp

theorem MapString.skipSpace_shown (string : MapString) (rest : List Char)
    : skipSpace (string.shown ++ rest) = string.shown ++ rest := by
  obtain ⟨text, shown, shownAs⟩ := string
  cases shownAs with
  | bare some plain =>
      obtain ⟨c, more, rfl, visible, _⟩ := bare_first some plain
      exact skipSpace_of_first _ visible
  | quoted _ => exact skipSpace_of_first _ (by decide)

theorem isBare_of_isBareChar {stops : List Char} (few : stops ⊆ [',', '=', '}']) {c : Char}
    (bare : isBareChar c = true)
    : isBare stops c = true := by
  simp only [isBareChar, Bool.and_eq_true, Bool.not_eq_true', decide_eq_true_eq] at bare
  have stop : c ∉ stops := by
    intro member
    have := few member
    simp_all
  have zero : c ≠ '\x00' := by
    rintro rfl
    simp at bare
  simp [isBare, bare.1, zero, stop]

/-- A bare string ends before one of the characters that end it. -/
theorem bare_of_stop (stops : List Char) {text : List Char} {c : Char} (rest : List Char)
    (plain : ∀ c ∈ text, isBareChar c = true) (few : stops ⊆ [',', '=', '}']) (stop : c ∈ stops)
    : (text ++ c :: rest).takeWhile (isBare stops) = text
      ∧ (text ++ c :: rest).dropWhile (isBare stops) = c :: rest := by
  have all : ∀ d ∈ text, isBare stops d = true :=
    fun d member => isBare_of_isBareChar few (plain d member)
  have ends : ¬ isBare stops c = true := by simp [isBare, stop]
  rw [List.takeWhile_append_of_pos all, List.dropWhile_append_of_pos all,
    List.takeWhile_cons_of_neg ends, List.dropWhile_cons_of_neg ends, List.append_nil]
  exact ⟨rfl, rfl⟩

-----------------------------------------------------------------------------------------
-- Pairs
-----------------------------------------------------------------------------------------

/-- The pairs of a map. -/
abbrev MapPairs := List (MapString × MapString)

/-- What is printed between the braces. -/
def showPairs : MapPairs → List Char
  | [] => []
  | [(key, val)] => key.shown ++ '=' :: val.shown
  | (key, val) :: pairs => key.shown ++ '=' :: (val.shown ++ ',' :: ' ' :: showPairs pairs)

/-- What is printed for a map. -/
def showMap (pairs : MapPairs) : List Char := '{' :: (showPairs pairs ++ ['}'])

/-- The configuration after the pairs, of which the last one with a virtio key decides. -/
def PortConfig.ofPairs (config : PortConfig) (pairs : MapPairs) : PortConfig :=
  pairs.foldl (fun config pair => config.assign pair.1.text pair.2.text) config

/-- `STATE_KEY` reads a key. -/
theorem MapParser.stepKey_shown {p : MapParser} (key : MapString) (rest : List Char)
    (map : p.map = key.shown ++ '=' :: rest)
    : p.stepKey = { p with parserState := .eq, map := '=' :: rest, key := key.text } := by
  obtain ⟨state, memory, old, val, config⟩ := p
  subst map
  obtain ⟨text, shown, shownAs⟩ := key
  cases shownAs with
  | bare some plain =>
      obtain ⟨taken, left⟩ := bare_of_stop ['='] (c := '=') rest plain (by decide) (by decide)
      obtain ⟨c, more, rfl, _, first⟩ := bare_first some plain
      simp only [List.mem_cons, List.not_mem_nil, or_false, not_or] at first
      simp only [List.cons_append] at taken left
      simp only [stepKey, List.cons_append, peek_cons, first.1, first.2, if_false, taken, left]
  | quoted quotable =>
      have read := scanQuotedString_print ('=' :: rest) quotable.copied
      simp [stepKey, read]

/-- A value is read up to its zero byte. -/
theorem PortConfig.assign_overwrite (config : PortConfig) (key memory : List Char) {text : List Char}
    (plain : '\x00' ∉ text)
    : config.assign key (overwrite memory (text ++ ['\x00'])) = config.assign key text := by
  simp only [assign, ofValue, overwrite_string, cString_append _ plain, cString_eq_self plain]

/-- `STATE_VAL` reads a value up to a comma or the closing brace. -/
theorem MapParser.stepVal_shown {p : MapParser} (val : MapString) {c : Char} (rest : List Char)
    (map : p.map = val.shown ++ c :: rest) (ends : c = ',' ∨ c = '}')
    : ∃ left,
        p.stepVal = { p with
          parserState := .sep
          map := c :: rest
          val := left
          config := p.config.assign p.key val.text } := by
  have zeroless := val.zero_not_mem_text
  obtain ⟨state, memory, key, old, config⟩ := p
  subst map
  obtain ⟨text, shown, shownAs⟩ := val
  have assigned := config.assign_overwrite key old zeroless
  refine ⟨overwrite old (text ++ ['\x00']), ?_⟩
  rw [← assigned]
  cases shownAs with
  | bare some plain =>
      obtain ⟨taken, left⟩ := bare_of_stop [',', '}'] (c := c) rest plain (by decide)
        (by simpa using ends)
      obtain ⟨d, more, rfl, _, first⟩ := bare_first some plain
      simp only [List.mem_cons, List.not_mem_nil, or_false, not_or] at first
      simp only [List.cons_append] at taken left
      simp only [stepVal, List.cons_append, peek_cons, first.1, if_false, taken, left]
  | quoted quotable =>
      have read := scanQuotedString_print (c :: rest) quotable.copied
      simp [stepVal, read]

/-- A pair takes `STATE_KEY`, `STATE_EQ` and `STATE_VAL`. -/
theorem MapParser.finish_pair {p : MapParser} (key val : MapString) {c : Char} (rest : List Char)
    (state : p.parserState = .key)
    (map : skipSpace p.map = key.shown ++ '=' :: (val.shown ++ c :: rest))
    (ends : c = ',' ∨ c = '}')
    : ∃ q : MapParser,
        p.finish = q.finish ∧ q.parserState = .sep ∧ q.map = c :: rest
        ∧ q.config = p.config.assign key.text val.text := by
  let afterKey : MapParser := ⟨.eq, '=' :: (val.shown ++ c :: rest), key.text, p.val, p.config⟩
  let afterEq : MapParser := ⟨.val, val.shown ++ c :: rest, key.text, p.val, p.config⟩
  have first : p.step = afterKey := by
    simp only [step, state]
    exact stepKey_shown key _ map
  have second : afterKey.step = afterEq := by
    have sunk : skipSpace afterKey.map = '=' :: (val.shown ++ c :: rest) :=
      skipSpace_of_first _ (by decide)
    exact stepExpect_here (p := { afterKey with map := skipSpace afterKey.map }) .val sunk
      (List.mem_singleton_self '=')
  obtain ⟨left, third⟩ := stepVal_shown (p := { afterEq with map := skipSpace afterEq.map }) val
    rest (val.skipSpace_shown _) ends
  refine ⟨⟨.sep, c :: rest, key.text, left, p.config.assign key.text val.text⟩, ?_, rfl, rfl, rfl⟩
  rw [finish_step (by simp [state]), first, finish_step (p := afterKey) (by simp [afterKey]),
    second, finish_step (p := afterEq) (by simp [afterEq])]
  exact congrArg finish third

/-- The closing brace ends the map. -/
theorem MapParser.finish_brace {p : MapParser} {rest : List Char}
    (state : p.parserState = .key ∨ p.parserState = .sep) (map : skipSpace p.map = '}' :: rest)
    : p.finish.config = p.config := by
  have closed : p.step = { p with parserState := .done, map := '}' :: rest } := by
    rcases state with state | state
    · simp [step, state, stepKey, map]
    · simp only [step, state]
      exact stepExpect_other .key map (by decide) (by decide)
  have going : p.parserState ≠ .done := by
    rcases state with state | state <;> simp [state]
  rw [finish_step going, closed, finish_of_done rfl]

theorem skipSpace_showPairs (pairs : MapPairs) (rest : List Char)
    : skipSpace (showPairs pairs ++ '}' :: rest) = showPairs pairs ++ '}' :: rest := by
  fun_cases showPairs pairs with
  | case1 => exact skipSpace_of_first _ (by decide)
  | case2 key val =>
      rw [List.append_assoc]
      exact key.skipSpace_shown _
  | case3 key val pairs =>
      rw [List.append_assoc]
      exact key.skipSpace_shown _

/-- From one of the pairs on, `parse_map` assigns what is left of them. By induction on the
pairs.
-/
theorem MapParser.finish_pairs {p : MapParser} (pairs : MapPairs) (rest : List Char)
    (state : p.parserState = .key) (map : skipSpace p.map = showPairs pairs ++ '}' :: rest)
    : p.finish.config = p.config.ofPairs pairs := by
  induction pairs generalizing p with
  | nil => exact finish_brace (Or.inl state) map
  | cons pair pairs ih =>
      obtain ⟨key, val⟩ := pair
      cases pairs with
      | nil =>
          simp only [showPairs, List.append_assoc, List.cons_append] at map
          obtain ⟨q, same, sep, left, assigned⟩ :=
            finish_pair key val rest state map (Or.inr rfl)
          have brace : skipSpace q.map = '}' :: rest := by
            rw [left, skipSpace_of_first _ (by decide)]
          rw [same, finish_brace (Or.inr sep) brace, assigned]
          rfl
      | cons next pairs =>
          have whole : showPairs ((key, val) :: next :: pairs) ++ '}' :: rest
              = key.shown ++ '=' :: (val.shown
                ++ ',' :: ' ' :: (showPairs (next :: pairs) ++ '}' :: rest)) := by
            simp [showPairs]
          obtain ⟨q, same, sep, left, assigned⟩ :=
            finish_pair key val _ state (map.trans whole) (Or.inl rfl)
          let afterComma : MapParser :=
            ⟨.key, ' ' :: (showPairs (next :: pairs) ++ '}' :: rest), q.key, q.val, q.config⟩
          have comma : q.step = afterComma := by
            have sunk : skipSpace q.map
                = ',' :: ' ' :: (showPairs (next :: pairs) ++ '}' :: rest) := by
              rw [left, skipSpace_of_first _ (by decide)]
            simp only [step, sep]
            exact stepExpect_here (p := { q with map := skipSpace q.map }) .key sunk (by decide)
          have further := ih (p := afterComma) rfl (skipSpace_showPairs (next :: pairs) rest)
          rw [same, finish_step (by simp [sep]), comma, further]
          simp only [PortConfig.ofPairs, List.foldl_cons, afterComma, assigned]

/-- **Maps**: `parse_map` reads back what was printed, whatever follows the map and stood in
its arrays.
-/
theorem parseMap_showMap (val rest : List Char) (pairs : MapPairs)
    : parseMap val (showMap pairs ++ rest) = PortConfig.ofPairs ⟨false, 0⟩ pairs := by
  let first : MapParser := ⟨.start, showMap pairs ++ rest, [], val, ⟨false, 0⟩⟩
  let afterStart : MapParser := ⟨.key, showPairs pairs ++ '}' :: rest, [], val, ⟨false, 0⟩⟩
  have opened : first.step = afterStart := by
    have sunk : skipSpace first.map = '{' :: (showPairs pairs ++ '}' :: rest) := by
      have whole : first.map = '{' :: (showPairs pairs ++ '}' :: rest) := by
        simp [first, showMap]
      rw [whole, skipSpace_of_first _ (by decide)]
    exact MapParser.stepExpect_here (p := { first with map := skipSpace first.map }) .key sunk
      (List.mem_singleton_self '{')
  have parsed := MapParser.finish_pairs (p := afterStart) pairs rest rfl
    (skipSpace_showPairs pairs rest)
  rw [← parsed, ← opened, ← MapParser.finish_step (p := first) nofun]
  rfl

-----------------------------------------------------------------------------------------
-- The last pair decides
-----------------------------------------------------------------------------------------

/-- The value of the last pair with a virtio key. -/
def LastVirtioValue (pairs : MapPairs) (value : List Char) : Prop :=
  ∃ before key val after,
    pairs = before ++ (key, val) :: after ∧ isVirtioKey key.text = true ∧ value = val.text
    ∧ ∀ pair ∈ after, isVirtioKey pair.1.text = false

/-- `strtol` reads the number from a beginning of the text that is not empty, and it is in
range.
-/
def HasNumber (text : List Char) (number : Int) : Prop :=
  (∃ digits, digits ≠ [] ∧ text = digits ++ (strtol text).endptr)
  ∧ (strtol text).erange = false ∧ (strtol text).value = number

theorem scanSign_suffix (text : List Char) : (scanSign text).2 <:+ text := by
  fun_cases scanSign text with
  | case1 rest => exact List.suffix_cons _ _
  | case2 rest => exact List.suffix_cons _ _
  | case3 => exact List.suffix_refl _

theorem scanBase_suffix (text : List Char) : (scanBase text).2 <:+ text := by
  fun_cases scanBase text with
  | case1 x d rest => exact ⟨['0', x], rfl⟩
  | case2 x d rest => exact List.suffix_refl _
  | case3 rest => exact List.suffix_refl _
  | case4 => exact List.suffix_refl _

/-- What `strtol` searches for digits is the end of the text. -/
theorem strtol_body_suffix (text : List Char)
    : (scanBase (scanSign (skipSpace text)).2).2 <:+ text :=
  ((scanBase_suffix _).trans (scanSign_suffix _)).trans (List.dropWhile_suffix _)

/-- `strtol` reads nothing, or a number that it cuts to the limits and the end of the text. -/
theorem strtol_cases (text : List Char)
    : strtol text = ⟨0, text, false⟩
      ∨ ∃ (value : Int) (rest : List Char), rest <:+ text
          ∧ strtol text
            = if value < longMin then ⟨longMin, rest, true⟩
              else if longMax < value then ⟨longMax, rest, true⟩
              else ⟨value, rest, false⟩ := by
  by_cases none : (scanBase (scanSign (skipSpace text)).2).2.takeWhile
      (isDigitOf (scanBase (scanSign (skipSpace text)).2).1) = []
  · exact Or.inl (by simp only [strtol, none, if_true])
  · right
    simp only [strtol, none, if_false]
    exact ⟨_, _, (List.drop_suffix _ _).trans (strtol_body_suffix text), rfl⟩

theorem strtol_endptr_suffix (text : List Char) : (strtol text).endptr <:+ text := by
  rcases strtol_cases text with nothing | ⟨value, rest, suffix, read⟩
  · rw [nothing]
  · rw [read]
    split
    · exact suffix
    · split
      · exact suffix
      · exact suffix

/-- A range error leaves one of the limits. -/
theorem strtol_erange {text : List Char} (erange : (strtol text).erange = true)
    : (strtol text).value = longMax ∨ (strtol text).value = longMin := by
  rcases strtol_cases text with nothing | ⟨value, rest, suffix, read⟩
  · rw [nothing] at erange
    cases erange
  · rw [read] at erange ⊢
    split at erange
    · rename_i below
      rw [if_pos below]
      exact Or.inr rfl
    · rename_i within
      split at erange
      · rename_i above
        rw [if_neg within, if_pos above]
        exact Or.inl rfl
      · cases erange

/-- The id is taken exactly if the value has a number. -/
theorem PortConfig.ofValue_enabled {text : List Char} (plain : '\x00' ∉ text)
    : (PortConfig.ofValue text).virtioEnabled = true
      ↔ HasNumber text (PortConfig.ofValue text).virtioId := by
  have suffix := strtol_endptr_suffix text
  have limits := @strtol_erange text
  simp only [ofValue, HasNumber, cString_eq_self plain]
  generalize strtol text = found at suffix limits
  obtain ⟨value, endptr, erange⟩ := found
  obtain ⟨digits, rfl⟩ := suffix
  dsimp only at limits ⊢
  have read : (∃ front, front ≠ [] ∧ digits ++ endptr = front ++ endptr) ↔ digits ≠ [] := by
    constructor
    · rintro ⟨front, some, same⟩
      rwa [List.append_cancel_right same]
    · intro some
      exact ⟨digits, some, rfl⟩
  have moved : endptr ≠ digits ++ endptr ↔ digits ≠ [] :=
    not_congr ⟨fun same => by simpa using same, fun none => by simp [none]⟩
  rw [read]
  cases erange with
  | true =>
      rcases limits rfl with rfl | rfl
      · simp
      · simp
  | false => simp [moved]

/-- Without a virtio key the configuration stays; otherwise the last value makes it. By
induction on the pairs.
-/
theorem PortConfig.ofPairs_cases (config : PortConfig) (pairs : MapPairs)
    : (config.ofPairs pairs = config ∧ ∀ pair ∈ pairs, isVirtioKey pair.1.text = false)
      ∨ ∃ value, LastVirtioValue pairs value ∧ '\x00' ∉ value
          ∧ config.ofPairs pairs = PortConfig.ofValue value := by
  induction pairs generalizing config with
  | nil => exact Or.inl ⟨rfl, nofun⟩
  | cons pair pairs ih =>
      obtain ⟨key, val⟩ := pair
      rcases ih (config.assign key.text val.text) with ⟨same, none⟩ | ⟨value, last, rest⟩
      · by_cases virtio : isVirtioKey key.text = true
        · refine Or.inr ⟨val.text, ⟨[], key, val, pairs, rfl, virtio, rfl, none⟩,
            val.zero_not_mem_text, same.trans ?_⟩
          rw [assign, cString_eq_self key.zero_not_mem_text, if_pos virtio]
        · refine Or.inl ⟨same.trans ?_, ?_⟩
          · rw [assign, cString_eq_self key.zero_not_mem_text, if_neg virtio]
          · intro pair member
            rcases List.mem_cons.mp member with rfl | member
            · exact Bool.eq_false_iff.mpr virtio
            · exact none pair member
      · obtain ⟨before, last, val', after, rfl, found⟩ := last
        exact Or.inr ⟨value, ⟨(key, val) :: before, last, val', after, rfl, found⟩, rest⟩

/-- There is one last pair with a virtio key at most. -/
theorem LastVirtioValue.unique {pairs : MapPairs} {value other : List Char}
    (last : LastVirtioValue pairs value) (also : LastVirtioValue pairs other)
    : value = other := by
  obtain ⟨before, key, val, after, rfl, virtio, rfl, none⟩ := last
  obtain ⟨before', key', val', after', same, virtio', rfl, none'⟩ := also
  rcases List.append_eq_append_iff.mp same with ⟨more, rfl, tail⟩ | ⟨more, rfl, tail⟩
  · cases more with
    | nil => rw [(Prod.mk.inj (List.cons.inj tail).1).2]
    | cons pair more =>
        have := none (key', val') (by simp [(List.cons.inj tail).2])
        rw [this] at virtio'
        cases virtio'
  · cases more with
    | nil => rw [(Prod.mk.inj (List.cons.inj tail).1).2]
    | cons pair more =>
        have := none' (key, val) (by simp [(List.cons.inj tail).2])
        rw [this] at virtio
        cases virtio

theorem LastVirtioValue.absurd_of_none {pairs : MapPairs} {value : List Char}
    (last : LastVirtioValue pairs value) (none : ∀ pair ∈ pairs, isVirtioKey pair.1.text = false)
    : False := by
  obtain ⟨before, key, val, after, rfl, virtio, _⟩ := last
  rw [none (key, val) (by simp)] at virtio
  cases virtio

/-- **Maps**: `parse_map` ends on every map that is printed. It enables virtio exactly if there
is a pair with one of the two keys and the value of the last such pair has a number, which then
is the id.
-/
theorem printed_map_is_read (val rest : List Char) (pairs : MapPairs)
    : (MapParser.finish
        ⟨.start, showMap pairs ++ '\x00' :: rest, [], val, ⟨false, 0⟩⟩).parserState = .done
      ∧ ((parseMap val (showMap pairs ++ '\x00' :: rest)).virtioEnabled = true
        ↔ ∃ value number, LastVirtioValue pairs value ∧ HasNumber value number)
      ∧ ∀ value number, LastVirtioValue pairs value → HasNumber value number
        → (parseMap val (showMap pairs ++ '\x00' :: rest)).virtioId = number := by
  rw [parseMap_showMap]
  refine ⟨MapParser.finish_done _, ?_⟩
  rcases PortConfig.ofPairs_cases ⟨false, 0⟩ pairs with ⟨same, none⟩ | ⟨value, last, plain, same⟩
  · rw [same]
    refine ⟨⟨nofun, ?_⟩, ?_⟩
    · rintro ⟨value, _, last, _⟩
      exact (last.absurd_of_none none).elim
    · intro value _ last
      exact (last.absurd_of_none none).elim
  · rw [same]
    refine ⟨⟨?_, ?_⟩, ?_⟩
    · intro enabled
      exact ⟨value, _, last, (PortConfig.ofValue_enabled plain).mp enabled⟩
    · rintro ⟨other, number, also, has⟩
      obtain rfl := last.unique also
      obtain rfl : (PortConfig.ofValue value).virtioId = number := by
        rw [← has.2.2, PortConfig.ofValue, cString_eq_self plain]
      exact (PortConfig.ofValue_enabled plain).mpr has
    · intro other number also has
      obtain rfl := last.unique also
      rw [← has.2.2, PortConfig.ofValue, cString_eq_self plain]

end VirtioForwarder
