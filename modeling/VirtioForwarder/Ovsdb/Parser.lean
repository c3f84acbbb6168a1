import VirtioForwarder.Library.CText

/-! The parsers of `ovsdb_mon.c`: the fields of a row that `ovsdb-client` prints, quoted names,
and the map `external_ids`. They work on memory in which a string is followed by a zero byte
and by what an earlier string has left there.
-/

namespace VirtioForwarder

open CText

-----------------------------------------------------------------------------------------
-- Fields
-----------------------------------------------------------------------------------------

/-- What `extract_field` finds after an opening quote: the characters it copies, the number of
those it passes, and whether it ends the copy with a zero byte.
-/
structure QuotedField where
  copied : List Char
  passed : Nat
  ended : Bool
  deriving DecidableEq, Repr

/-- A further character of a quoted field. -/
def QuotedField.push (c : Char) (width : Nat) (field : QuotedField) : QuotedField :=
  { field with copied := c :: field.copied, passed := field.passed + width }

/-- The loop of `extract_field` over a quoted string. Two quotes stand for one; a quote before
anything but a comma or the end is an error, and the field is left without its zero byte.
-/
def scanQuotedField : List Char → QuotedField
  | [] => ⟨[], 0, true⟩
  | c :: rest =>
      if c = '"' then
        match rest with
        | [] => ⟨[], 1, true⟩
        | d :: more =>
            if d = '"' then (scanQuotedField more).push '"' 2
            else if d = ',' then ⟨[], 1, true⟩
            else ⟨[], ((c :: d :: more).takeWhile (· ≠ ',')).length, false⟩
      else (scanQuotedField rest).push c 1

theorem scanQuotedField_plain {c : Char} (rest : List Char) (plain : c ≠ '"')
    : scanQuotedField (c :: rest) = (scanQuotedField rest).push c 1 := by
  cases rest <;> simp [scanQuotedField, plain]

/-- `extract_field`: the position after the field, and the memory of `field`. -/
def extractField (buf : List Char) (start : Nat) (field : List Char) : Nat × List Char :=
  match cString (buf.drop start) with
  | '"' :: text =>
      let found := scanQuotedField text
      let bytes := if found.ended then found.copied ++ ['\x00'] else found.copied
      (start + (found.passed + 1) + 1, overwrite field bytes)
  | text =>
      let bare := text.takeWhile (· ≠ ',')
      (start + bare.length + 1, overwrite field (bare ++ ['\x00']))

theorem extractField_quoted {buf text : List Char} {start : Nat} (field : List Char)
    (here : cString (buf.drop start) = '"' :: text) (ended : (scanQuotedField text).ended = true)
    : extractField buf start field
      = (start + ((scanQuotedField text).passed + 1) + 1,
          overwrite field ((scanQuotedField text).copied ++ ['\x00'])) := by
  simp [extractField, here, ended]

theorem extractField_bare {buf : List Char} {start : Nat} (field : List Char)
    (bare : ∀ text, cString (buf.drop start) ≠ '"' :: text)
    : extractField buf start field
      = (start + ((cString (buf.drop start)).takeWhile (· ≠ ',')).length + 1,
          overwrite field ((cString (buf.drop start)).takeWhile (· ≠ ',') ++ ['\x00'])) := by
  unfold extractField
  split
  · rename_i here
    exact absurd here (bare _)
  · rfl

/-- The loop of `unquote`. -/
def unquoteText : List Char → List Char
  | [] => []
  | c :: rest =>
      if c = '"' then []
      else if c = '\\' then
        match rest with
        | [] => []
        | d :: more => d :: unquoteText more
      else c :: unquoteText rest

theorem unquoteText_quote (rest : List Char) : unquoteText ('"' :: rest) = [] := by
  cases rest <;> simp [unquoteText]

theorem unquoteText_plain {c : Char} (rest : List Char) (plain : c ≠ '"' ∧ c ≠ '\\')
    : unquoteText (c :: rest) = c :: unquoteText rest := by
  cases rest <;> simp [unquoteText, plain.1, plain.2]

/-- `unquote`, which works in place. -/
def unquote (str : List Char) : List Char :=
  match cString str with
  | '"' :: text => overwrite str (unquoteText text ++ ['\x00'])
  | _ => str

theorem unquote_quoted {str text : List Char} (here : cString str = '"' :: text)
    : unquote str = overwrite str (unquoteText text ++ ['\x00']) := by
  simp only [unquote, here]

theorem unquote_bare {str : List Char} (bare : ∀ text, cString str ≠ '"' :: text)
    : unquote str = str := by
  unfold unquote
  split
  · rename_i here
    exact absurd here (bare _)
  · rfl

-----------------------------------------------------------------------------------------
-- Maps
-----------------------------------------------------------------------------------------

/-- `struct port_config`. -/
structure PortConfig where
  virtioEnabled : Bool
  virtioId : Int
  deriving DecidableEq, Repr

/-- `enum map_parse_state`. -/
inductive MapParseState
  | start
  | key
  | val
  | eq
  | sep
  | done
  deriving DecidableEq, Repr

/-- The variables of `parse_map`; `map` is the memory from `map[srcptr]` on. -/
structure MapParser where
  parserState : MapParseState
  map : List Char
  key : List Char
  val : List Char
  config : PortConfig
  deriving DecidableEq, Repr

/-- `map[srcptr]`. -/
def peek (map : List Char) : Char := map.headD '\x00'

@[simp] theorem peek_cons (c : Char) (rest : List Char) : peek (c :: rest) = c := rfl

/-- Skip to one of the characters or to a zero byte. -/
def skipTo (stops : List Char) (map : List Char) : List Char :=
  map.dropWhile fun c => c ∉ stops ∧ c ≠ '\x00'

/-- One of the characters is expected next; the map is skipped up to it otherwise. -/
def expect (stops : List Char) (map : List Char) : List Char :=
  if peek map ∈ stops then map else skipTo stops map.tail

theorem expect_of_mem {stops : List Char} {c : Char} (rest : List Char) (here : c ∈ stops)
    : expect stops (c :: rest) = c :: rest :=
  if_pos here

/-- A quoted string of `parse_map`: the characters that are copied, whether a closing quote
was found, and the memory after it or from the zero byte on.
-/
structure QuotedString where
  copied : List Char
  closed : Bool
  rest : List Char
  deriving DecidableEq, Repr

/-- A further character of a quoted string. -/
def QuotedString.push (c : Char) (string : QuotedString) : QuotedString :=
  { string with copied := c :: string.copied }

/-- The loop over a quoted string. The character after a backslash is copied even if it is the
zero byte.
-/
def scanQuotedString : List Char → QuotedString
  | [] => ⟨[], false, []⟩
  | c :: rest =>
      if c = '\x00' then ⟨[], false, c :: rest⟩
      else if c = '"' then ⟨[], true, rest⟩
      else if c = '\\' then
        match rest with
        | [] => ⟨['\x00'], false, []⟩
        | d :: more => (scanQuotedString more).push d
      else (scanQuotedString rest).push c

theorem scanQuotedString_quote (rest : List Char)
    : scanQuotedString ('"' :: rest) = ⟨[], true, rest⟩ := by
  cases rest <;> simp [scanQuotedString]

theorem scanQuotedString_plain {c : Char} (rest : List Char) (some : c ≠ '\x00')
    (plain : c ≠ '"' ∧ c ≠ '\\')
    : scanQuotedString (c :: rest) = (scanQuotedString rest).push c := by
  cases rest <;> simp [scanQuotedString, some, plain.1, plain.2]

/-- A character of a bare string that also ends at one of `stops`. -/
def isBare (stops : List Char) (c : Char) : Bool :=
  !isSpace c && c ≠ '\x00' && c ∉ stops

/-- The keys that enable virtio. -/
def isVirtioKey (key : List Char) : Bool :=
  key = "virtio_forwarder".toList || key = "virtio_relay".toList

/-- The id is taken from a value; it is refused if there is none or if it is out of range. -/
def PortConfig.ofValue (val : List Char) : PortConfig :=
  let found := strtol (cString val)
  let failed := found.erange && (found.value = longMax || found.value = longMin)
    || found.erange && found.value = 0
  ⟨!failed && found.endptr ≠ cString val, found.value⟩

/-- The end of `STATE_VAL`. -/
def PortConfig.assign (config : PortConfig) (key val : List Char) : PortConfig :=
  if isVirtioKey (cString key) then .ofValue val else config

/-- A state in which one of the characters is expected; after `c` the loop goes on. -/
def MapParser.stepExpect (p : MapParser) (stops : List Char) (c : Char) (next : MapParseState)
    : MapParser :=
  let map := expect stops p.map
  if peek map = c then { p with parserState := next, map := map.tail }
  else { p with parserState := .done, map := map }

theorem MapParser.stepExpect_here {p : MapParser} {stops : List Char} {c : Char}
    {rest : List Char} (next : MapParseState) (map : p.map = c :: rest) (here : c ∈ stops)
    : p.stepExpect stops c next = { p with parserState := next, map := rest } := by
  simp [stepExpect, map, expect_of_mem rest here]

theorem MapParser.stepExpect_other {p : MapParser} {stops : List Char} {c d : Char}
    {rest : List Char} (next : MapParseState) (map : p.map = d :: rest) (here : d ∈ stops)
    (other : d ≠ c)
    : p.stepExpect stops c next = { p with parserState := .done, map := d :: rest } := by
  simp [stepExpect, map, expect_of_mem rest here, other]

/-- `STATE_START`. -/
def MapParser.stepStart (p : MapParser) : MapParser := p.stepExpect ['{'] '{' .key

/-- `STATE_KEY`. -/
def MapParser.stepKey (p : MapParser) : MapParser :=
  if peek p.map = '}' then { p with parserState := .done }
  else if peek p.map = '"' then
    let found := scanQuotedString p.map.tail
    if found.closed then { p with parserState := .eq, map := found.rest, key := found.copied }
    else { p with parserState := .done, map := found.rest }
  else
    { p with
      parserState := .eq
      map := p.map.dropWhile (isBare ['='])
      key := p.map.takeWhile (isBare ['=']) }

/-- `STATE_VAL`. A string without a closing quote is read as well, with what stood in `val`
behind it.
-/
def MapParser.stepVal (p : MapParser) : MapParser :=
  if peek p.map = '"' then
    let found := scanQuotedString p.map.tail
    let val :=
      if found.closed then overwrite p.val (found.copied ++ ['\x00'])
      else overwrite (overwrite p.val ['\x00']) found.copied
    { p with
      parserState := if found.closed then .sep else .done
      map := found.rest
      val := val
      config := p.config.assign p.key val }
  else
    let val := overwrite p.val (p.map.takeWhile (isBare [',', '}']) ++ ['\x00'])
    { p with
      parserState := .sep
      map := p.map.dropWhile (isBare [',', '}'])
      val := val
      config := p.config.assign p.key val }

/-- `STATE_EQ`. -/
def MapParser.stepEq (p : MapParser) : MapParser := p.stepExpect ['='] '=' .val

/-- `STATE_SEP`. -/
def MapParser.stepSep (p : MapParser) : MapParser := p.stepExpect [',', '}'] ',' .key

/-- One iteration of the loop of `parse_map`, which sinks white space first. -/
def MapParser.step (p : MapParser) : MapParser :=
  let sunk := { p with map := skipSpace p.map }
  match p.parserState with
  | .start => sunk.stepStart
  | .key => sunk.stepKey
  | .val => sunk.stepVal
  | .eq => sunk.stepEq
  | .sep => sunk.stepSep
  | .done => p

/-- The loop of `parse_map` with a bound for its iterations. -/
def MapParser.loop : Nat → MapParser → MapParser
  | 0, p => p
  | n + 1, p => if p.parserState = .done then p else loop n p.step

/-- How many iterations can be made without a character in between. -/
def MapParseState.rank : MapParseState → Nat
  | .done => 0
  | .start | .eq | .sep => 1
  | .key | .val => 2

/-- What decreases in every iteration. -/
def MapParser.measure (p : MapParser) : Nat := 2 * p.map.length + p.parserState.rank

/-- The variables at the end of the loop, for which the measure is a sufficient bound. -/
def MapParser.finish (p : MapParser) : MapParser := p.loop p.measure

/-- `parse_map`, given what its array `val` holds at first. -/
def parseMap (val map : List Char) : PortConfig :=
  (MapParser.finish ⟨.start, map, [], val, ⟨false, 0⟩⟩).config

-----------------------------------------------------------------------------------------
-- The loop comes to its end
-----------------------------------------------------------------------------------------

theorem length_skipSpace_le (map : List Char) : (skipSpace map).length ≤ map.length :=
  (List.dropWhile_suffix _).length_le

theorem length_expect_le (stops map : List Char) : (expect stops map).length ≤ map.length := by
  unfold expect
  split
  · exact Nat.le_refl _
  · have skipped : (skipTo stops map.tail).length ≤ map.tail.length :=
      (List.dropWhile_suffix _).length_le
    simp only [List.length_tail] at skipped
    omega

theorem length_tail_of_peek {map : List Char} {c : Char} (here : peek map = c) (some : c ≠ '\x00')
    : map.tail.length + 1 = map.length := by
  cases map with
  | nil => exact absurd here.symm some
  | cons head rest => rfl

theorem length_scanQuotedString_le (map : List Char)
    : (scanQuotedString map).rest.length ≤ map.length := by
  fun_induction scanQuotedString map with
  | case1 | case2 | case3 | case4 => simp
  | case5 _ _ more _ ih =>
      simp only [QuotedString.push, List.length_cons]
      omega
  | case6 _ rest _ _ _ ih =>
      simp only [QuotedString.push, List.length_cons]
      omega

theorem MapParseState.rank_le (state : MapParseState) : state.rank ≤ 2 := by
  cases state <;> decide

theorem MapParser.measure_stepExpect {p : MapParser} (stops : List Char) {c : Char}
    (next : MapParseState) (some : c ≠ '\x00')
    : (p.stepExpect stops c next).measure ≤ 2 * p.map.length := by
  have expected := length_expect_le stops p.map
  have low := next.rank_le
  simp only [stepExpect]
  split
  · rename_i here
    have shorter := length_tail_of_peek here some
    simp only [measure]
    omega
  · simp only [measure, MapParseState.rank]
    omega

/-- Every iteration decreases the measure. -/
theorem MapParser.measure_step {p : MapParser} (going : p.parserState ≠ .done)
    : p.step.measure < p.measure := by
  obtain ⟨state, map, key, val, config⟩ := p
  have sunk := length_skipSpace_le map
  have quoted := length_scanQuotedString_le (skipSpace map).tail
  rw [List.length_tail] at quoted
  have bare (stops : List Char) : ((skipSpace map).dropWhile (isBare stops)).length
      ≤ (skipSpace map).length := (List.dropWhile_suffix _).length_le
  have expected (stops : List Char) {c : Char} (next : MapParseState) (some : c ≠ '\x00') {n : Nat}
      (rank : 0 < n)
      : (stepExpect ⟨state, skipSpace map, key, val, config⟩ stops c next).measure
        < 2 * map.length + n := by
    have := measure_stepExpect (p := ⟨state, skipSpace map, key, val, config⟩) stops next some
    dsimp only at this
    omega
  cases state with
  | start => exact expected ['{'] .key (by decide) Nat.one_pos
  | key =>
      simp only [step, stepKey]
      split
      · simp only [measure, MapParseState.rank]
        omega
      · split
        · split <;> simp only [measure, MapParseState.rank] <;> omega
        · have := bare ['=']
          simp only [measure, MapParseState.rank]
          omega
  | val =>
      simp only [step, stepVal]
      split
      · simp only [measure]
        split <;> simp only [MapParseState.rank] <;> omega
      · have := bare [',', '}']
        simp only [measure, MapParseState.rank]
        omega
  | eq => exact expected ['='] .val (by decide) Nat.one_pos
  | sep => exact expected [',', '}'] .key (by decide) Nat.one_pos
  | done => exact absurd rfl going

theorem MapParser.loop_done {p : MapParser} (done : p.parserState = .done) (n : Nat)
    : p.loop n = p := by
  cases n with
  | zero => rfl
  | succ n => simp [loop, done]

theorem MapParser.done_of_measure {p : MapParser} (zero : p.measure = 0)
    : p.parserState = .done := by
  obtain ⟨state, map, key, val, config⟩ := p
  cases state <;> simp_all [measure, MapParseState.rank]

/-- More iterations than the measure do nothing. -/
theorem MapParser.loop_eq_finish {p : MapParser} {n : Nat} (enough : p.measure ≤ n)
    : p.loop n = p.finish := by
  suffices stable : ∀ n m (p : MapParser), p.measure ≤ n → p.measure ≤ m → p.loop n = p.loop m from
    stable n p.measure p enough (Nat.le_refl _)
  intro n
  induction n with
  | zero =>
      intro m p few _
      have done := done_of_measure (Nat.le_zero.mp few)
      rw [loop_done done, loop_done done]
  | succ n ih =>
      intro m p few many
      by_cases done : p.parserState = .done
      · rw [loop_done done, loop_done done]
      · have less := measure_step done
        obtain ⟨m, rfl⟩ : ∃ k, m = k + 1 := ⟨m - 1, by omega⟩
        simp only [loop, done, if_false]
        exact ih m p.step (by omega) (by omega)

theorem MapParser.finish_step {p : MapParser} (going : p.parserState ≠ .done)
    : p.finish = p.step.finish := by
  have less := measure_step going
  obtain ⟨n, more⟩ : ∃ n, p.measure = n + 1 := ⟨p.measure - 1, by omega⟩
  rw [finish, more]
  simp only [loop, going, if_false]
  exact loop_eq_finish (by omega)

theorem MapParser.finish_of_done {p : MapParser} (done : p.parserState = .done) : p.finish = p :=
  loop_done done _

/-- `parse_map` terminates: at the end its state is `STATE_DONE`. -/
theorem MapParser.finish_done (p : MapParser) : p.finish.parserState = .done := by
  generalize size : p.measure = n
  induction n using Nat.strong_induction_on generalizing p with
  | _ n ih =>
      by_cases done : p.parserState = .done
      · rw [finish_of_done done, done]
      · rw [finish_step done]
        exact ih _ (size ▸ measure_step done) _ rfl

end VirtioForwarder
