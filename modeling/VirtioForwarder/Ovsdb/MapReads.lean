import VirtioForwarder.Ovsdb.Maps

/-! The bytes of the map that `parse_map` reads. It is checked of each read that it is not behind
the end of the memory, and the texts are described on which one is: those that end where a mark is
still expected, or in the middle of a string.
-/

namespace VirtioForwarder

open CText

/-- Characters are skipped, and the first one that is not stands inside the memory. -/
def stopsInside (skip : Char → Bool) (memory : List Char) : Bool := memory.any fun c => !skip c

theorem stopsInside_of_mem {skip : Char → Bool} {memory : List Char} {c : Char}
    (member : c ∈ memory) (stop : skip c = false)
    : stopsInside skip memory = true :=
  List.any_eq_true.mpr ⟨c, member, by simp [stop]⟩

/-- The search for one of the characters reads inside the memory. -/
def expectInside (stops : List Char) : List Char → Bool
  | [] => false
  | c :: rest => c ∈ stops || stopsInside (fun c => c ∉ stops ∧ c ≠ '\x00') rest

/-- The loop over a quoted string reads inside the memory. -/
def quotedStringInside : List Char → Bool
  | [] => false
  | c :: rest =>
      if c = '\x00' ∨ c = '"' then true
      else if c = '\\' then
        match rest with
        | [] => false
        | _ :: more => quotedStringInside more
      else quotedStringInside rest

/-- One iteration of `parse_map` reads inside the memory. -/
def MapParser.readsInside (p : MapParser) : Bool :=
  let map := skipSpace p.map
  match p.parserState with
  | .start => stopsInside isSpace p.map && expectInside ['{'] map
  | .key =>
      stopsInside isSpace p.map
        && if peek map = '}' then true
          else if peek map = '"' then quotedStringInside map.tail
          else stopsInside (isBare ['=']) map
  | .val =>
      stopsInside isSpace p.map
        && if peek map = '"' then quotedStringInside map.tail
          else stopsInside (isBare [',', '}']) map
  | .eq => stopsInside isSpace p.map && expectInside ['='] map
  | .sep => stopsInside isSpace p.map && expectInside [',', '}'] map
  | .done => true

/-- The iterations up to a bound read inside the memory. -/
def MapParser.loopInside : Nat → MapParser → Bool
  | 0, _ => true
  | n + 1, p => p.parserState = .done || p.readsInside && loopInside n p.step

/-- All iterations do. -/
def MapParser.staysInside (p : MapParser) : Bool := p.loopInside p.measure

/-- `parse_map` reads the bytes of the memory only. -/
def mapInside (val map : List Char) : Bool :=
  MapParser.staysInside ⟨.start, map, [], val, ⟨false, 0⟩⟩

-----------------------------------------------------------------------------------------
-- Texts that end too early
-----------------------------------------------------------------------------------------

/-- What is expected in a state: the search stops at one of the characters, and the loop goes on
in the next state after one of them.
-/
def MapParseState.mark : MapParseState → Option (List Char × Char × MapParseState)
  | .start => some (['{'], '{', .key)
  | .eq => some (['='], '=', .val)
  | .sep => some ([',', '}'], ',', .key)
  | .key | .val | .done => none

/-- The string that is read in a state: how it does not begin, where it ends if it is bare, and
the next state.
-/
def MapParseState.string : MapParseState → Option (List Char × List Char × MapParseState)
  | .key => some (['}'], ['='], .eq)
  | .val => some ([], [',', '}'], .sep)
  | .start | .eq | .sep | .done => none

/-- What is skipped in search of one of the characters: a first one at any rate, and then up to
one of them or a zero byte.
-/
def Skipped (stops : List Char) : List Char → Prop
  | [] => True
  | c :: rest => isSpace c = false ∧ c ∉ stops ∧ ∀ d ∈ rest, d ∉ stops ∧ d ≠ '\x00'

/-- The text of a bare string, which may be empty. -/
def BareText (avoided stops text : List Char) : Prop :=
  (∀ c ∈ text, isBare stops c = true) ∧ ∀ c ∈ text.head?, c ≠ '"' ∧ c ∉ avoided

/-- The memory begins with what one iteration reads from a state to another. -/
inductive Passes : MapParseState → List Char → MapParseState → List Char → Prop
  | blank {state next : MapParseState} {map rest : List Char} {c : Char} (space : isSpace c = true)
      (passes : Passes state map next rest)
      : Passes state (c :: map) next rest
  | mark {state next : MapParseState} {stops skipped : List Char} {c : Char} (rest : List Char)
      (expected : state.mark = some (stops, c, next)) (skips : Skipped stops skipped)
      : Passes state (skipped ++ c :: rest) next rest
  | quoted {state next : MapParseState} {avoided stops : List Char} {chars : List (Bool × Char)}
      (rest : List Char) (string : state.string = some (avoided, stops, next))
      (copied : Copied chars)
      : Passes state ('"' :: (chars.flatMap printChar ++ '"' :: rest)) next rest
  | bare {state next : MapParseState} {avoided stops text : List Char} {c : Char} (rest : List Char)
      (string : state.string = some (avoided, stops, next))
      (bare : BareText avoided stops text) (ends : isBare stops c = false)
      (visible : text = [] → isSpace c = false)
      : Passes state (text ++ c :: rest) next (c :: rest)

/-- The memory is only a beginning of what one iteration reads. -/
inductive Interrupted : MapParseState → List Char → Prop
  | blank {state : MapParseState} {map : List Char} {c : Char} (space : isSpace c = true)
      (interrupted : Interrupted state map)
      : Interrupted state (c :: map)
  | mark {state next : MapParseState} {stops skipped : List Char} {c : Char}
      (expected : state.mark = some (stops, c, next)) (skips : Skipped stops skipped)
      : Interrupted state skipped
  | quoted {state next : MapParseState} {avoided stops : List Char} {chars : List (Bool × Char)}
      (string : state.string = some (avoided, stops, next)) (copied : Copied chars)
      : Interrupted state ('"' :: chars.flatMap printChar)
  | escape {state next : MapParseState} {avoided stops : List Char} {chars : List (Bool × Char)}
      (string : state.string = some (avoided, stops, next)) (copied : Copied chars)
      : Interrupted state ('"' :: (chars.flatMap printChar ++ ['\\']))
  | bare {state next : MapParseState} {avoided stops text : List Char}
      (string : state.string = some (avoided, stops, next)) (bare : BareText avoided stops text)
      : Interrupted state text

/-- The memory consists of what whole iterations read and of a beginning of what a further one
reads.
-/
inductive Unfinished : MapParseState → List Char → Prop
  | interrupted {state : MapParseState} {map : List Char} (here : Interrupted state map)
      : Unfinished state map
  | passes {state next : MapParseState} {map rest : List Char} (step : Passes state map next rest)
      (later : Unfinished next rest)
      : Unfinished state map

-----------------------------------------------------------------------------------------
-- Reads of one iteration
-----------------------------------------------------------------------------------------

theorem stopsInside_eq_false {skip : Char → Bool} {memory : List Char}
    : stopsInside skip memory = false ↔ ∀ c ∈ memory, skip c = true := by
  simp [stopsInside]

/-- Where skipping ends. -/
theorem stopsInside_split {skip : Char → Bool} {memory : List Char}
    (stops : stopsInside skip memory = true)
    : ∃ before c rest, memory = before ++ c :: rest ∧ (∀ d ∈ before, skip d = true)
        ∧ skip c = false ∧ memory.dropWhile skip = c :: rest := by
  induction memory with
  | nil => cases stops
  | cons c rest ih =>
      by_cases skipped : skip c = true
      · have later : stopsInside skip rest = true := by
          simpa [stopsInside, skipped] using stops
        obtain ⟨before, d, more, rfl, all, stop, left⟩ := ih later
        refine ⟨c :: before, d, more, rfl, ?_, stop, ?_⟩
        · simpa [skipped] using all
        · rw [List.dropWhile_cons_of_pos skipped, left]
      · refine ⟨[], c, rest, rfl, nofun, Bool.eq_false_iff.mpr skipped, ?_⟩
        exact List.dropWhile_cons_of_neg skipped

theorem dropWhile_stop {skip : Char → Bool} {before : List Char} {c : Char} (rest : List Char)
    (all : ∀ d ∈ before, skip d = true) (stop : skip c = false)
    : (before ++ c :: rest).dropWhile skip = c :: rest := by
  rw [List.dropWhile_append_of_pos all, List.dropWhile_cons_of_neg (by simp [stop])]

/-- The texts of strings on which `parse_map` reads on behind their zero byte, from a state on:
only white space is left where a mark is expected, or the text breaks off after the backslash of
a string in quotes.
-/
inductive EndsEarly : MapParseState → List Char → Prop
  | mark {state next : MapParseState} {stops blank : List Char} {c : Char}
      (expected : state.mark = some (stops, c, next)) (space : ∀ d ∈ blank, isSpace d = true)
      : EndsEarly state blank
  | escape {state next : MapParseState} {avoided stops blank : List Char}
      {chars : List (Bool × Char)} (string : state.string = some (avoided, stops, next))
      (space : ∀ d ∈ blank, isSpace d = true) (copied : Copied chars)
      : EndsEarly state (blank ++ '"' :: (chars.flatMap printChar ++ ['\\']))
  | afterMark {state next : MapParseState} {stops before rest : List Char} {c : Char}
      (expected : state.mark = some (stops, c, next)) (free : ∀ d ∈ before, d ∉ stops)
      (later : EndsEarly next rest)
      : EndsEarly state (before ++ c :: rest)
  | afterQuoted {state next : MapParseState} {avoided stops blank rest : List Char}
      {chars : List (Bool × Char)} (string : state.string = some (avoided, stops, next))
      (space : ∀ d ∈ blank, isSpace d = true) (copied : Copied chars)
      (later : EndsEarly next rest)
      : EndsEarly state (blank ++ '"' :: (chars.flatMap printChar ++ '"' :: rest))
  | afterBare {state next : MapParseState} {avoided stops blank text rest : List Char}
      (string : state.string = some (avoided, stops, next))
      (space : ∀ d ∈ blank, isSpace d = true) (bare : BareText avoided stops text)
      (ends : ∀ c ∈ rest.head?, isBare stops c = false ∧ (text = [] → isSpace c = false))
      (later : EndsEarly next rest)
      : EndsEarly state (blank ++ (text ++ rest))

/-- A state that is not the last one expects a mark or reads a string. -/
theorem MapParseState.mark_or_string {state : MapParseState} (going : state ≠ .done)
    : (∃ stops c next, state.mark = some (stops, c, next))
      ∨ ∃ avoided stops next, state.string = some (avoided, stops, next) := by
  cases state with
  | start => exact Or.inl ⟨_, _, _, rfl⟩
  | eq => exact Or.inl ⟨_, _, _, rfl⟩
  | sep => exact Or.inl ⟨_, _, _, rfl⟩
  | key => exact Or.inr ⟨_, _, _, rfl⟩
  | val => exact Or.inr ⟨_, _, _, rfl⟩
  | done => exact absurd rfl going

theorem MapParseState.mark_stops {state next : MapParseState} {stops : List Char} {c : Char}
    (expected : state.mark = some (stops, c, next))
    : state ≠ .done ∧ c ∈ stops ∧ ∀ d ∈ stops, isSpace d = false ∧ d ≠ '\x00' := by
  cases state <;> simp only [mark, Option.some.injEq, Prod.mk.injEq, reduceCtorEq] at expected
  all_goals
    obtain ⟨rfl, rfl, rfl⟩ := expected
    simp [isSpace]

theorem MapParseState.string_bare {state next : MapParseState} {avoided stops : List Char}
    (string : state.string = some (avoided, stops, next))
    : state ≠ .done ∧ '"' ∉ avoided ∧ ∀ c, c = '"' ∨ c ∈ avoided → isBare stops c = true := by
  cases state <;> simp only [MapParseState.string, Option.some.injEq, Prod.mk.injEq, reduceCtorEq]
    at string
  all_goals
    obtain ⟨rfl, rfl, rfl⟩ := string
    simp [isBare, isSpace]

/-- An iteration in which a mark is expected. -/
theorem MapParser.step_of_mark {p : MapParser} {stops : List Char} {c : Char} {next : MapParseState}
    (expected : p.parserState.mark = some (stops, c, next))
    : p.step = ({ p with map := skipSpace p.map } : MapParser).stepExpect stops c next
      ∧ p.readsInside = (stopsInside isSpace p.map && expectInside stops (skipSpace p.map)) := by
  obtain ⟨state, map, key, val, config⟩ := p
  cases state <;> simp only [MapParseState.mark, Option.some.injEq, Prod.mk.injEq, reduceCtorEq]
    at expected
  all_goals
    obtain ⟨rfl, rfl, rfl⟩ := expected
    exact ⟨rfl, rfl⟩

/-- An iteration in which a string is read. -/
theorem MapParser.step_of_string {p : MapParser} {avoided stops : List Char} {next : MapParseState}
    (string : p.parserState.string = some (avoided, stops, next))
    : (p.step.parserState, p.step.map)
        = (let map := skipSpace p.map
          if peek map ∈ avoided then (.done, map)
          else if peek map = '"' then
            (if (scanQuotedString map.tail).closed then next else .done,
              (scanQuotedString map.tail).rest)
          else (next, map.dropWhile (isBare stops)))
      ∧ p.readsInside
        = (stopsInside isSpace p.map
          && let map := skipSpace p.map
            if peek map ∈ avoided then true
            else if peek map = '"' then quotedStringInside map.tail
            else stopsInside (isBare stops) map) := by
  obtain ⟨state, map, key, val, config⟩ := p
  cases state <;> simp only [MapParseState.string, Option.some.injEq, Prod.mk.injEq, reduceCtorEq]
    at string
  all_goals obtain ⟨rfl, rfl, rfl⟩ := string
  · simp only [step, stepKey, readsInside, List.mem_singleton]
    split
    · exact ⟨rfl, trivial⟩
    · split
      · split
        · exact ⟨rfl, trivial⟩
        · exact ⟨rfl, trivial⟩
      · exact ⟨rfl, trivial⟩
  · simp only [step, stepVal, readsInside, List.not_mem_nil, if_false]
    split
    · exact ⟨rfl, trivial⟩
    · exact ⟨rfl, trivial⟩

/-- White space before what is read makes no difference. -/
theorem MapParser.step_blank {p : MapParser} {c : Char} {rest : List Char} (map : p.map = c :: rest)
    (space : isSpace c = true) (going : p.parserState ≠ .done)
    : p.step = ({ p with map := rest } : MapParser).step
      ∧ p.readsInside = ({ p with map := rest } : MapParser).readsInside := by
  obtain ⟨state, memory, key, val, config⟩ := p
  subst map
  have sunk : skipSpace (c :: rest) = skipSpace rest := List.dropWhile_cons_of_pos space
  have stops : stopsInside isSpace (c :: rest) = stopsInside isSpace rest := by
    simp [stopsInside, space]
  cases state with
  | done => exact absurd rfl going
  | start | key | val | eq | sep => simp only [step, readsInside, sunk, stops, and_self]

theorem isSpace_of_isBare {stops : List Char} {c : Char} (bare : isBare stops c = true)
    : isSpace c = false := by
  simp only [isBare, Bool.and_eq_true, Bool.not_eq_true'] at bare
  exact bare.1.1

/-- What is skipped in search of a mark. -/
theorem Skipped.expect {stops skipped : List Char} {c : Char} (rest : List Char)
    (skips : Skipped stops skipped) (stop : c ∈ stops)
    : expect stops (skipped ++ c :: rest) = c :: rest
      ∧ expectInside stops (skipped ++ c :: rest) = true := by
  cases skipped with
  | nil => exact ⟨expect_of_mem rest stop, by simp [expectInside, stop]⟩
  | cons first more =>
      obtain ⟨_, other, passed⟩ := skips
      have skip : ∀ d ∈ more, decide (d ∉ stops ∧ d ≠ '\x00') = true :=
        fun d member => decide_eq_true (passed d member)
      have here : decide (c ∉ stops ∧ c ≠ '\x00') = false := by simp [stop]
      constructor
      · simp only [VirtioForwarder.expect, List.cons_append, peek_cons, other, if_false,
          List.tail_cons, skipTo]
        exact dropWhile_stop rest skip here
      · simp only [expectInside, List.cons_append, Bool.or_eq_true]
        exact Or.inr (stopsInside_of_mem (by simp) here)

theorem Skipped.interrupts {stops skipped : List Char} (skips : Skipped stops skipped)
    : expectInside stops skipped = false := by
  cases skipped with
  | nil => rfl
  | cons first more =>
      obtain ⟨_, other, passed⟩ := skips
      rw [expectInside, decide_eq_false other, Bool.false_or, stopsInside_eq_false]
      exact fun d member => decide_eq_true (passed d member)

/-- The first character of what is skipped or of the mark is visible. -/
theorem Skipped.skipSpace {stops skipped rest : List Char} (skips : Skipped stops skipped)
    (visible : ∀ c ∈ rest.head?, isSpace c = false)
    : skipSpace (skipped ++ rest) = skipped ++ rest := by
  cases skipped with
  | nil =>
      cases rest with
      | nil => rfl
      | cons c rest => exact skipSpace_of_first rest (visible c rfl)
  | cons first more => exact skipSpace_of_first _ skips.1

theorem BareText.skipSpace {avoided stops text rest : List Char} (bare : BareText avoided stops text)
    (visible : text = [] → ∀ c ∈ rest.head?, isSpace c = false)
    : skipSpace (text ++ rest) = text ++ rest := by
  cases text with
  | nil =>
      cases rest with
      | nil => rfl
      | cons c rest => exact skipSpace_of_first rest (visible rfl c rfl)
  | cons first more =>
      exact skipSpace_of_first _ (isSpace_of_isBare (bare.1 first List.mem_cons_self))

theorem quotedStringInside_plain {c : Char} (rest : List Char) (some : c ≠ '\x00')
    (plain : c ≠ '"' ∧ c ≠ '\\')
    : quotedStringInside (c :: rest) = quotedStringInside rest := by
  cases rest <;> simp [quotedStringInside, some, plain.1, plain.2]

theorem quotedStringInside_append {chars : List (Bool × Char)} (copied : Copied chars)
    (map : List Char)
    : quotedStringInside (chars.flatMap printChar ++ map) = quotedStringInside map := by
  induction chars with
  | nil => rfl
  | cons char chars ih =>
      obtain ⟨escaped, c⟩ := char
      have later := ih fun char member => copied char (List.mem_cons_of_mem _ member)
      cases escaped with
      | true => simp [printChar, quotedStringInside, later]
      | false =>
          have here := copied (false, c) List.mem_cons_self rfl
          simp only [printChar, List.flatMap_cons, List.cons_append, List.nil_append,
            quotedStringInside_plain _ here.1 here.2, later]

theorem Passes.going {state next : MapParseState} {map rest : List Char}
    (passes : Passes state map next rest)
    : state ≠ .done := by
  induction passes with
  | blank _ _ ih => exact ih
  | mark rest expected skips => exact (MapParseState.mark_stops expected).1
  | quoted rest string copied => exact (MapParseState.string_bare string).1
  | bare rest string bare ends visible => exact (MapParseState.string_bare string).1

/-- The iteration does what the description says. -/
theorem MapParser.step_of_passes {p : MapParser} {state next : MapParseState} {map rest : List Char}
    (passes : Passes state map next rest) (here : p.parserState = state) (memory : p.map = map)
    : p.readsInside = true ∧ p.step.parserState = next ∧ p.step.map = rest := by
  induction passes generalizing p with
  | @blank next map rest c space passes ih =>
      have going : p.parserState ≠ .done := here ▸ passes.going
      obtain ⟨same, reads⟩ := step_blank memory space going
      rw [same, reads]
      exact ih here rfl
  | @mark next stops skipped c rest expected skips =>
      obtain ⟨_, stop, marks⟩ := MapParseState.mark_stops expected
      have visible := (marks c stop).1
      obtain ⟨stepped, reads⟩ := step_of_mark (here ▸ expected)
      have sunk : skipSpace p.map = skipped ++ c :: rest := by
        rw [memory]
        exact skips.skipSpace (by simpa using visible)
      have spaces : stopsInside isSpace p.map = true := by
        rw [memory]
        exact stopsInside_of_mem (by simp) visible
      obtain ⟨found, inside⟩ := skips.expect rest stop
      rw [stepped, reads, sunk, spaces, inside]
      simp [stepExpect, found]
  | @quoted next avoided stops chars rest string copied =>
      obtain ⟨_, quote, _⟩ := MapParseState.string_bare string
      obtain ⟨stepped, reads⟩ := step_of_string (here ▸ string)
      have sunk : skipSpace p.map = '"' :: (chars.flatMap printChar ++ '"' :: rest) := by
        rw [memory]
        exact skipSpace_of_first _ (by decide)
      have spaces : stopsInside isSpace p.map = true := by
        rw [memory]
        exact stopsInside_of_mem List.mem_cons_self (by decide)
      have inside : quotedStringInside ('"' :: rest) = true := by
        cases rest <;> simp [quotedStringInside]
      rw [reads, sunk, spaces]
      rw [sunk] at stepped
      simp only [peek_cons, quote, if_false, if_true, List.tail_cons,
        scanQuotedString_print rest copied, Prod.mk.injEq] at stepped
      simp only [peek_cons, quote, if_false, if_true, List.tail_cons,
        quotedStringInside_append copied, inside, Bool.and_self, true_and]
      exact stepped
  | @bare next avoided stops text c rest string bare ends visible =>
      obtain ⟨_, _, avoids⟩ := MapParseState.string_bare string
      obtain ⟨stepped, reads⟩ := step_of_string (here ▸ string)
      have sunk : skipSpace p.map = text ++ c :: rest := by
        rw [memory]
        exact bare.skipSpace fun empty => by simpa using visible empty
      have first : peek (text ++ c :: rest) ∉ avoided ∧ peek (text ++ c :: rest) ≠ '"' := by
        cases text with
        | nil =>
            constructor
            · intro member
              exact absurd (avoids c (Or.inr member)) (by simp [ends])
            · intro quote
              exact absurd (avoids c (Or.inl quote)) (by simp [ends])
        | cons d text => exact (bare.2 d rfl).symm
      have spaces : stopsInside isSpace p.map = true := by
        rw [memory]
        cases text with
        | nil => exact stopsInside_of_mem List.mem_cons_self (visible rfl)
        | cons d text =>
            exact stopsInside_of_mem List.mem_cons_self
              (isSpace_of_isBare (bare.1 d List.mem_cons_self))
      have inside : stopsInside (isBare stops) (text ++ c :: rest) = true :=
        stopsInside_of_mem (by simp) ends
      rw [reads, sunk, spaces]
      rw [sunk] at stepped
      simp only [first.1, first.2, if_false, dropWhile_stop rest bare.1 ends,
        Prod.mk.injEq] at stepped
      simp only [first.1, first.2, if_false, inside, Bool.and_self, true_and]
      exact stepped

theorem Interrupted.going {state : MapParseState} {map : List Char}
    (interrupted : Interrupted state map)
    : state ≠ .done := by
  induction interrupted with
  | blank _ _ ih => exact ih
  | mark expected skips => exact (MapParseState.mark_stops expected).1
  | quoted string copied => exact (MapParseState.string_bare string).1
  | escape string copied => exact (MapParseState.string_bare string).1
  | bare string bare => exact (MapParseState.string_bare string).1

/-- An iteration that is interrupted reads behind the end of the memory. -/
theorem MapParser.readsInside_of_interrupted {p : MapParser} {state : MapParseState}
    {map : List Char} (interrupted : Interrupted state map) (here : p.parserState = state)
    (memory : p.map = map)
    : p.readsInside = false := by
  induction interrupted generalizing p with
  | blank space interrupted ih =>
      rw [(step_blank memory space (here ▸ interrupted.going)).2]
      exact ih here rfl
  | @mark next stops skipped c expected skips =>
      have sunk : skipSpace p.map = skipped := by
        rw [memory]
        simpa using @Skipped.skipSpace stops skipped [] skips nofun
      rw [(step_of_mark (here ▸ expected)).2, sunk, skips.interrupts, Bool.and_false]
  | @quoted next avoided stops chars string copied =>
      have sunk : skipSpace p.map = '"' :: chars.flatMap printChar := by
        rw [memory]
        exact skipSpace_of_first _ (by decide)
      have scanned := quotedStringInside_append copied []
      rw [List.append_nil] at scanned
      rw [(step_of_string (here ▸ string)).2, sunk]
      simp [(MapParseState.string_bare string).2.1, scanned, quotedStringInside]
  | @escape next avoided stops chars string copied =>
      have sunk : skipSpace p.map = '"' :: (chars.flatMap printChar ++ ['\\']) := by
        rw [memory]
        exact skipSpace_of_first _ (by decide)
      have scanned := quotedStringInside_append copied ['\\']
      rw [(step_of_string (here ▸ string)).2, sunk]
      simp [(MapParseState.string_bare string).2.1, scanned, quotedStringInside]
  | @bare next avoided stops text string bare =>
      rw [(step_of_string (here ▸ string)).2, memory]
      cases text with
      | nil => rfl
      | cons c text =>
          have visible := isSpace_of_isBare (bare.1 c List.mem_cons_self)
          have first := bare.2 c rfl
          have ends : stopsInside (isBare stops) (c :: text) = false :=
            stopsInside_eq_false.mpr bare.1
          rw [skipSpace_of_first _ visible]
          simp [first.1, first.2, ends]

/-- How a text goes on after an opening quote. -/
theorem quoted_cases (map : List Char)
    : ∃ chars rest, Copied chars ∧ map = chars.flatMap printChar ++ rest
        ∧ (rest = [] ∨ rest = ['\\'] ∨ ∃ more, rest = '"' :: more ∨ rest = '\x00' :: more) := by
  induction map using quotedStringInside.induct with
  | case1 => exact ⟨[], [], nofun, rfl, Or.inl rfl⟩
  | case2 c rest ends =>
      refine ⟨[], c :: rest, nofun, rfl, Or.inr (Or.inr ⟨rest, ?_⟩)⟩
      rcases ends with rfl | rfl
      · exact Or.inr rfl
      · exact Or.inl rfl
  | case3 => exact ⟨[], ['\\'], nofun, rfl, Or.inr (Or.inl rfl)⟩
  | case4 d more plain ih =>
      obtain ⟨chars, rest, copied, rfl, ends⟩ := ih
      refine ⟨(true, d) :: chars, rest, ?_, rfl, ends⟩
      intro char member
      rcases List.mem_cons.mp member with rfl | member
      · exact nofun
      · exact copied char member
  | case5 c rest plain escape ih =>
      obtain ⟨chars, rest, copied, rfl, ends⟩ := ih
      refine ⟨(false, c) :: chars, rest, ?_, rfl, ends⟩
      rw [not_or] at plain
      intro char member
      rcases List.mem_cons.mp member with rfl | member
      · exact fun _ => ⟨plain.1, plain.2, escape⟩
      · exact copied char member

/-- What an iteration in which a mark is expected can do with visible memory. -/
theorem mark_cases {state next : MapParseState} {stops : List Char} {c : Char} (map : List Char)
    (expected : state.mark = some (stops, c, next))
    (visible : ∀ c ∈ map.head?, isSpace c = false)
    : Interrupted state map ∨ (∃ rest, Passes state map next rest)
      ∨ expectInside stops map = true ∧ peek (expect stops map) ≠ c := by
  cases map with
  | nil => exact Or.inl (.mark expected trivial)
  | cons first more =>
      by_cases stop : first ∈ stops
      · by_cases same : first = c
        · exact Or.inr (Or.inl ⟨more, same ▸ @Passes.mark _ _ _ [] _ _ expected trivial⟩)
        · refine Or.inr (Or.inr ⟨by simp [expectInside, stop], ?_⟩)
          simpa [expect_of_mem more stop] using same
      · cases inside : stopsInside (fun c => c ∉ stops ∧ c ≠ '\x00') more with
        | false =>
            refine Or.inl (.mark expected ⟨visible first rfl, stop, fun d member => ?_⟩)
            exact of_decide_eq_true (stopsInside_eq_false.mp inside d member)
        | true =>
            obtain ⟨before, d, rest, rfl, passed, ends, left⟩ := stopsInside_split inside
            have skips : Skipped stops (first :: before) :=
              ⟨visible first rfl, stop, fun d member => of_decide_eq_true (passed d member)⟩
            by_cases same : d = c
            · exact Or.inr (Or.inl ⟨rest, same ▸ .mark rest expected skips⟩)
            · have found : expect stops (first :: (before ++ d :: rest)) = d :: rest := by
                simp only [expect, peek_cons, stop, if_false, List.tail_cons, skipTo, left]
              refine Or.inr (Or.inr ⟨by rw [expectInside, inside, Bool.or_true], ?_⟩)
              rwa [found]

/-- What an iteration in which a string is read can do with visible memory. -/
theorem string_cases {state next : MapParseState} {avoided stops : List Char} {c : Char}
    (rest : List Char) (string : state.string = some (avoided, stops, next))
    (visible : isSpace c = false) (wanted : c ∉ avoided)
    : Interrupted state (c :: rest) ∨ (∃ left, Passes state (c :: rest) next left)
      ∨ c = '"' ∧ quotedStringInside rest = true ∧ (scanQuotedString rest).closed = false := by
  by_cases quote : c = '"'
  · subst quote
    obtain ⟨chars, rest, copied, rfl, rfl | rfl | ⟨more, rfl | rfl⟩⟩ := quoted_cases rest
    · rw [List.append_nil]
      exact Or.inl (.quoted string copied)
    · exact Or.inl (.escape string copied)
    · exact Or.inr (Or.inl ⟨more, .quoted more string copied⟩)
    · refine Or.inr (Or.inr ⟨rfl, ?_, ?_⟩)
      · rw [quotedStringInside_append copied]
        cases more <;> simp [quotedStringInside]
      · rw [scanQuotedString_append copied]
        cases more <;> simp [scanQuotedString]
  · cases inside : stopsInside (isBare stops) (c :: rest) with
    | false =>
        refine Or.inl (.bare string ⟨stopsInside_eq_false.mp inside, ?_⟩)
        intro d same
        obtain rfl := Option.some.inj same
        exact ⟨quote, wanted⟩
    | true =>
        obtain ⟨before, d, more, split, bare, ends, _⟩ := stopsInside_split inside
        have head : ∀ first ∈ before.head?, first ≠ '"' ∧ first ∉ avoided := by
          intro first same
          cases before with
          | nil => cases same
          | cons c before =>
              obtain rfl := Option.some.inj same
              obtain ⟨rfl, _⟩ := List.cons.inj split
              exact ⟨quote, wanted⟩
        have visible : before = [] → isSpace d = false := by
          rintro rfl
          obtain ⟨rfl, _⟩ := List.cons.inj split
          exact visible
        exact Or.inr (Or.inl ⟨d :: more, split ▸ .bare more string ⟨bare, head⟩ ends visible⟩)

theorem Passes.of_step {p : MapParser} {next : MapParseState} {rest : List Char}
    (passes : Passes p.parserState p.map next rest)
    : Passes p.parserState p.map p.step.parserState p.step.map := by
  obtain ⟨_, state, map⟩ := MapParser.step_of_passes passes rfl rfl
  rwa [state, map]

/-- What an iteration can do: it is interrupted, it passes to another state, or it is the last
one. By induction on the white space before what is read.
-/
theorem MapParser.step_cases {p : MapParser} (going : p.parserState ≠ .done)
    : Interrupted p.parserState p.map
      ∨ Passes p.parserState p.map p.step.parserState p.step.map
      ∨ p.readsInside = true ∧ p.step.parserState = .done := by
  obtain ⟨state, map, key, val, config⟩ := p
  induction map with
  | nil =>
      left
      rcases MapParseState.mark_or_string going with ⟨_, _, _, expected⟩ | ⟨_, _, _, string⟩
      · exact .mark expected trivial
      · exact .bare string ⟨nofun, nofun⟩
  | cons c rest ih =>
      by_cases space : isSpace c = true
      · obtain ⟨same, reads⟩ :=
          @step_blank ⟨state, c :: rest, key, val, config⟩ c rest rfl space going
        rw [same, reads]
        rcases ih going with interrupted | passes | last
        · exact Or.inl (.blank space interrupted)
        · exact Or.inr (Or.inl (.blank space passes))
        · exact Or.inr (Or.inr last)
      · have visible : isSpace c = false := Bool.eq_false_iff.mpr space
        have sunk : skipSpace (c :: rest) = c :: rest := skipSpace_of_first rest visible
        have spaces : stopsInside isSpace (c :: rest) = true :=
          stopsInside_of_mem List.mem_cons_self visible
        rcases MapParseState.mark_or_string going with
          ⟨stops, mark, next, expected⟩ | ⟨avoided, stops, next, string⟩
        · obtain ⟨stepped, reads⟩ := @step_of_mark ⟨state, c :: rest, key, val, config⟩ _ _ _ expected
          rcases mark_cases (c :: rest) expected (by simpa using visible) with
            interrupted | ⟨left, passes⟩ | ⟨inside, other⟩
          · exact Or.inl interrupted
          · exact Or.inr (Or.inl (Passes.of_step (p := ⟨state, c :: rest, key, val, config⟩) passes))
          · refine Or.inr (Or.inr ⟨?_, ?_⟩)
            · rw [reads, sunk, spaces, inside, Bool.and_self]
            · rw [stepped, sunk]
              simp only [stepExpect, other, if_false]
        · obtain ⟨stepped, reads⟩ :=
            @step_of_string ⟨state, c :: rest, key, val, config⟩ _ _ _ string
          rw [sunk] at stepped reads
          rw [spaces] at reads
          by_cases avoid : c ∈ avoided
          · simp only [peek_cons, avoid, if_true, Prod.mk.injEq] at stepped
            refine Or.inr (Or.inr ⟨?_, stepped.1⟩)
            simpa [avoid] using reads
          · rcases string_cases rest string visible avoid with
              interrupted | ⟨left, passes⟩ | ⟨rfl, inside, closed⟩
            · exact Or.inl interrupted
            · exact Or.inr (Or.inl (Passes.of_step (p := ⟨state, c :: rest, key, val, config⟩) passes))
            · simp only [peek_cons, avoid, if_true, if_false, List.tail_cons, closed,
                Bool.false_eq_true, Prod.mk.injEq] at stepped
              refine Or.inr (Or.inr ⟨?_, stepped.1⟩)
              simpa [avoid, inside] using reads

-----------------------------------------------------------------------------------------
-- Reads of the loop
-----------------------------------------------------------------------------------------

theorem MapParser.loopInside_done {p : MapParser} (done : p.parserState = .done) (n : Nat)
    : p.loopInside n = true := by
  cases n with
  | zero => rfl
  | succ n => simp [loopInside, done]

/-- More iterations than the measure do nothing. -/
theorem MapParser.loopInside_eq_staysInside {p : MapParser} {n : Nat} (enough : p.measure ≤ n)
    : p.loopInside n = p.staysInside := by
  suffices stable : ∀ n m (p : MapParser), p.measure ≤ n → p.measure ≤ m
      → p.loopInside n = p.loopInside m from
    stable n p.measure p enough (Nat.le_refl _)
  intro n
  induction n with
  | zero =>
      intro m p few _
      have done := done_of_measure (Nat.le_zero.mp few)
      rw [loopInside_done done, loopInside_done done]
  | succ n ih =>
      intro m p few many
      by_cases done : p.parserState = .done
      · rw [loopInside_done done, loopInside_done done]
      · have less := measure_step done
        obtain ⟨m, rfl⟩ : ∃ k, m = k + 1 := ⟨m - 1, by omega⟩
        simp only [loopInside, done, decide_false, Bool.false_or]
        rw [ih m p.step (by omega) (by omega)]

theorem MapParser.staysInside_step {p : MapParser} (going : p.parserState ≠ .done)
    : p.staysInside = (p.readsInside && p.step.staysInside) := by
  have less := measure_step going
  obtain ⟨n, more⟩ : ∃ n, p.measure = n + 1 := ⟨p.measure - 1, by omega⟩
  rw [staysInside, more]
  simp only [loopInside, going, decide_false, Bool.false_or]
  rw [loopInside_eq_staysInside (by omega)]

theorem Unfinished.going {state : MapParseState} {map : List Char}
    (unfinished : Unfinished state map)
    : state ≠ .done := by
  cases unfinished with
  | interrupted here => exact here.going
  | passes step later => exact step.going

/-- What is left after an iteration inside the memory is unfinished as well. -/
theorem Unfinished.step {p : MapParser} (unfinished : Unfinished p.parserState p.map)
    (inside : p.readsInside = true)
    : Unfinished p.step.parserState p.step.map := by
  cases unfinished with
  | interrupted here =>
      rw [MapParser.readsInside_of_interrupted here rfl rfl] at inside
      cases inside
  | passes step later =>
      obtain ⟨_, state, map⟩ := MapParser.step_of_passes step rfl rfl
      rwa [state, map]

/-- The loop reads behind the end of the memory exactly if the memory is unfinished. By induction
on the iterations.
-/
theorem MapParser.staysInside_iff (p : MapParser)
    : p.staysInside = true ↔ ¬ Unfinished p.parserState p.map := by
  generalize size : p.measure = n
  induction n using Nat.strong_induction_on generalizing p with
  | _ n ih =>
      by_cases done : p.parserState = .done
      · constructor
        · intro _ unfinished
          exact unfinished.going done
        · intro _
          exact loopInside_done done _
      · have later := ih _ (size ▸ measure_step done) p.step rfl
        rw [staysInside_step done, Bool.and_eq_true, later]
        constructor
        · rintro ⟨inside, finished⟩ unfinished
          exact finished (unfinished.step inside)
        · intro finished
          rcases step_cases done with interrupted | passes | ⟨inside, last⟩
          · exact absurd (.interrupted interrupted) finished
          · exact ⟨(step_of_passes passes rfl rfl).1,
              fun unfinished => finished (.passes passes unfinished)⟩
          · exact ⟨inside, fun unfinished => unfinished.going last⟩

-----------------------------------------------------------------------------------------
-- Strings with their zero byte
-----------------------------------------------------------------------------------------

theorem Interrupted.blanks {state : MapParseState} {map blank : List Char}
    (interrupted : Interrupted state map) (space : ∀ d ∈ blank, isSpace d = true)
    : Interrupted state (blank ++ map) := by
  induction blank with
  | nil => exact interrupted
  | cons c blank ih =>
      exact .blank (space c List.mem_cons_self)
        (ih fun d member => space d (List.mem_cons_of_mem _ member))

theorem Passes.blanks {state next : MapParseState} {map rest blank : List Char}
    (passes : Passes state map next rest) (space : ∀ d ∈ blank, isSpace d = true)
    : Passes state (blank ++ map) next rest := by
  induction blank with
  | nil => exact passes
  | cons c blank ih =>
      exact .blank (space c List.mem_cons_self)
        (ih fun d member => space d (List.mem_cons_of_mem _ member))

/-- A mark is found after white space and what is skipped. -/
theorem Passes.search {state next : MapParseState} {stops before : List Char} {c : Char}
    (rest : List Char) (expected : state.mark = some (stops, c, next))
    (free : ∀ d ∈ before, d ∉ stops) (zeroless : '\x00' ∉ before)
    : Passes state (before ++ c :: rest) next rest := by
  induction before with
  | nil => exact @mark _ _ _ [] _ _ expected trivial
  | cons d before ih =>
      rw [List.mem_cons, not_or] at zeroless
      have later (e : Char) (member : e ∈ before) := free e (List.mem_cons_of_mem _ member)
      by_cases space : isSpace d = true
      · exact .blank space (ih later zeroless.2)
      · refine @mark _ _ _ (d :: before) _ rest expected ⟨Bool.eq_false_iff.mpr space,
          free d List.mem_cons_self, fun e member => ⟨later e member, ?_⟩⟩
        rintro rfl
        exact zeroless.2 member

theorem EndsEarly.unfinished {state : MapParseState} {text : List Char}
    (early : EndsEarly state text) (zeroless : '\x00' ∉ text)
    : Unfinished state (text ++ ['\x00']) := by
  induction early with
  | mark expected space =>
      have marks := (MapParseState.mark_stops expected).2.2
      refine .interrupted (.blanks (.mark expected ⟨by decide, ?_, nofun⟩) space)
      exact fun member => (marks _ member).2 rfl
  | @escape state next avoided stops blank chars string space copied =>
      have more : Copied (chars ++ [(true, '\x00')]) := by
        intro char member plain
        rcases List.mem_append.mp member with member | last
        · exact copied char member plain
        · obtain rfl := List.mem_singleton.mp last
          cases plain
      have interrupted := Interrupted.blanks (.quoted string more) space
      simp only [List.flatMap_append, List.flatMap_singleton, printChar] at interrupted
      simpa using Unfinished.interrupted interrupted
  | @afterMark state next stops before rest c expected free later ih =>
      simp only [List.mem_append, List.mem_cons, not_or] at zeroless
      rw [List.append_assoc]
      exact .passes (.search _ expected free zeroless.1) (ih zeroless.2.2)
  | @afterQuoted state next avoided stops blank rest chars string space copied later ih =>
      simp only [List.mem_append, List.mem_cons, not_or] at zeroless
      have passes := Passes.blanks (.quoted (rest ++ ['\x00']) string copied) space
      simp only [List.append_assoc, List.cons_append]
      exact .passes passes (ih zeroless.2.2.2.2)
  | @afterBare state next avoided stops blank text rest string space bare ends later ih =>
      simp only [List.mem_append, not_or] at zeroless
      have later := ih zeroless.2.2
      rw [List.append_assoc, List.append_assoc]
      cases rest with
      | nil => exact .passes (.blanks (.bare [] string bare (by simp [isBare]) fun _ => rfl) space) later
      | cons c rest =>
          obtain ⟨stop, visible⟩ := ends c rfl
          exact .passes (.blanks (.bare _ string bare stop visible) space) later

/-- White space before the text makes no difference. -/
theorem EndsEarly.cons_space {state : MapParseState} {text : List Char} {c : Char}
    (early : EndsEarly state text) (blank : isSpace c = true)
    : EndsEarly state (c :: text) := by
  have more {spaces : List Char} (space : ∀ d ∈ spaces, isSpace d = true)
      : ∀ d ∈ c :: spaces, isSpace d = true := by
    intro d member
    rcases List.mem_cons.mp member with rfl | member
    · exact blank
    · exact space d member
  cases early with
  | mark expected space => exact .mark expected (more space)
  | escape string space copied => exact .escape string (more space) copied
  | @afterMark _ next stops before rest mark expected free later =>
      have marks := (MapParseState.mark_stops expected).2.2
      refine @afterMark _ next stops (c :: before) rest mark expected ?_ later
      intro d member
      rcases List.mem_cons.mp member with rfl | member
      · intro stop
        rw [(marks d stop).1] at blank
        cases blank
      · exact free d member
  | afterQuoted string space copied later => exact .afterQuoted string (more space) copied later
  | afterBare string space bare ends later =>
      exact .afterBare string (more space) bare ends later

theorem append_singleton_split {before rest text : List Char} {c d : Char}
    (same : before ++ c :: rest = text ++ [d]) (other : c ≠ d)
    : ∃ left, rest = left ++ [d] ∧ text = before ++ c :: left := by
  rcases List.eq_nil_or_concat rest with rfl | ⟨left, last, rfl⟩
  · exact absurd (List.append_singleton_inj.mp same).2 other
  · have whole : before ++ c :: left ++ [last] = text ++ [d] := by simpa using same
    obtain ⟨rfl, rfl⟩ := List.append_singleton_inj.mp whole
    exact ⟨left, by simp, rfl⟩

/-- An iteration that the zero byte interrupts. -/
theorem Interrupted.endsEarly {state : MapParseState} {map text : List Char}
    (interrupted : Interrupted state map) (whole : map = text ++ ['\x00']) (zeroless : '\x00' ∉ text)
    : EndsEarly state text := by
  induction interrupted generalizing text with
  | @blank map c space interrupted ih =>
      cases text with
      | nil =>
          obtain ⟨rfl, _⟩ := List.cons.inj whole
          cases space
      | cons d text =>
          obtain ⟨rfl, rfl⟩ := List.cons.inj whole
          rw [List.mem_cons, not_or] at zeroless
          exact (ih rfl zeroless.2).cons_space space
  | @mark next stops skipped c expected skips =>
      subst whole
      cases text with
      | nil => exact .mark expected nofun
      | cons d text => exact absurd rfl (skips.2.2 '\x00' (by simp)).2
  | @quoted next avoided stops chars string copied =>
      rcases List.eq_nil_or_concat chars with rfl | ⟨chars, last, rfl⟩
      · have split : [] ++ ['"'] = text ++ ['\x00'] := whole
        exact absurd (List.append_singleton_inj.mp split).2 (by decide)
      · obtain ⟨escaped, c⟩ := last
        have before : Copied chars :=
          fun char member => copied char (by simp [member])
        cases escaped with
        | true =>
            have split : '"' :: (chars.flatMap printChar ++ ['\\']) ++ [c] = text ++ ['\x00'] := by
              simpa [printChar] using whole
            obtain ⟨rfl, rfl⟩ := List.append_singleton_inj.mp split
            exact @EndsEarly.escape _ _ _ _ [] _ string nofun before
        | false =>
            have split : '"' :: chars.flatMap printChar ++ [c] = text ++ ['\x00'] := by
              simpa [printChar] using whole
            obtain ⟨_, rfl⟩ := List.append_singleton_inj.mp split
            exact absurd rfl (copied (false, '\x00') (by simp) rfl).1
  | @escape next avoided stops chars string copied =>
      have split : '"' :: chars.flatMap printChar ++ ['\\'] = text ++ ['\x00'] := whole
      exact absurd (List.append_singleton_inj.mp split).2 (by decide)
  | @bare next avoided stops bareText string bare =>
      subst whole
      exact absurd (bare.1 '\x00' (by simp)) (by simp [isBare])

/-- An iteration inside a string with its zero byte. -/
theorem Passes.endsEarly {state next : MapParseState} {map rest text : List Char}
    (passes : Passes state map next rest) (whole : map = text ++ ['\x00']) (zeroless : '\x00' ∉ text)
    (later : ∀ left, rest = left ++ ['\x00'] → '\x00' ∉ left → EndsEarly next left)
    : EndsEarly state text := by
  induction passes generalizing text with
  | @blank next map rest c space passes ih =>
      cases text with
      | nil =>
          obtain ⟨rfl, _⟩ := List.cons.inj whole
          cases space
      | cons d text =>
          obtain ⟨rfl, rfl⟩ := List.cons.inj whole
          rw [List.mem_cons, not_or] at zeroless
          exact (ih rfl zeroless.2 later).cons_space space
  | @mark next stops skipped c rest expected skips =>
      obtain ⟨_, stop, marks⟩ := MapParseState.mark_stops expected
      obtain ⟨left, rfl, rfl⟩ := append_singleton_split whole (marks c stop).2
      simp only [List.mem_append, List.mem_cons, not_or] at zeroless
      refine .afterMark expected ?_ (later left rfl zeroless.2.2)
      intro d member
      cases skipped with
      | nil => cases member
      | cons first more =>
          rcases List.mem_cons.mp member with rfl | member
          · exact skips.2.1
          · exact (skips.2.2 d member).1
  | @quoted next avoided stops chars rest string copied =>
      rw [← List.cons_append] at whole
      obtain ⟨left, rfl, rfl⟩ := append_singleton_split whole (by decide)
      simp only [List.cons_append, List.mem_append, List.mem_cons, not_or] at zeroless
      exact @EndsEarly.afterQuoted _ _ _ _ [] _ _ string nofun copied (later left rfl zeroless.2.2.2)
  | @bare next avoided stops bareText c rest string bare ends visible =>
      rcases List.eq_nil_or_concat rest with rfl | ⟨left, last, rfl⟩
      · obtain ⟨rfl, rfl⟩ := List.append_singleton_inj.mp whole
        have early := @EndsEarly.afterBare _ _ _ _ [] bareText [] string nofun bare nofun
          (later [] rfl List.not_mem_nil)
        simpa using early
      · have split : bareText ++ c :: left ++ [last] = text ++ ['\x00'] := by simpa using whole
        obtain ⟨rfl, rfl⟩ := List.append_singleton_inj.mp split
        simp only [List.mem_append, not_or] at zeroless
        refine @EndsEarly.afterBare _ _ _ _ [] bareText (c :: left) string nofun bare ?_
          (later (c :: left) (by simp) zeroless.2)
        intro d same
        obtain rfl := Option.some.inj same
        exact ⟨ends, visible⟩

theorem unfinished_string_iff {state : MapParseState} {text : List Char} (zeroless : '\x00' ∉ text)
    : Unfinished state (text ++ ['\x00']) ↔ EndsEarly state text := by
  constructor
  · intro unfinished
    generalize whole : text ++ ['\x00'] = map at unfinished
    induction unfinished generalizing text with
    | interrupted here => exact here.endsEarly whole.symm zeroless
    | passes step later ih =>
        exact step.endsEarly whole.symm zeroless fun left same zeroless => ih zeroless same.symm
  · intro early
    exact early.unfinished zeroless

/-- **Reads**: `parse_map` ends on a string and reads nothing behind its zero byte exactly if the
string does not end too early.
-/
theorem map_reads_inside_iff (val text following : List Char) (zeroless : '\x00' ∉ text)
    : (MapParser.finish
          ⟨.start, text ++ '\x00' :: following, [], val, ⟨false, 0⟩⟩).parserState = .done
        ∧ mapInside val (text ++ ['\x00']) = true
      ↔ ¬ EndsEarly .start text := by
  rw [mapInside, MapParser.staysInside_iff, unfinished_string_iff zeroless]
  exact ⟨And.right, fun finished => ⟨MapParser.finish_done _, finished⟩⟩

/-- Witness: a map with a key in quotes and a value with an escaped quote does not end too early. -/
theorem quoted_map_reads_inside
    : ¬ EndsEarly .start
        ['{', '"', 'k', '"', '=', '"', 'a', '\\', '"', '"', ',', ' ', 'b', '=', '1', '}'] :=
  (map_reads_inside_iff [] _ [] (by decide)).mp ⟨by decide, by decide⟩

/-- The empty string is read behind its zero byte. -/
theorem empty_string_is_overrun
    : ¬ ∀ val text following : List Char, '\x00' ∉ text
        → (MapParser.finish
            ⟨.start, text ++ '\x00' :: following, [], val, ⟨false, 0⟩⟩).parserState = .done
          ∧ mapInside val (text ++ ['\x00']) = true := by
  intro all
  exact absurd (all [] [] [] List.not_mem_nil).2 (by decide)

end VirtioForwarder
