import Mathlib.Logic.Relation
import VirtioForwarder.Ovsdb.OpenValues

/-! Rows and what surrounds them: a row leads to the same call whatever follows it in `buf` and
whatever earlier rows have left in the arrays, if it has its four fields and they are quoted
well. Otherwise the call depends on bytes that do not belong to the row.
-/

namespace VirtioForwarder

open CText

-----------------------------------------------------------------------------------------
-- Memory behind what is read
-----------------------------------------------------------------------------------------

theorem dropWhile_inside {skip : Char → Bool} {memory : List Char}
    (inside : stopsInside skip memory = true) (more : List Char)
    : (memory ++ more).dropWhile skip = memory.dropWhile skip ++ more
      ∧ (memory ++ more).takeWhile skip = memory.takeWhile skip := by
  obtain ⟨before, c, rest, rfl, all, stop, left⟩ := stopsInside_split inside
  have ends : ¬ skip c = true := by simp [stop]
  rw [left, List.append_assoc, List.cons_append, dropWhile_stop _ all stop,
    List.takeWhile_append_of_pos all, List.takeWhile_append_of_pos all,
    List.takeWhile_cons_of_neg ends, List.takeWhile_cons_of_neg ends]
  exact ⟨rfl, rfl⟩

theorem expect_inside {stops map : List Char} (inside : expectInside stops map = true)
    : ∃ c rest, expect stops map = c :: rest
        ∧ ∀ more, expect stops (map ++ more) = c :: (rest ++ more) := by
  cases map with
  | nil => cases inside
  | cons c rest =>
      by_cases stop : c ∈ stops
      · exact ⟨c, rest, expect_of_mem _ stop, fun more => expect_of_mem _ stop⟩
      · have skips : stopsInside (fun c => c ∉ stops ∧ c ≠ '\x00') rest = true := by
          rwa [expectInside, decide_eq_false stop, Bool.false_or] at inside
        obtain ⟨before, d, left, rfl, all, ends, dropped⟩ := stopsInside_split skips
        refine ⟨d, left, ?_, fun more => ?_⟩
        · simp only [expect, peek_cons, stop, if_false, List.tail_cons, skipTo, dropped]
        · simp only [expect, List.cons_append, peek_cons, stop, if_false, List.tail_cons, skipTo,
            (dropWhile_inside skips more).1, dropped]

theorem scanQuotedString_inside {map : List Char} (inside : quotedStringInside map = true)
    (more : List Char)
    : scanQuotedString (map ++ more)
      = { scanQuotedString map with rest := (scanQuotedString map).rest ++ more } := by
  obtain ⟨chars, rest, copied, rfl, ends⟩ := quoted_cases map
  rw [quotedStringInside_append copied] at inside
  rw [List.append_assoc, scanQuotedString_append copied, scanQuotedString_append copied]
  rcases ends with rfl | rfl | ⟨last, rfl | rfl⟩
  · cases inside
  · cases inside
  · rw [List.cons_append, scanQuotedString_quote, scanQuotedString_quote]
  · cases last <;> cases more <;> simp [scanQuotedString]

theorem MapParser.stepExpect_frame {p : MapParser} {stops : List Char} (c : Char)
    (next : MapParseState) (inside : expectInside stops p.map = true) (more : List Char)
    : ({ p with map := p.map ++ more } : MapParser).stepExpect stops c next
      = { p.stepExpect stops c next with map := (p.stepExpect stops c next).map ++ more } := by
  obtain ⟨d, rest, found, framed⟩ := expect_inside inside
  simp only [stepExpect, found, framed, peek_cons, List.tail_cons]
  split
  · rfl
  · rfl

/-- An iteration that reads inside the memory does not depend on what follows. -/
theorem MapParser.step_frame {p : MapParser} (inside : p.readsInside = true) (more : List Char)
    : ({ p with map := p.map ++ more } : MapParser).step
      = { p.step with map := p.step.map ++ more } := by
  obtain ⟨state, map, key, val, config⟩ := p
  by_cases done : state = .done
  · subst done
    rfl
  have spaces : stopsInside isSpace map = true := by
    cases state <;> simp_all [readsInside]
  obtain ⟨before, c, rest, _, _, visible, sunk⟩ := stopsInside_split spaces
  have skipped : skipSpace map = c :: rest := sunk
  have framed : skipSpace (map ++ more) = c :: rest ++ more := by
    rw [skipSpace, (dropWhile_inside spaces more).1, sunk]
  cases state with
  | start =>
      simp only [readsInside, skipped, Bool.and_eq_true] at inside
      simp only [step, skipped, framed]
      exact @stepExpect_frame ⟨.start, c :: rest, key, val, config⟩ ['{'] '{' .key inside.2 more
  | eq =>
      simp only [readsInside, skipped, Bool.and_eq_true] at inside
      simp only [step, skipped, framed]
      exact @stepExpect_frame ⟨.eq, c :: rest, key, val, config⟩ ['='] '=' .val inside.2 more
  | sep =>
      simp only [readsInside, skipped, Bool.and_eq_true] at inside
      simp only [step, skipped, framed]
      exact @stepExpect_frame ⟨.sep, c :: rest, key, val, config⟩ [',', '}'] ',' .key inside.2 more
  | key =>
      simp only [readsInside, skipped, peek_cons, List.tail_cons, Bool.and_eq_true] at inside
      simp only [step, stepKey, skipped, framed, List.cons_append, peek_cons, List.tail_cons]
      by_cases brace : c = '}'
      · simp only [brace, if_true, List.cons_append]
      · by_cases quote : c = '"'
        · simp only [quote, if_true] at inside ⊢
          rw [scanQuotedString_inside inside.2 more]
          cases (scanQuotedString rest).closed with
          | true => rfl
          | false => rfl
        · simp only [brace, quote, if_false] at inside ⊢
          have bare := dropWhile_inside inside.2 more
          rw [List.cons_append] at bare
          rw [bare.1, bare.2]
  | val =>
      simp only [readsInside, skipped, peek_cons, List.tail_cons, Bool.and_eq_true] at inside
      simp only [step, stepVal, skipped, framed, List.cons_append, peek_cons, List.tail_cons]
      by_cases quote : c = '"'
      · simp only [quote, if_true] at inside ⊢
        rw [scanQuotedString_inside inside.2 more]
      · simp only [quote, if_false] at inside ⊢
        have bare := dropWhile_inside inside.2 more
        rw [List.cons_append] at bare
        rw [bare.1, bare.2]
  | done => exact absurd rfl done

/-- A loop that reads inside the memory does not depend on what follows. -/
theorem MapParser.finish_frame {p : MapParser} (inside : p.staysInside = true) (more : List Char)
    : ({ p with map := p.map ++ more } : MapParser).finish.config = p.finish.config := by
  generalize size : p.measure = n
  induction n using Nat.strong_induction_on generalizing p with
  | _ n ih =>
      by_cases done : p.parserState = .done
      · rw [finish_of_done done, finish_of_done (p := { p with map := p.map ++ more }) done]
      · rw [staysInside_step done, Bool.and_eq_true] at inside
        have later := ih _ (size ▸ measure_step done) inside.2 rfl
        rw [finish_step done, finish_step (p := { p with map := p.map ++ more }) done,
          step_frame inside.1 more, later]

theorem parseMap_frame {val map : List Char} (inside : mapInside val map = true) (more : List Char)
    : parseMap val (map ++ more) = parseMap val map :=
  MapParser.finish_frame inside more

-----------------------------------------------------------------------------------------
-- Maps that go on in other memory
-----------------------------------------------------------------------------------------

/-- Iterations lead from a state and memory to others. -/
def Leads : MapParseState × List Char → MapParseState × List Char → Prop :=
  Relation.ReflTransGen fun first second => Passes first.1 first.2 second.1 second.2

theorem MapParser.finish_of_leads {first second : MapParseState × List Char} {p : MapParser}
    (leads : Leads first second) (state : p.parserState = first.1) (map : p.map = first.2)
    : ∃ q : MapParser, p.finish = q.finish ∧ q.parserState = second.1 ∧ q.map = second.2 := by
  induction leads using Relation.ReflTransGen.head_induction_on generalizing p with
  | refl => exact ⟨p, rfl, state, map⟩
  | head passes _ ih =>
      obtain ⟨_, next, rest⟩ := step_of_passes passes state map
      obtain ⟨q, same, reached⟩ := ih next rest
      exact ⟨q, (finish_step (state ▸ passes.going)).trans same, reached⟩

/-- After these characters a map goes on in `STATE_KEY`, wherever it was interrupted. -/
def resumption : List Char := ['x', '"', '{', '=', ',']

theorem leads_sep (tail : List Char) : Leads (.sep, ',' :: tail) (.key, tail) :=
  .single (@Passes.mark _ _ [',', '}'] [] ',' tail rfl trivial)

theorem leads_val (tail : List Char) : Leads (.val, ',' :: tail) (.key, tail) := by
  have passes : Passes .val (',' :: tail) .sep (',' :: tail) :=
    @Passes.bare _ _ [] [',', '}'] [] ',' tail rfl ⟨nofun, nofun⟩ (by decide) fun _ => by decide
  exact .head passes (leads_sep tail)

theorem leads_eq (tail : List Char) : Leads (.eq, '=' :: ',' :: tail) (.key, tail) :=
  .head (@Passes.mark _ _ ['='] [] '=' (',' :: tail) rfl trivial) (leads_val tail)

theorem leads_key (tail : List Char) : Leads (.key, '=' :: ',' :: tail) (.key, tail) := by
  have passes : Passes .key ('=' :: ',' :: tail) .eq ('=' :: ',' :: tail) :=
    @Passes.bare _ _ ['}'] ['='] [] '=' _ rfl ⟨nofun, nofun⟩ (by decide) fun _ => by decide
  exact .head passes (leads_eq tail)

theorem Skipped.append {stops skipped more : List Char} (skips : Skipped stops skipped)
    (also : Skipped stops more) (zeroless : '\x00' ∉ more)
    : Skipped stops (skipped ++ more) := by
  cases skipped with
  | nil => exact also
  | cons first rest =>
      refine ⟨skips.1, skips.2.1, fun d member => ?_⟩
      rcases List.mem_append.mp member with member | member
      · exact skips.2.2 d member
      · cases more with
        | nil => cases member
        | cons c more =>
            refine ⟨?_, fun zero => zeroless (zero ▸ member)⟩
            rcases List.mem_cons.mp member with rfl | member
            · exact also.2.1
            · exact (also.2.2 d member).1

theorem BareText.append {avoided stops text more : List Char} (bare : BareText avoided stops text)
    (also : BareText avoided stops more)
    : BareText avoided stops (text ++ more) := by
  refine ⟨fun c member => ?_, ?_⟩
  · rcases List.mem_append.mp member with member | member
    · exact bare.1 c member
    · exact also.1 c member
  · cases text with
    | nil => exact also.2
    | cons first rest => exact bare.2

/-- After a string in quotes the rest of the resumption leads to a key. -/
theorem leads_quoted {state next : MapParseState} {avoided stops : List Char}
    (string : state.string = some (avoided, stops, next)) (tail : List Char)
    : Leads (next, '{' :: '=' :: ',' :: tail) (.key, tail) := by
  cases state with
  | key =>
      obtain ⟨rfl, rfl, rfl⟩ : avoided = ['}'] ∧ stops = ['='] ∧ next = .eq := by
        simpa [MapParseState.string, eq_comm] using string
      have passes : Passes .eq ('{' :: '=' :: ',' :: tail) .val (',' :: tail) :=
        @Passes.mark _ _ ['='] ['{'] '=' _ rfl (by simp [Skipped, isSpace])
      exact .head passes (leads_val tail)
  | val =>
      obtain ⟨rfl, rfl, rfl⟩ : avoided = [] ∧ stops = [',', '}'] ∧ next = .sep := by
        simpa [MapParseState.string, eq_comm] using string
      exact .single (@Passes.mark _ _ [',', '}'] ['{', '='] ',' tail rfl (by simp [Skipped, isSpace]))
  | start | eq | sep | done => cases string

theorem Copied.append_last {chars : List (Bool × Char)} (copied : Copied chars) (escaped : Bool)
    : Copied (chars ++ [(escaped, 'x')]) := by
  intro char member plain
  rcases List.mem_append.mp member with member | last
  · exact copied char member plain
  · obtain rfl := List.mem_singleton.mp last
    simp

/-- Wherever an iteration was interrupted, the resumption leads to a key. -/
theorem Interrupted.resumes {state : MapParseState} {map : List Char}
    (interrupted : Interrupted state map) (tail : List Char)
    : ∃ next rest, Passes state (map ++ (resumption ++ tail)) next rest
        ∧ Leads (next, rest) (.key, tail) := by
  induction interrupted with
  | blank space _ ih =>
      obtain ⟨next, rest, passes, leads⟩ := ih
      exact ⟨next, rest, .blank space passes, leads⟩
  | @mark next stops skipped c expected skips =>
      cases state with
      | start =>
          obtain ⟨rfl, rfl, rfl⟩ : stops = ['{'] ∧ c = '{' ∧ next = .key := by
            simpa [MapParseState.mark, eq_comm] using expected
          have longer : Skipped ['{'] (skipped ++ ['x', '"']) := skips.append (by simp [Skipped, isSpace]) (by decide)
          refine ⟨.key, '=' :: ',' :: tail, ?_, leads_key tail⟩
          simpa [resumption] using Passes.mark ('=' :: ',' :: tail) expected longer
      | eq =>
          obtain ⟨rfl, rfl, rfl⟩ : stops = ['='] ∧ c = '=' ∧ next = .val := by
            simpa [MapParseState.mark, eq_comm] using expected
          have longer : Skipped ['='] (skipped ++ ['x', '"', '{']) :=
            skips.append (by simp [Skipped, isSpace]) (by decide)
          refine ⟨.val, ',' :: tail, ?_, leads_val tail⟩
          simpa [resumption] using Passes.mark (',' :: tail) expected longer
      | sep =>
          obtain ⟨rfl, rfl, rfl⟩ : stops = [',', '}'] ∧ c = ',' ∧ next = .key := by
            simpa [MapParseState.mark, eq_comm] using expected
          have longer : Skipped [',', '}'] (skipped ++ ['x', '"', '{', '=']) :=
            skips.append (by simp [Skipped, isSpace]) (by decide)
          refine ⟨.key, tail, ?_, .refl⟩
          simpa [resumption] using Passes.mark tail expected longer
      | key | val | done => cases expected
  | @quoted next avoided stops chars string copied =>
      refine ⟨next, '{' :: '=' :: ',' :: tail, ?_, leads_quoted string tail⟩
      simpa [resumption, printChar] using
        Passes.quoted ('{' :: '=' :: ',' :: tail) string (copied.append_last false)
  | @escape next avoided stops chars string copied =>
      refine ⟨next, '{' :: '=' :: ',' :: tail, ?_, leads_quoted string tail⟩
      simpa [resumption, printChar] using
        Passes.quoted ('{' :: '=' :: ',' :: tail) string (copied.append_last true)
  | @bare next avoided stops text string bare =>
      cases state with
      | key =>
          obtain ⟨rfl, rfl, rfl⟩ : avoided = ['}'] ∧ stops = ['='] ∧ next = .eq := by
            simpa [MapParseState.string, eq_comm] using string
          have longer : BareText ['}'] ['='] (text ++ ['x', '"', '{']) :=
            bare.append ⟨by simp [isBare, isSpace], by simp⟩
          refine ⟨.eq, '=' :: ',' :: tail, ?_, leads_eq tail⟩
          simpa [resumption] using
            Passes.bare (',' :: tail) string longer (c := '=') (by decide) (by simp)
      | val =>
          obtain ⟨rfl, rfl, rfl⟩ : avoided = [] ∧ stops = [',', '}'] ∧ next = .sep := by
            simpa [MapParseState.string, eq_comm] using string
          have longer : BareText [] [',', '}'] (text ++ ['x', '"', '{', '=']) :=
            bare.append ⟨by simp [isBare, isSpace], by simp⟩
          refine ⟨.sep, ',' :: tail, ?_, leads_sep tail⟩
          simpa [resumption] using Passes.bare tail string longer (c := ',') (by decide) (by simp)
      | start | eq | sep | done => cases string

theorem Passes.append {state next : MapParseState} {map rest : List Char}
    (passes : Passes state map next rest) (more : List Char)
    : Passes state (map ++ more) next (rest ++ more) := by
  induction passes with
  | blank space _ ih => exact .blank space ih
  | mark rest expected skips =>
      rw [List.append_assoc]
      exact .mark (rest ++ more) expected skips
  | quoted rest string copied =>
      simp only [List.cons_append, List.append_assoc]
      exact .quoted (rest ++ more) string copied
  | bare rest string bare ends visible =>
      rw [List.append_assoc]
      exact .bare (rest ++ more) string bare ends visible

/-- Wherever a map was unfinished, the resumption leads to a key. By induction on its iterations. -/
theorem Unfinished.resumes {state : MapParseState} {map : List Char}
    (unfinished : Unfinished state map) (tail : List Char)
    : Leads (state, map ++ (resumption ++ tail)) (.key, tail) := by
  induction unfinished with
  | interrupted here =>
      obtain ⟨next, rest, passes, leads⟩ := here.resumes tail
      exact .head passes leads
  | passes step _ ih => exact .head (step.append _) ih

/-- A pair that enables virtio with an id of one digit. -/
def virtioPair (digit : Char) (bare : isBareChar digit = true) : MapString × MapString :=
  let key := ['v', 'i', 'r', 't', 'i', 'o', '_', 'r', 'e', 'l', 'a', 'y']
  (⟨key, key, .bare (by simp [key]) (by simp [key, isBareChar, isSpace])⟩,
    ⟨[digit], [digit], .bare (by simp) (by simpa using bare)⟩)

/-- An unfinished map takes its configuration from what follows it in memory. -/
theorem parseMap_unfinished {map : List Char} (unfinished : Unfinished .start map)
    (val : List Char) (digit : Char) (bare : isBareChar digit = true)
    : ∃ more, parseMap val (map ++ more) = PortConfig.ofValue [digit] := by
  refine ⟨resumption ++ (showPairs [virtioPair digit bare] ++ ['}']), ?_⟩
  obtain ⟨q, same, state, left⟩ := MapParser.finish_of_leads
    (p := ⟨.start, map ++ (resumption ++ (showPairs [virtioPair digit bare] ++ ['}'])), [], val,
      ⟨false, 0⟩⟩) (unfinished.resumes _) rfl rfl
  have sunk : skipSpace q.map = showPairs [virtioPair digit bare] ++ '}' :: [] := by
    rw [left]
    exact skipSpace_showPairs _ []
  have parsed := MapParser.finish_pairs [virtioPair digit bare] [] state sunk
  rw [parseMap, same, parsed]
  rfl

-----------------------------------------------------------------------------------------
-- Fields
-----------------------------------------------------------------------------------------

/-- The last field that is read from a row, with the bytes that are written for it: further fields
may follow it, and its quotes may be left open.
-/
inductive LastField : List Char → List Char → Prop
  | field {shown copied rest : List Char} {ended : Bool} (here : FieldShown shown copied ended)
      (ends : ∀ c ∈ rest.head?, c = ',')
      : LastField (shown ++ rest) (written copied ended)
  | unclosed (text : List Char)
      : LastField ('"' :: text.flatMap printFieldChar) (text ++ ['\x00'])

/-- How a text goes on after the opening quote of a field. -/
theorem quotedField_cases (text : List Char)
    : ∃ copied rest : List Char, text = copied.flatMap printFieldChar ++ rest
        ∧ (rest = [] ∨ rest = ['"'] ∨ ∃ c more, rest = '"' :: c :: more ∧ c ≠ '"') := by
  induction text using scanQuotedField.induct with
  | case1 => exact ⟨[], [], rfl, Or.inl rfl⟩
  | case2 => exact ⟨[], ['"'], rfl, Or.inr (Or.inl rfl)⟩
  | case3 more ih =>
      obtain ⟨copied, rest, rfl, ends⟩ := ih
      exact ⟨'"' :: copied, rest, rfl, ends⟩
  | case4 more => exact ⟨[], '"' :: ',' :: more, rfl, Or.inr (Or.inr ⟨',', more, rfl, by decide⟩)⟩
  | case5 d more quote comma =>
      exact ⟨[], '"' :: d :: more, rfl, Or.inr (Or.inr ⟨d, more, rfl, quote⟩)⟩
  | case6 c rest quote ih =>
      obtain ⟨copied, rest, rfl, ends⟩ := ih
      refine ⟨c :: copied, rest, ?_, ends⟩
      simp [printFieldChar, quote]

/-- A text up to its first comma. -/
theorem comma_cases (text : List Char)
    : ∃ before rest, text = before ++ rest ∧ ',' ∉ before ∧ ∀ c ∈ rest.head?, c = ',' := by
  induction text with
  | nil => exact ⟨[], [], rfl, List.not_mem_nil, nofun⟩
  | cons c text ih =>
      by_cases comma : c = ','
      · exact ⟨[], c :: text, rfl, List.not_mem_nil, by simp [comma]⟩
      · obtain ⟨before, rest, rfl, plain, ends⟩ := ih
        exact ⟨c :: before, rest, rfl, by simp [Ne.symm comma, plain], ends⟩

/-- Every text begins with a field, or with one whose quotes are left open. -/
theorem field_cases (text : List Char)
    : (∃ shown copied ended rest, FieldShown shown copied ended ∧ text = shown ++ rest
        ∧ ∀ c ∈ rest.head?, c = ',')
      ∨ ∃ copied : List Char, text = '"' :: copied.flatMap printFieldChar := by
  by_cases quote : ∃ inner, text = '"' :: inner
  · obtain ⟨inner, rfl⟩ := quote
    obtain ⟨copied, rest, rfl, rfl | rfl | ⟨c, more, rfl, other⟩⟩ := quotedField_cases inner
    · rw [List.append_nil]
      exact Or.inr ⟨copied, rfl⟩
    · exact Or.inl ⟨_, copied, true, [], .quoted copied, by simp, nofun⟩
    · obtain ⟨before, rest, split, plain, ends⟩ := comma_cases (c :: more)
      cases before with
      | nil =>
          rw [split]
          exact Or.inl ⟨_, copied, true, rest, .quoted copied, by simp, ends⟩
      | cons d before =>
          obtain ⟨rfl, rfl⟩ := List.cons.inj split
          exact Or.inl ⟨_, copied, false, rest, .misquoted copied other plain, by simp, ends⟩
  · obtain ⟨before, rest, rfl, plain, ends⟩ := comma_cases text
    refine Or.inl ⟨before, before, true, rest, .bare plain ?_, rfl, ends⟩
    intro c first same
    cases before with
    | nil => cases first
    | cons d before =>
        obtain rfl := Option.some.inj first
        exact quote ⟨before ++ rest, by simp [same]⟩

theorem extractField_unclosed {buf text rest : List Char} {start : Nat} (field : List Char)
    (zeroless : '\x00' ∉ text.flatMap printFieldChar)
    (here : buf.drop start = '"' :: (text.flatMap printFieldChar ++ '\x00' :: rest))
    : extractField buf start field
      = (start + ('"' :: text.flatMap printFieldChar).length + 1,
          overwrite field (text ++ ['\x00'])) := by
  have string : cString (buf.drop start) = '"' :: text.flatMap printFieldChar := by
    rw [here, ← List.cons_append]
    exact cString_append rest (by simp [zeroless])
  have read := scanQuotedField_append text []
  simp only [List.append_nil, scanQuotedField, Nat.add_zero] at read
  rw [extractField_quoted field string (by rw [read]), read, List.length_cons]

/-- The last field that is read, with the position behind it if the row ends there. -/
theorem LastField.extractField {buf shown bytes rest : List Char} {start : Nat}
    (last : LastField shown bytes) (field : List Char) (zeroless : '\x00' ∉ shown)
    (here : buf.drop start = shown ++ '\x00' :: rest)
    : (extractField buf start field).2 = overwrite field bytes := by
  cases last with
  | @field shown copied following ended found ends =>
      rw [List.mem_append, not_or] at zeroless
      rw [List.append_assoc] at here
      cases following with
      | nil => rw [extractField_shown field found zeroless.1 here (Or.inr rfl)]
      | cons c following =>
          rw [extractField_shown field found zeroless.1 here (Or.inl (ends c rfl))]
  | unclosed text =>
      rw [List.mem_cons, not_or] at zeroless
      rw [extractField_unclosed field zeroless.2 here]

-----------------------------------------------------------------------------------------
-- Rows
-----------------------------------------------------------------------------------------

/-- A field of a row with what is copied from it. -/
structure ShownField where
  shown : List Char
  copied : List Char
  ended : Bool
  found : FieldShown shown copied ended

/-- The bytes that are written for a field. -/
def ShownField.bytes (field : ShownField) : List Char := written field.copied field.ended

/-- The row has four fields, of which these are the first ones; the bytes are written for the
fourth.
-/
def FourFields (row : List Char) (hash action name : ShownField) (bytes : List Char) : Prop :=
  ∃ last, LastField last bytes
    ∧ row = hash.shown ++ ',' :: (action.shown ++ ',' :: (name.shown ++ ',' :: last))

/-- A row with four fields is taken apart into what is copied from them and what stood in the
arrays before.
-/
theorem FourFields.parseRow {row bytes : List Char} {hash action name : ShownField}
    (fields : FourFields row hash action name bytes) (zeroless : '\x00' ∉ row)
    (val following : List Char) (buffers : RowBuffers)
    : (parseRow val (row ++ '\x00' :: following) buffers).1
      = ⟨cString (overwrite buffers.action action.bytes),
          cString (unquote (overwrite buffers.name name.bytes)),
          parseMap val (overwrite buffers.tmp (overwrite hash.bytes bytes))⟩ := by
  obtain ⟨last, lastField, rfl⟩ := fields
  generalize memory : hash.shown ++ ',' :: (action.shown ++ ',' :: (name.shown ++ ',' :: last))
    ++ '\x00' :: following = buf
  have here : buf.drop 0 = hash.shown ++ ',' :: (action.shown ++ ',' :: (name.shown ++ ',' :: (last
      ++ '\x00' :: following))) := by simp [← memory]
  have second := drop_field here
  have third := drop_field second
  have fourth := drop_field third
  simp only [List.mem_append, List.mem_cons, not_or] at zeroless
  obtain ⟨noHash, _, noAction, _, noName, _, noLast⟩ := zeroless
  simp only [VirtioForwarder.parseRow, extractField_shown _ hash.found noHash here (Or.inl rfl),
    extractField_shown _ action.found noAction second (Or.inl rfl),
    extractField_shown _ name.found noName third (Or.inl rfl),
    lastField.extractField _ noLast fourth, overwrite_overwrite]
  rfl

/-- The calls of `extract_field` for a row with four fields read the row with its zero byte. -/
theorem FourFields.inside {row bytes : List Char} {hash action name : ShownField}
    (fields : FourFields row hash action name bytes) (zeroless : '\x00' ∉ row)
    (following a b c d : List Char)
    : (extractFields (row.length + 1) (row ++ '\x00' :: following) 0 [a, b, c, d]).isSome = true := by
  have reads {start : Nat} (within : start ≤ row.length)
      : fieldInside ((row ++ '\x00' :: following).take (row.length + 1)) start = true := by
    rw [List.take_length_add_append]
    exact fieldInside_row [] zeroless within
  obtain ⟨last, lastField, split⟩ := fields
  have here : (row ++ '\x00' :: following).drop 0
      = hash.shown ++ ',' :: (action.shown ++ ',' :: (name.shown ++ ',' :: (last
        ++ '\x00' :: following))) := by simp [split]
  have second := drop_field here
  have third := drop_field second
  have size := congrArg List.length split
  simp only [List.length_append, List.length_cons] at size
  have members := zeroless
  simp only [split, List.mem_append, List.mem_cons, not_or] at members
  obtain ⟨noHash, _, noAction, _, noName, _, noLast⟩ := members
  simp only [extractFields, extractFieldInside, reads (Nat.zero_le _), if_true,
    extractField_shown _ hash.found noHash here (Or.inl rfl),
    @reads (0 + hash.shown.length + 1) (by omega),
    extractField_shown _ action.found noAction second (Or.inl rfl),
    @reads (0 + hash.shown.length + 1 + action.shown.length + 1) (by omega),
    extractField_shown _ name.found noName third (Or.inl rfl),
    @reads (0 + hash.shown.length + 1 + action.shown.length + 1 + name.shown.length + 1)
      (by omega)]
  rfl

theorem extractFields_past {row : List Char} {start : Nat} (past : row.length < start)
    (following field : List Char) (fields : List (List Char))
    : extractFields (row.length + 1) (row ++ '\x00' :: following) start (field :: fields) = none := by
  have outside : fieldInside ((row ++ '\x00' :: following).take (row.length + 1)) start = false := by
    rw [List.take_length_add_append]
    exact fieldInside_past past
  simp only [extractFields, extractFieldInside, outside, Bool.false_eq_true, if_false]

/-- A call of `extract_field` after which another one reads inside the row has found a field with
a comma behind it.
-/
theorem extractFields_comma {row before text following field : List Char}
    {fields : List (List Char)} (more : fields ≠ []) (whole : row = before ++ text)
    (zeroless : '\x00' ∉ row)
    (read : (extractFields (row.length + 1) (row ++ '\x00' :: following) before.length
      (field :: fields)).isSome = true)
    : ∃ (here : ShownField) (rest : List Char), text = here.shown ++ ',' :: rest
        ∧ (extractFields (row.length + 1) (row ++ '\x00' :: following)
          (before ++ here.shown ++ [',']).length fields).isSome = true := by
  have inside : fieldInside ((row ++ '\x00' :: following).take (row.length + 1)) before.length
      = true := by
    rw [List.take_length_add_append]
    exact fieldInside_row [] zeroless (by simp [whole])
  have here : (row ++ '\x00' :: following).drop before.length = text ++ '\x00' :: following := by
    simp [whole]
  have noText : '\x00' ∉ text := fun member => zeroless (by simp [whole, member])
  obtain ⟨next, fields, rfl⟩ := List.exists_cons_of_ne_nil more
  have past {position : Nat} (last : position = row.length + 1)
      : extractFields (row.length + 1) (row ++ '\x00' :: following) position (next :: fields)
        = none :=
    extractFields_past (by omega) following next fields
  have size := congrArg List.length whole
  rw [List.length_append] at size
  rw [extractFields, extractFieldInside, inside, if_pos rfl] at read
  rcases field_cases text with ⟨shown, copied, ended, rest, found, rfl, ends⟩ | ⟨copied, rfl⟩
  · rw [List.mem_append, not_or] at noText
    cases rest with
    | nil =>
        rw [List.append_nil] at here size
        simp only [extractField_shown field found noText.1 here (Or.inr rfl)] at read
        rw [past (by omega)] at read
        cases read
    | cons c rest =>
        obtain rfl := ends c rfl
        rw [List.append_assoc] at here
        simp only [extractField_shown field found noText.1 here (Or.inl rfl)] at read
        refine ⟨⟨shown, copied, ended, found⟩, rest, rfl, ?_⟩
        simpa [Nat.add_assoc] using read
  · rw [List.mem_cons, not_or] at noText
    simp only [extractField_unclosed field noText.2 here] at read
    rw [past (by omega)] at read
    cases read

/-- Every text begins with a last field. -/
theorem exists_lastField (text : List Char) : ∃ bytes, LastField text bytes := by
  rcases field_cases text with ⟨shown, copied, ended, rest, found, rfl, ends⟩ | ⟨copied, rfl⟩
  · exact ⟨_, .field found ends⟩
  · exact ⟨_, .unclosed copied⟩

/-- A row of which four fields are read inside has four fields. -/
theorem exists_fourFields {row following a b c d : List Char} (zeroless : '\x00' ∉ row)
    (read : (extractFields (row.length + 1) (row ++ '\x00' :: following) 0 [a, b, c, d]).isSome = true)
    : ∃ hash action name bytes, FourFields row hash action name bytes := by
  obtain ⟨hash, second, split, read⟩ :=
    @extractFields_comma row [] row following a [b, c, d] nofun rfl zeroless read
  have afterHash : row = [] ++ hash.shown ++ [','] ++ second := by simpa using split
  obtain ⟨action, third, rfl, read⟩ :=
    @extractFields_comma row _ second following b [c, d] nofun afterHash zeroless read
  have afterAction : row = [] ++ hash.shown ++ [','] ++ action.shown ++ [','] ++ third := by
    simpa using split
  obtain ⟨name, fourth, rfl, read⟩ :=
    @extractFields_comma row _ third following c [d] nofun afterAction zeroless read
  obtain ⟨bytes, last⟩ := exists_lastField fourth
  exact ⟨hash, action, name, bytes, fourth, last, split⟩

-----------------------------------------------------------------------------------------
-- Rows that stand for themselves
-----------------------------------------------------------------------------------------

/-- The copied characters of a name hold the quote that closes it. -/
def ClosedName (copied : List Char) : Prop :=
  ∃ chars rest, Copied chars ∧ copied = '"' :: (chars.flatMap printChar ++ '"' :: rest)

/-- The row has four fields. Its second one is not misquoted, its third one is not either or has
a closed name before the misplaced quote, and what the first and the fourth one leave in `tmp` is
a finished map in which no id can go on.
-/
def SelfContained (row : List Char) : Prop :=
  ∃ hash action name bytes,
    FourFields row hash action name bytes ∧ action.ended = true
    ∧ (name.ended = true ∨ ClosedName name.copied)
    ∧ ¬ Unfinished .start (overwrite hash.bytes bytes)
    ∧ ¬ IdGoesOn ⟨.start, overwrite hash.bytes bytes, [], [], ⟨false, 0⟩⟩

/-- The call for the row depends neither on what follows it in `buf` nor on what the arrays held
before, `val` of `parse_map` among them, and nothing behind the zero byte of the row is read.
-/
def RowIsolated (row : List Char) : Prop :=
  ∀ (val stale following other : List Char) (buffers others : RowBuffers),
    (parseRow val (row ++ '\x00' :: following) buffers).1
      = (parseRow stale (row ++ '\x00' :: other) others).1
    ∧ (extractFields (row.length + 1) (row ++ '\x00' :: following) 0
        [buffers.tmp, buffers.action, buffers.name, buffers.tmp]).isSome = true

theorem FieldShown.mem {shown copied : List Char} {ended : Bool} {c : Char}
    (found : FieldShown shown copied ended) (member : c ∈ copied)
    : c ∈ shown := by
  have printed : c ∈ copied.flatMap printFieldChar := by
    refine List.mem_flatMap.mpr ⟨c, member, ?_⟩
    rw [printFieldChar]
    split
    · rename_i quote
      simp [quote]
    · simp
  cases found with
  | bare plain first => exact member
  | quoted => simp [printed]
  | misquoted _ other plain => simp [printed]

theorem FourFields.zeroless {row bytes : List Char} {hash action name : ShownField}
    (fields : FourFields row hash action name bytes) (zeroless : '\x00' ∉ row)
    : '\x00' ∉ action.copied ∧ '\x00' ∉ name.copied := by
  obtain ⟨last, _, rfl⟩ := fields
  simp only [List.mem_append, List.mem_cons, not_or] at zeroless
  exact ⟨fun member => zeroless.2.2.1 (action.found.mem member),
    fun member => zeroless.2.2.2.2.1 (name.found.mem member)⟩

theorem ShownField.bytes_of_ended {field : ShownField} (ended : field.ended = true)
    : field.bytes = field.copied ++ ['\x00'] := by
  rw [bytes, written, ended, if_pos rfl]

theorem ShownField.bytes_of_not_ended {field : ShownField} (ended : field.ended = false)
    : field.bytes = field.copied := by
  rw [bytes, written, ended]
  rfl

/-- A closed name does not depend on what follows. -/
theorem ClosedName.unquote {copied : List Char} (closed : ClosedName copied)
    (zeroless : '\x00' ∉ copied)
    : ∃ name, ∀ memory, cString (unquote (overwrite memory copied)) = name := by
  obtain ⟨chars, rest, valid, rfl⟩ := closed
  refine ⟨chars.map Prod.snd, fun memory => ?_⟩
  have plain : '\x00' ∉ chars.map Prod.snd := by
    intro member
    obtain ⟨char, found, zero⟩ := List.mem_map.mp member
    have printed : '\x00' ∈ chars.flatMap printChar := by
      refine List.mem_flatMap.mpr ⟨char, found, ?_⟩
      obtain ⟨escaped, c⟩ := char
      cases escaped <;> simp_all [printChar]
    exact zeroless (by simp [printed])
  have all : ∀ c ∈ '"' :: (chars.flatMap printChar ++ '"' :: rest), decide (c ≠ '\x00') = true :=
    fun c member => decide_eq_true fun zero => zeroless (zero ▸ member)
  have string : cString (overwrite memory ('"' :: (chars.flatMap printChar ++ '"' :: rest)))
      = '"' :: (chars.flatMap printChar ++ '"' :: (rest ++ cString (memory.drop
        ('"' :: (chars.flatMap printChar ++ '"' :: rest)).length))) := by
    rw [overwrite, cString, List.takeWhile_append_of_pos all]
    simp [cString]
  rw [unquote_quoted string, unquoteText_append valid, unquoteText_quote, List.append_nil,
    overwrite_string, cString_append _ plain]

/-- A name that is not closed goes on with what follows. -/
theorem unquotedName_open {copied : List Char} (closed : ¬ ClosedName copied)
    (zeroless : '\x00' ∉ copied)
    : unquotedName (copied ++ ['a', '"']) ≠ unquotedName (copied ++ ['b', '"']) := by
  cases copied with
  | nil => simp [unquotedName]
  | cons c inner =>
      by_cases quote : c = '"'
      · subst quote
        obtain ⟨chars, rest, valid, rfl, rfl | rfl | ⟨more, rfl | rfl⟩⟩ := quoted_cases inner
        · rw [List.append_nil, List.cons_append, List.cons_append, unquotedName, unquotedName,
            unquoteText_append valid, unquoteText_append valid]
          simp [unquoteText]
        · rw [List.cons_append, List.cons_append, List.append_assoc, List.append_assoc, unquotedName,
            unquotedName, unquoteText_append valid, unquoteText_append valid]
          simp [unquoteText]
        · exact absurd ⟨chars, more, valid, rfl⟩ closed
        · exact absurd (by simp) zeroless
      · simp [unquotedName, quote]

theorem SelfContained.isolated {row : List Char} (contained : SelfContained row)
    (zeroless : '\x00' ∉ row)
    : RowIsolated row := by
  obtain ⟨hash, action, name, bytes, fields, actionEnded, nameEnded, finished, ends⟩ := contained
  obtain ⟨noAction, noName⟩ := fields.zeroless zeroless
  have inside (val : List Char) : mapInside val (overwrite hash.bytes bytes) = true := by
    rw [mapInside, MapParser.staysInside_iff]
    exact finished
  have sameAction (memory : List Char)
      : cString (overwrite memory action.bytes) = action.copied := by
    rw [ShownField.bytes_of_ended actionEnded, overwrite_string, cString_append _ noAction]
  have sameName : ∃ text, ∀ memory, cString (unquote (overwrite memory name.bytes)) = text := by
    cases ended : name.ended with
    | true =>
        refine ⟨unquotedName name.copied, fun memory => ?_⟩
        rw [ShownField.bytes_of_ended ended, overwrite_string, unquote_name _ noName]
    | false =>
        rw [ShownField.bytes_of_not_ended ended]
        exact (nameEnded.resolve_left (by simp [ended])).unquote noName
  obtain ⟨text, sameName⟩ := sameName
  have sameMap (val memory : List Char)
      : parseMap val (overwrite memory (overwrite hash.bytes bytes))
        = parseMap [] (overwrite hash.bytes bytes) :=
    (parseMap_frame (inside val) _).trans ((parseMap_val_iff _).mpr ends val [])
  intro val stale following other buffers others
  refine ⟨?_, fields.inside zeroless _ _ _ _ _⟩
  rw [fields.parseRow zeroless, fields.parseRow zeroless, sameAction, sameAction, sameName, sameName,
    sameMap val, sameMap stale]

theorem RowIsolated.selfContained {row : List Char} (isolated : RowIsolated row)
    (zeroless : '\x00' ∉ row)
    : SelfContained row := by
  obtain ⟨hash, action, name, bytes, fields⟩ :=
    exists_fourFields zeroless (isolated [] [] [] [] ⟨[], [], []⟩ ⟨[], [], []⟩).2
  obtain ⟨noAction, noName⟩ := fields.zeroless zeroless
  have same (val stale : List Char) (buffers others : RowBuffers) :=
    (isolated val stale [] [] buffers others).1
  simp only [fields.parseRow zeroless, RowCall.mk.injEq] at same
  refine ⟨hash, action, name, bytes, fields, ?_, ?_, ?_, ?_⟩
  · -- a copy without its zero byte goes on with what the array holds
    by_contra open_
    have bytes := ShownField.bytes_of_not_ended (Bool.eq_false_iff.mpr open_)
    have equal := (same [] [] ⟨[], List.replicate action.copied.length 'x' ++ ['a'], []⟩
      ⟨[], List.replicate action.copied.length 'x' ++ ['b'], []⟩).1
    rw [bytes, overwrite_replicate, overwrite_replicate, cString_eq_self (by simp [noAction]),
      cString_eq_self (by simp [noAction])] at equal
    simp at equal
  · cases ended : name.ended with
    | true => exact Or.inl rfl
    | false =>
        right
        by_contra closed
        have bytes := ShownField.bytes_of_not_ended ended
        have equal := (same [] []
          ⟨[], [], List.replicate name.copied.length 'x' ++ ['a', '"', '\x00']⟩
          ⟨[], [], List.replicate name.copied.length 'x' ++ ['b', '"', '\x00']⟩).2.1
        have named (c : Char) (some : '\x00' ≠ c)
            : cString (unquote (name.copied ++ [c, '"', '\x00']))
              = unquotedName (name.copied ++ [c, '"']) := by
          have found := @unquote_name (name.copied ++ [c, '"']) [] (by simp [noName, some])
          simpa using found
        rw [bytes, overwrite_replicate, overwrite_replicate, named 'a' (by decide),
          named 'b' (by decide)] at equal
        exact unquotedName_open closed noName equal
  · intro unfinished
    obtain ⟨one, first⟩ := parseMap_unfinished unfinished [] '1' (by decide)
    obtain ⟨two, second⟩ := parseMap_unfinished unfinished [] '2' (by decide)
    have equal := (same [] []
      ⟨List.replicate (overwrite hash.bytes bytes).length 'x' ++ one, [], []⟩
      ⟨List.replicate (overwrite hash.bytes bytes).length 'x' ++ two, [], []⟩).2.2
    rw [overwrite_replicate, overwrite_replicate, first, second] at equal
    exact absurd equal (by decide)
  · refine (parseMap_val_iff _).mp fun val stale => ?_
    have equal := (same val stale ⟨[], [], []⟩ ⟨[], [], []⟩).2.2
    simpa [overwrite] using equal

/-- **Isolation**: the call for a row depends on the row only, and nothing behind it is read,
exactly if the row stands for itself.
-/
theorem row_isolated_iff {row : List Char} (zeroless : '\x00' ∉ row)
    : RowIsolated row ↔ SelfContained row :=
  ⟨fun isolated => isolated.selfContained zeroless,
    fun contained => contained.isolated zeroless⟩

/-- A map as it is printed has no id that goes on. -/
theorem showMap_ends (pairs : MapPairs) (rest : List Char)
    : ¬ IdGoesOn ⟨.start, showMap pairs ++ rest, [], [], ⟨false, 0⟩⟩ :=
  (parseMap_val_iff _).mp fun val stale => by rw [parseMap_showMap, parseMap_showMap]

/-- Witness: a row with four fields and an id in quotes. -/
theorem quoted_id_is_isolated
    : RowIsolated
        [',', 'a', ',', 'b', ',', '{', 'v', 'i', 'r', 't', 'i', 'o', '_', 'r', 'e', 'l', 'a', 'y', '=',
          '"', '1', '"', '}'] := by
  let id : MapString := ⟨['1'], ['"', '1', '"'], @ShownAs.quoted [(false, '1')] (by simp [Quotable])⟩
  let map : List Char :=
    ['{', 'v', 'i', 'r', 't', 'i', 'o', '_', 'r', 'e', 'l', 'a', 'y', '=', '"', '1', '"', '}']
  have last : LastField map (map ++ ['\x00']) := by
    simpa [written] using
      @LastField.field map map [] true (.bare (by simp [map]) (by simp [map])) (by simp)
  refine (row_isolated_iff (by decide)).mpr ⟨⟨[], [], true, .bare (by simp) (by simp)⟩,
    ⟨['a'], ['a'], true, .bare (by simp) (by simp)⟩,
    ⟨['b'], ['b'], true, .bare (by simp) (by simp)⟩, map ++ ['\x00'],
    ⟨map, last, rfl⟩, rfl, Or.inl rfl, ?_, ?_⟩
  · exact (MapParser.staysInside_iff ⟨.start, map ++ ['\x00'], [], [], ⟨false, 0⟩⟩).mp (by decide)
  · exact showMap_ends [((virtioPair '1' rfl).1, id)] ['\x00']

/-- A row that is cut off takes its name from what follows it. -/
theorem truncated_row_takes_following_name
    : ¬ ∀ row : List Char, row ≠ [] → PlainRow row → RowIsolated row := by
  intro all
  have same := (all ['h', ',', 'i'] (by decide) ⟨by decide, by decide⟩ [] [] ['e'] ['f'] ⟨[], [], []⟩
    ⟨[], [], []⟩).1
  exact absurd same (by decide)

/-- An id whose quotes are left open takes further digits from an earlier row. -/
theorem open_id_takes_earlier_digits
    : ¬ RowIsolated
        [',', 'a', ',', 'b', ',', '{', 'v', 'i', 'r', 't', 'i', 'o', '_', 'r', 'e', 'l', 'a', 'y', '=',
          '"', '1'] := by
  intro isolated
  have same := (isolated [] ['x', '7'] [] [] ⟨[], [], []⟩ ⟨[], [], []⟩).1
  exact absurd same (by decide)

-----------------------------------------------------------------------------------------
-- Chunks
-----------------------------------------------------------------------------------------

/-- **Chunks**: however the output is split into reads, there is one call for each row that is
not empty and shorter than `MAX_READ - 1`, in order, and none for the others.
-/
theorem chunks_make_no_difference (stack : Nat → List Char) {rows : List (List Char)}
    {call : List Char → RowCall} (sizes : List Nat) (buf : List Char) (buffers : RowBuffers)
    (wellFormed : ∀ row ∈ rows, row = [] ∨ WellFormedRow row (call row))
    : clientCalls stack ⟨unlines rows, sizes⟩ buf buffers = (rows.filter passedOn).map call := by
  refine clientCalls_rows stack sizes buf buffers ?_ ?_
  · intro row member
    rcases wellFormed row member with rfl | row
    · exact ⟨List.not_mem_nil, List.not_mem_nil⟩
    · exact row.plain.1
  · intro row member some
    exact ((wellFormed row member).resolve_left some).isolated

/-- Witness: a row that is split in the middle, after an empty one. -/
theorem split_row_makes_one_call
    : clientCalls (fun _ => []) ⟨unlines [[], [',', 'a', ',', 'b', ',', '{', '}']], [4]⟩ []
        ⟨[], [], []⟩
      = [⟨['a'], ['b'], ⟨false, 0⟩⟩] := by
  have one : WellFormedRow [',', 'a', ',', 'b', ',', '{', '}'] ⟨['a'], ['b'], ⟨false, 0⟩⟩ :=
    ⟨[], ['a'], ['b'], [], [], ['a'], ['b'], ['{', '}'], by simp [PlainRow], by simp [PlainRow],
      by simp [PlainRow], by simp [PlainRow, showMap, showPairs], .bare (by simp), .bare (by simp),
      .bare (by simp), .bare (by simp [showMap, showPairs]), rfl, rfl⟩
  have calls := @chunks_make_no_difference (fun _ => []) [[], [',', 'a', ',', 'b', ',', '{', '}']]
    (fun _ => ⟨['a'], ['b'], ⟨false, 0⟩⟩) [4] [] ⟨[], [], []⟩ (by
      intro row member
      rcases List.mem_cons.mp member with rfl | member
      · exact Or.inl rfl
      · obtain rfl := List.mem_singleton.mp member
        exact Or.inr one)
  simpa [passedOn, maxRead] using calls

end VirtioForwarder
