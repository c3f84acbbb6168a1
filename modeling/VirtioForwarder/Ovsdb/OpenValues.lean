import VirtioForwarder.Ovsdb.Reads

/-! Values that `parse_map` leaves open. A value in quotes that are not closed is read without a
zero byte behind it, so that the number goes on with what stood in the array `val`, which is not
initialised. It is said which characters can be followed by further ones that change the number.
-/

namespace VirtioForwarder

open CText

-----------------------------------------------------------------------------------------
-- Numbers that go on
-----------------------------------------------------------------------------------------

/-- Further characters can change what `strtol` reads from the text: its first digit can be among
them, they can make the `x` after a zero a prefix, or the text ends in a digit of a number that is
not out of range yet.
-/
def NumberGoesOn (text : List Char) : Prop :=
  let body := (scanSign (skipSpace text)).2
  body = [] ∨ body = ['0', 'x'] ∨ body = ['0', 'X']
    ∨ (strtol text).endptr = [] ∧ (strtol text).erange = false

/-- The number that a sign and digits make. -/
def signedNumber (negative : Bool) (base : Nat) (digits : List Char) : Int :=
  if negative then -(number base digits : Int) else number base digits

/-- `strtol` does not cut the value to a limit. -/
def FitsLong (value : Int) : Prop := ¬ value < longMin ∧ ¬ longMax < value

/-- The configuration for the digits that `strtol` finds. -/
def PortConfig.ofDigits (negative : Bool) (base : Nat) (digits : List Char) : PortConfig :=
  let value := signedNumber negative base digits
  if digits = [] then ⟨false, 0⟩
  else if value < longMin then ⟨false, longMin⟩
  else if longMax < value then ⟨false, longMax⟩
  else ⟨true, value⟩

theorem foldl_number (base : Nat) (digits : List Char)
    : digits.foldl (fun n c => (base : Int) * n + ((digitValue c).getD 0 : Nat)) 0
      = (number base digits : Int) := by
  induction digits using List.reverseRecOn with
  | nil => rfl
  | append_singleton digits c ih =>
      rw [List.foldl_append, ih, number_append_singleton]
      simp

/-- `strtol` in terms of sign, base and digits. -/
theorem strtol_eq {text start : List Char} {negative : Bool} {base : Nat}
    (sign : (scanSign (skipSpace text)).1 = negative)
    (first : scanBase (scanSign (skipSpace text)).2 = (base, start))
    : strtol text
      = (let value := signedNumber negative base (start.takeWhile (isDigitOf base))
        let rest := start.dropWhile (isDigitOf base)
        if start.takeWhile (isDigitOf base) = [] then ⟨0, text, false⟩
        else if value < longMin then ⟨longMin, rest, true⟩
        else if longMax < value then ⟨longMax, rest, true⟩
        else ⟨value, rest, false⟩) := by
  have left : start.drop (start.takeWhile (isDigitOf base)).length
      = start.dropWhile (isDigitOf base) := by
    have whole := @List.takeWhile_append_dropWhile _ (isDigitOf base) start
    calc start.drop (start.takeWhile (isDigitOf base)).length
        = (start.takeWhile (isDigitOf base) ++ start.dropWhile (isDigitOf base)).drop
            (start.takeWhile (isDigitOf base)).length := by rw [whole]
      _ = start.dropWhile (isDigitOf base) := List.drop_left
  have folded := foldl_number base (start.takeWhile (isDigitOf base))
  subst sign
  simp only [strtol, first, left, folded]
  rfl

/-- The configuration for a value depends on the digits only. -/
theorem PortConfig.ofValue_eq {text start : List Char} {negative : Bool} {base : Nat}
    (plain : '\x00' ∉ text) (sign : (scanSign (skipSpace text)).1 = negative)
    (first : scanBase (scanSign (skipSpace text)).2 = (base, start))
    : ofValue text = ofDigits negative base (start.takeWhile (isDigitOf base)) := by
  have suffix : start <:+ text := by
    have body := strtol_body_suffix text
    rwa [first] at body
  have whole := @List.takeWhile_append_dropWhile _ (isDigitOf base) start
  simp only [ofValue, cString_eq_self plain, strtol_eq sign first, ofDigits]
  generalize start.takeWhile (isDigitOf base) = digits at whole
  generalize start.dropWhile (isDigitOf base) = rest at whole
  by_cases none : digits = []
  · simp [none]
  · have shorter : rest ≠ text := by
      rintro rfl
      have bound := suffix.length_le
      rw [← whole, List.length_append] at bound
      have some := List.length_pos_iff.mpr none
      omega
    generalize signedNumber negative base digits = value
    simp only [none, if_false]
    by_cases below : value < longMin
    · simp [below]
    · by_cases above : longMax < value
      · simp [below, above]
      · simp [below, above, shorter]

/-- `strtol` gets to the end of the text, and the number is in range. -/
theorem strtol_ends_iff {text start : List Char} {negative : Bool} {base : Nat}
    (sign : (scanSign (skipSpace text)).1 = negative)
    (first : scanBase (scanSign (skipSpace text)).2 = (base, start)) (some : start ≠ [])
    : (strtol text).endptr = [] ∧ (strtol text).erange = false
      ↔ (∀ c ∈ start, isDigitOf base c = true) ∧ FitsLong (signedNumber negative base start) := by
  have suffix : start <:+ text := by
    have body := strtol_body_suffix text
    rwa [first] at body
  have visible : text ≠ [] := fun empty => some (List.suffix_nil.mp (empty ▸ suffix))
  rw [strtol_eq sign first, ← List.takeWhile_eq_self_iff]
  by_cases all : start.takeWhile (isDigitOf base) = start
  · have left : start.dropWhile (isDigitOf base) = [] :=
      List.dropWhile_eq_nil_iff.mpr (List.takeWhile_eq_self_iff.mp all)
    simp only [all, left, some, if_false, true_and, FitsLong]
    by_cases below : signedNumber negative base start < longMin
    · simp [below]
    · by_cases above : longMax < signedNumber negative base start
      · simp [below, above]
      · simp [below, above]
  · have left : start.dropWhile (isDigitOf base) ≠ [] := fun none =>
      all (List.takeWhile_eq_self_iff.mpr (List.dropWhile_eq_nil_iff.mp none))
    simp only [all, false_and, iff_false, not_and]
    split
    · exact fun empty => absurd empty visible
    · split
      · exact fun empty => absurd empty left
      · split
        · exact fun empty => absurd empty left
        · exact fun empty => absurd empty left

theorem scanBase_first (text : List Char)
    : (scanBase text).1 = 8 ∨ (scanBase text).1 = 10 ∨ (scanBase text).1 = 16 := by
  fun_cases scanBase text with
  | case1 | case2 | case3 | case4 => simp

theorem scanBase_ne_nil {text : List Char} (some : text ≠ []) : (scanBase text).2 ≠ [] := by
  fun_cases scanBase text with
  | case1 | case2 | case3 => simp
  | case4 => exact some

/-- The base is known behind the characters that may be a prefix. -/
theorem scanBase_append {text : List Char} (more : List Char) (some : text ≠ [])
    (zero : text ≠ ['0']) (lower : text ≠ ['0', 'x']) (upper : text ≠ ['0', 'X'])
    : scanBase (text ++ more) = ((scanBase text).1, (scanBase text).2 ++ more) := by
  obtain ⟨c, rest, rfl⟩ := List.exists_cons_of_ne_nil some
  by_cases first : c = '0'
  · subst first
    match rest with
    | [] => exact absurd rfl zero
    | [x] =>
        have other : x ≠ 'x' ∧ x ≠ 'X' :=
          ⟨fun same => lower (by rw [same]), fun same => upper (by rw [same])⟩
        cases more with
        | nil => simp
        | cons d more => simp [scanBase, other]
    | x :: d :: rest =>
        simp only [List.cons_append, scanBase]
        split
        · rfl
        · rfl
  · simp [scanBase, first]

theorem scanSign_append {text : List Char} (more : List Char) (some : text ≠ [])
    : scanSign (text ++ more) = ((scanSign text).1, (scanSign text).2 ++ more) := by
  obtain ⟨c, rest, rfl⟩ := List.exists_cons_of_ne_nil some
  by_cases minus : c = '-'
  · subst minus
    rfl
  · by_cases plus : c = '+'
    · subst plus
      rfl
    · simp [scanSign, minus, plus]

theorem skipSpace_append {text : List Char} (more : List Char) (some : skipSpace text ≠ [])
    : skipSpace (text ++ more) = skipSpace text ++ more := by
  rw [skipSpace, List.dropWhile_append]
  exact if_neg (by rwa [List.isEmpty_iff])

/-- A digit behind the text is behind its sign as well. -/
theorem scanSign_digit (text : List Char)
    : scanSign (skipSpace (text ++ ['1']))
      = ((scanSign (skipSpace text)).1, (scanSign (skipSpace text)).2 ++ ['1']) := by
  by_cases blank : skipSpace text = []
  · have skipped : skipSpace (text ++ ['1']) = ['1'] := by
      have none : (List.dropWhile isSpace text).isEmpty = true := List.isEmpty_iff.mpr blank
      rw [skipSpace, List.dropWhile_append, if_pos none]
      rfl
    rw [skipped, blank]
    rfl
  · rw [skipSpace_append _ blank, scanSign_append _ blank]

/-- A number that is out of range stays so. -/
theorem PortConfig.ofDigits_append {negative : Bool} {base : Nat} {digits : List Char}
    (more : List Char) (positive : 0 < base) (some : digits ≠ [])
    (out : ¬ FitsLong (signedNumber negative base digits))
    : ofDigits negative base (digits ++ more) = ofDigits negative base digits := by
  have grows : number base digits ≤ number base (digits ++ more) := by
    rw [number_append]
    exact (Nat.le_mul_of_pos_left _ (Nat.pow_pos positive)).trans (Nat.le_add_right _ _)
  have also : digits ++ more ≠ [] := by simp [some]
  have cut : signedNumber negative base digits < longMin
        ∧ signedNumber negative base (digits ++ more) < longMin
      ∨ longMax < signedNumber negative base digits
        ∧ longMax < signedNumber negative base (digits ++ more) := by
    simp only [FitsLong, signedNumber, longMin, longMax] at out ⊢
    cases negative with
    | true =>
        simp only [if_true] at out ⊢
        omega
    | false =>
        simp only [Bool.false_eq_true, if_false] at out ⊢
        omega
  have above {value : Int} (high : longMax < value) : ¬ value < longMin := by
    simp only [longMin, longMax] at high ⊢
    omega
  simp only [ofDigits, some, also, if_false]
  rcases cut with ⟨low, alsoLow⟩ | ⟨high, alsoHigh⟩
  · rw [if_pos low, if_pos alsoLow]
  · rw [if_neg (above high), if_neg (above alsoHigh), if_pos high, if_pos alsoHigh]

/-- A further digit changes a number that is in range. -/
theorem PortConfig.ofDigits_digit {negative : Bool} {base : Nat} {digits : List Char}
    (positive : 0 < base) (some : digits ≠ [])
    (fits : FitsLong (signedNumber negative base digits))
    : ofDigits negative base (digits ++ ['1']) ≠ ofDigits negative base digits := by
  have grows : number base digits < number base (digits ++ ['1']) := by
    rw [number_append_singleton]
    exact Nat.lt_succ_of_le (Nat.le_mul_of_pos_left _ positive)
  have other : signedNumber negative base (digits ++ ['1']) ≠ signedNumber negative base digits := by
    simp only [signedNumber]
    split
    · omega
    · omega
  have also : digits ++ ['1'] ≠ [] := by simp
  simp only [ofDigits, some, also, fits.1, fits.2, if_false]
  generalize signedNumber negative base (digits ++ ['1']) = value at other
  by_cases low : value < longMin
  · simp [low]
  · by_cases high : longMax < value
    · simp [low, high]
    · simp [low, high, other]

theorem PortConfig.ofValue_cString (val : List Char) : ofValue (cString val) = ofValue val := by
  simp only [ofValue, cString_eq_self (zero_not_mem_cString val)]

/-- A text that does not go on is read without what follows it. -/
theorem PortConfig.ofValue_append {text : List Char} (more : List Char) (plain : '\x00' ∉ text)
    (ends : ¬ NumberGoesOn text)
    : ofValue (text ++ more) = ofValue text := by
  have known : ofValue (text ++ more) = ofValue (text ++ cString more) := by
    rw [← ofValue_cString, cString_append_left _ plain]
  have zeroless : '\x00' ∉ text ++ cString more := by
    simp [plain, zero_not_mem_cString]
  rw [known]
  generalize cString more = more at zeroless
  simp only [NumberGoesOn, not_or] at ends
  obtain ⟨some, lower, upper, last⟩ := ends
  have visible : skipSpace text ≠ [] := fun blank => some (congrArg (fun t => (scanSign t).2) blank)
  have sign := scanSign_append more visible
  rw [← skipSpace_append _ visible] at sign
  obtain ⟨base, start, found⟩
      : ∃ base start, scanBase (scanSign (skipSpace text)).2 = (base, start) := ⟨_, _, rfl⟩
  have first := scanBase_ne_nil some
  have positive := scanBase_first (scanSign (skipSpace text)).2
  rw [found] at first positive
  rw [strtol_ends_iff rfl found first] at last
  -- a single zero is a number
  have zero : (scanSign (skipSpace text)).2 ≠ ['0'] := by
    intro zero
    rw [zero] at found
    obtain ⟨rfl, rfl⟩ := Prod.ext_iff.mp found
    have digit : isDigitOf 8 '0' = true := by decide
    refine last ⟨List.forall_mem_singleton.mpr digit, ?_⟩
    cases (scanSign (skipSpace text)).1
    · exact ⟨by decide, by decide⟩
    · exact ⟨by decide, by decide⟩
  have split := scanBase_append more some zero lower upper
  rw [found] at split
  rw [@ofValue_eq (text ++ more) _ _ _ zeroless rfl (by rw [sign, split]),
    @ofValue_eq text _ _ _ plain rfl found, sign]
  by_cases all : ∀ c ∈ start, isDigitOf base c = true
  · have whole := List.takeWhile_eq_self_iff.mpr all
    rw [List.takeWhile_append_of_pos all, whole]
    exact ofDigits_append _ (by omega) first fun fits => last ⟨all, fits⟩
  · rw [List.takeWhile_append, if_neg]
    exact fun same =>
      all (List.takeWhile_eq_self_iff.mp ((List.takeWhile_prefix _).eq_of_length same))

/-- A text that goes on is read with what follows it. -/
theorem PortConfig.ofValue_goesOn {text : List Char} (plain : '\x00' ∉ text)
    (goesOn : NumberGoesOn text)
    : ofValue (text ++ ['1']) ≠ ofValue text := by
  have zeroless : '\x00' ∉ text ++ ['1'] := by simp [plain]
  have sign := scanSign_digit text
  by_cases known : (scanSign (skipSpace text)).2 = [] ∨ (scanSign (skipSpace text)).2 = ['0', 'x']
      ∨ (scanSign (skipSpace text)).2 = ['0', 'X'] ∨ (scanSign (skipSpace text)).2 = ['0']
  · rw [@ofValue_eq (text ++ ['1']) _ _ _ zeroless rfl (by rw [sign]),
      @ofValue_eq text _ _ _ plain rfl rfl, sign]
    generalize (scanSign (skipSpace text)).1 = negative
    rcases known with body | body | body | body
    · rw [body]
      cases negative <;> decide
    · rw [body]
      cases negative <;> decide
    · rw [body]
      cases negative <;> decide
    · rw [body]
      cases negative <;> decide
  · simp only [not_or] at known
    obtain ⟨some, lower, upper, zero⟩ := known
    have last : (strtol text).endptr = [] ∧ (strtol text).erange = false := by
      rcases goesOn with body | body | body | last
      · exact absurd body some
      · exact absurd body lower
      · exact absurd body upper
      · exact last
    obtain ⟨base, start, found⟩
        : ∃ base start, scanBase (scanSign (skipSpace text)).2 = (base, start) := ⟨_, _, rfl⟩
    have first := scanBase_ne_nil some
    have bases := scanBase_first (scanSign (skipSpace text)).2
    have split := scanBase_append ['1'] some zero lower upper
    rw [found] at first bases split
    obtain ⟨all, fits⟩ := (strtol_ends_iff rfl found first).mp last
    have digit : isDigitOf base '1' = true := by
      rcases bases with rfl | rfl | rfl <;> decide
    rw [@ofValue_eq (text ++ ['1']) _ _ _ zeroless rfl (by rw [sign, split]),
      @ofValue_eq text _ _ _ plain rfl found, sign, List.takeWhile_append_of_pos all,
      List.takeWhile_cons_of_pos digit, List.takeWhile_eq_self_iff.mpr all]
    exact ofDigits_digit (by omega) first fits

-----------------------------------------------------------------------------------------
-- Values without a zero byte
-----------------------------------------------------------------------------------------

/-- The iteration reads an id from a value whose quotes are left open. -/
def MapParser.ReadsOpenId (p : MapParser) : Prop :=
  p.parserState = .val ∧ isVirtioKey (cString p.key) = true
  ∧ ∃ text, skipSpace p.map = '"' :: text ∧ (scanQuotedString text).closed = false

/-- One of the iterations reads an id from a value whose quotes are left open, and what `val` is
known to hold then has no zero byte and can go on as a number.
-/
inductive IdGoesOn : MapParser → Prop
  | here {p : MapParser} (reads : p.ReadsOpenId) (zeroless : '\x00' ∉ p.step.val)
      (goesOn : NumberGoesOn p.step.val)
      : IdGoesOn p
  | later {p : MapParser} (going : p.parserState ≠ .done) (rest : IdGoesOn p.step)
      : IdGoesOn p

/-- The variables of `parse_map` if `val` holds more than is known of it. -/
def MapParser.overlaid (p : MapParser) (stale : List Char) : MapParser :=
  { p with val := overwrite stale p.val }

theorem cons_of_peek {map : List Char} {c : Char} (here : peek map = c) (some : c ≠ '\x00')
    : map = c :: map.tail := by
  cases map with
  | nil => exact absurd here.symm some
  | cons first rest =>
      obtain rfl := here
      rfl

theorem MapParser.stepExpect_overlaid (p : MapParser) (stale stops : List Char) (c : Char)
    (next : MapParseState)
    : (p.overlaid stale).stepExpect stops c next = (p.stepExpect stops c next).overlaid stale := by
  by_cases here : peek (expect stops p.map) = c
  · simp [stepExpect, overlaid, here]
  · simp [stepExpect, overlaid, here]

theorem cString_overwrite (memory text : List Char)
    : cString (overwrite memory (text ++ ['\x00'])) = cString text := by
  rw [overwrite_string, cString, cString, List.takeWhile_append,
    List.takeWhile_cons_of_neg (by decide), List.append_nil]
  split
  · rename_i whole
    exact ((List.takeWhile_prefix _).eq_of_length whole).symm
  · rfl

theorem PortConfig.assign_ended (config : PortConfig) (key memory text : List Char)
    : config.assign key (overwrite memory (text ++ ['\x00'])) = config.assign key text := by
  rw [assign, assign, ← ofValue_cString, cString_overwrite, ofValue_cString]

/-- What `val` holds beyond what is known is not read, unless it is behind an id in open quotes. -/
theorem MapParser.step_overlaid {p : MapParser} (ended : ¬ p.ReadsOpenId) (stale : List Char)
    : (p.overlaid stale).step = p.step.overlaid stale := by
  obtain ⟨state, map, key, val, config⟩ := p
  cases state with
  | start => exact stepExpect_overlaid ⟨.start, skipSpace map, key, val, config⟩ stale _ _ _
  | eq => exact stepExpect_overlaid ⟨.eq, skipSpace map, key, val, config⟩ stale _ _ _
  | sep => exact stepExpect_overlaid ⟨.sep, skipSpace map, key, val, config⟩ stale _ _ _
  | key =>
      simp only [step, stepKey, overlaid]
      by_cases brace : peek (skipSpace map) = '}'
      · simp [brace]
      · by_cases quote : peek (skipSpace map) = '"'
        · by_cases closed : (scanQuotedString (skipSpace map).tail).closed = true
          · simp [quote, closed]
          · simp [quote, closed]
        · simp [brace, quote]
  | val =>
      simp only [step, stepVal, overlaid]
      by_cases quote : peek (skipSpace map) = '"'
      · by_cases closed : (scanQuotedString (skipSpace map).tail).closed = true
        · simp [quote, closed, ← overwrite_overwrite, PortConfig.assign_ended]
        · have other : isVirtioKey (cString key) = false := by
            by_contra virtio
            rw [Bool.not_eq_false] at virtio
            exact ended ⟨rfl, virtio, _, cons_of_peek quote (by decide), Bool.eq_false_iff.mpr closed⟩
          simp [quote, closed, ← overwrite_overwrite, PortConfig.assign, other]
      · simp [quote, ← overwrite_overwrite, PortConfig.assign_ended]
  | done => rfl

theorem PortConfig.ofValue_overwrite {known : List Char} (stale : List Char)
    (ends : '\x00' ∉ known → ¬ NumberGoesOn known)
    : ofValue (overwrite stale known) = ofValue known := by
  by_cases zero : '\x00' ∈ known
  · have shorter := cString_length_lt zero
    have cut : cString (overwrite stale known) = cString known := by
      rw [cString] at shorter
      rw [overwrite, cString, List.takeWhile_append, if_neg (Nat.ne_of_lt shorter)]
      rfl
    rw [← ofValue_cString, cut, ofValue_cString]
  · exact ofValue_append _ zero (ends zero)

/-- An id in open quotes is the last thing that is read. -/
theorem MapParser.ReadsOpenId.finish {p : MapParser} (reads : p.ReadsOpenId) (stale : List Char)
    : (p.overlaid stale).finish.config = PortConfig.ofValue (overwrite stale p.step.val)
      ∧ p.finish.config = PortConfig.ofValue p.step.val ∧ p.step.parserState = .done := by
  obtain ⟨state, map, key, val, config⟩ := p
  obtain ⟨rfl, virtio, text, here, unclosed⟩ := reads
  dsimp only at virtio here
  have known : (step ⟨.val, map, key, val, config⟩).parserState = .done := by
    simp [step, stepVal, here, unclosed]
  have ended : (step ⟨.val, map, key, overwrite stale val, config⟩).parserState = .done := by
    simp [step, stepVal, here, unclosed]
  refine ⟨?_, ?_, known⟩
  · rw [MapParser.overlaid, finish_step (p := ⟨.val, map, key, overwrite stale val, config⟩) (by simp),
      finish_of_done ended]
    simp [step, stepVal, here, unclosed, PortConfig.assign, virtio, ← overwrite_overwrite]
  · rw [finish_step (p := ⟨.val, map, key, val, config⟩) (by simp), finish_of_done known]
    simp [step, stepVal, here, unclosed, PortConfig.assign, virtio]

/-- If no id goes on, the configuration does not depend on what `val` holds beyond what is known
of it. By induction on the iterations.
-/
theorem MapParser.finish_overlaid {p : MapParser} (ends : ¬ IdGoesOn p) (stale : List Char)
    : (p.overlaid stale).finish.config = p.finish.config := by
  generalize size : p.measure = n
  induction n using Nat.strong_induction_on generalizing p with
  | _ n ih =>
      by_cases done : p.parserState = .done
      · rw [finish_of_done done, finish_of_done (p := p.overlaid stale) done]
        rfl
      · by_cases reads : p.ReadsOpenId
        · obtain ⟨told, known, _⟩ := reads.finish stale
          rw [told, known]
          exact PortConfig.ofValue_overwrite stale
            fun zeroless goesOn => ends (.here reads zeroless goesOn)
        · rw [finish_step done, finish_step (p := p.overlaid stale) done, step_overlaid reads]
          exact ih _ (size ▸ measure_step done) (fun later => ends (.later done later)) rfl

theorem IdGoesOn.going {p : MapParser} (goesOn : IdGoesOn p) : p.parserState ≠ .done := by
  cases goesOn with
  | here reads => simp [reads.1]
  | later going => exact going

/-- If an id goes on, the configuration depends on it. -/
theorem IdGoesOn.finish {p : MapParser} (goesOn : IdGoesOn p)
    : ∃ stale, (p.overlaid stale).finish.config ≠ p.finish.config := by
  induction goesOn with
  | @here p reads zeroless goesOn =>
      refine ⟨List.replicate p.step.val.length 'x' ++ ['1'], ?_⟩
      obtain ⟨told, known, _⟩ := reads.finish (List.replicate p.step.val.length 'x' ++ ['1'])
      rw [told, known, overwrite_replicate]
      exact PortConfig.ofValue_goesOn zeroless goesOn
  | @later p going rest ih =>
      have other : ¬ p.ReadsOpenId := fun reads => rest.going (reads.finish []).2.2
      obtain ⟨stale, different⟩ := ih
      refine ⟨stale, ?_⟩
      rwa [MapParser.finish_step going, MapParser.finish_step (p := p.overlaid stale) going,
        MapParser.step_overlaid other]

/-- The configuration does not depend on what `val` holds at first exactly if no id goes on. -/
theorem parseMap_val_iff (map : List Char)
    : (∀ val stale, parseMap val map = parseMap stale map)
      ↔ ¬ IdGoesOn ⟨.start, map, [], [], ⟨false, 0⟩⟩ := by
  have laid (val : List Char)
      : parseMap val map
        = ((MapParser.mk .start map [] [] ⟨false, 0⟩).overlaid val).finish.config := rfl
  constructor
  · intro same goesOn
    obtain ⟨stale, different⟩ := goesOn.finish
    exact different (same stale [])
  · intro ends val stale
    rw [laid val, laid stale, MapParser.finish_overlaid ends, MapParser.finish_overlaid ends]

end VirtioForwarder
