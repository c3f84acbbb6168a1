import VirtioForwarder.Ovsdb.Client

/-! `unquote` with its two cursors, which reads from a copy of the string and writes in place. It
is the inverse of quoting.
-/

namespace VirtioForwarder

open CText

/-- The variables of `unquote`. -/
structure Unquoter where
  srcptr : Nat
  dstptr : Nat
  str : List Char
  deriving DecidableEq, Repr

/-- `tmp[index]`. -/
def byteAt (tmp : List Char) (index : Nat) : Char := tmp.getD index '\x00'

/-- `str[dstptr++] = c;` after which the copy is read from `srcptr` on. -/
def Unquoter.put (u : Unquoter) (c : Char) (srcptr : Nat) : Unquoter :=
  ⟨srcptr, u.dstptr + 1, u.str.set u.dstptr c⟩

@[simp] theorem Unquoter.put_srcptr (u : Unquoter) (c : Char) (srcptr : Nat)
    : (u.put c srcptr).srcptr = srcptr := rfl

@[simp] theorem Unquoter.put_dstptr (u : Unquoter) (c : Char) (srcptr : Nat)
    : (u.put c srcptr).dstptr = u.dstptr + 1 := rfl

/-- A turn of the loop; `none` is its end. A quote ends it whether or not it is the last character,
which makes a difference to the log only.
-/
def Unquoter.turn (tmp : List Char) (u : Unquoter) : Option Unquoter :=
  if u.srcptr < (cString tmp).length then
    if byteAt tmp u.srcptr = '"' then none
    else if byteAt tmp u.srcptr = '\\' then
      if byteAt tmp (u.srcptr + 1) = '\x00' then none
      else some (u.put (byteAt tmp (u.srcptr + 1)) (u.srcptr + 2))
    else some (u.put (byteAt tmp u.srcptr) (u.srcptr + 1))
  else none

/-- The loop, with a bound on the number of its turns. -/
def Unquoter.loop (tmp : List Char) : Nat → Unquoter → Unquoter
  | 0, u => u
  | turns + 1, u =>
      match u.turn tmp with
      | none => u
      | some next => next.loop tmp turns

/-- `unquote` on the memory of `str`; `none` is a copy that does not fit `tmp`. Each turn passes at
least one character of the copy.
-/
def unquoteInPlace (str : List Char) : Option (List Char) :=
  if str.headD '\x00' = '"' then
    match strcpy (List.replicate maxRead '\x00') 0 (cString str) with
    | none => none
    | some tmp =>
        let u := Unquoter.loop tmp (cString str).length ⟨1, 0, str⟩
        some (u.str.set u.dstptr '\x00')
  else some str

/-- A quote or a backslash is preceded by a backslash. -/
def escapeChar (c : Char) : List Char := if c = '"' ∨ c = '\\' then ['\\', c] else [c]

/-- The quoted form of a string. -/
def quoted (s : List Char) : List Char := '"' :: (s.flatMap escapeChar ++ ['"'])

-----------------------------------------------------------------------------------------
-- The loop
-----------------------------------------------------------------------------------------

/-- What the copy still holds from the cursor on. -/
def Unquoter.ahead (tmp : List Char) (u : Unquoter) : List Char := (cString tmp).drop u.srcptr

theorem byteAt_of_ahead {tmp rest : List Char} {c : Char} {index : Nat}
    (here : (cString tmp).drop index = c :: rest)
    : byteAt tmp index = c := by
  have inside : (cString tmp)[index]? = some c := by
    rw [← List.head?_drop, here, List.head?_cons]
  have same : tmp[index]? = some c := by
    obtain ⟨more, whole⟩ : cString tmp <+: tmp := List.takeWhile_prefix _
    have short : index < (cString tmp).length := (List.getElem?_eq_some_iff.mp inside).1
    rw [← whole, List.getElem?_append_left short, inside]
  rw [byteAt, List.getD_eq_getElem?_getD, same, Option.getD_some]

/-- After the last character of the string stands the zero byte. -/
theorem byteAt_of_end {tmp : List Char} {index : Nat} (last : index = (cString tmp).length)
    : byteAt tmp index = '\x00' := by
  rw [byteAt, List.getD_eq_getElem?_getD, last]
  have stop := List.head?_dropWhile_not (fun c => decide (c ≠ '\x00')) tmp
  have whole : cString tmp ++ tmp.dropWhile (fun c => decide (c ≠ '\x00')) = tmp :=
    List.takeWhile_append_dropWhile
  have first : tmp[(cString tmp).length]? = (tmp.dropWhile fun c => decide (c ≠ '\x00')).head? := by
    have next (text rest : List Char) : (text ++ rest)[text.length]? = rest.head? := by
      rw [List.getElem?_append_right (Nat.le_refl _), Nat.sub_self, ← List.head?_eq_getElem?]
    have here := next (cString tmp) (tmp.dropWhile fun c => decide (c ≠ '\x00'))
    rwa [whole] at here
  rw [first]
  cases found : (tmp.dropWhile fun c => decide (c ≠ '\x00')).head? with
  | none => rfl
  | some c =>
      rw [found] at stop
      simpa using stop

/-- What is written before the cursor `dstptr`, with what stands behind it. -/
theorem overwrite_set {str written : List Char} {c : Char} (room : written.length < str.length)
    : (overwrite str written).set written.length c = overwrite str (written ++ [c]) := by
  rw [overwrite, overwrite, List.set_append_right _ _ (Nat.le_refl _), Nat.sub_self,
    List.append_assoc]
  obtain ⟨d, rest, here⟩ : ∃ d rest, str.drop written.length = d :: rest := by
    cases here : str.drop written.length with
    | nil =>
        rw [List.drop_eq_nil_iff] at here
        omega
    | cons d rest => exact ⟨d, rest, rfl⟩
  have next : str.drop (written ++ [c]).length = rest := by
    rw [List.length_append, List.length_singleton, ← List.tail_drop, here, List.tail_cons]
  rw [here, next]
  rfl

/-- A turn at the end of the copy or at a quote is the last one. -/
theorem Unquoter.turn_of_nil {tmp : List Char} {u : Unquoter} (here : u.ahead tmp = [])
    : u.turn tmp = none := by
  have past : ¬ u.srcptr < (cString tmp).length := not_lt.mpr (List.drop_eq_nil_iff.mp here)
  rw [Unquoter.turn, if_neg past]

theorem Unquoter.lt_of_ahead {tmp rest : List Char} {c : Char} {u : Unquoter}
    (here : u.ahead tmp = c :: rest)
    : u.srcptr < (cString tmp).length := by
  by_contra past
  have none : u.ahead tmp = [] := List.drop_eq_nil_iff.mpr (not_lt.mp past)
  rw [none] at here
  cases here

theorem Unquoter.turn_of_quote {tmp rest : List Char} {u : Unquoter}
    (here : u.ahead tmp = '"' :: rest)
    : u.turn tmp = none := by
  rw [Unquoter.turn, if_pos (lt_of_ahead here), if_pos (byteAt_of_ahead here)]

/-- A backslash that ends the copy is followed by the zero byte. -/
theorem Unquoter.turn_of_backslash {tmp : List Char} {u : Unquoter}
    (here : u.ahead tmp = ['\\'])
    : u.turn tmp = none := by
  have last : u.srcptr + 1 = (cString tmp).length := by
    have length := congrArg List.length here
    rw [Unquoter.ahead, List.length_drop, List.length_singleton] at length
    have := lt_of_ahead here
    omega
  rw [Unquoter.turn, if_pos (lt_of_ahead here), byteAt_of_ahead here, if_neg (by decide),
    if_pos rfl, if_pos (byteAt_of_end last)]

theorem Unquoter.turn_of_escape {tmp rest : List Char} {d : Char} {u : Unquoter}
    (here : u.ahead tmp = '\\' :: d :: rest)
    : u.turn tmp = some (u.put d (u.srcptr + 2)) := by
  have next : (cString tmp).drop (u.srcptr + 1) = d :: rest := by
    have tail := congrArg List.tail here
    rwa [Unquoter.ahead, List.tail_drop, List.tail_cons] at tail
  have some : d ≠ '\x00' := by
    rintro rfl
    exact zero_not_mem_cString tmp (List.mem_of_mem_drop (next ▸ List.mem_cons_self))
  rw [Unquoter.turn, if_pos (lt_of_ahead here), byteAt_of_ahead here, if_neg (by decide),
    if_pos rfl, byteAt_of_ahead next, if_neg some]

theorem Unquoter.turn_of_plain {tmp rest : List Char} {c : Char} {u : Unquoter}
    (here : u.ahead tmp = c :: rest) (plain : c ≠ '"' ∧ c ≠ '\\')
    : u.turn tmp = some (u.put c (u.srcptr + 1)) := by
  rw [Unquoter.turn, if_pos (lt_of_ahead here), byteAt_of_ahead here, if_neg plain.1,
    if_neg plain.2]

/-- The loop has written some characters, and the cursor `dstptr` is behind `srcptr`. -/
structure Unquoter.Writing (tmp str written : List Char) (u : Unquoter) : Prop where
  dstptr : u.dstptr = written.length
  str : u.str = overwrite str written
  behind : u.dstptr < u.srcptr
  inside : u.srcptr ≤ (cString tmp).length

theorem Unquoter.Writing.put {tmp str written : List Char} {u : Unquoter} {c : Char} {srcptr : Nat}
    (h : u.Writing tmp str written) (room : (cString tmp).length < str.length)
    (ahead : u.srcptr < srcptr) (inside : srcptr ≤ (cString tmp).length)
    : (u.put c srcptr).Writing tmp str (written ++ [c]) := by
  have fits : written.length < str.length := by
    have := h.behind
    have := h.inside
    have := h.dstptr
    omega
  refine ⟨?_, ?_, ?_, inside⟩
  · rw [Unquoter.put, List.length_append, h.dstptr]
    rfl
  · rw [Unquoter.put, h.str, h.dstptr, overwrite_set fits]
  · have := h.behind
    rw [Unquoter.put_dstptr, Unquoter.put_srcptr]
    omega

/-- The loop writes what `unquoteText` makes of the rest of the copy, by induction on the turns that
are left.
-/
theorem Unquoter.loop_writes {tmp str : List Char} (room : (cString tmp).length < str.length)
    (turns : Nat)
    : ∀ (u : Unquoter) (written : List Char), u.Writing tmp str written →
        (cString tmp).length ≤ u.srcptr + turns →
        (u.loop tmp turns).Writing tmp str (written ++ unquoteText (u.ahead tmp)) := by
  induction turns with
  | zero =>
      intro u written h enough
      have none : u.ahead tmp = [] := List.drop_eq_nil_iff.mpr (by omega)
      rw [none, unquoteText, List.append_nil]
      exact h
  | succ turns hind =>
      intro u written h enough
      have stays (none : u.turn tmp = none) (nothing : unquoteText (u.ahead tmp) = [])
          : (u.loop tmp (turns + 1)).Writing tmp str (written ++ unquoteText (u.ahead tmp)) := by
        rw [Unquoter.loop, none, nothing, List.append_nil]
        exact h
      cases here : u.ahead tmp with
      | nil => exact here ▸ stays (turn_of_nil here) (by rw [here, unquoteText])
      | cons c rest =>
          have below := lt_of_ahead here
          by_cases quote : c = '"'
          · subst quote
            exact here ▸ stays (turn_of_quote here) (here ▸ unquoteText_quote rest)
          · by_cases backslash : c = '\\'
            · subst backslash
              cases rest with
              | nil => exact here ▸ stays (turn_of_backslash here) (here ▸ by simp [unquoteText])
              | cons d more =>
                  have two : u.srcptr + 2 ≤ (cString tmp).length := by
                    have length := congrArg List.length here
                    rw [Unquoter.ahead, List.length_drop, List.length_cons, List.length_cons]
                      at length
                    omega
                  have next : (u.put d (u.srcptr + 2)).ahead tmp = more := by
                    have rest := congrArg (List.drop 2) here
                    rwa [Unquoter.ahead, List.drop_drop] at rest
                  have enough' : (cString tmp).length ≤ u.srcptr + 2 + turns := by omega
                  have going := hind (u.put d (u.srcptr + 2)) _ (h.put room (by omega) two) enough'
                  rw [next, List.append_assoc] at going
                  rw [Unquoter.loop, turn_of_escape here]
                  simpa [unquoteText] using going
            · have next : (u.put c (u.srcptr + 1)).ahead tmp = rest := by
                have tail := congrArg List.tail here
                rwa [Unquoter.ahead, List.tail_drop] at tail
              have enough' : (cString tmp).length ≤ u.srcptr + 1 + turns := by omega
              have going := hind (u.put c (u.srcptr + 1)) _ (h.put room (by omega) (by omega)) enough'
              rw [next, List.append_assoc] at going
              rw [Unquoter.loop, turn_of_plain here ⟨quote, backslash⟩,
                unquoteText_plain rest ⟨quote, backslash⟩]
              exact going

-----------------------------------------------------------------------------------------
-- The function
-----------------------------------------------------------------------------------------

/-- A string that is short enough is copied whole. -/
theorem copy_of_short {text : List Char} (plain : '\x00' ∉ text) (short : text.length < maxRead)
    : ∃ tmp, strcpy (List.replicate maxRead '\x00') 0 text = some tmp ∧ cString tmp = text := by
  have copied : (strcpy (List.replicate maxRead '\x00') 0 text).isSome = true := by
    rw [strcpy_isSome, List.length_replicate]
    omega
  obtain ⟨tmp, stored⟩ := Option.isSome_iff_exists.mp copied
  refine ⟨tmp, stored, ?_⟩
  obtain ⟨_, rfl⟩ := store_eq_some.mp stored
  rw [List.take_zero, List.nil_append, List.append_assoc]
  exact cString_append _ plain

/-- The loop with its cursors computes `unquote`. -/
theorem unquoteInPlace_eq {str : List Char} (terminated : '\x00' ∈ str)
    (short : (cString str).length < maxRead)
    : unquoteInPlace str = some (unquote str) := by
  cases str with
  | nil => cases terminated
  | cons c rest =>
      by_cases quote : c = '"'
      · subst quote
        obtain ⟨tmp, stored, same⟩ := copy_of_short (zero_not_mem_cString _) short
        have text : cString ('"' :: rest) = '"' :: cString rest :=
          List.takeWhile_cons_of_pos (by decide)
        have room : (cString tmp).length < ('"' :: rest).length := same ▸ cString_length_lt terminated
        have first : (⟨1, 0, '"' :: rest⟩ : Unquoter).Writing tmp ('"' :: rest) [] := by
          refine ⟨rfl, rfl, Nat.zero_lt_one, ?_⟩
          rw [same, text, List.length_cons]
          exact Nat.le_add_left 1 _
        have last := Unquoter.loop_writes room (cString ('"' :: rest)).length _ [] first
          (by rw [same]; exact Nat.le_add_left _ _)
        have ahead : (⟨1, 0, '"' :: rest⟩ : Unquoter).ahead tmp = cString rest := by
          rw [Unquoter.ahead, same, text, List.drop_one, List.tail_cons]
        rw [List.nil_append, ahead] at last
        have fits : (unquoteText (cString rest)).length < ('"' :: rest).length := by
          have := last.behind
          have := last.inside
          rw [← last.dstptr]
          omega
        rw [unquote_quoted text]
        simp only [unquoteInPlace, List.headD_cons, if_true, stored]
        rw [last.str, last.dstptr, overwrite_set fits]
      · have bare (text : List Char) : cString (c :: rest) ≠ '"' :: text := by
          rw [cString, List.takeWhile_cons]
          split
          · intro same
            exact quote (List.cons.inj same).1
          · intro same
            cases same
        rw [unquote_bare bare, unquoteInPlace, List.headD_cons, if_neg quote]

theorem unquoteText_escaped (s rest : List Char)
    : unquoteText (s.flatMap escapeChar ++ '"' :: rest) = s := by
  induction s with
  | nil => exact unquoteText_quote rest
  | cons c s hind =>
      rw [List.flatMap_cons, List.append_assoc, escapeChar]
      split
      · simp [unquoteText, hind]
      · rename_i plain
        rw [not_or] at plain
        rw [List.singleton_append, unquoteText_plain _ plain, hind]

theorem zero_not_mem_quoted {s : List Char} (plain : '\x00' ∉ s) : '\x00' ∉ quoted s := by
  intro member
  rw [quoted, List.mem_cons, List.mem_append, List.mem_flatMap] at member
  rcases member with first | ⟨c, inside, escaped⟩ | last
  · cases first
  · rw [escapeChar] at escaped
    split at escaped
    · rcases List.mem_cons.mp escaped with backslash | same
      · cases backslash
      · exact plain (List.mem_singleton.mp same ▸ inside)
    · exact plain (List.mem_singleton.mp escaped ▸ inside)
  · cases List.mem_singleton.mp last

/-- **Quoting**: `unquote` leaves a string in place of its quoted form, whatever follows in memory,
and it leaves memory alone that does not start with a quote.
-/
theorem unquote_inverts_quoting
    : (∀ s rest : List Char, '\x00' ∉ s → (quoted s).length < maxRead
        → (unquoteInPlace (quoted s ++ '\x00' :: rest)).map cString = some s)
      ∧ ∀ memory : List Char, memory.head? ≠ some '"' → unquoteInPlace memory = some memory := by
  constructor
  · intro s rest plain short
    have whole : cString (quoted s ++ '\x00' :: rest) = quoted s :=
      cString_append rest (zero_not_mem_quoted plain)
    have terminated : '\x00' ∈ quoted s ++ '\x00' :: rest :=
      List.mem_append_right _ List.mem_cons_self
    rw [unquoteInPlace_eq terminated (by rwa [whole]), Option.map_some, unquote_quoted whole,
      unquoteText_escaped, overwrite_string, cString_append _ plain]
  · intro memory other
    cases memory with
    | nil => rfl
    | cons c rest =>
        have bare : c ≠ '"' := fun same => other (congrArg some same)
        rw [unquoteInPlace, List.headD_cons, if_neg bare]

/-- Witness: a name with a quote and a backslash, and one that is not quoted. -/
theorem unquote_inverts_quoting_names
    : (unquoteInPlace (quoted "vf\\\"0".toList ++ ['\x00'])).map cString
        = some "vf\\\"0".toList
      ∧ unquoteInPlace "vf0\x00".toList = some "vf0\x00".toList :=
  ⟨unquote_inverts_quoting.1 _ [] (by decide) (by decide +kernel),
    unquote_inverts_quoting.2 _ (by decide)⟩

end VirtioForwarder
