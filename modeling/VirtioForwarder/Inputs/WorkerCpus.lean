import VirtioForwarder.Inputs.EalArguments

/-! The option with the CPUs for the workers, which is either a hexadecimal bitmap or a list of
numbers. Bitmap 0 marks a list that is refused; a hexadecimal bitmap is not compared with it.
-/

namespace VirtioForwarder

open CText

/-- The digits that `cmdline_set_cpus` looks for in a bitmap. -/
def hexDigits : List Char := "0123456789abcdefABCDEF".toList

/-- The digits of a number in a list. -/
def decimalDigits : List Char := "0123456789".toList

/-- The characters of a list. -/
def listChars : List Char := "0123456789,".toList

/-- The loop over the tokens of a list: the bitmap at its end. -/
def setCpus : List (List Char) → BitVec 64 → BitVec 64
  | [], bitmap => bitmap
  | s :: rest, bitmap =>
      let (l, eptr) := strtoul 10 s
      if eptr ≠ [] ∨ 64 ≤ l then 0#64 else setCpus rest (bitmap ||| 1#64 <<< l)

/-- `cmdline_set_cpus`: what it returns, and `vhost_conf.worker_core_bitmap` after it. -/
def cmdlineSetCpus (bitmap : BitVec 64) : List Char → Int × BitVec 64
  | '0' :: 'x' :: arg =>
      if strspn arg hexDigits ≠ arg.length then (-1, bitmap)
      else
        let (value, eptr) := strtoul 16 arg
        (if eptr ≠ [] then -1 else 0, .ofNat 64 value)
  | arg =>
      if strspn arg listChars ≠ arg.length then (-1, bitmap)
      else
        let after := setCpus (tokens ',' arg) 0#64
        (if after ≠ 0#64 then 0 else -1, after)

/-- What the option means. -/
inductive WorkerCpus : List Char → BitVec 64 → Prop
  | bitmap {digits : List Char} (hex : ∀ c ∈ digits, c ∈ hexDigits)
    (some : number 16 digits ≠ 0) (fits : number 16 digits < 2 ^ 64)
    : WorkerCpus ('0' :: 'x' :: digits) (.ofNat 64 (number 16 digits))
  | list {items : List (List Char)} {cpus : BitVec 64}
    (decimal : ∀ item ∈ items, ∀ c ∈ item, c ∈ decimalDigits)
    (some : ∃ item ∈ items, item ≠ [])
    (small : ∀ item ∈ items, number 10 item < 64)
    (union : ∀ i, InBitmap cpus i ↔ ∃ item ∈ items, item ≠ [] ∧ number 10 item = i)
    : WorkerCpus ([','].intercalate items) cpus

/-- The option is accepted exactly if it means something, which is then the bitmap. -/
def WorkerCpusExact (bitmap : BitVec 64) (arg : List Char) : Prop :=
  ((cmdlineSetCpus bitmap arg).1 = 0 ↔ ∃ cpus, WorkerCpus arg cpus)
  ∧ ∀ cpus, WorkerCpus arg cpus → cmdlineSetCpus bitmap arg = (0, cpus)

/-- A hexadecimal bitmap that is no CPU set: 0 or without a digit, or of more than 64 bits. -/
def EmptyOrWideBitmap (arg : List Char) : Prop :=
  ∃ digits, arg = '0' :: 'x' :: digits ∧ (∀ c ∈ digits, c ∈ hexDigits)
    ∧ (number 16 digits = 0 ∨ 2 ^ 64 ≤ number 16 digits)

/-- A CPU set as a hexadecimal bitmap. -/
def bitmapNotation (cpus : BitVec 64) : List Char := '0' :: 'x' :: hexText false 1 cpus.toNat

/-- A CPU set as a list. -/
def listNotation (cpus : BitVec 64) : List Char :=
  [','].intercalate ((Bits.setBits cpus).map decimalText)

theorem isDigitOf_hexDigits {c : Char} (member : c ∈ hexDigits) : isDigitOf 16 c = true := by
  have all : hexDigits.all (isDigitOf 16) = true := by decide +kernel
  exact List.all_eq_true.mp all c member

theorem isDigitOf_decimal {c : Char} (member : c ∈ decimalDigits)
    : isDigitOf 10 c = true := by
  have all : decimalDigits.all (isDigitOf 10) = true := by decide +kernel
  exact List.all_eq_true.mp all c member

/-- A character of a list that is not a comma is a digit. -/
theorem mem_listChars {c : Char} : c ∈ listChars ↔ c = ',' ∨ c ∈ decimalDigits := by
  have chars : listChars = decimalDigits ++ [','] := by decide
  rw [chars, List.mem_append, List.mem_singleton, or_comm]

/-- Texts of the one notation are not texts of the other. -/
theorem not_hex_of_listChars {arg : List Char} (plain : ∀ c ∈ arg, c ∈ listChars) (digits : List Char)
    : arg ≠ '0' :: 'x' :: digits := by
  rintro rfl
  exact absurd (plain 'x' (by simp)) (by decide)

-----------------------------------------------------------------------------------------
-- Hexadecimal bitmaps
-----------------------------------------------------------------------------------------

/-- A bitmap is read, and saturates. -/
theorem cmdlineSetCpus_hex (bitmap : BitVec 64) {digits : List Char}
    (hex : ∀ c ∈ digits, c ∈ hexDigits)
    : cmdlineSetCpus bitmap ('0' :: 'x' :: digits)
      = (0, .ofNat 64 (if 2 ^ 64 ≤ number 16 digits then 2 ^ 64 - 1 else number 16 digits)) := by
  rw [cmdlineSetCpus, strtoul_digits fun c member => isDigitOf_hexDigits (hex c member),
    if_neg (not_not_intro (strspn_eq_length.mpr hex))]
  rfl

theorem cmdlineSetCpus_not_hex (bitmap : BitVec 64) {digits : List Char}
    (other : ¬ ∀ c ∈ digits, c ∈ hexDigits)
    : (cmdlineSetCpus bitmap ('0' :: 'x' :: digits)).1 = -1 := by
  rw [cmdlineSetCpus, if_pos (mt strspn_eq_length.mp other)]

-----------------------------------------------------------------------------------------
-- Lists
-----------------------------------------------------------------------------------------

/-- The step of the loop for a token of digits. -/
theorem setCpus_cons {token : List Char} (rest : List (List Char)) (bitmap : BitVec 64)
    (digits : ∀ c ∈ token, c ∈ decimalDigits)
    : setCpus (token :: rest) bitmap
      = if 64 ≤ number 10 token then 0#64 else setCpus rest (bitmap ||| 1#64 <<< number 10 token)
    := by
  rw [setCpus, strtoul_digits fun c member => isDigitOf_decimal (digits c member)]
  dsimp only
  by_cases wide : 2 ^ 64 ≤ number 10 token
  · rw [if_pos wide, if_pos (Or.inr (by decide)), if_pos (by omega)]
  · rw [if_neg wide]
    by_cases large : 64 ≤ number 10 token
    · rw [if_pos (Or.inr large), if_pos large]
    · rw [if_neg (by simp [large]), if_neg large]

/-- A number that is too large makes the loop end with bitmap 0. -/
theorem setCpus_large {list : List (List Char)} (bitmap : BitVec 64)
    (digits : ∀ token ∈ list, ∀ c ∈ token, c ∈ decimalDigits)
    (large : ∃ token ∈ list, 64 ≤ number 10 token)
    : setCpus list bitmap = 0#64 := by
  induction list generalizing bitmap with
  | nil => simp at large
  | cons token rest ih =>
      rw [setCpus_cons rest bitmap (digits token List.mem_cons_self)]
      split
      · rfl
      · next small =>
          apply ih _ fun other member => digits other (List.mem_cons_of_mem _ member)
          exact ((List.exists_mem_cons_iff _ _ _).mp large).resolve_left small

/-- Otherwise each number adds its CPU. -/
theorem inBitmap_setCpus {list : List (List Char)} (bitmap : BitVec 64)
    (digits : ∀ token ∈ list, ∀ c ∈ token, c ∈ decimalDigits)
    (small : ∀ token ∈ list, number 10 token < 64) (i : Nat)
    : InBitmap (setCpus list bitmap) i
      ↔ InBitmap bitmap i ∨ ∃ token ∈ list, number 10 token = i := by
  induction list generalizing bitmap with
  | nil => simp [setCpus]
  | cons token rest ih =>
      have first := small token List.mem_cons_self
      rw [setCpus_cons rest bitmap (digits token List.mem_cons_self), if_neg (by omega),
        ih _ (fun other member => digits other (List.mem_cons_of_mem _ member))
          (fun other member => small other (List.mem_cons_of_mem _ member))]
      have one := inBitmap_assignBit bitmap first i
      rw [Bits.assignBit, if_pos rfl] at one
      rw [one, List.exists_mem_cons_iff, or_assoc, eq_comm (a := i)]

theorem eq_of_inBitmap {first second : BitVec 64}
    (same : ∀ i, InBitmap first i ↔ InBitmap second i)
    : first = second := by
  apply BitVec.eq_of_getLsbD_eq
  intro i _
  exact Bool.eq_iff_iff.mpr (same i)

/-- A list is handled by the loop. -/
theorem cmdlineSetCpus_list (bitmap : BitVec 64) {arg : List Char}
    (plain : ∀ c ∈ arg, c ∈ listChars)
    : cmdlineSetCpus bitmap arg
      = (if setCpus (tokens ',' arg) 0#64 ≠ 0#64 then 0 else -1, setCpus (tokens ',' arg) 0#64) := by
  unfold cmdlineSetCpus
  split
  · exact absurd rfl (not_hex_of_listChars plain _)
  · rw [if_neg (not_not_intro (strspn_eq_length.mpr plain))]

theorem cmdlineSetCpus_other (bitmap : BitVec 64) {arg : List Char}
    (list : ∀ digits, arg ≠ '0' :: 'x' :: digits) (other : ¬ ∀ c ∈ arg, c ∈ listChars)
    : (cmdlineSetCpus bitmap arg).1 = -1 := by
  unfold cmdlineSetCpus
  split
  · exact absurd rfl (list _)
  · rw [if_pos (mt strspn_eq_length.mp other)]

/-- A list that means something leads to its CPUs. -/
theorem setCpus_items {items : List (List Char)} {cpus : BitVec 64}
    (decimal : ∀ item ∈ items, ∀ c ∈ item, c ∈ decimalDigits) (some : ∃ item ∈ items, item ≠ [])
    (small : ∀ item ∈ items, number 10 item < 64)
    (union : ∀ i, InBitmap cpus i ↔ ∃ item ∈ items, item ≠ [] ∧ number 10 item = i)
    : setCpus (tokens ',' ([','].intercalate items)) 0#64 = cpus ∧ cpus ≠ 0#64 := by
  obtain ⟨item, listed, digit⟩ := some
  have comma : ∀ item ∈ items, ',' ∉ item :=
    fun item member inside => absurd (decimal item member ',' inside) (by decide)
  rw [tokens_intercalate (List.ne_nil_of_mem listed) comma]
  constructor
  · apply eq_of_inBitmap
    intro i
    rw [inBitmap_setCpus 0#64 (fun token member => decimal token (List.mem_of_mem_filter member))
      (fun token member => small token (List.mem_of_mem_filter member)), union]
    simp [InBitmap, and_assoc]
  · rintro rfl
    have member := (union (number 10 item)).mpr ⟨item, listed, digit, rfl⟩
    simp [InBitmap] at member

/-- The two notations of an option that means something. -/
theorem WorkerCpus.cases {arg : List Char} {cpus : BitVec 64} (means : WorkerCpus arg cpus)
    : (∃ digits, arg = '0' :: 'x' :: digits ∧ (∀ c ∈ digits, c ∈ hexDigits)
        ∧ number 16 digits ≠ 0 ∧ number 16 digits < 2 ^ 64
        ∧ cpus = .ofNat 64 (number 16 digits))
      ∨ (∀ c ∈ arg, c ∈ listChars) ∧ setCpus (tokens ',' arg) 0#64 = cpus ∧ cpus ≠ 0#64 := by
  cases means with
  | @bitmap digits hex some fits => exact Or.inl ⟨digits, rfl, hex, some, fits, rfl⟩
  | list decimal some small union =>
      refine Or.inr ⟨?_, setCpus_items decimal some small union⟩
      intro c member
      rw [mem_listChars]
      rcases mem_intercalate member with comma | ⟨item, listed, inside⟩
      · exact Or.inl (List.mem_singleton.mp comma)
      · exact Or.inr (decimal item listed c inside)

/-- An option that means something is accepted. -/
theorem WorkerCpus.accepted {arg : List Char} {cpus : BitVec 64} (means : WorkerCpus arg cpus)
    (bitmap : BitVec 64)
    : cmdlineSetCpus bitmap arg = (0, cpus) := by
  rcases means.cases with ⟨digits, rfl, hex, _, fits, rfl⟩ | ⟨plain, same, some⟩
  · rw [cmdlineSetCpus_hex bitmap hex, if_neg (by omega)]
  · rw [cmdlineSetCpus_list bitmap plain, same, if_pos some]

/-- A list for which the loop ends with CPUs means something. -/
theorem WorkerCpus.of_setCpus {arg : List Char} (plain : ∀ c ∈ arg, c ∈ listChars)
    (accepted : setCpus (tokens ',' arg) 0#64 ≠ 0#64)
    : WorkerCpus arg (setCpus (tokens ',' arg) 0#64) := by
  have decimal : ∀ item ∈ arg.splitOn ',', ∀ c ∈ item, c ∈ decimalDigits := by
    intro item listed c inside
    obtain ⟨member, other⟩ := mem_of_mem_splitOn listed c inside
    exact (mem_listChars.mp (plain c member)).resolve_left other
  have digits : ∀ token ∈ tokens ',' arg, ∀ c ∈ token, c ∈ decimalDigits :=
    fun token member => decimal token (List.mem_of_mem_filter member)
  have small : ∀ token ∈ tokens ',' arg, number 10 token < 64 := by
    intro token member
    by_contra large
    exact accepted (setCpus_large 0#64 digits ⟨token, member, by omega⟩)
  have some : ∃ item ∈ arg.splitOn ',', item ≠ [] := by
    by_contra none
    push Not at none
    have empty : tokens ',' arg = [] := List.filter_eq_nil_iff.mpr (by simpa using none)
    exact accepted (by rw [empty]; rfl)
  have whole : [','].intercalate (arg.splitOn ',') = arg := List.intercalate_splitOn ','
  rw [← whole] at accepted ⊢
  refine .list decimal some ?_ ?_
  · intro item listed
    by_cases digit : item = []
    · rw [digit]
      decide
    · exact small item (List.mem_filter.mpr ⟨listed, by simpa using digit⟩)
  · intro i
    rw [List.intercalate_splitOn, inBitmap_setCpus 0#64 digits small]
    simp [InBitmap, tokens, and_assoc]

/-- A bitmap that is empty or too wide is accepted without meaning anything. -/
theorem not_exact_of_emptyOrWide {arg : List Char} (bitmap : BitVec 64)
    (unfit : EmptyOrWideBitmap arg)
    : ¬ WorkerCpusExact bitmap arg := by
  intro holds
  obtain ⟨digits, rfl, hex, unfit⟩ := unfit
  obtain ⟨cpus, means⟩ := holds.1.mp (by rw [cmdlineSetCpus_hex bitmap hex])
  rcases means.cases with ⟨other, same, _, some, fits, _⟩ | ⟨plain, _⟩
  · cases same
    omega
  · exact absurd rfl (not_hex_of_listChars plain digits)

theorem exact_of_hex {digits : List Char} (bitmap : BitVec 64)
    (hex : ∀ c ∈ digits, c ∈ hexDigits) (fit : ¬ EmptyOrWideBitmap ('0' :: 'x' :: digits))
    : WorkerCpusExact bitmap ('0' :: 'x' :: digits) := by
  have range : number 16 digits ≠ 0 ∧ number 16 digits < 2 ^ 64 := by
    by_contra outside
    exact fit ⟨digits, rfl, hex, by omega⟩
  constructor
  · exact iff_of_true (by rw [cmdlineSetCpus_hex bitmap hex]) ⟨_, .bitmap hex range.1 range.2⟩
  · exact fun cpus means => means.accepted bitmap

theorem exact_of_list {arg : List Char} (bitmap : BitVec 64) (plain : ∀ c ∈ arg, c ∈ listChars)
    : WorkerCpusExact bitmap arg := by
  constructor
  · constructor
    · intro accepted
      rw [cmdlineSetCpus_list bitmap plain] at accepted
      refine ⟨_, WorkerCpus.of_setCpus plain fun zero => ?_⟩
      rw [if_neg (not_not_intro zero)] at accepted
      cases accepted
    · rintro ⟨cpus, means⟩
      rw [means.accepted bitmap]
  · exact fun cpus means => means.accepted bitmap

/-- An argument in neither notation is refused. -/
theorem exact_of_refused {arg : List Char} (bitmap : BitVec 64)
    (refused : (cmdlineSetCpus bitmap arg).1 = -1) (other : ∀ cpus, ¬ WorkerCpus arg cpus)
    : WorkerCpusExact bitmap arg := by
  constructor
  · rw [refused]
    exact iff_of_false (by decide) fun ⟨cpus, means⟩ => other cpus means
  · exact fun cpus means => absurd means (other cpus)

theorem workerCpusExact_of_fit (bitmap : BitVec 64) {arg : List Char} (fit : ¬ EmptyOrWideBitmap arg)
    : WorkerCpusExact bitmap arg := by
  by_cases hex : ∃ digits, arg = '0' :: 'x' :: digits
  · obtain ⟨digits, rfl⟩ := hex
    by_cases all : ∀ c ∈ digits, c ∈ hexDigits
    · exact exact_of_hex bitmap all fit
    · apply exact_of_refused bitmap (cmdlineSetCpus_not_hex bitmap all)
      intro cpus means
      rcases means.cases with ⟨other, same, good, _⟩ | ⟨plain, _⟩
      · cases same
        exact all good
      · exact absurd rfl (not_hex_of_listChars plain digits)
  · push Not at hex
    by_cases plain : ∀ c ∈ arg, c ∈ listChars
    · exact exact_of_list bitmap plain
    · apply exact_of_refused bitmap (cmdlineSetCpus_other bitmap hex plain)
      intro cpus means
      rcases means.cases with ⟨digits, same, _⟩ | ⟨good, _⟩
      · exact hex digits same
      · exact plain good

-----------------------------------------------------------------------------------------
-- A CPU set in both notations
-----------------------------------------------------------------------------------------

theorem hexDigit_mem_hexDigits : ∀ digit < 16, hexDigit false digit ∈ hexDigits := by
  decide

theorem hexDigit_mem_decimalDigits : ∀ digit < 10, hexDigit false digit ∈ decimalDigits := by
  decide

theorem workerCpus_bitmapNotation {cpus : BitVec 64} (some : cpus ≠ 0#64)
    : WorkerCpus (bitmapNotation cpus) cpus := by
  have hex : ∀ c ∈ hexText false 1 cpus.toNat, c ∈ hexDigits := by
    intro c member
    obtain ⟨digit, small, rfl⟩ := mem_hexText member
    exact hexDigit_mem_hexDigits digit small
  have value : number 16 (hexText false 1 cpus.toNat) = cpus.toNat := number_hexText false 1 _
  have means := WorkerCpus.bitmap hex
    (by rw [value]; exact fun zero => some (BitVec.eq_of_toNat_eq zero)) (by rw [value]; omega)
  rwa [value, BitVec.ofNat_toNat, BitVec.setWidth_eq] at means

theorem workerCpus_listNotation {cpus : BitVec 64} (some : cpus ≠ 0#64)
    : WorkerCpus (listNotation cpus) cpus := by
  refine .list ?_ ?_ ?_ ?_
  · intro item listed c inside
    obtain ⟨cpu, _, rfl⟩ := List.mem_map.mp listed
    obtain ⟨digit, small, rfl⟩ := mem_decimalText inside
    exact hexDigit_mem_decimalDigits digit small
  · obtain ⟨cpu, rest, set⟩ := List.exists_cons_of_ne_nil (mt Bits.setBits_eq_nil.mp some)
    exact ⟨decimalText cpu, by simp [set], decimalText_ne_nil cpu⟩
  · intro item listed
    obtain ⟨cpu, set, rfl⟩ := List.mem_map.mp listed
    rw [number_decimalText]
    exact BitVec.lt_of_getLsbD (Bits.mem_setBits.mp set)
  · intro i
    constructor
    · intro member
      exact ⟨decimalText i, List.mem_map_of_mem (Bits.mem_setBits.mpr member),
        decimalText_ne_nil i, number_decimalText i⟩
    · rintro ⟨item, listed, _, rfl⟩
      obtain ⟨cpu, set, rfl⟩ := List.mem_map.mp listed
      rw [number_decimalText]
      exact Bits.mem_setBits.mp set

/-- The option means what it says if and only if it is no hexadecimal bitmap that is empty or
too wide; and each CPU set has the same bitmap in both notations.
-/
theorem cmdlineSetCpus_exact_iff (bitmap : BitVec 64) (arg : List Char)
    : (WorkerCpusExact bitmap arg ↔ ¬ EmptyOrWideBitmap arg)
      ∧ ∀ cpus : BitVec 64, cpus ≠ 0#64 →
          cmdlineSetCpus bitmap (bitmapNotation cpus) = (0, cpus)
          ∧ cmdlineSetCpus bitmap (listNotation cpus) = (0, cpus) := by
  constructor
  · constructor
    · exact fun holds unfit => not_exact_of_emptyOrWide bitmap unfit holds
    · exact workerCpusExact_of_fit bitmap
  · intro cpus some
    exact ⟨(workerCpus_bitmapNotation some).accepted bitmap,
      (workerCpus_listNotation some).accepted bitmap⟩

/-- `0x` is accepted as the empty bitmap. -/
theorem cmdlineSetCpus_accepts_nothing : ¬ WorkerCpusExact 2#64 "0x".toList :=
  not_exact_of_emptyOrWide 2#64 ⟨[], rfl, by simp, Or.inl rfl⟩

end VirtioForwarder
