import VirtioForwarder.Service.Idempotence
import VirtioForwarder.Sockets.OneToOne

/-! The client of the port control service, `virtioforwarder_port_control.py`: which texts it
accepts for a PCI address, and whether it accepts what the daemon prints for one.
-/

namespace VirtioForwarder

open CText Program

/-- The exceptions that end the client before it has sent its request. -/
inductive ClientFault
  | valueError
  | assertionError
  deriving DecidableEq, Repr

/-- The class `[:\.]`. -/
def isPciSeparator (c : Char) : Bool := c = ':' || c = '.'

/-- `int(x, 16)`, where all characters are digits. -/
def hexInt (digits : List Char) : Option Nat :=
  if digits = [] then none else some (number 16 digits)

/-- The assignment to a field of type `uint32`. -/
def uint32Field (value : Int) : Except ClientFault UInt32 :=
  if 0 ≤ value ∧ value < 2 ^ 32 then return .ofNat value.toNat else throw .valueError

/-- The constructor of `PortControlRequest.PciAddress`. -/
def makePciAddress (domain bus slot function : Int) : Except ClientFault RequestPciAddress := do
  return ⟨← uint32Field domain, ← uint32Field bus, ← uint32Field slot, ← uint32Field function⟩

/-- `parse_pci_addr`; a badly formatted address is `none`. -/
def parsePciAddr (addr : List Char) : Except ClientFault (Option RequestPciAddress) := do
  if addr.any fun c => !(isPciSeparator c || isDigitOf 16 c) then return none
  match (addr.splitOnP isPciSeparator).mapM hexInt with
  | some [dom, b, dev, f] => return some (← makePciAddress dom b dev f)
  | some [b, dev, f] => return some (← makePciAddress 0 b dev f)
  | _ => return none

/-- The arguments that a request is made of, without the mode of a bond. -/
structure PortControlArgs where
  op : PortControlOp
  vhostPath : Option (List Char)
  virtioId : Option Int
  pciAddr : List (List Char)
  name : Option (List Char)
  conditional : Bool
  deriving DecidableEq, Repr

/-- An address of the request in `main`. -/
def requestedAddress (addr : List Char) : Except ClientFault RequestPciAddress := do
  match ← parsePciAddr addr with
  | some address => return address
  | none => throw .assertionError

/-- The request that `main` sends. -/
def PortControlArgs.request (args : PortControlArgs) : Except ClientFault PortControlRequest := do
  let virtioId ← args.virtioId.mapM uint32Field
  let pciAddrs ← args.pciAddr.mapM requestedAddress
  return ⟨args.op, pciAddrs, virtioId, some args.conditional, args.name, args.vhostPath⟩

/-- Non-empty hexadecimal numbers with single separators between them. -/
inductive SpellsNumbers : List Char → List Nat → Prop
  | last {digits : List Char} (some : digits ≠ [])
    (hex : ∀ c ∈ digits, isDigitOf 16 c = true)
    : SpellsNumbers digits [number 16 digits]
  | part {digits rest : List Char} {separator : Char} {numbers : List Nat}
    (some : digits ≠ []) (hex : ∀ c ∈ digits, isDigitOf 16 c = true)
    (between : isPciSeparator separator = true) (more : SpellsNumbers rest numbers)
    : SpellsNumbers (digits ++ separator :: rest) (number 16 digits :: numbers)

/-- The text has the four numbers of the address, or all but a domain of zero. -/
def RequestPciAddress.SpelledBy (address : RequestPciAddress) (text : List Char) : Prop :=
  SpellsNumbers text
      [address.domain.toNat, address.bus.toNat, address.slot.toNat, address.function.toNat]
  ∨ address.domain = 0
    ∧ SpellsNumbers text [address.bus.toNat, address.slot.toNat, address.function.toNat]

-----------------------------------------------------------------------------------------
-- The texts that are accepted
-----------------------------------------------------------------------------------------

section Texts

variable {text digits rest : List Char} {numbers : List Nat} {separator : Char}
  {address : RequestPciAddress}

theorem isPciSeparator_of_isDigitOf {c : Char} (digit : isDigitOf 16 c = true)
    : isPciSeparator c = false := by
  have colon : isDigitOf 16 ':' = false := by decide
  have dot : isDigitOf 16 '.' = false := by decide
  by_contra separates
  simp only [isPciSeparator, Bool.not_eq_false, Bool.or_eq_true, decide_eq_true_eq] at separates
  rcases separates with rfl | rfl
  · rw [colon] at digit
    cases digit
  · rw [dot] at digit
    cases digit

theorem hexInt_eq_some {n : Nat}
    : hexInt digits = some n ↔ digits ≠ [] ∧ number 16 digits = n := by
  unfold hexInt
  split
  · rename_i none
    exact ⟨nofun, fun h => absurd none h.1⟩
  · rename_i some
    exact ⟨fun h => ⟨some, Option.some.inj h⟩, fun h => congrArg _ h.2⟩

/-- A text without separators is one number. -/
theorem splitOnP_digits (hex : ∀ c ∈ digits, isDigitOf 16 c = true)
    : digits.splitOnP isPciSeparator = [digits] :=
  List.splitOnP_eq_singleton fun c member => isPciSeparator_of_isDigitOf (hex c member)

theorem splitOnP_part (hex : ∀ c ∈ digits, isDigitOf 16 c = true)
    (between : isPciSeparator separator = true)
    : (digits ++ separator :: rest).splitOnP isPciSeparator
      = digits :: rest.splitOnP isPciSeparator :=
  List.splitOnP_append_cons_of_forall_mem
    (fun c member => isPciSeparator_of_isDigitOf (hex c member)) separator between rest

/-- A text is one number, or begins with digits and a separator. -/
theorem digits_or_part (plain : ∀ c ∈ text, isPciSeparator c = true ∨ isDigitOf 16 c = true)
    : (∀ c ∈ text, isDigitOf 16 c = true)
      ∨ ∃ digits separator rest,
          text = digits ++ separator :: rest ∧ (∀ c ∈ digits, isDigitOf 16 c = true)
          ∧ isPciSeparator separator = true := by
  induction text with
  | nil => exact Or.inl nofun
  | cons c text ih =>
      have first := plain c List.mem_cons_self
      have later := ih fun other member => plain other (List.mem_cons_of_mem c member)
      rcases first with separates | digit
      · exact Or.inr ⟨[], c, text, rfl, nofun, separates⟩
      · rcases later with all | ⟨digits, separator, rest, rfl, hex, between⟩
        · exact Or.inl (List.forall_mem_cons.mpr ⟨digit, all⟩)
        · exact Or.inr ⟨c :: digits, separator, rest, rfl, List.forall_mem_cons.mpr ⟨digit, hex⟩,
            between⟩

/-- The client finds the numbers that a text spells. -/
theorem SpellsNumbers.found (h : SpellsNumbers text numbers)
    : (∀ c ∈ text, isPciSeparator c = true ∨ isDigitOf 16 c = true)
      ∧ (text.splitOnP isPciSeparator).mapM hexInt = some numbers := by
  induction h with
  | last some hex =>
      refine ⟨fun c member => Or.inr (hex c member), ?_⟩
      rw [splitOnP_digits hex, List.mapM_cons, hexInt_eq_some.mpr ⟨some, rfl⟩]
      rfl
  | part some hex between more ih =>
      refine ⟨fun c member => ?_, ?_⟩
      · rcases List.mem_append.mp member with digit | member
        · exact Or.inr (hex c digit)
        · rcases List.mem_cons.mp member with rfl | member
          · exact Or.inl between
          · exact ih.1 c member
      · rw [splitOnP_part hex between, List.mapM_cons, hexInt_eq_some.mpr ⟨some, rfl⟩, ih.2]
        rfl

/-- The numbers that the client finds are spelled, by induction on the length of the text. -/
theorem spellsNumbers_of_found
    (plain : ∀ c ∈ text, isPciSeparator c = true ∨ isDigitOf 16 c = true)
    (found : (text.splitOnP isPciSeparator).mapM hexInt = some numbers)
    : SpellsNumbers text numbers := by
  induction size : text.length using Nat.strong_induction_on generalizing text numbers with
  | h size ih =>
      rcases digits_or_part plain with hex | ⟨digits, separator, rest, rfl, hex, between⟩
      · rw [splitOnP_digits hex, List.mapM_cons] at found
        simp only [List.mapM_nil, Option.bind_eq_bind, Option.bind_eq_some_iff, Option.pure_def,
          Option.some.injEq] at found
        obtain ⟨n, one, last, rfl, rfl⟩ := found
        obtain ⟨some, rfl⟩ := hexInt_eq_some.mp one
        exact .last some hex
      · rw [splitOnP_part hex between, List.mapM_cons] at found
        simp only [Option.bind_eq_bind, Option.bind_eq_some_iff, Option.pure_def,
          Option.some.injEq] at found
        obtain ⟨n, one, more, later, rfl⟩ := found
        obtain ⟨some, rfl⟩ := hexInt_eq_some.mp one
        refine .part some hex between (ih rest.length ?_ (fun c member => ?_) later rfl)
        · rw [← size, List.length_append, List.length_cons]
          omega
        · exact plain c (List.mem_append_right _ (List.mem_cons_of_mem _ member))

theorem spellsNumbers_iff
    : SpellsNumbers text numbers
      ↔ (∀ c ∈ text, isPciSeparator c = true ∨ isDigitOf 16 c = true)
        ∧ (text.splitOnP isPciSeparator).mapM hexInt = some numbers :=
  ⟨fun h => h.found, fun h => spellsNumbers_of_found h.1 h.2⟩

/-- A text spells its numbers only. -/
theorem SpellsNumbers.unique {others : List Nat} (h : SpellsNumbers text numbers)
    (h' : SpellsNumbers text others)
    : numbers = others :=
  Option.some.inj (h.found.2.symm.trans h'.found.2)

theorem uint32Field_eq_ok {value : Nat} {field : UInt32}
    : uint32Field value = .ok field ↔ value = field.toNat := by
  unfold uint32Field
  split
  · rename_i fits
    have small : value < 2 ^ 32 := by omega
    have same : (UInt32.ofNat value).toNat = value := by
      rw [UInt32.toNat_ofNat']
      exact Nat.mod_eq_of_lt small
    constructor
    · intro h
      cases h
      exact same.symm
    · rintro rfl
      exact congrArg Except.ok (UInt32.ofNat_toNat)
  · rename_i large
    refine ⟨nofun, fun same => absurd ?_ large⟩
    have small := field.toNat_lt
    omega

theorem makePciAddress_eq_ok {domain bus slot function : Nat}
    : makePciAddress domain bus slot function = .ok address
      ↔ domain = address.domain.toNat ∧ bus = address.bus.toNat ∧ slot = address.slot.toNat
        ∧ function = address.function.toNat := by
  simp only [← uint32Field_eq_ok]
  unfold makePciAddress
  constructor
  · intro h
    cases first : uint32Field domain with
    | error fault => rw [first] at h; cases h
    | ok domain =>
        cases second : uint32Field bus with
        | error fault => rw [first, second] at h; cases h
        | ok bus =>
            cases third : uint32Field slot with
            | error fault => rw [first, second, third] at h; cases h
            | ok slot =>
                cases fourth : uint32Field function with
                | error fault => rw [first, second, third, fourth] at h; cases h
                | ok function =>
                    rw [first, second, third, fourth] at h
                    cases h
                    exact ⟨rfl, rfl, rfl, rfl⟩
  · rintro ⟨first, second, third, fourth⟩
    rw [first, second, third, fourth]
    rfl

/-- The client accepts a text as an address if and only if it spells the address. -/
theorem parsePciAddr_accepts_iff (text : List Char) (address : RequestPciAddress)
    : parsePciAddr text = .ok (some address) ↔ address.SpelledBy text := by
  have made (numbers : Except ClientFault RequestPciAddress)
      : (do return some (← numbers)) = Except.ok (some address) ↔ numbers = .ok address := by
    cases numbers with
    | error fault => exact ⟨nofun, nofun⟩
    | ok other =>
        refine ⟨fun h => ?_, fun h => ?_⟩
        · cases h
          rfl
        · cases h
          rfl
  unfold parsePciAddr
  split
  · rename_i foreign
    obtain ⟨c, member, odd⟩ := List.any_eq_true.mp foreign
    rw [Bool.not_eq_true', Bool.or_eq_false_iff] at odd
    refine ⟨nofun, fun spelled => ?_⟩
    have plain : isPciSeparator c = true ∨ isDigitOf 16 c = true := by
      rcases spelled with spelled | ⟨_, spelled⟩
      · exact spelled.found.1 c member
      · exact spelled.found.1 c member
    rw [odd.1, odd.2] at plain
    exact (plain.elim Bool.false_ne_true Bool.false_ne_true).elim
  · rename_i foreign
    have plain : ∀ c ∈ text, isPciSeparator c = true ∨ isDigitOf 16 c = true := by
      intro c member
      by_contra odd
      refine foreign (List.any_eq_true.mpr ⟨c, member, ?_⟩)
      simpa using odd
    have spelled (numbers : List Nat)
        : SpellsNumbers text numbers
          ↔ (text.splitOnP isPciSeparator).mapM hexInt = some numbers :=
      spellsNumbers_iff.trans (and_iff_right plain)
    rw [RequestPciAddress.SpelledBy, spelled, spelled]
    split
    · rename_i dom b dev f found
      rw [found, made, makePciAddress_eq_ok]
      simp
    · rename_i b dev f found
      rw [found]
      refine (made _).trans ?_
      have domain : (0 : Int) = (0 : Nat) := rfl
      rw [domain, makePciAddress_eq_ok]
      simp [← UInt32.toNat_inj, eq_comm]
    · rename_i four three
      refine ⟨nofun, fun found => ?_⟩
      rcases found with found | ⟨_, found⟩
      · exact absurd found (four _ _ _ _)
      · exact absurd found (three _ _ _)

end Texts

-----------------------------------------------------------------------------------------
-- What the daemon prints
-----------------------------------------------------------------------------------------

section Printed

variable {digits rest text : List Char} {numbers : List Nat} {separator : Char}

/-- What is said of a number that goes before a text. -/
theorem spellsNumbers_part (hex : ∀ c ∈ digits, isDigitOf 16 c = true)
    (between : isPciSeparator separator = true)
    : SpellsNumbers (digits ++ separator :: rest) numbers
      ↔ digits ≠ [] ∧ ∃ more, SpellsNumbers rest more ∧ numbers = number 16 digits :: more := by
  constructor
  · intro spelled
    have found := spelled.found
    rw [splitOnP_part hex between, List.mapM_cons] at found
    simp only [Option.bind_eq_bind, Option.bind_eq_some_iff, Option.pure_def,
      Option.some.injEq] at found
    obtain ⟨plain, n, one, more, later, rfl⟩ := found
    obtain ⟨some, rfl⟩ := hexInt_eq_some.mp one
    refine ⟨some, more, spellsNumbers_of_found (fun c member => ?_) later, rfl⟩
    exact plain c (List.mem_append_right _ (List.mem_cons_of_mem _ member))
  · rintro ⟨some, more, spelled, rfl⟩
    exact .part some hex between spelled

theorem spellsNumbers_last (hex : ∀ c ∈ digits, isDigitOf 16 c = true)
    : SpellsNumbers digits numbers ↔ digits ≠ [] ∧ numbers = [number 16 digits] := by
  constructor
  · intro spelled
    have found := spelled.found.2
    rw [splitOnP_digits hex, List.mapM_cons] at found
    simp only [List.mapM_nil, Option.bind_eq_bind, Option.bind_eq_some_iff, Option.pure_def,
      Option.some.injEq] at found
    obtain ⟨n, one, _, rfl, rfl⟩ := found
    obtain ⟨some, rfl⟩ := hexInt_eq_some.mp one
    exact ⟨some, rfl⟩
  · rintro ⟨some, rfl⟩
    exact .last some hex

theorem isDigitOf_hexText {upper : Bool} {width n : Nat}
    : ∀ c ∈ hexText upper width n, isDigitOf 16 c = true := by
  intro c member
  obtain ⟨digit, small, rfl⟩ := mem_hexText member
  rw [isDigitOf, digitValue_hexDigit small, Option.any_some, decide_eq_true_eq]
  exact small

/-- The full text of an address spells it. -/
theorem spelledBy_pciAddressToStr (address : RequestPciAddress)
    : address.SpelledBy (pciAddressToStr address) := by
  have part {width n : Nat} {separator : Char} {rest : List Char} {numbers : List Nat}
      (some : 0 < width) (between : isPciSeparator separator = true)
      (more : SpellsNumbers rest numbers)
      : SpellsNumbers (hexText true width n ++ separator :: rest) (n :: numbers) := by
    have spelled := SpellsNumbers.part (hexText_ne_nil true n some) isDigitOf_hexText between more
    rwa [number_hexText] at spelled
  refine Or.inl (part (by decide) rfl (part (by decide) rfl (part (by decide) rfl ?_)))
  have spelled := SpellsNumbers.last (hexText_ne_nil true address.function.toNat Nat.one_pos)
    isDigitOf_hexText
  rwa [number_hexText] at spelled

/-- A number of which digits are missing at the end is another number. -/
theorem number_take_hexText {width n count : Nat} (cut : count < (hexText true width n).length)
    (same : number 16 ((hexText true width n).take count) = n)
    : n = 0 := by
  by_contra some
  have whole := number_append 16 ((hexText true width n).take count)
    ((hexText true width n).drop count)
  rw [List.take_append_drop, number_hexText, same, List.length_drop] at whole
  have grows : 16 ≤ 16 ^ ((hexText true width n).length - count) :=
    Nat.le_self_pow (by omega) 16
  have larger := Nat.mul_le_mul_right n grows
  omega

theorem take_part {count : Nat} (inside : digits.length < count)
    : (digits ++ separator :: rest).take count
      = digits ++ separator :: rest.take (count - digits.length - 1) := by
  rw [List.take_append, List.take_of_length_le inside.le]
  obtain ⟨more, positive⟩ : ∃ more, count - digits.length = more + 1 :=
    ⟨count - digits.length - 1, by omega⟩
  rw [positive, List.take_succ_cons]
  rfl

/-- After its domain and its bus, an address goes on with the slot and the function, unless all
before the function is zero.
-/
theorem RequestPciAddress.SpelledBy.goes_on {address : RequestPciAddress} {rest : List Char}
    (h : address.SpelledBy (hexText true 4 address.domain.toNat
      ++ ':' :: (hexText true 2 address.bus.toNat ++ ':' :: rest)))
    : ∃ numbers,
        SpellsNumbers rest numbers
        ∧ (numbers = [address.slot.toNat, address.function.toNat]
          ∨ address.domain.toNat = 0 ∧ address.bus.toNat = 0 ∧ address.slot.toNat = 0
            ∧ numbers = [address.function.toNat]) := by
  simp only [RequestPciAddress.SpelledBy,
    spellsNumbers_part isDigitOf_hexText (rfl : isPciSeparator ':' = true), number_hexText] at h
  rcases h with ⟨_, _, ⟨_, numbers, spelled, rfl⟩, four⟩
    | ⟨zero, _, _, ⟨_, numbers, spelled, rfl⟩, three⟩
  · refine ⟨numbers, spelled, Or.inl ?_⟩
    simp only [List.cons.injEq, true_and] at four
    exact four.symm
  · refine ⟨numbers, spelled, Or.inr ?_⟩
    simp only [List.cons.injEq] at three
    obtain ⟨bus, slot, last⟩ := three
    have domain : address.domain.toNat = 0 := congrArg UInt32.toNat zero
    exact ⟨domain, bus.trans domain, slot.trans (bus.trans domain), last.symm⟩

/-- An address is still spelled by the name that the daemon keeps for it if and only if the name
is the full text.
-/
theorem spelledBy_storedDbdf_iff (address : RequestPciAddress)
    : address.SpelledBy (storedDbdf (pciAddressToStr address))
      ↔ (pciAddressToStr address).length ≤ 19 := by
  constructor
  · intro spelled
    by_contra long
    have size (width : Nat) (n : UInt32)
        : (hexText true width n.toNat).length ≤ max width 8 := by
      have short : (Nat.digits 16 n.toNat).length ≤ 8 :=
        (Nat.digits_length_le_iff (by decide) _).mpr n.toNat_lt
      rw [hexText_length]
      omega
    have domain := size 4 address.domain
    have bus := size 2 address.bus
    have function := size 1 address.function
    simp only [pciAddressToStr, dbdfText, List.length_append, List.length_cons] at long
    rw [storedDbdf, pciAddressToStr, dbdfText, take_part (by omega), take_part (by omega)]
      at spelled
    obtain ⟨numbers, spelled, which⟩ := spelled.goes_on
    obtain ⟨left, same⟩ : ∃ left, left = 19 - (hexText true 4 address.domain.toNat).length - 1
      - (hexText true 2 address.bus.toNat).length - 1 := ⟨_, rfl⟩
    rw [← same] at spelled
    rcases le_or_gt left (hexText true 2 address.slot.toNat).length with inSlot | inFunction
    · -- no function is left, and the slot would have to be taken for it
      rw [List.take_append_of_le_length inSlot] at spelled
      obtain ⟨_, one⟩ := (spellsNumbers_last fun c member =>
        isDigitOf_hexText c (List.mem_of_mem_take member)).mp spelled
      rcases which with two | ⟨domain, bus, slot, _⟩
      · rw [two] at one
        simp at one
      · rw [domain, bus, slot] at long
        simp only [hexText_length, Nat.digits_zero, List.length_nil] at long function
        omega
    · -- the function has lost digits
      rw [take_part inFunction] at spelled
      obtain ⟨_, _, last, two⟩ := (spellsNumbers_part isDigitOf_hexText rfl).mp spelled
      obtain ⟨some, rfl⟩ := (spellsNumbers_last fun c member =>
        isDigitOf_hexText c (List.mem_of_mem_take member)).mp last
      rcases which with rfl | ⟨_, _, _, rfl⟩
      · simp only [number_hexText, List.cons.injEq, true_and, and_true] at two
        have cut : left - (hexText true 2 address.slot.toNat).length - 1
            < (hexText true 1 address.function.toNat).length := by omega
        have zero := number_take_hexText cut two.symm
        have one : (hexText true 1 address.function.toNat).length = 1 :=
          hexText_length_of_lt true (by omega)
        rw [one, Nat.lt_one_iff] at cut
        exact some (by rw [cut, List.take_zero])
      · simp at two
  · intro short
    rw [storedDbdf, List.take_of_length_le short]
    exact spelledBy_pciAddressToStr address

end Printed

-----------------------------------------------------------------------------------------
-- The answer to a query
-----------------------------------------------------------------------------------------

section Answers

variable {settings : Settings} {conf : SocketConf} {admits : SockInstr → Int → Daemon → Prop}
  {daemon : Daemon} {m : Nat → Option (List Char)} {id : Nat} {path dbdf : List Char}

/-- The relay has a device of this name. -/
def Relay.Named (relay : Relay) (dbdf : List Char) : Prop :=
  relay.Active ∧ relay.dpdk.pciDbdf = dbdf

theorem tending_named (dbdf : List Char) : Tending fun relay => relay.Named dbdf :=
  tending_active.and (tending_pciDbdf (· = dbdf))

theorem addPairDevice_names {name : Option (List Char)} {conditional : Bool}
    (h : daemon.relayIfnameMap = m ∧ daemon.world.Tidy)
    : wp sockAccesses (sockContract admits)
        (addPairDevice settings [dbdf] name conditional id)
        (fun err d => (d.relayIfnameMap = m ∧ d.world.Tidy)
          ∧ (err = 0 → (d.world.relays id).Named (storedDbdf dbdf))) daemon := by
  refine wp.bind ((wp_onRelay_tidy (fun err relay => err = 0 → relay.Named (storedDbdf dbdf)) h
    (addVf2_tidy (h.2 id))).mono fun err d outcome => ?_)
  split
  · exact ⟨outcome.1, fun ok => absurd ok (by decide)⟩
  · rename_i ok
    exact ⟨outcome.1, fun _ => outcome.2 (not_not.mp ok)⟩

/-- A pair with a single VF that was added is in the tables, with the name of the VF. -/
theorem virtioAddSockDevPair_names {name : Option (List Char)} {conditional : Bool}
    (h : daemon.relayIfnameMap = m ∧ daemon.world.Tidy)
    : wp sockAccesses (sockContract admits)
        (virtioAddSockDevPair settings conf (some path) [dbdf] name conditional)
        (fun err d => err = 0 → ∃ id,
          relayOf settings d.relayIfnameMap path = some id
          ∧ (d.world.relays id).Named (storedDbdf dbdf)) daemon := by
  have fails {d : Daemon} {err : Int} (failed : err ≠ 0)
      : err = 0 → ∃ id,
          relayOf settings d.relayIfnameMap path = some id
          ∧ (d.world.relays id).Named (storedDbdf dbdf) :=
    fun ok => absurd ok failed
  refine wp.bind (portByName_tends.mono fun port d tended => ?_)
  have h := kept_map tending_world_tidy m tended h
  split
  · exact fails (by decide)
  · refine wp.bind ((getRelayForSock_finds tending_world_tidy h).mono fun found d outcome => ?_)
    obtain ⟨h, rfl⟩ := outcome
    split
    · exact fails (by decide)
    · rename_i fresh
      rw [Option.not_isSome_iff_eq_none] at fresh
      refine wp.bind ((virtioGetFreeRelayId_free tending_world_tidy h).mono
        fun found d outcome => ?_)
      obtain ⟨h, free⟩ := outcome
      cases found with
      | none => exact fails (by decide)
      | some id =>
          obtain ⟨below, _, free⟩ := free id rfl
          refine wp.bind ((addPairDevice_names h).mono fun err d outcome => ?_)
          obtain ⟨h, named⟩ := outcome
          split
          · rename_i failed
            exact fails failed
          · rename_i ok
            have named := named (not_not.mp ok)
            have here : TendingWorld fun world =>
                world.Tidy ∧ (world.relays id).Named (storedDbdf dbdf) :=
              fun _ _ tended held => ⟨tending_world_tidy tended held.1,
                tending_named _ (tended id) held.2⟩
            refine wp.bind ((registerRelaySocket_registers here ⟨h.1, h.2, named⟩ free).mono
              fun err d outcome => ?_)
            obtain ⟨⟨tidy, named⟩, registered⟩ := outcome
            split
            · rename_i ok
              rcases registered with ⟨_, map⟩ | ⟨failed, _⟩
              · exact fun _ => ⟨id, map ▸ relayOf_update below fresh, named⟩
              · exact absurd ok failed
            · refine wp.bind ((wp_onRelay_tidy_only ⟨rfl, tidy⟩
                (removeVf2_tidy (tidy id))).mono fun _ d h => ?_)
              exact wp.bind ((deregisterSocket_frees tending_world_tidy h).mono
                fun _ d outcome => fails (by decide))

/-- A query tells the name of the device of the relay with the path. -/
theorem virtioQueryPci_tells (found : relayOf settings m path = some id)
    (map : daemon.relayIfnameMap = m) (named : (daemon.world.relays id).Named dbdf)
    : wp sockAccesses (sockContract admits) (virtioQueryPci settings (some path))
        (fun result _ => result = (0, some dbdf)) daemon := by
  have here : TendingWorld fun world => (world.relays id).Named dbdf :=
    fun _ _ tended held => tending_named dbdf (tended id) held
  refine wp.bind ((getRelayForSock_finds here ⟨map, named⟩).mono fun result d outcome => ?_)
  obtain ⟨⟨_, named⟩, same⟩ := outcome
  rw [same, found]
  have seen : wp (accesses id) (soloContract (fun i answer _ =>
      ∃ d, admits (.control id i) answer d) fun _ => True) (look id .device)
      (fun relay _ => relay.dpdk.pciDbdf = dbdf) d.world :=
    wp_look (fun _ => trivial) (tending_named dbdf).stable named fun _ _ held => held.2
  exact wp.bind ((wp_onRelay_admitted seen).mono fun relay _ outcome => by rw [outcome.1]; rfl)

theorem handlePortControlRequest_names {pc : PortControlRequest} {address : RequestPciAddress}
    (op : pc.op = .addSock) (socket : pc.vhostString = some path) (single : pc.pciAddrs = [address])
    (tidy : daemon.world.Tidy)
    : wp sockAccesses (sockContract admits) (handlePortControlRequest settings conf pc)
        (fun response d => response.status = .ok → ∃ id,
          relayOf settings d.relayIfnameMap path = some id
          ∧ (d.world.relays id).Named (storedDbdf (pciAddressToStr address))) daemon := by
  unfold handlePortControlRequest
  split
  · exact nofun
  · split
    · trivial
    · have addresses : pc.dbdfAddrs = [pciAddressToStr address] := by
        rw [PortControlRequest.dbdfAddrs, single, List.map_singleton]
      simp only [op, portControlHandleAddSocket, socket, addresses]
      refine wp.bind ((virtioAddSockDevPair_names ⟨rfl, tidy⟩).mono fun err d named ok => ?_)
      exact named ((setErrorCode_ok rfl).mp ok)

theorem handlePortControlRequest_tells {pc : PortControlRequest} (op : pc.op = .queryPci)
    (socket : pc.vhostString = some path) (plain : pc.pciAddrs = [])
    (found : relayOf settings daemon.relayIfnameMap path = some id)
    (named : (daemon.world.relays id).Named dbdf)
    : wp sockAccesses (sockContract admits) (handlePortControlRequest settings conf pc)
        (fun response _ => response.status = .ok ∧ response.queryString = some dbdf) daemon := by
  obtain ⟨bytes, given, _⟩ := Option.map_eq_some_iff.mp socket
  have valid : validatePortControlRequest pc = true := by
    simp [validatePortControlRequest, op, given, plain]
  have room : ¬ pc.pciAddrs.length > maxNumBondSlaves := by
    rw [plain]
    exact Nat.not_lt_zero _
  simp only [handlePortControlRequest, valid, Bool.not_true, Bool.false_eq_true, if_false, room,
    op, portControlHandleQueryPci, socket]
  exact wp.bind ((virtioQueryPci_tells found rfl named).mono fun result d same => by
    rw [same]
    exact ⟨rfl, rfl⟩)

end Answers

/-- What the client takes over into its request. -/
theorem PortControlArgs.request_eq_ok {args : PortControlArgs} {pc : PortControlRequest}
    (h : args.request = .ok pc)
    : pc.op = args.op ∧ pc.vhostPath = args.vhostPath
      ∧ args.pciAddr.mapM requestedAddress = .ok pc.pciAddrs := by
  unfold PortControlArgs.request at h
  cases virtio : args.virtioId.mapM uint32Field with
  | error fault =>
      rw [virtio] at h
      cases h
  | ok virtioId =>
      cases addresses : args.pciAddr.mapM requestedAddress with
      | error fault =>
          rw [virtio, addresses] at h
          cases h
      | ok pciAddrs =>
          rw [virtio, addresses] at h
          cases h
          exact ⟨rfl, rfl, rfl⟩

theorem requestedAddress_single {text : List Char} {addresses : List RequestPciAddress}
    (h : [text].mapM requestedAddress = .ok addresses)
    : ∃ address, addresses = [address] ∧ parsePciAddr text = .ok (some address) := by
  rw [List.mapM_cons] at h
  unfold requestedAddress at h
  cases parsed : parsePciAddr text with
  | error fault =>
      rw [parsed] at h
      cases h
  | ok found =>
      rw [parsed] at h
      cases found with
      | none => cases h
      | some address =>
          cases h
          exact ⟨address, rfl, rfl⟩

/-- **PCI addresses across the service**: in every state that requests and other operations can
lead to, if the client adds a single VF with a socket and then asks for the VF of the socket, the
client accepts the answer for the address it has added if and only if the address has at most 19
characters. A text is accepted for an address if and only if it spells the address.
-/
theorem queried_vf_reads_back_iff {settings : Settings} {conf : SocketConf}
    (configured : settings.CpusConfigured) {parts : Option SocketNameParts} {useJumbo : Bool}
    {initialized : Nat → Bool} {rest : DaemonConfig}
    (history : Run (daemonSystem settings conf) anyRequests
      (freshDaemon settings parts useJumbo initialized) rest)
    {op : DaemonOp} {last : PortControlResponse} (idle : rest.running () = (op, .ret last))
    {add query : PortControlArgs} {path text : List Char}
    (adds : add.op = .addSock ∧ add.vhostPath = some path ∧ add.pciAddr = [text])
    (asks : query.op = .queryPci ∧ query.vhostPath = some path ∧ query.pciAddr = [])
    {addRequest queryRequest : PortControlRequest} (added : add.request = .ok addRequest)
    (asked : query.request = .ok queryRequest) {first second : DaemonConfig}
    {response answer : PortControlResponse}
    (run : Run (daemonSystem settings conf) oneRequest
      (handled settings conf rest.state addRequest) first)
    (returned : first.running () = (.request addRequest, .ret response))
    (ok : response.status = .ok)
    (rerun : Run (daemonSystem settings conf) oneRequest
      (handled settings conf first.state queryRequest) second)
    (answered : second.running () = (.request queryRequest, .ret answer))
    : (∀ spelling address,
          parsePciAddr spelling = .ok (some address) ↔ address.SpelledBy spelling)
      ∧ ∃ address printed,
          address.SpelledBy text ∧ parsePciAddr text = .ok (some address)
          ∧ answer.status = .ok ∧ answer.queryString = some printed
          ∧ (parsePciAddr printed = .ok (some address)
            ↔ (pciAddressToStr address).length ≤ 19) := by
  obtain ⟨addOp, addPath, addresses⟩ := add.request_eq_ok added
  obtain ⟨queryOp, queryPath, none⟩ := query.request_eq_ok asked
  rw [adds.2.2] at addresses
  obtain ⟨address, single, parsed⟩ := requestedAddress_single addresses
  rw [asks.2.2] at none
  have plain : queryRequest.pciAddrs = [] := (Except.ok.inj none).symm
  have sane := sane_of_requests configured history idle
  have addString : addRequest.vhostString = some (cString path) :=
    congrArg (Option.map cString) (addPath.trans adds.2.1)
  have queryString : queryRequest.vhostString = some (cString path) :=
    congrArg (Option.map cString) (queryPath.trans asks.2.1)
  obtain ⟨id, found, named⟩ := response_of_wp
    (handlePortControlRequest_names (addOp.trans adds.1) addString single sane.1)
    (fun response before after tended held ok => by
      obtain ⟨id, found, named⟩ := held ok
      exact ⟨id, tended.map ▸ found, tending_named _ (tended.relays id) named⟩)
    run returned ok
  obtain ⟨answered, told⟩ := response_of_wp
    (handlePortControlRequest_tells (queryOp.trans asks.1) queryString plain found named)
    (fun _ _ _ _ held => held) rerun answered
  have spelled := (parsePciAddr_accepts_iff text address).mp parsed
  refine ⟨parsePciAddr_accepts_iff, address, _, spelled, parsed, answered, told, ?_⟩
  rw [parsePciAddr_accepts_iff, spelledBy_storedDbdf_iff]

/-- The arguments for a socket with one VF. -/
def socketArgs (op : PortControlOp) (pciAddr : List (List Char)) : PortControlArgs :=
  ⟨op, some "/tmp/virtio-forwarder0.sock".toList, none, pciAddr, none, true⟩

/-- What `socketArgs` ask for. -/
def socketRequest (op : PortControlOp) (pciAddrs : List RequestPciAddress)
    : PortControlRequest :=
  ⟨op, pciAddrs, none, some true, none, some "/tmp/virtio-forwarder0.sock".toList⟩

/-- Witness: a VF is added to the initial state with its domain left out. -/
theorem added_vf_reads_back
    : ∃ (first second : DaemonConfig) (answer : PortControlResponse),
        Run (daemonSystem twoWorkers ⟨false, false⟩) oneRequest
          (handled twoWorkers ⟨false, false⟩ (freshDaemon twoWorkers none false fun _ => true).state
            (socketRequest .addSock [⟨0, 5, 8, 0⟩])) first
        ∧ first.running ()
          = (.request (socketRequest .addSock [⟨0, 5, 8, 0⟩]), .ret ⟨.ok, none, none, none⟩)
        ∧ (first.state.world.relays 0).Active
        ∧ Run (daemonSystem twoWorkers ⟨false, false⟩) oneRequest
          (handled twoWorkers ⟨false, false⟩ first.state (socketRequest .queryPci [])) second
        ∧ second.running () = (.request (socketRequest .queryPci []), .ret answer)
        ∧ (∀ spelling address,
            parsePciAddr spelling = .ok (some address) ↔ address.SpelledBy spelling)
        ∧ ∃ address printed,
            address.SpelledBy "05:08.0".toList
            ∧ parsePciAddr "05:08.0".toList = .ok (some address)
            ∧ answer.status = .ok ∧ answer.queryString = some printed
            ∧ (parsePciAddr printed = .ok (some address)
              ↔ (pciAddressToStr address).length ≤ 19) := by
  let add := socketArgs .addSock ["05:08.0".toList]
  let query := socketArgs .queryPci []
  let addRequest := socketRequest .addSock [⟨0, 5, 8, 0⟩]
  let queryRequest := socketRequest .queryPci []
  let answer : PortControlResponse := ⟨.ok, none, none, some "0000:05:08.0".toList⟩
  let system := daemonSystem twoWorkers ⟨false, false⟩
  obtain ⟨first, run, reached⟩ := Run.of_follow system oneRequest
    (handled twoWorkers ⟨false, false⟩ (freshDaemon twoWorkers none false fun _ => true).state
      addRequest)
    (answered () ([-1] ++ List.replicate 10 0 ++ [1] ++ List.replicate 21 0 ++ [-1, 0, 0, 0, 0]))
    (fun c => (c.running ()).1 = .request addRequest
      && (c.running ()).2.value? = some ⟨.ok, none, none, none⟩
      && (c.state.world.relays 0).Active
      && (system.follow oneRequest (handled twoWorkers ⟨false, false⟩ c.state queryRequest)
        (answered () [0, 0])).any fun d =>
          (d.running ()).1 = .request queryRequest && (d.running ()).2.value? = some answer)
    (by decide +kernel)
  simp only [Bool.and_eq_true, decide_eq_true_eq] at reached
  obtain ⟨⟨⟨request, returned⟩, active⟩, rest⟩ := reached
  obtain ⟨second, rerun, told⟩ := Run.of_follow system oneRequest _ _ _ rest
  simp only [Bool.and_eq_true, decide_eq_true_eq] at told
  have added : first.running () = (.request addRequest, .ret ⟨.ok, none, none, none⟩) :=
    Prod.ext request (Prog.eq_ret_of_value? returned)
  have queried : second.running () = (.request queryRequest, .ret answer) :=
    Prod.ext told.1 (Prog.eq_ret_of_value? told.2)
  refine ⟨first, second, answer, run, added, active, rerun, queried, ?_⟩
  exact queried_vf_reads_back_iff (fun _ => Or.inl rfl)
    (.start : Run system anyRequests (freshDaemon twoWorkers none false fun _ => true) _) rfl
    (⟨rfl, rfl, rfl⟩ : add.op = .addSock ∧ _) (⟨rfl, rfl, rfl⟩ : query.op = .queryPci ∧ _)
    (by rfl : add.request = .ok addRequest) (by rfl : query.request = .ok queryRequest) run
    added rfl rerun queried

end VirtioForwarder
