import VirtioForwarder.Inputs.CommandLine

/-! The texts of a PCI address that the ways to add a VF produce. `pci_dbdf_equal` compares
texts, so it recognises an address under all of them only if these texts are the same.
-/

namespace VirtioForwarder

open CText

/-- A PCI address. -/
structure PciAddress where
  domain : Fin (2 ^ 32)
  bus : Fin 256
  slot : Fin 32
  function : Fin 8
  deriving DecidableEq, Repr

/-- `PortControlRequest.PciAddress`. -/
structure RequestPciAddress where
  domain : UInt32
  bus : UInt32
  slot : UInt32
  function : UInt32
  deriving DecidableEq, Repr

/-- A number for each part of an address, printed with four, two, two and one digits at least. -/
def dbdfText (upper : Bool) (domain bus slot function : Nat) : List Char :=
  hexText upper 4 domain ++ ':' :: (hexText upper 2 bus ++ ':' :: (hexText upper 2 slot
    ++ '.' :: hexText upper 1 function))

/-- `Virtioforwarder__PortControlRequest__PciAddress__to_str` into `RTE_ETH_NAME_MAX_LEN`
bytes, which are always enough.
-/
def pciAddressToStr (address : RequestPciAddress) : List Char :=
  dbdfText true address.domain.toNat address.bus.toNat address.slot.toNat address.function.toNat

/-- The usual text of the address, as it stands in sysfs in lower case. -/
def PciAddress.text (address : PciAddress) (upper : Bool) : List Char :=
  dbdfText upper address.domain address.bus address.slot address.function

/-- The address in a request. -/
def PciAddress.request (address : PciAddress) : RequestPciAddress :=
  ⟨.ofNat address.domain, .ofNat address.bus, .ofNat address.slot, .ofNat address.function⟩

/-- `struct sriov_info`. -/
structure SriovInfo where
  dbdf : List Char
  vf : Nat
  deriving DecidableEq, Repr

/-- `VF%hhu.%hhu`; the value is the second number. -/
def scanVfNumber : List Char → Option Nat
  | 'V' :: 'F' :: rest => do
      let (_, rest) ← scanUnsigned 8 rest
      let ('.' :: rest) := rest | none
      let (vf, _) ← scanUnsigned 8 rest
      return vf
  | _ => none

/-- What `ethtool` prints for a netdev, and what stands in the array that it is read into, and in
the memory behind the array, before.
-/
structure EthtoolRead where
  output : List Char
  memory : List Char

/-- The string in the array, which goes on in what stood there before. -/
def EthtoolRead.buf (read : EthtoolRead) : List Char :=
  cString (overwrite read.memory (read.output.take 2048))

/-- `get_VF_PCIE_from_netdev`. -/
def getVfPcieFromNetdev (read : EthtoolRead) : Option SriovInfo :=
  if read.output = [] then none
  else do
    let bus ← afterFirst "bus-info: NFP 0 ".toList read.buf
    let (vf, rest) ← scanWord 8 bus
    let (dbdf, _) ← scanWord 20 rest
    let vf ← scanVfNumber vf
    return ⟨dbdf.take 19, vf⟩

/-- The output of `ethtool` for a representor of the VF: the first line with the bus has its
number and its address.
-/
def PciAddress.PrintedIn (address : PciAddress) (output : List Char) : Prop :=
  ∃ vf rest,
    afterFirst "bus-info: NFP 0 ".toList (cString (output.take 2048))
      = some (vf ++ ' ' :: (address.text false ++ '\n' :: rest))
    ∧ vf ≠ [] ∧ vf.length ≤ 8 ∧ ∀ c ∈ vf, isSpace c = false

/-- The texts for an address: given on the command line in either case, taken over from
`ethtool`, or made from a request.
-/
inductive PciAddress.ProducedAs (address : PciAddress) : List Char → Prop
  | commandLine {settings : Settings} {deviceExists : List Char → Bool}
    {entries : List StaticRelayEntry} {entry : StaticRelayEntry} (upper : Bool)
    {virtio : List Char}
    (accepted : cmdlineAddStaticVf settings deviceExists entries
      (address.text upper ++ '=' :: virtio) = .ok (entries ++ [entry]))
    : address.ProducedAs entry.pciDbdf
  | ethtool {read : EthtoolRead} {info : SriovInfo} (printed : address.PrintedIn read.output)
    (found : getVfPcieFromNetdev read = some info)
    : address.ProducedAs info.dbdf
  | portControl : address.ProducedAs (pciAddressToStr address.request)

/-- Whatever way the address was added, it is equal to what any way produces. -/
def PciAddress.Recognised (address : PciAddress) : Prop :=
  ∀ added text,
    address.ProducedAs added → address.ProducedAs text
    → pciDbdfEqual (storedDbdf added) text = true

/-- No part of the address has a hexadecimal digit that is a letter. -/
def PciAddress.LetterFree (address : PciAddress) : Prop :=
  ∀ part ∈ [address.domain.val, address.bus.val, address.slot.val, address.function.val],
    ∀ digit ∈ Nat.digits 16 part, digit < 10

-----------------------------------------------------------------------------------------
-- Every way produces the text of the address
-----------------------------------------------------------------------------------------

theorem mem_dbdfText {upper : Bool} {domain bus slot function : Nat} {c : Char}
    (h : c ∈ dbdfText upper domain bus slot function)
    : c = ':' ∨ c = '.' ∨ ∃ digit < 16, c = hexDigit upper digit := by
  simp only [dbdfText, List.mem_append, List.mem_cons] at h
  rcases h with part | rfl | part | rfl | part | rfl | part
  · exact Or.inr (Or.inr (mem_hexText part))
  · exact Or.inl rfl
  · exact Or.inr (Or.inr (mem_hexText part))
  · exact Or.inl rfl
  · exact Or.inr (Or.inr (mem_hexText part))
  · exact Or.inr (Or.inl rfl)
  · exact Or.inr (Or.inr (mem_hexText part))

theorem zero_not_mem_dbdfText {upper : Bool} {domain bus slot function : Nat}
    : '\x00' ∉ dbdfText upper domain bus slot function := by
  intro member
  have digits : ∀ upper, ∀ digit < 16, '\x00' ≠ hexDigit upper digit := by decide
  rcases mem_dbdfText member with colon | dot | ⟨digit, small, same⟩
  · cases colon
  · cases dot
  · exact digits upper digit small same

/-- The text has neither white space nor an equals sign. -/
theorem PciAddress.text_plain {address : PciAddress} {upper : Bool} {c : Char}
    (h : c ∈ address.text upper)
    : isSpace c = false ∧ c ≠ '=' := by
  have digits : ∀ upper, ∀ digit < 16,
      isSpace (hexDigit upper digit) = false ∧ hexDigit upper digit ≠ '=' := by decide
  rcases mem_dbdfText h with rfl | rfl | ⟨digit, small, rfl⟩
  · decide
  · decide
  · exact digits upper digit small

/-- The text is short enough for every field that it passes through. -/
theorem PciAddress.text_length (address : PciAddress) (upper : Bool)
    : 0 < (address.text upper).length ∧ (address.text upper).length ≤ 16 := by
  have domain : (Nat.digits 16 address.domain).length ≤ 8 :=
    (Nat.digits_length_le_iff (by decide) _).mpr (by omega)
  have bus : (hexText upper 2 address.bus).length = 2 :=
    hexText_length_of_lt upper (by omega)
  have slot : (hexText upper 2 address.slot).length = 2 :=
    hexText_length_of_lt upper (by omega)
  have function : (hexText upper 1 address.function).length = 1 :=
    hexText_length_of_lt upper (by omega)
  simp only [PciAddress.text, dbdfText, List.length_append, List.length_cons, hexText_length,
    bus, slot, function] at *
  omega

theorem PciAddress.scanWord_text (address : PciAddress) (upper : Bool) {rest : List Char}
    (ends : ∀ c ∈ rest.head?, isSpace c = true)
    : scanWord 20 (address.text upper ++ rest) = some (address.text upper, rest) := by
  have length := address.text_length upper
  refine scanWord_of_word ?_ (by omega) (fun c member => (text_plain member).1) ends
  exact List.ne_nil_of_length_pos length.1

theorem commandLine_text {settings : Settings} {deviceExists : List Char → Bool}
    {entries : List StaticRelayEntry} {entry : StaticRelayEntry} {address : PciAddress}
    {upper : Bool} {virtio : List Char}
    (accepted : cmdlineAddStaticVf settings deviceExists entries
      (address.text upper ++ '=' :: virtio) = .ok (entries ++ [entry]))
    : entry.pciDbdf = address.text upper := by
  have cut : cutAt '=' (address.text upper ++ '=' :: virtio) = some (address.text upper, virtio) :=
    cutAt_append virtio fun member => (PciAddress.text_plain member).2 rfl
  have word : scanWord 20 (address.text upper) = some (address.text upper, []) := by
    simpa using @PciAddress.scanWord_text address upper [] nofun
  have short := address.text_length upper
  obtain ⟨_, _, _, _, number, _, _, cut', word', _, _, same⟩ := cmdlineAddStaticVf_accepts accepted
  obtain ⟨rfl, rfl⟩ := Prod.mk.inj (Option.some.inj (cut.symm.trans cut'))
  obtain ⟨rfl, rfl⟩ := Prod.mk.inj (Option.some.inj (word.symm.trans word'))
  have last := List.singleton_inj.mp (List.append_cancel_left same)
  rw [last, entryDbdf, if_pos (by omega)]

/-- What was printed stands at the beginning of the string in the array. -/
theorem EthtoolRead.buf_eq (read : EthtoolRead)
    : ∃ more, read.buf = cString (read.output.take 2048) ++ more := by
  by_cases zero : '\x00' ∈ read.output.take 2048
  · obtain ⟨before, rest, split, plain⟩ := List.eq_append_cons_of_mem zero
    refine ⟨[], ?_⟩
    rw [EthtoolRead.buf, overwrite, split, List.append_assoc, List.cons_append,
      cString_append _ plain, cString_append _ plain, List.append_nil]
  · exact ⟨_, by rw [EthtoolRead.buf, overwrite, cString_append_left _ zero, cString_eq_self zero]⟩

/-- What is read from the line of `ethtool` with the bus. -/
theorem getVfPcieFromNetdev_scans {read : EthtoolRead} {vf rest : List Char} {address : PciAddress}
    (bus : afterFirst "bus-info: NFP 0 ".toList (cString (read.output.take 2048))
      = some (vf ++ ' ' :: (address.text false ++ '\n' :: rest)))
    (nonempty : vf ≠ []) (fits : vf.length ≤ 8) (plain : ∀ c ∈ vf, isSpace c = false)
    : getVfPcieFromNetdev read
      = (scanVfNumber vf).map fun number => ⟨address.text false, number⟩ := by
  have printed : read.output ≠ [] := by
    rintro empty
    rw [empty] at bus
    cases bus
  obtain ⟨more, buf⟩ := read.buf_eq
  have bus := afterFirst_append_right more bus
  simp only [List.append_assoc, List.cons_append] at bus
  rw [← buf] at bus
  generalize rest ++ more = rest at bus
  have first : scanWord 8 (vf ++ ' ' :: (address.text false ++ '\n' :: rest))
      = some (vf, ' ' :: (address.text false ++ '\n' :: rest)) := by
    refine scanWord_of_word nonempty fits plain fun c head => ?_
    cases head
    rfl
  have second : scanWord 20 (' ' :: (address.text false ++ '\n' :: rest))
      = some (address.text false, '\n' :: rest) := by
    have skipped : scanWord 20 (' ' :: (address.text false ++ '\n' :: rest))
        = scanWord 20 (address.text false ++ '\n' :: rest) := rfl
    rw [skipped]
    refine address.scanWord_text false fun c head => ?_
    cases head
    rfl
  have whole : (address.text false).take 19 = address.text false :=
    List.take_of_length_le (by have := address.text_length false; omega)
  simp only [getVfPcieFromNetdev, printed, if_false, bus, first, second, whole,
    Option.bind_eq_bind, Option.bind_some]
  cases scanVfNumber vf <;> rfl

/-- The address that is read fits into a relay. -/
theorem getVfPcieFromNetdev_short {read : EthtoolRead} {info : SriovInfo}
    (found : getVfPcieFromNetdev read = some info)
    : info.dbdf.length ≤ 19 := by
  unfold getVfPcieFromNetdev at found
  split at found
  · cases found
  simp only [Option.bind_eq_bind, Option.bind_eq_some_iff] at found
  obtain ⟨_, _, ⟨_, _⟩, _, ⟨dbdf, _⟩, _, _, _, same⟩ := found
  cases Option.some.inj same
  exact List.length_take_le 19 dbdf

theorem ethtool_text {read : EthtoolRead} {info : SriovInfo} {address : PciAddress}
    (printed : address.PrintedIn read.output) (found : getVfPcieFromNetdev read = some info)
    : info.dbdf = address.text false := by
  obtain ⟨vf, rest, bus, nonempty, fits, plain⟩ := printed
  rw [getVfPcieFromNetdev_scans bus nonempty fits plain] at found
  obtain ⟨number, _, rfl⟩ := Option.map_eq_some_iff.mp found
  rfl

theorem pciAddressToStr_request (address : PciAddress)
    : pciAddressToStr address.request = address.text true := by
  have small {n : Nat} (bound : n < 2 ^ 32) : (UInt32.ofNat n).toNat = n := by
    rw [UInt32.toNat_ofNat']
    exact Nat.mod_eq_of_lt bound
  simp only [pciAddressToStr, PciAddress.request, PciAddress.text]
  rw [small address.domain.isLt, small (by omega), small (by omega), small (by omega)]

theorem PciAddress.ProducedAs.text {address : PciAddress} {text : List Char}
    (h : address.ProducedAs text)
    : text = address.text true ∨ text = address.text false := by
  cases h with
  | commandLine upper accepted =>
      rw [commandLine_text accepted]
      cases upper
      · exact Or.inr rfl
      · exact Or.inl rfl
  | ethtool printed found => exact Or.inr (ethtool_text printed found)
  | portControl => exact Or.inl (pciAddressToStr_request address)

/-- `ethtool` can print every address. -/
theorem PciAddress.produced_lower (address : PciAddress)
    : address.ProducedAs (address.text false) := by
  let rest := "VF0.0".toList ++ ' ' :: (address.text false ++ ['\n'])
  have short := address.text_length false
  have zeroless : '\x00' ∉ address.text false := zero_not_mem_dbdfText
  have bus : afterFirst "bus-info: NFP 0 ".toList
      (cString (("bus-info: NFP 0 ".toList ++ rest).take 2048)) = some rest := by
    rw [List.take_of_length_le (by simp [rest]; omega),
      cString_eq_self (by simp [rest, zeroless])]
    exact afterFirst_append rest (by decide)
  have printed : address.PrintedIn ("bus-info: NFP 0 ".toList ++ rest) :=
    ⟨"VF0.0".toList, [], bus, by decide, by decide, by simp [isSpace]⟩
  have found : getVfPcieFromNetdev ⟨"bus-info: NFP 0 ".toList ++ rest, []⟩
      = some ⟨address.text false, 0⟩ :=
    @getVfPcieFromNetdev_scans ⟨_, []⟩ "VF0.0".toList [] address bus (by decide) (by decide)
      (by simp [isSpace])
  exact @ProducedAs.ethtool address ⟨_, []⟩ _ printed found

/-- The two cases give the same text exactly if the address has no letters. -/
theorem PciAddress.text_upper_eq_lower (address : PciAddress)
    : address.text true = address.text false ↔ address.LetterFree := by
  have length (width n : Nat) : (hexText true width n).length = (hexText false width n).length := by
    rw [hexText_length, hexText_length]
  simp only [PciAddress.text, dbdfText, PciAddress.LetterFree, List.forall_mem_cons,
    ← hexText_upper_eq_lower 4 address.domain,
    ← hexText_upper_eq_lower 2 address.bus, ← hexText_upper_eq_lower 2 address.slot,
    ← hexText_upper_eq_lower 1 address.function, List.not_mem_nil, false_imp_iff, implies_true,
    and_true]
  constructor
  · intro same
    obtain ⟨domain, same⟩ := List.append_inj same (length 4 _)
    obtain ⟨bus, same⟩ := List.append_inj (List.cons.inj same).2 (length 2 _)
    obtain ⟨slot, same⟩ := List.append_inj (List.cons.inj same).2 (length 2 _)
    exact ⟨domain, bus, slot, (List.cons.inj same).2⟩
  · rintro ⟨domain, bus, slot, function⟩
    rw [domain, bus, slot, function]

/-- The text of an address is stored whole. -/
theorem PciAddress.ProducedAs.stored {address : PciAddress} {text : List Char}
    (h : address.ProducedAs text)
    : storedDbdf text = text := by
  have upper := address.text_length true
  have lower := address.text_length false
  apply List.take_of_length_le
  rcases h.text with rfl | rfl <;> omega

/-- If an address is recognised, its two texts are the same. -/
theorem PciAddress.Recognised.text {address : PciAddress} (h : address.Recognised)
    : address.text true = address.text false := by
  have upper : address.ProducedAs (address.text true) :=
    pciAddressToStr_request address ▸ .portControl
  have equal := h _ _ upper address.produced_lower
  rw [upper.stored, pciDbdfEqual, decide_eq_true_eq] at equal
  exact equal

/-- An address is recognised whatever way it was added and is named exactly if none of its
hexadecimal digits is a letter.
-/
theorem recognised_iff_letter_free (address : PciAddress)
    : address.Recognised ↔ address.LetterFree := by
  rw [← address.text_upper_eq_lower]
  constructor
  · exact PciAddress.Recognised.text
  · intro same added text first second
    rw [first.stored, pciDbdfEqual, decide_eq_true_eq]
    rcases first.text with rfl | rfl <;> rcases second.text with rfl | rfl
    · rfl
    · exact same
    · exact same.symm
    · rfl

/-- The VF 0000:05:0d.0, added as `ethtool` prints it, is not recognised in a request. -/
theorem pci_address_with_letter_not_recognised
    : ¬ ∀ address : PciAddress, address.Recognised := by
  intro claim
  have plain := (PciAddress.text_upper_eq_lower ⟨0, 5, 13, 0⟩).mp (claim _).text
  exact absurd (plain 13 (by simp) 13 (by simp)) (by decide)

end VirtioForwarder
