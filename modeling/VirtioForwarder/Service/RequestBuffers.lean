import VirtioForwarder.Service.PortControl

/-! The buffers that `zmq_port_control.c` and `virtio_worker.c` format the addresses of a request
into. How many addresses there are is bounded by the size of the message only.
-/

namespace VirtioForwarder

open CText

/-- `Virtioforwarder__PortControlRequest__PciAddress_CCH_MAX`. -/
def pciAddressCchMax : Nat := 12

/-- The size of `pci_addr_str`. -/
def pciAddrStrSize : Nat := (1 + pciAddressCchMax) * maxNumBondSlaves

/-- The size of `dbdf_addrs`, which is also that of `p`. -/
def dbdfAddrsSize : Nat := maxNumBondSlaves * rteEthNameMaxLen

/-- The loop of `Virtioforwarder__PortControlRequest__to_str` from the address `i` on. -/
def formatPciAddrStr (pciAddrStr : List Char) (i : Nat)
    : List RequestPciAddress → Option (List Char)
  | [] => some pciAddrStr
  | address :: rest => do
      let sz := pciAddressCchMax
      let pciAddrStr ← snprintf pciAddrStr (i * (sz + 1)) (sz + 1) (pciAddressToStr address)
      let pciAddrStr ← strcpy pciAddrStr ((i + 1) * sz + i) [' ']
      formatPciAddrStr pciAddrStr (i + 1) rest

/-- The loop of `handle_PortControlRequest` over the addresses, from `i` on. -/
def formatDbdfAddrs (dbdfAddrs : List Char) (i : Nat)
    : List RequestPciAddress → Option (List Char)
  | [] => some dbdfAddrs
  | address :: rest => do
      let dbdfAddrs ← snprintf dbdfAddrs (i * rteEthNameMaxLen) rteEthNameMaxLen
        (pciAddressToStr address)
      formatDbdfAddrs dbdfAddrs (i + 1) rest

/-- The string in a row of `slave_dbdfs`. -/
def slaveDbdf (slaveDbdfs : List Char) (i : Nat) : List Char :=
  cString (slaveDbdfs.drop (i * rteEthNameMaxLen))

/-- The loop of `format_slave_dbdfs` from the slave `i` on, with `count` slaves to come. -/
def formatSlaveDbdfs (slaveDbdfs p : List Char) (i idx : Nat) : Nat → Option (List Char)
  | 0 => some p
  | count + 1 => do
      let p ← strcpy p idx (slaveDbdf slaveDbdfs i)
      let idx := idx + (slaveDbdf slaveDbdfs i).length
      let p ← strcpy p idx [' ']
      formatSlaveDbdfs slaveDbdfs p (i + 1) (idx + 1) count

/-- All that is written while the request is formatted stays inside of the arrays, whatever
stands in those that are not initialised.
-/
def PortControlRequest.FormatsInBounds (pc : PortControlRequest) : Prop :=
  ∀ pciAddrStr p : List Char,
    pciAddrStr.length = pciAddrStrSize → p.length = dbdfAddrsSize
    → (formatPciAddrStr pciAddrStr 0 pc.pciAddrs).isSome
      ∧ ∃ dbdfAddrs,
          formatDbdfAddrs (List.replicate dbdfAddrsSize '\x00') 0 pc.pciAddrs = some dbdfAddrs
          ∧ (1 < pc.pciAddrs.length
            → (formatSlaveDbdfs dbdfAddrs p 0 0 pc.pciAddrs.length).isSome)

-----------------------------------------------------------------------------------------
-- The size of a message
-----------------------------------------------------------------------------------------

/-- The bytes of a number in the wire format. -/
def varintSize (n : Nat) : Nat := max 1 (Nat.digits 128 n).length

/-- The bytes of a field with a tag below 16 and a length before its content. -/
def delimitedSize (content : Nat) : Nat := 1 + varintSize content + content

/-- The number of the operation; a negative one takes ten bytes. -/
def PortControlOp.packedSize : PortControlOp → Nat
  | .other value => if value < 0 then 10 else varintSize value.toNat
  | _ => 1

/-- The bytes of an address. -/
def RequestPciAddress.packedSize (address : RequestPciAddress) : Nat :=
  4 + varintSize address.domain.toNat + varintSize address.bus.toNat
    + varintSize address.slot.toNat + varintSize address.function.toNat

/-- `virtioforwarder__port_control_request__get_packed_size`. -/
def PortControlRequest.packedSize (pc : PortControlRequest) : Nat :=
  1 + pc.op.packedSize
    + (pc.pciAddrs.map fun address => delimitedSize address.packedSize).sum
    + (pc.virtioId.elim 0 fun id => 1 + varintSize id.toNat)
    + (pc.conditional.elim 0 fun _ => 2)
    + (pc.name.elim 0 fun name => delimitedSize name.length)
    + (pc.vhostPath.elim 0 fun path => delimitedSize path.length)

-----------------------------------------------------------------------------------------
-- The text of an address
-----------------------------------------------------------------------------------------

/-- The text has the twelve characters of an ordinary address at least, and no more than 35. -/
theorem pciAddressToStr_length (address : RequestPciAddress)
    : pciAddressCchMax ≤ (pciAddressToStr address).length
      ∧ (pciAddressToStr address).length ≤ 35 := by
  have short (n : UInt32) : (Nat.digits 16 n.toNat).length ≤ 8 :=
    (Nat.digits_length_le_iff (by decide) _).mpr n.toNat_lt
  have domain := short address.domain
  have bus := short address.bus
  have slot := short address.slot
  have function := short address.function
  simp only [pciAddressToStr, dbdfText, List.length_append, List.length_cons, hexText_length,
    pciAddressCchMax]
  omega

theorem pciAddressToStr_plain (address : RequestPciAddress)
    : '\x00' ∉ pciAddressToStr address :=
  zero_not_mem_dbdfText

/-- An address is cut off after its first twelve characters. -/
theorem snprintf_pciAddrStr {pciAddrStr : List Char} {index : Nat} (address : RequestPciAddress)
    : (snprintf pciAddrStr index (pciAddressCchMax + 1) (pciAddressToStr address)).isSome
      ↔ index + pciAddressCchMax + 1 ≤ pciAddrStr.length := by
  have long := (pciAddressToStr_length address).1
  rw [snprintf, store, Option.isSome_ite, List.length_append, List.length_take,
    List.length_singleton]
  omega

-----------------------------------------------------------------------------------------
-- The three loops
-----------------------------------------------------------------------------------------

/-- The blank after the last address needs a byte for its zero that only another address would
provide.
-/
theorem formatPciAddrStr_isSome_iff (addresses : List RequestPciAddress)
    (pciAddrStr : List Char) (i : Nat)
    : (formatPciAddrStr pciAddrStr i addresses).isSome
      ↔ addresses = [] ∨ 13 * (i + addresses.length) + 1 ≤ pciAddrStr.length := by
  induction addresses generalizing pciAddrStr i with
  | nil => simp [formatPciAddrStr]
  | cons address rest ih =>
      have first := @snprintf_pciAddrStr pciAddrStr (i * (pciAddressCchMax + 1)) address
      simp only [formatPciAddrStr, Option.bind_eq_bind, reduceCtorEq, false_or, List.length_cons]
      cases printed : snprintf pciAddrStr (i * (pciAddressCchMax + 1)) (pciAddressCchMax + 1)
          (pciAddressToStr address) with
      | none =>
          rw [printed] at first
          simp only [Option.isSome_none, Bool.false_eq_true, false_iff, pciAddressCchMax,
            Option.bind_none] at first ⊢
          omega
      | some after =>
          have size := store_length printed
          cases blank : strcpy after ((i + 1) * pciAddressCchMax + i) [' '] with
          | none =>
              have past := @strcpy_isSome after [' '] ((i + 1) * pciAddressCchMax + i)
              rw [blank, size] at past
              rw [Option.bind_some, blank, Option.bind_none]
              simp only [Option.isSome_none, Bool.false_eq_true, false_iff, pciAddressCchMax,
                List.length_singleton] at past ⊢
              omega
          | some last =>
              have fits := (store_eq_some.mp blank).1
              rw [Option.bind_some, blank, Option.bind_some, ih, store_length blank, size]
              rw [size] at fits
              simp only [pciAddressCchMax, List.length_append, List.length_cons,
                List.length_nil] at fits
              cases rest with
              | nil =>
                  simp only [true_or, List.length_nil, true_iff]
                  omega
              | cons next rest =>
                  simp only [reduceCtorEq, false_or, List.length_cons]
                  omega

/-- The rows of `dbdf_addrs` from `i` on are strings with the texts of the addresses. -/
def HoldsDbdfs (dbdfAddrs : List Char) (i : Nat) (addresses : List RequestPciAddress) : Prop :=
  ∀ j (bound : j < addresses.length),
    slaveDbdf dbdfAddrs (i + j) = pciAddressToStr (addresses.get ⟨j, bound⟩)

/-- A string is kept by what is written behind its row. -/
theorem slaveDbdf_of_take {dbdfAddrs after text : List Char} {i : Nat}
    (stored : text ++ ['\x00'] <+: dbdfAddrs.drop (i * rteEthNameMaxLen))
    (plain : '\x00' ∉ text) (short : text.length < rteEthNameMaxLen)
    (kept : after.take ((i + 1) * rteEthNameMaxLen)
      = dbdfAddrs.take ((i + 1) * rteEthNameMaxLen))
    : slaveDbdf after i = text := by
  have row : (after.drop (i * rteEthNameMaxLen)).take rteEthNameMaxLen
      = (dbdfAddrs.drop (i * rteEthNameMaxLen)).take rteEthNameMaxLen := by
    rw [List.take_drop, List.take_drop, ← Nat.succ_mul, kept]
  have inRow : text ++ ['\x00'] <+: (after.drop (i * rteEthNameMaxLen)).take rteEthNameMaxLen := by
    rw [row]
    exact List.prefix_take_iff.mpr ⟨stored, by simpa using short⟩
  obtain ⟨rest, same⟩ := inRow.trans (List.take_prefix ..)
  rw [slaveDbdf, ← same, List.append_assoc, List.singleton_append]
  exact cString_append rest plain

theorem formatDbdfAddrs_of_fits (addresses : List RequestPciAddress) {dbdfAddrs : List Char}
    {i : Nat} (fits : (i + addresses.length) * rteEthNameMaxLen ≤ dbdfAddrs.length)
    : ∃ after, formatDbdfAddrs dbdfAddrs i addresses = some after
        ∧ after.take (i * rteEthNameMaxLen) = dbdfAddrs.take (i * rteEthNameMaxLen)
        ∧ HoldsDbdfs after i addresses := by
  induction addresses generalizing dbdfAddrs i with
  | nil => exact ⟨dbdfAddrs, rfl, rfl, fun _ bound => absurd bound (Nat.not_lt_zero _)⟩
  | cons address rest ih =>
      have short := (pciAddressToStr_length address).2
      have whole : (pciAddressToStr address).take (rteEthNameMaxLen - 1) = pciAddressToStr address :=
        List.take_of_length_le (by simp only [rteEthNameMaxLen]; omega)
      simp only [List.length_cons, rteEthNameMaxLen] at fits
      obtain ⟨next, printed⟩ : ∃ next, snprintf dbdfAddrs (i * rteEthNameMaxLen) rteEthNameMaxLen
          (pciAddressToStr address) = some next := by
        rw [snprintf, whole]
        exact ⟨_, store_eq_some.mpr ⟨by simp [rteEthNameMaxLen]; omega, rfl⟩⟩
      have size := store_length printed
      obtain ⟨after, formatted, kept, holds⟩ := @ih next (i + 1) (by
        rw [size, rteEthNameMaxLen]
        omega)
      refine ⟨after, ?_, ?_, ?_⟩
      · rw [formatDbdfAddrs, printed]
        exact formatted
      · have earlier := congrArg (List.take (i * rteEthNameMaxLen)) kept
        rw [List.take_take, List.take_take,
          Nat.min_eq_left (Nat.mul_le_mul_right _ (Nat.le_succ i))] at earlier
        exact earlier.trans (store_take printed)
      · intro j bound
        cases j with
        | zero =>
            have stored := store_drop printed
            rw [whole] at stored
            exact slaveDbdf_of_take stored (pciAddressToStr_plain address)
              (Nat.lt_of_le_of_lt short (by decide)) kept
        | succ j =>
            have later := holds j (Nat.lt_of_succ_lt_succ bound)
            rwa [Nat.add_assoc, Nat.add_comm 1 j] at later

theorem strcpy_of_fits {array text : List Char} {index : Nat}
    (fits : index + text.length < array.length)
    : ∃ after, strcpy array index text = some after ∧ after.length = array.length := by
  obtain ⟨after, stored⟩ := Option.isSome_iff_exists.mp (strcpy_isSome.mpr fits)
  exact ⟨after, stored, store_length stored⟩

/-- Slaves with texts of at most 35 characters fit into 36 bytes each and a zero byte. -/
theorem formatSlaveDbdfs_of_fits {slaveDbdfs p : List Char} {i idx count : Nat}
    (short : ∀ j < count, (slaveDbdf slaveDbdfs (i + j)).length ≤ 35)
    (fits : idx + 36 * count < p.length)
    : (formatSlaveDbdfs slaveDbdfs p i idx count).isSome := by
  induction count generalizing p i idx with
  | zero => rfl
  | succ count ih =>
      have first : (slaveDbdf slaveDbdfs i).length ≤ 35 := short 0 (Nat.succ_pos count)
      obtain ⟨named, copied, size⟩ := @strcpy_of_fits p (slaveDbdf slaveDbdfs i) idx (by omega)
      obtain ⟨after, blank, size'⟩ :=
        @strcpy_of_fits named [' '] (idx + (slaveDbdf slaveDbdfs i).length) (by
          rw [size, List.length_singleton]
          omega)
      simp only [formatSlaveDbdfs, copied, blank, Option.bind_eq_bind, Option.bind_some]
      apply ih
      · intro j bound
        have later := short (j + 1) (Nat.succ_lt_succ bound)
        rwa [Nat.add_comm j 1, ← Nat.add_assoc] at later
      · rw [size', size]
        omega

/-- The writes stay inside of the arrays exactly if there are fewer addresses than a bond may
have slaves.
-/
theorem formats_in_bounds_iff (pc : PortControlRequest)
    : pc.FormatsInBounds ↔ pc.pciAddrs.length < maxNumBondSlaves := by
  constructor
  · intro inBounds
    have first := (inBounds (List.replicate pciAddrStrSize ' ') (List.replicate dbdfAddrsSize ' ')
      List.length_replicate List.length_replicate).1
    rw [formatPciAddrStr_isSome_iff, List.length_replicate] at first
    rcases first with none | fits
    · rw [none]
      decide
    · simp only [pciAddrStrSize, pciAddressCchMax, maxNumBondSlaves] at fits ⊢
      omega
  · intro few pciAddrStr p size size'
    simp only [maxNumBondSlaves] at few
    obtain ⟨dbdfAddrs, formatted, -, holds⟩ :=
      @formatDbdfAddrs_of_fits pc.pciAddrs (List.replicate dbdfAddrsSize '\x00') 0 (by
        simp only [List.length_replicate, dbdfAddrsSize, maxNumBondSlaves, rteEthNameMaxLen]
        omega)
    refine ⟨?_, dbdfAddrs, formatted, fun _ => ?_⟩
    · rw [formatPciAddrStr_isSome_iff, size]
      simp only [pciAddrStrSize, pciAddressCchMax, maxNumBondSlaves]
      omega
    · apply formatSlaveDbdfs_of_fits
      · intro j bound
        rw [holds j bound]
        exact (pciAddressToStr_length _).2
      · rw [size']
        simp only [dbdfAddrsSize, maxNumBondSlaves, rteEthNameMaxLen]
        omega

/-- A bond of as many slaves as may be takes 87 bytes, and the zero byte behind the last blank
is written past the end of `pci_addr_str`.
-/
theorem largest_bond_overruns
    : ¬ ∀ pc : PortControlRequest,
        pc.packedSize ≤ portControlSetup.maxRequestCb.toNat
        → validatePortControlRequest pc = true
        → pc.FormatsInBounds := by
  intro claim
  let pc : PortControlRequest :=
    { op := .add, pciAddrs := List.replicate 8 ⟨0, 5, 8, 1⟩, virtioId := some 0,
      conditional := none, name := some ['b'], vhostPath := none }
  have size : pc.packedSize ≤ portControlSetup.maxRequestCb.toNat := by
    simp [pc, PortControlRequest.packedSize, PortControlOp.packedSize, delimitedSize,
      RequestPciAddress.packedSize, varintSize, portControlSetup, maxNumBondSlaves]
  have inBounds := claim pc size (by decide)
  have first := (inBounds (List.replicate pciAddrStrSize ' ') (List.replicate dbdfAddrsSize ' ')
    List.length_replicate List.length_replicate).1
  rw [formatPciAddrStr_isSome_iff] at first
  revert first
  decide

end VirtioForwarder
