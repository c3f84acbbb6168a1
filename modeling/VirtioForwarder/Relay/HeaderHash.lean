import Mathlib.Data.Nat.Digits.Defs
import VirtioForwarder.Relay.Effects

/-! The words of a frame that `calc_eth_header_hash` hashes. For the packets of TCP, UDP and SCTP
they determine the flow, and the flow determines them.
-/

namespace VirtioForwarder

-----------------------------------------------------------------------------------------
-- Words in memory
-----------------------------------------------------------------------------------------

/-- The byte order of the host. -/
inductive Endian
  | little
  | big
  deriving DecidableEq, Repr

/-- The number that the host reads from bytes in memory. -/
def Endian.load (endian : Endian) (bytes : List UInt8) : Nat :=
  match endian with
  | .little => Nat.ofDigits 256 (bytes.map UInt8.toNat)
  | .big => Nat.ofDigits 256 (bytes.reverse.map UInt8.toNat)

/-- `rte_cpu_to_be_16`. -/
def Endian.cpuToBe16 (endian : Endian) (value : UInt16) : UInt16 :=
  match endian with
  | .little => value <<< 8 ||| value >>> 8
  | .big => value

theorem Endian.load_lt (endian : Endian) (bytes : List UInt8)
    : endian.load bytes < 256 ^ bytes.length := by
  have digits (bytes : List UInt8) : Nat.ofDigits 256 (bytes.map UInt8.toNat) < 256 ^ bytes.length := by
    have below := Nat.ofDigits_lt_base_pow_length (b := 256) (l := bytes.map UInt8.toNat)
      (by decide) (by simpa using fun byte _ => byte.toNat_lt)
    rwa [List.length_map] at below
  cases endian with
  | little => exact digits bytes
  | big => simpa [Endian.load] using digits bytes.reverse

theorem Endian.load_injective (endian : Endian) {bytes others : List UInt8}
    (length : bytes.length = others.length) (same : endian.load bytes = endian.load others)
    : bytes = others := by
  have digits {bytes others : List UInt8} (length : bytes.length = others.length)
      (same : Nat.ofDigits 256 (bytes.map UInt8.toNat) = Nat.ofDigits 256 (others.map UInt8.toNat))
      : bytes = others := by
    have small (bytes : List UInt8) : ∀ digit ∈ bytes.map UInt8.toNat, digit < 256 := by
      simpa using fun byte _ => byte.toNat_lt
    have equal := Nat.ofDigits_inj_of_len_eq (by decide) (by simpa using length) (small bytes)
      (small others) same
    exact List.map_injective_iff.mpr (fun _ _ h => UInt8.toNat_inj.mp h) equal
  cases endian with
  | little => exact digits length same
  | big => exact List.reverse_injective (digits (by simpa using length) same)

/-- A frame, and what follows it in memory. -/
structure Frame where
  bytes : List UInt8
  beyond : Nat → UInt8

/-- The byte at an offset from the start of the frame. -/
def Frame.byte (frame : Frame) (offset : Nat) : UInt8 :=
  (frame.bytes[offset]?).getD (frame.beyond offset)

/-- The bytes from an offset on. -/
def Frame.slice (frame : Frame) (offset size : Nat) : List UInt8 :=
  (List.range size).map fun index => frame.byte (offset + index)

@[simp] theorem Frame.length_slice (frame : Frame) (offset size : Nat)
    : (frame.slice offset size).length = size := by
  simp [Frame.slice]

def Frame.load16 (frame : Frame) (endian : Endian) (offset : Nat) : UInt16 :=
  .ofNat (endian.load (frame.slice offset 2))

def Frame.load32 (frame : Frame) (endian : Endian) (offset : Nat) : UInt32 :=
  .ofNat (endian.load (frame.slice offset 4))

theorem Frame.load16_inj {endian : Endian} {frame other : Frame} {offset otherOffset : Nat}
    : frame.load16 endian offset = other.load16 endian otherOffset
      ↔ frame.slice offset 2 = other.slice otherOffset 2 := by
  have value (frame : Frame) (offset : Nat)
      : (frame.load16 endian offset).toNat = endian.load (frame.slice offset 2) := by
    refine UInt16.toNat_ofNat_of_lt' ?_
    simpa using endian.load_lt (frame.slice offset 2)
  constructor
  · intro same
    refine endian.load_injective (by simp) ?_
    rw [← value, ← value, same]
  · intro same
    rw [Frame.load16, Frame.load16, same]

theorem Frame.load32_inj {endian : Endian} {frame other : Frame} {offset otherOffset : Nat}
    : frame.load32 endian offset = other.load32 endian otherOffset
      ↔ frame.slice offset 4 = other.slice otherOffset 4 := by
  have value (frame : Frame) (offset : Nat)
      : (frame.load32 endian offset).toNat = endian.load (frame.slice offset 4) := by
    refine UInt32.toNat_ofNat_of_lt' ?_
    simpa using endian.load_lt (frame.slice offset 4)
  constructor
  · intro same
    refine endian.load_injective (by simp) ?_
    rw [← value, ← value, same]
  · intro same
    rw [Frame.load32, Frame.load32, same]

-----------------------------------------------------------------------------------------
-- The words that are hashed
-----------------------------------------------------------------------------------------

/-- `IPPROTO_TCP`, `IPPROTO_UDP` or `IPPROTO_SCTP`. -/
def hasPorts (protocol : UInt8) : Bool :=
  protocol = 6 || protocol = 17 || protocol = 132

/-- `(udp_h->dst_port<<16) + udp_h->src_port` for the header at an offset. -/
def Frame.portWord (frame : Frame) (endian : Endian) (offset : Nat) : UInt32 :=
  ((frame.load16 endian (offset + 2)).toUInt32 <<< 16) + (frame.load16 endian offset).toUInt32

/-- `sizeof(struct rte_ether_hdr)`. -/
def etherHdrLen : Nat := 14

/-- The length of the IPv4 header that its first byte gives. -/
def Frame.ipv4HdrLen (frame : Frame) : Nat :=
  (frame.byte etherHdrLen &&& 0x0f).toNat * 4

/-- The words that `calc_eth_header_hash` stores in its buffer. -/
def ethHeaderWords (endian : Endian) (frame : Frame) : List UInt32 :=
  if frame.load16 endian 12 = endian.cpuToBe16 0x0800 then
    let protocol := frame.byte (etherHdrLen + 9)
    [frame.load32 endian (etherHdrLen + 12), frame.load32 endian (etherHdrLen + 16),
      protocol.toUInt32]
    ++ if hasPorts protocol then [frame.portWord endian (etherHdrLen + frame.ipv4HdrLen)] else []
  else if frame.load16 endian 12 = endian.cpuToBe16 0x86dd then
    let protocol := frame.byte (etherHdrLen + 6)
    (List.range 8).map (fun index => frame.load32 endian (etherHdrLen + 8 + 4 * index))
    ++ [protocol.toUInt32]
    ++ if hasPorts protocol then [frame.portWord endian (etherHdrLen + 40)] else []
  else
    [frame.load32 endian 0, frame.load32 endian 4, frame.load32 endian 8,
      (frame.load16 endian 12).toUInt32]

/-- `calc_eth_header_hash` with the hash function of DPDK. -/
def calcEthHeaderHash (rteJhash32b : List UInt32 → UInt32 → UInt32) (endian : Endian)
    (frame : Frame) : UInt32 :=
  rteJhash32b (ethHeaderWords endian frame) 0xdeadbee5

-----------------------------------------------------------------------------------------
-- Flows
-----------------------------------------------------------------------------------------

/-- The addresses, the protocol and the ports of a packet, as they stand in the frame. -/
structure FiveTuple where
  source : List UInt8
  destination : List UInt8
  protocol : UInt8
  sourcePort : List UInt8
  destinationPort : List UInt8
  deriving DecidableEq, Repr

/-- The bytes of the frame itself from an offset on. -/
def Frame.field (frame : Frame) (offset size : Nat) : List UInt8 :=
  (frame.bytes.drop offset).take size

/-- The flow of an IPv4 packet. -/
def Frame.ipv4Tuple (frame : Frame) : FiveTuple where
  source := frame.field 26 4
  destination := frame.field 30 4
  protocol := frame.byte 23
  sourcePort := frame.field (14 + frame.ipv4HdrLen) 2
  destinationPort := frame.field (16 + frame.ipv4HdrLen) 2

/-- The flow of an IPv6 packet without extension headers. -/
def Frame.ipv6Tuple (frame : Frame) : FiveTuple where
  source := frame.field 22 16
  destination := frame.field 38 16
  protocol := frame.byte 20
  sourcePort := frame.field 54 2
  destinationPort := frame.field 56 2

/-- An IPv4 packet with ports, up to the ports in the frame. -/
structure Frame.Ipv4Flow (frame : Frame) : Prop where
  etherType : frame.field 12 2 = [0x08, 0x00]
  header : 34 ≤ frame.bytes.length
  protocol : hasPorts (frame.byte 23) = true
  ports : 18 + frame.ipv4HdrLen ≤ frame.bytes.length

/-- An IPv6 packet with ports, up to the ports in the frame. -/
structure Frame.Ipv6Flow (frame : Frame) : Prop where
  etherType : frame.field 12 2 = [0x86, 0xdd]
  protocol : hasPorts (frame.byte 20) = true
  ports : 58 ≤ frame.bytes.length

/-- Within the frame, what is read is what stands in it. -/
theorem Frame.slice_eq_field {frame : Frame} {offset size : Nat}
    (inside : offset + size ≤ frame.bytes.length)
    : frame.slice offset size = frame.field offset size := by
  refine List.ext_getElem (by simp [Frame.field]; omega) fun index below _ => ?_
  have below : index < size := by simpa using below
  have present : offset + index < frame.bytes.length := by omega
  simp [Frame.slice, Frame.field, Frame.byte, present]

theorem Frame.slice_inj_field {frame other : Frame} {offset otherOffset size : Nat}
    (inside : offset + size ≤ frame.bytes.length)
    (otherInside : otherOffset + size ≤ other.bytes.length)
    : frame.slice offset size = other.slice otherOffset size
      ↔ frame.field offset size = other.field otherOffset size := by
  rw [Frame.slice_eq_field inside, Frame.slice_eq_field otherInside]

/-- Consecutive slices. -/
theorem Frame.slice_add (frame : Frame) (offset first second : Nat)
    : frame.slice offset (first + second)
      = frame.slice offset first ++ frame.slice (offset + first) second := by
  simp [Frame.slice, List.range_add, Function.comp_def, Nat.add_assoc]

theorem Frame.portWord_inj {endian : Endian} {frame other : Frame} {offset otherOffset : Nat}
    : frame.portWord endian offset = other.portWord endian otherOffset
      ↔ frame.slice offset 2 = other.slice otherOffset 2
        ∧ frame.slice (offset + 2) 2 = other.slice (otherOffset + 2) 2 := by
  have value (frame : Frame) (offset : Nat)
      : (frame.portWord endian offset).toNat
        = (frame.load16 endian (offset + 2)).toNat * 65536 + (frame.load16 endian offset).toNat := by
    have high := (frame.load16 endian (offset + 2)).toNat_lt
    have low := (frame.load16 endian offset).toNat_lt
    simp only [Frame.portWord, UInt32.toNat_add, UInt32.toNat_shiftLeft, UInt16.toNat_toUInt32,
      Nat.shiftLeft_eq]
    simp
    omega
  rw [← @Frame.load16_inj endian, ← @Frame.load16_inj endian]
  constructor
  · intro same
    have equal := congrArg UInt32.toNat same
    rw [value, value] at equal
    have low := (frame.load16 endian offset).toNat_lt
    have otherLow := (other.load16 endian otherOffset).toNat_lt
    exact ⟨UInt16.toNat_inj.mp (by omega), UInt16.toNat_inj.mp (by omega)⟩
  · rintro ⟨low, high⟩
    rw [Frame.portWord, Frame.portWord, low, high]

theorem Frame.slice_add_inj {frame other : Frame} {offset otherOffset first second : Nat}
    : frame.slice offset (first + second) = other.slice otherOffset (first + second)
      ↔ frame.slice offset first = other.slice otherOffset first
        ∧ frame.slice (offset + first) second = other.slice (otherOffset + first) second := by
  rw [Frame.slice_add, Frame.slice_add]
  constructor
  · intro same
    exact List.append_inj same (by simp)
  · rintro ⟨head, tail⟩
    rw [head, tail]

/-- The type field is compared in network order. -/
theorem Frame.Ipv4Flow.load16_eq {frame : Frame} (flow : frame.Ipv4Flow) (endian : Endian)
    : frame.load16 endian 12 = endian.cpuToBe16 0x0800 := by
  have inside := flow.header
  rw [Frame.load16, Frame.slice_eq_field (by omega), flow.etherType]
  cases endian with
  | little => rfl
  | big => rfl

theorem Frame.Ipv6Flow.load16_eq {frame : Frame} (flow : frame.Ipv6Flow) (endian : Endian)
    : frame.load16 endian 12 = endian.cpuToBe16 0x86dd := by
  have inside := flow.ports
  rw [Frame.load16, Frame.slice_eq_field (by omega), flow.etherType]
  cases endian with
  | little => rfl
  | big => rfl

theorem Frame.Ipv4Flow.words {frame : Frame} (flow : frame.Ipv4Flow) (endian : Endian)
    : ethHeaderWords endian frame
      = [frame.load32 endian 26, frame.load32 endian 30, (frame.byte 23).toUInt32,
          frame.portWord endian (14 + frame.ipv4HdrLen)] := by
  simp [ethHeaderWords, flow.load16_eq, etherHdrLen, flow.protocol]

theorem Frame.Ipv6Flow.words {frame : Frame} (flow : frame.Ipv6Flow) (endian : Endian)
    : ethHeaderWords endian frame
      = (List.range 8).map (fun index => frame.load32 endian (22 + 4 * index))
        ++ [(frame.byte 20).toUInt32, frame.portWord endian 54] := by
  have other_type : endian.cpuToBe16 0x86dd ≠ endian.cpuToBe16 0x0800 := by
    cases endian with
    | little => decide
    | big => decide
  simp [ethHeaderWords, flow.load16_eq, etherHdrLen, flow.protocol, other_type]

/-- The words of two IPv4 packets are equal exactly if the packets belong to one flow. -/
theorem Frame.Ipv4Flow.words_eq_iff {frame other : Frame} (flow : frame.Ipv4Flow)
    (otherFlow : other.Ipv4Flow) (endian : Endian)
    : ethHeaderWords endian frame = ethHeaderWords endian other
      ↔ frame.ipv4Tuple = other.ipv4Tuple := by
  have header := flow.header
  have ports := flow.ports
  have otherHeader := otherFlow.header
  have otherPorts := otherFlow.ports
  rw [flow.words, otherFlow.words]
  simp only [List.cons.injEq, and_true, Frame.load32_inj, Frame.portWord_inj, UInt8.toUInt32_inj,
    Frame.ipv4Tuple, FiveTuple.mk.injEq]
  rw [Frame.slice_inj_field (by omega) (by omega), Frame.slice_inj_field (by omega) (by omega),
    Frame.slice_inj_field (by omega) (by omega), Frame.slice_inj_field (by omega) (by omega)]
  simp only [Nat.add_right_comm 14 _ 2]

/-- The eight words of the addresses. -/
theorem Frame.addressWords_inj {frame other : Frame} {endian : Endian}
    : (List.range 8).map (fun index => frame.load32 endian (22 + 4 * index))
        = (List.range 8).map (fun index => other.load32 endian (22 + 4 * index))
      ↔ frame.slice 22 16 = other.slice 22 16 ∧ frame.slice 38 16 = other.slice 38 16 := by
  have quarters (offset : Nat)
      : frame.slice offset 16 = other.slice offset 16
        ↔ frame.slice offset 4 = other.slice offset 4
          ∧ frame.slice (offset + 4) 4 = other.slice (offset + 4) 4
          ∧ frame.slice (offset + 8) 4 = other.slice (offset + 8) 4
          ∧ frame.slice (offset + 12) 4 = other.slice (offset + 12) 4 := by
    rw [show 16 = 4 + (4 + (4 + 4)) from rfl, Frame.slice_add_inj, Frame.slice_add_inj,
      Frame.slice_add_inj]
  rw [quarters, quarters]
  simp only [List.range_succ, List.range_zero, List.map_cons, List.map_nil,
    List.nil_append, List.cons_append, List.cons.injEq, and_true, Frame.load32_inj]
  simp only [Nat.reduceMul, Nat.reduceAdd, and_assoc]

/-- The words of two IPv6 packets are equal exactly if the packets belong to one flow. -/
theorem Frame.Ipv6Flow.words_eq_iff {frame other : Frame} (flow : frame.Ipv6Flow)
    (otherFlow : other.Ipv6Flow) (endian : Endian)
    : ethHeaderWords endian frame = ethHeaderWords endian other
      ↔ frame.ipv6Tuple = other.ipv6Tuple := by
  have ports := flow.ports
  have otherPorts := otherFlow.ports
  rw [flow.words, otherFlow.words]
  have split {words others : List UInt32} {rest otherRest : List UInt32}
      (length : words.length = others.length)
      : words ++ rest = others ++ otherRest ↔ words = others ∧ rest = otherRest :=
    ⟨fun same => List.append_inj same length, fun ⟨head, tail⟩ => head ▸ tail ▸ rfl⟩
  rw [split (by simp), Frame.addressWords_inj]
  simp only [List.cons.injEq, and_true, Frame.portWord_inj, UInt8.toUInt32_inj, Frame.ipv6Tuple,
    FiveTuple.mk.injEq, and_assoc]
  rw [Frame.slice_inj_field (by omega) (by omega), Frame.slice_inj_field (by omega) (by omega),
    Frame.slice_inj_field (by omega) (by omega), Frame.slice_inj_field (by omega) (by omega)]

/-- The buffer has room for the words of every frame. -/
theorem length_ethHeaderWords (endian : Endian) (frame : Frame)
    : (ethHeaderWords endian frame).length ≤ 16 := by
  unfold ethHeaderWords
  split
  · dsimp only
    split
    · simp
    · simp
  · split
    · dsimp only
      split
      · simp
      · simp
    · simp

/-- Tagging depends on the hash alone. -/
theorem calcMbufQueue_congr {vio : RelayVirtio} {pkt other : Mbuf}
    (same : pkt.headerHash = other.headerHash)
    : (calcMbufQueue vio pkt).map Mbuf.fdirId = (calcMbufQueue vio other).map Mbuf.fdirId := by
  unfold calcMbufQueue
  rw [same]
  cases lutIndex vio other.headerHash with
  | error fault => rfl
  | ok index =>
      simp only [bind, Except.bind]
      split
      · rfl
      · rfl

/-- The words that `calc_eth_header_hash` hashes are equal exactly for the packets of one flow;
packets of one flow get the same queue, whatever DPDK's hash function is. No frame has more words
than the buffer.
-/
theorem header_words_follow_flow (endian : Endian) (frame other : Frame)
    : ((frame.Ipv4Flow ∧ other.Ipv4Flow
          → (ethHeaderWords endian frame = ethHeaderWords endian other
            ↔ frame.ipv4Tuple = other.ipv4Tuple))
        ∧ (frame.Ipv6Flow ∧ other.Ipv6Flow
          → (ethHeaderWords endian frame = ethHeaderWords endian other
            ↔ frame.ipv6Tuple = other.ipv6Tuple)))
      ∧ (frame.Ipv4Flow ∧ other.Ipv4Flow ∧ frame.ipv4Tuple = other.ipv4Tuple
          ∨ frame.Ipv6Flow ∧ other.Ipv6Flow ∧ frame.ipv6Tuple = other.ipv6Tuple
        → ∀ (rteJhash32b : List UInt32 → UInt32 → UInt32) (vio : RelayVirtio) (pkt otherPkt : Mbuf),
          pkt.headerHash = calcEthHeaderHash rteJhash32b endian frame
          → otherPkt.headerHash = calcEthHeaderHash rteJhash32b endian other
          → (calcMbufQueue vio pkt).map Mbuf.fdirId = (calcMbufQueue vio otherPkt).map Mbuf.fdirId)
      ∧ (ethHeaderWords endian frame).length ≤ 16 := by
  refine ⟨⟨fun flows => flows.1.words_eq_iff flows.2 endian,
    fun flows => flows.1.words_eq_iff flows.2 endian⟩, ?_, length_ethHeaderWords endian frame⟩
  intro flow rteJhash32b vio pkt otherPkt hash otherHash
  have words : ethHeaderWords endian frame = ethHeaderWords endian other := by
    rcases flow with ⟨flow, otherFlow, same⟩ | ⟨flow, otherFlow, same⟩
    · exact (flow.words_eq_iff otherFlow endian).mpr same
    · exact (flow.words_eq_iff otherFlow endian).mpr same
  refine calcMbufQueue_congr ?_
  rw [hash, otherHash, calcEthHeaderHash, calcEthHeaderHash, words]

/-- A TCP segment from 10.0.0.1 to port 80 of 10.0.0.2. -/
def tcpFrame (timeToLive : UInt8) : Frame where
  bytes := List.replicate 12 0 ++ [0x08, 0x00, 0x45, 0, 0, 0, 0, 0, 0, 0, timeToLive, 6, 0, 0]
    ++ [10, 0, 0, 1, 10, 0, 0, 2, 0x12, 0x34, 0, 80]
  beyond _ := 0

theorem tcpFrame_flow (timeToLive : UInt8) : (tcpFrame timeToLive).Ipv4Flow where
  etherType := rfl
  header := by simp [tcpFrame]
  protocol := rfl
  ports := by simp [tcpFrame, Frame.ipv4HdrLen, Frame.byte, etherHdrLen]

/-- Witness: two segments of one connection that have come different ways. -/
theorem header_words_of_one_connection
    : (tcpFrame 64).Ipv4Flow ∧ (tcpFrame 63).Ipv4Flow
      ∧ ethHeaderWords .little (tcpFrame 64) = ethHeaderWords .little (tcpFrame 63) := by
  have flows := And.intro (tcpFrame_flow 64) (tcpFrame_flow 63)
  have follows := header_words_follow_flow .little (tcpFrame 64) (tcpFrame 63)
  exact ⟨flows.1, flows.2, (follows.1.1 flows).mpr rfl⟩

end VirtioForwarder
