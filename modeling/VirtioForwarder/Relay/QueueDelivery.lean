import VirtioForwarder.Relay.Effects
import VirtioForwarder.Relay.Vring

/-! Delivery of tagged packets to the queues of a multiqueue guest.
The tag is a queue number, while the arrays of `virtio_tx` and its send loop are sized by
the number of enabled queues.
-/

namespace VirtioForwarder

open Bits Grouping

/-- More than one in the bitmap means that some pair is enabled. -/
theorem RelayVirtio.QueueTables.active_pos {vio : RelayVirtio} (tables : vio.QueueTables)
    (multi : vio.rxQBitmap > 1)
    : 0 < vio.rxQActive := by
  rw [tables.active, popcount, List.length_pos_iff, ne_eq, setBits_eq_nil]
  rintro zero
  simp [zero] at multi

/-- There are no more enabled pairs than table entries. -/
theorem RelayVirtio.QueueTables.active_le {vio : RelayVirtio} (tables : vio.QueueTables)
    : vio.rxQActive ≤ maxMultiqueuePairs := by
  have included : setBits vio.rxQBitmap ⊆ List.range maxMultiqueuePairs := by
    intro pair member
    exact List.mem_range.mpr (tables.pairs pair (mem_setBits.mp member))
  have bound := (List.subperm_of_subset (nodup_setBits vio.rxQBitmap) included).length_le
  rwa [List.length_range, ← popcount, ← tables.active] at bound

/-- Masking and division select the same table index, the hash modulo the number of enabled
pairs. Witness: a set power-of-two flag makes the count a power of two.
-/
theorem lutIndex_eq {vio : RelayVirtio} (tables : vio.QueueTables) (multi : vio.rxQBitmap > 1)
    (hash : UInt32)
    : lutIndex vio hash = .ok (hash.toNat % vio.rxQActive) := by
  have positive := tables.active_pos multi
  have bound := tables.active_le
  have small : vio.rxQActive < 2 ^ 32 := Nat.lt_of_le_of_lt bound (by decide)
  have toNat : (UInt32.ofNat vio.rxQActive).toNat = vio.rxQActive := UInt32.toNat_ofNat_of_lt small
  have nonzero : UInt32.ofNat vio.rxQActive ≠ 0 := by
    intro zero
    rw [zero] at toNat
    simp only [UInt32.toNat_zero] at toNat
    omega
  unfold lutIndex
  by_cases mask : vio.pow2queues = true
  · have power : vio.rxQActive.isPowerOfTwo := by
      rw [tables.pow2, decide_eq_true_eq] at mask
      exact (Nat.and_sub_one_eq_zero_iff_isPowerOfTwo (by omega)).mp mask
    obtain ⟨exponent, power⟩ := power
    have one : (1 : UInt32) ≤ UInt32.ofNat vio.rxQActive := by
      rw [UInt32.le_iff_toNat_le, toNat]
      exact positive
    simp only [mask, if_true, UInt32.toNat_and, UInt32.toNat_sub_of_le _ _ one, toNat,
      UInt32.toNat_one]
    rw [power, Nat.and_two_pow_sub_one_eq_mod]
  · simp only [mask, if_false, nonzero, UInt32.toNat_mod, toNat]
    rfl

/-- The table entry at a valid index is the enabled pair of that rank. -/
theorem RelayVirtio.QueueTables.lut_eq {vio : RelayVirtio} (tables : vio.QueueTables)
    {index : Nat} (h : index < vio.rxQActive)
    : (setBits vio.rxQBitmap)[index]? = some (vio.rxQLut index) := by
  rw [← tables.lut, Window.getElem?_slice _ h, Nat.zero_add]

/-- Tagging always returns, and the tag is the pair whose rank is the hash modulo the number
of enabled pairs.
-/
theorem calcMbufQueue_eq {vio : RelayVirtio} (tables : vio.QueueTables)
    (multi : vio.rxQBitmap > 1) (pkt : Mbuf)
    : calcMbufQueue vio pkt
      = .ok { pkt with fdirId := .queue (vio.rxQLut (pkt.headerHash.toNat % vio.rxQActive)) } := by
  have rank : pkt.headerHash.toNat % vio.rxQActive < vio.rxQActive :=
    Nat.mod_lt _ (tables.active_pos multi)
  exact calcMbufQueue_eq_ok_iff.mpr
    ⟨_, lutIndex_eq tables multi _, Nat.lt_of_lt_of_le rank tables.active_le, rfl⟩

/-- The tagged form of a packet under valid tables. -/
def RelayVirtio.tag (vio : RelayVirtio) (pkt : Mbuf) : Mbuf :=
  { pkt with fdirId := .queue (vio.rxQLut (pkt.headerHash.toNat % vio.rxQActive)) }

/-- A whole burst is tagged packet by packet, by induction on the burst. -/
theorem mapM_calcMbufQueue_eq {vio : RelayVirtio} (tables : vio.QueueTables)
    (multi : vio.rxQBitmap > 1) (burst : List Mbuf)
    : burst.mapM (calcMbufQueue vio) = .ok (burst.map vio.tag) := by
  induction burst with
  | nil => rfl
  | cons pkt burst ih =>
      rw [List.mapM_cons, calcMbufQueue_eq tables multi, ih]
      rfl

/-- A tag is the number of an enabled pair. -/
theorem RelayVirtio.QueueTables.tag_enabled {vio : RelayVirtio} (tables : vio.QueueTables)
    (multi : vio.rxQBitmap > 1) (pkt : Mbuf)
    : vio.rxQBitmap.getLsbD (vio.tag pkt).queueTag = true := by
  have rank : pkt.headerHash.toNat % vio.rxQActive < vio.rxQActive :=
    Nat.mod_lt _ (tables.active_pos multi)
  exact mem_setBits.mp (List.mem_of_getElem? (tables.lut_eq rank))

/-- The relay with a burst in its RX cache and a guest that is ready. -/
def Relay.loaded (relay : Relay) (burst : List Mbuf) : Relay :=
  (relay.setVioState .ready).setRxPkts (relay.dpdk.rxPkts.receive burst)

/-- A burst is tagged and sent without leaving the arrays: each tag is in range and names an
enabled pair, and each packet is offered to the vhost queue of its tag and to no other.
-/
def Delivers (relay : Relay) (burst : List Mbuf) (io : VfToVmIO) : Prop :=
  ∃ tagged out,
    burst.mapM (calcMbufQueue relay.vio) = .ok tagged
    ∧ virtioTx (relay.loaded tagged) io = .ok out
    ∧ (∀ pkt ∈ tagged,
        pkt.queueTag < relay.vio.rxQActive
        ∧ relay.vio.rxQBitmap.getLsbD pkt.queueTag = true
        ∧ ∃ offered sent,
            .enqueueBurst (2 * pkt.queueTag) offered sent ∈ out.actions ∧ pkt ∈ offered)
    ∧ ∀ queue offered sent,
        .enqueueBurst queue offered sent ∈ out.actions
        → ∀ pkt ∈ offered, queue = 2 * pkt.queueTag

/-- The enqueue calls of the send loop offer each nonempty batch to its vhost queue. -/
theorem enqueueBurst_mem_sendActions {io : VfToVmIO} {qPkts : Nat → List Mbuf}
    {active queue sent : Nat} {offered : List Mbuf}
    : .enqueueBurst queue offered sent ∈ (List.range active).flatMap (sendActions io qPkts)
      ↔ ∃ i < active,
          qPkts i ≠ [] ∧ queue = i * 2 ∧ offered = qPkts i ∧ sent = sentOn io qPkts i := by
  simp only [List.mem_flatMap, List.mem_range]
  refine exists_congr fun i => and_congr_right fun _ => ?_
  by_cases empty : qPkts i = []
  · simp [sendActions, empty]
  · simp only [sendActions, empty, if_false, List.mem_cons, Action.enqueueBurst.injEq,
      List.mem_map, reduceCtorEq, and_false, exists_false, or_false, ne_eq, not_false_eq_true,
      true_and]

/-- Packets whose tags are all in range are delivered, by the effect of the send loop. -/
theorem delivers_of_tags {relay : Relay} {burst : List Mbuf} (io : VfToVmIO)
    (tables : relay.vio.QueueTables) (multi : relay.vio.rxQBitmap > 1)
    (tags : ∀ pkt ∈ burst, (relay.vio.tag pkt).queueTag < relay.vio.rxQActive)
    : Delivers relay burst io := by
  let loaded := relay.loaded (burst.map relay.vio.tag)
  have window : loaded.dpdk.rxPkts.window = burst.map relay.vio.tag :=
    PktCache.window_receive ..
  have inRange : ∀ pkt ∈ loaded.dpdk.rxPkts.window, pkt.queueTag < loaded.vio.rxQActive := by
    rw [window]
    intro pkt member
    obtain ⟨raw, rawMember, rfl⟩ := List.mem_map.mp member
    exact tags raw rawMember
  obtain ⟨out, returned⟩ := virtioTxMulti_returns io inRange
  have sent := virtioTxMulti_eq_ok returned
  have running : virtioTx loaded io = .ok out := by
    have ready : ¬ loaded.vio.state ≠ .ready := not_not.mpr rfl
    have several : loaded.vio.rxQBitmap > 1 := multi
    unfold virtioTx
    rw [if_neg ready, if_pos several]
    exact returned
  refine ⟨_, out, mapM_calcMbufQueue_eq tables multi burst, running, ?_, ?_⟩
  · intro pkt member
    have range : pkt.queueTag < relay.vio.rxQActive := inRange pkt (window ▸ member)
    obtain ⟨raw, _, rfl⟩ := List.mem_map.mp member
    refine ⟨range, tables.tag_enabled multi raw, loaded.batches (relay.vio.tag raw).queueTag,
      sentOn io loaded.batches (relay.vio.tag raw).queueTag, ?_, ?_⟩
    · rw [sent.actions]
      refine enqueueBurst_mem_sendActions.mpr ⟨_, range, ?_, Nat.mul_comm .., rfl, rfl⟩
      exact List.ne_nil_of_mem (mem_group.mpr ⟨window ▸ member, rfl⟩)
    · exact mem_group.mpr ⟨window ▸ member, rfl⟩
  · intro queue offered count action pkt member
    rw [sent.actions] at action
    obtain ⟨i, _, _, rfl, rfl, _⟩ := enqueueBurst_mem_sendActions.mp action
    rw [(mem_group.mp member).2, Nat.mul_comm]

/-- Any sequence of valid ring notifications that enables several pairs or a pair above the
first: every burst is delivered if and only if the enabled pairs are a prefix of the pairs.
Witness: if they are not, some enabled pair is numbered at or above the count of enabled
pairs, and a packet whose hash is its rank is tagged with it.
-/
theorem multiqueue_delivery_iff_initial_pairs {id : Nat} {socketId : Int} {useJumbo : Bool}
    {changes : List VringChange}
    (valid : ∀ change ∈ changes, change.queueId < 2 * maxMultiqueuePairs)
    (multi : (vringStateChanges (.initial id socketId useJumbo) changes).vio.rxQBitmap > 1)
    : (∀ burst, burst.length ≤ burstLen
        → ∀ io, Delivers (vringStateChanges (.initial id socketId useJumbo) changes) burst io)
      ↔ ∃ k,
          setBits (vringStateChanges (.initial id socketId useJumbo) changes).vio.rxQBitmap
            = List.range k := by
  have some : changes ≠ [] := by
    rintro rfl
    simp [vringStateChanges, Relay.initial] at multi
  have tables : (vringStateChanges (.initial id socketId useJumbo) changes).vio.QueueTables :=
    vringStateChanges_tables (by simp [Relay.initial]) valid some
  generalize vringStateChanges (.initial id socketId useJumbo) changes = relay at *
  constructor
  · intro delivered
    refine ⟨_, setBits_eq_range_of_lt fun pair member => ?_⟩
    obtain ⟨rank, found⟩ := List.mem_iff_getElem?.mp member
    have below : rank < relay.vio.rxQActive := by
      rw [tables.active]
      exact (List.getElem?_eq_some_iff.mp found).1
    have bound := tables.active_le
    -- The hash of this packet is the rank of the pair, so the table maps it to the pair.
    let pkt : Mbuf := ⟨0, 0, UInt32.ofNat rank, .driver 0⟩
    have hash : pkt.headerHash.toNat % relay.vio.rxQActive = rank := by
      have small : rank < 2 ^ 32 := Nat.lt_of_lt_of_le below (Nat.le_trans bound (by decide))
      have read : pkt.headerHash.toNat = rank := UInt32.toNat_ofNat_of_lt small
      rw [read, Nat.mod_eq_of_lt below]
    have tag : (relay.vio.tag pkt).queueTag = pair := by
      have entry := tables.lut_eq below
      rw [found] at entry
      simp only [Mbuf.queueTag, RelayVirtio.tag, FdirId.value, hash]
      exact (Option.some.inj entry).symm
    obtain ⟨tagged, _, tagging, _, tags, _⟩ :=
      delivered [pkt] (by simp [burstLen]) ⟨0, [], fun _ => 0⟩
    rw [mapM_calcMbufQueue_eq tables multi] at tagging
    cases Except.ok.inj tagging
    rw [← tables.active, ← tag]
    exact (tags _ (by simp)).1
  · rintro ⟨k, enabled⟩ burst _ io
    refine delivers_of_tags io tables multi fun pkt _ => ?_
    have member := mem_setBits.mpr (tables.tag_enabled multi pkt)
    rw [enabled, List.mem_range] at member
    rwa [tables.active, popcount, enabled, List.length_range]

/-- With pairs 0 and 1 enabled every burst is delivered. -/
theorem multiqueue_delivery_two_pairs
    : (vringStateChanges (.initial 0 0 false) [⟨0, true⟩, ⟨2, true⟩]).vio.rxQBitmap = 3
      ∧ ∀ burst, burst.length ≤ burstLen
        → ∀ io, Delivers (vringStateChanges (.initial 0 0 false) [⟨0, true⟩, ⟨2, true⟩]) burst io :=
  ⟨by decide,
    (multiqueue_delivery_iff_initial_pairs (by decide) (by decide)).mpr ⟨2, by decide⟩⟩

/-- With pairs 0 and 2 enabled, a packet of hash 1 is tagged 2 and leaves the arrays of two
rows that `virtio_tx` declares.
-/
theorem multiqueue_delivery_fails_for_gap
    : ¬ ∀ changes : List VringChange,
        (∀ change ∈ changes, change.queueId < 2 * maxMultiqueuePairs)
        → (vringStateChanges (.initial 0 0 false) changes).vio.rxQBitmap > 1
        → ∀ burst, burst.length ≤ burstLen
          → ∀ io, Delivers (vringStateChanges (.initial 0 0 false) changes) burst io := by
  intro claim
  obtain ⟨tagged, out, tagging, running, _⟩ := claim [⟨0, true⟩, ⟨4, true⟩] (by decide)
    (by decide) [⟨7, 64, 1, .driver 0⟩] (by decide) ⟨0, [], fun _ => 0⟩
  have tags : tagged = [⟨7, 64, 1, .queue 2⟩] := (Except.ok.inj tagging).symm
  subst tags
  cases running

end VirtioForwarder
