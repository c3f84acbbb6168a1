import Mathlib.Data.List.Induction
import VirtioForwarder.Relay.QueueDelivery

/-! The queue tables as a function of the history of ring notifications, and the queue that a
hash selects from them.
-/

namespace VirtioForwarder

open Bits

/-- The last notification for a queue enabled it. -/
def LastEnabled (changes : List VringChange) (queueId : Nat) : Prop :=
  (changes.reverse.find? fun change => change.queueId = queueId).map VringChange.enable = some true

theorem lastEnabled_concat {changes : List VringChange} {change : VringChange} {queueId : Nat}
    : LastEnabled (changes ++ [change]) queueId
      ↔ if change.queueId = queueId then change.enable = true else LastEnabled changes queueId := by
  unfold LastEnabled
  rw [List.reverse_append, List.reverse_singleton, List.singleton_append, List.find?_cons]
  by_cases same : change.queueId = queueId
  · simp [same]
  · simp [same]

/-- A notification assigns the bit of its pair in the bitmap of its direction. -/
theorem vringStateChange_bits (relay : Relay) {change : VringChange}
    (valid : change.queueId < 2 * maxMultiqueuePairs) (pair : Nat)
    : (vringStateChange relay change.queueId change.enable).vio.rxQBitmap.getLsbD pair
        = (if change.queueId = 2 * pair then change.enable
            else relay.vio.rxQBitmap.getLsbD pair)
      ∧ (vringStateChange relay change.queueId change.enable).vio.txQBitmap.getLsbD pair
        = (if change.queueId = 2 * pair + 1 then change.enable
            else relay.vio.txQBitmap.getLsbD pair) := by
  have wide : change.queueId / 2 < 64 := by
    unfold maxMultiqueuePairs at valid
    omega
  unfold vringStateChange RelayVirtio.deriveQueues
  dsimp only
  split
  · rename_i odd
    have other_side : ¬ change.queueId = 2 * pair := by omega
    have same : pair = change.queueId / 2 ↔ change.queueId = 2 * pair + 1 := by omega
    simp only [getLsbD_assignBit wide, other_side, same, if_false, and_self]
  · rename_i even
    have other_side : ¬ change.queueId = 2 * pair + 1 := by omega
    have same : pair = change.queueId / 2 ↔ change.queueId = 2 * pair := by omega
    simp only [getLsbD_assignBit wide, other_side, same, if_false, and_self]

/-- The bitmaps hold what was last said about each queue, by induction on the notifications from
the last one back.
-/
theorem vringStateChanges_bits (relay : Relay) (changes : List VringChange)
    (rxZero : relay.vio.rxQBitmap = 0) (txZero : relay.vio.txQBitmap = 0)
    (valid : ∀ change ∈ changes, change.queueId < 2 * maxMultiqueuePairs) (pair : Nat)
    : ((vringStateChanges relay changes).vio.rxQBitmap.getLsbD pair = true
        ↔ LastEnabled changes (2 * pair))
      ∧ ((vringStateChanges relay changes).vio.txQBitmap.getLsbD pair = true
        ↔ LastEnabled changes (2 * pair + 1)) := by
  induction changes using List.reverseRecOn with
  | nil => simp [vringStateChanges, LastEnabled, rxZero, txZero]
  | append_singleton changes change ih =>
      obtain ⟨rx, tx⟩ := ih fun earlier mem => valid earlier (by simp [mem])
      obtain ⟨rxBit, txBit⟩ := vringStateChange_bits (vringStateChanges relay changes)
        (valid change (by simp)) pair
      have last : vringStateChanges relay (changes ++ [change])
          = vringStateChange (vringStateChanges relay changes) change.queueId change.enable := by
        simp [vringStateChanges]
      rw [last, rxBit, txBit, lastEnabled_concat, lastEnabled_concat]
      constructor
      · split
        · exact Iff.rfl
        · exact rx
      · split
        · exact Iff.rfl
        · exact tx

/-- The flag says whether the number of enabled pairs is a power of two; it is also set for 0. -/
theorem RelayVirtio.QueueTables.pow2queues_iff {vio : RelayVirtio} (tables : vio.QueueTables)
    : vio.pow2queues = true ↔ vio.rxQActive = 0 ∨ ∃ exponent, vio.rxQActive = 2 ^ exponent := by
  rw [tables.pow2, decide_eq_true_eq]
  by_cases none_active : vio.rxQActive = 0
  · simp [none_active]
  · rw [Nat.and_sub_one_eq_zero_iff_isPowerOfTwo none_active]
    simp [Nat.isPowerOfTwo, none_active]

/-- Masking and division give the same index, whenever the flag allows masking. -/
theorem RelayVirtio.QueueTables.paths_agree {vio : RelayVirtio} (tables : vio.QueueTables)
    (multi : vio.rxQBitmap > 1) (hash : UInt32)
    : UInt32.ofNat vio.rxQActive ≠ 0
      ∧ (hash % UInt32.ofNat vio.rxQActive).toNat = hash.toNat % vio.rxQActive
      ∧ (vio.pow2queues = true
        → (hash &&& (UInt32.ofNat vio.rxQActive - 1)).toNat = hash.toNat % vio.rxQActive) := by
  have positive := tables.active_pos multi
  have small : vio.rxQActive < 2 ^ 32 := Nat.lt_of_le_of_lt tables.active_le (by decide)
  have toNat : (UInt32.ofNat vio.rxQActive).toNat = vio.rxQActive := UInt32.toNat_ofNat_of_lt small
  refine ⟨?_, ?_, ?_⟩
  · intro zero
    rw [zero, UInt32.toNat_zero] at toNat
    omega
  · rw [UInt32.toNat_mod, toNat]
  · intro mask
    have index := lutIndex_eq tables multi hash
    simp only [lutIndex, mask, if_true] at index
    exact Except.ok.inj index

/-- After every notification the bitmaps hold what was last said about each queue, and the tables
agree with them. Every hash then selects an enabled queue, the one whose rank is the hash modulo
the number of enabled queues.
-/
theorem queue_tables_follow_notifications (id : Nat) (socketId : Int) (useJumbo : Bool)
    {changes : List VringChange} (some_change : changes ≠ [])
    (valid : ∀ change ∈ changes, change.queueId < 2 * maxMultiqueuePairs)
    : let vio := (vringStateChanges (.initial id socketId useJumbo) changes).vio
      (∀ pair, vio.rxQBitmap.getLsbD pair = true ↔ LastEnabled changes (2 * pair))
      ∧ (∀ pair, vio.txQBitmap.getLsbD pair = true ↔ LastEnabled changes (2 * pair + 1))
      ∧ vio.rxQActive = popcount vio.rxQBitmap
      ∧ ((Window.slice vio.rxQLut 0 vio.rxQActive).Pairwise (· < ·)
        ∧ ∀ pair, pair ∈ Window.slice vio.rxQLut 0 vio.rxQActive
          ↔ vio.rxQBitmap.getLsbD pair = true)
      ∧ (vio.pow2queues = true
        ↔ vio.rxQActive = 0 ∨ ∃ exponent, vio.rxQActive = 2 ^ exponent)
      ∧ (vio.rxQBitmap > 1
        → (∀ hash : UInt32,
            UInt32.ofNat vio.rxQActive ≠ 0
            ∧ (hash % UInt32.ofNat vio.rxQActive).toNat = hash.toNat % vio.rxQActive
            ∧ (vio.pow2queues = true
              → (hash &&& (UInt32.ofNat vio.rxQActive - 1)).toNat = hash.toNat % vio.rxQActive)
            ∧ lutIndex vio hash = .ok (hash.toNat % vio.rxQActive))
          ∧ ∀ pkt : Mbuf, ∃ queue,
            calcMbufQueue vio pkt = .ok { pkt with fdirId := .queue queue }
            ∧ queue = vio.rxQLut (pkt.headerHash.toNat % vio.rxQActive)
            ∧ vio.rxQBitmap.getLsbD queue = true) := by
  intro vio
  have bits (pair : Nat) := vringStateChanges_bits (.initial id socketId useJumbo) changes rfl rfl
    valid pair
  have tables : vio.QueueTables :=
    vringStateChanges_tables (by simp [Relay.initial]) valid some_change
  refine ⟨fun pair => (bits pair).1, fun pair => (bits pair).2, tables.active, ?_,
    tables.pow2queues_iff, fun multi => ⟨fun hash => ?_, fun pkt => ?_⟩⟩
  · rw [tables.lut]
    exact ⟨pairwise_setBits _, fun pair => mem_setBits⟩
  · obtain ⟨nonzero, division, mask⟩ := tables.paths_agree multi hash
    exact ⟨nonzero, division, mask, lutIndex_eq tables multi hash⟩
  · have rank : pkt.headerHash.toNat % vio.rxQActive < vio.rxQActive :=
      Nat.mod_lt _ (tables.active_pos multi)
    exact ⟨_, calcMbufQueue_eq tables multi pkt, rfl,
      mem_setBits.mp (List.mem_of_getElem? (tables.lut_eq rank))⟩

/-- Witness: of three pairs the one in the middle is disabled again. -/
theorem queue_tables_of_two_queues
    : let changes : List VringChange := [⟨0, true⟩, ⟨2, true⟩, ⟨4, true⟩, ⟨2, false⟩]
      let vio := (vringStateChanges (.initial 0 0 false) changes).vio
      vio.rxQBitmap > 1 ∧ ∀ hash, lutIndex vio hash = .ok (hash.toNat % vio.rxQActive) := by
  intro changes vio
  have multi : vio.rxQBitmap > 1 := by decide
  have tables := queue_tables_follow_notifications 0 0 false
    (List.cons_ne_nil ⟨0, true⟩ [⟨2, true⟩, ⟨4, true⟩, ⟨2, false⟩]) (by decide)
  exact ⟨multi, fun hash => ((tables.2.2.2.2.2 multi).1 hash).2.2.2⟩

end VirtioForwarder
