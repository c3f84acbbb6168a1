import VirtioForwarder.Library.Bits
import VirtioForwarder.Relay.State

/-! Enabling and disabling the rings of a guest, and the queue tables derived from them. -/

namespace VirtioForwarder

open Bits

/-- The loop that fills `rx_q_lut`: `while (bmp) { val = ffsl(bmp) - 1; ... }`. Each round
clears a set bit of the 32-bit word, so 32 rounds always reach the zero word.
-/
def populateLut : Nat → BitVec 32 → Nat → (Nat → Nat) → Nat → Nat
  | 0, _, _, lut => lut
  | rounds + 1, bmp, idx, lut =>
      if bmp = 0 then lut
      else
        let val := ffs bmp - 1
        populateLut rounds (bmp &&& ~~~(1#32 <<< val)) (idx + 1) (Function.update lut idx val)

/-- The tables of `struct relay_virtio` that the code derives from `rx_q_bitmap`. The loop
copies the bitmap into an `unsigned`, which keeps its low 32 bits.
-/
def RelayVirtio.deriveQueues (vio : RelayVirtio) : RelayVirtio :=
  let active := popcount vio.rxQBitmap
  { vio with
    pow2queues := active &&& (active - 1) = 0
    rxQLut := populateLut 32 (vio.rxQBitmap.setWidth 32) 0 vio.rxQLut
    rxQActive := active }

/-- `virtio_forwarder_vring_state_change` on a valid relay: odd queue ids are TX rings, even
ones are RX rings, and two rings make a pair.
-/
def vringStateChange (relay : Relay) (queueId : Nat) (enable : Bool) : Relay :=
  let pair := queueId / 2
  let vio :=
    if queueId % 2 = 1 then
      { relay.vio with txQBitmap := assignBit relay.vio.txQBitmap pair enable }
    else
      { relay.vio with rxQBitmap := assignBit relay.vio.rxQBitmap pair enable }
  { relay with vio := vio.deriveQueues }

/-- One ring notification: the queue id and whether the ring is enabled. -/
structure VringChange where
  queueId : Nat
  enable : Bool
  deriving DecidableEq, Repr

/-- A sequence of ring notifications, applied in order. -/
def vringStateChanges (relay : Relay) (changes : List VringChange) : Relay :=
  changes.foldl (fun relay change => vringStateChange relay change.queueId change.enable) relay

/-- With enough rounds, the loop writes the set bits in order from `idx` on.
Witness: induction on the rounds; each one clears the lowest set bit.
-/
theorem populateLut_eq_store {rounds : Nat} {bmp : BitVec 32} (idx : Nat) (lut : Nat → Nat)
    (h : popcount bmp ≤ rounds)
    : populateLut rounds bmp idx lut = Window.store lut idx (setBits bmp) := by
  induction rounds generalizing bmp idx lut with
  | zero =>
      have none : setBits bmp = [] := List.length_eq_zero_iff.mp (Nat.le_zero.mp h)
      simp [populateLut, none]
  | succ rounds ih =>
      cases bits : setBits bmp with
      | nil => simp [populateLut, setBits_eq_nil.mp bits]
      | cons lowest rest =>
          have nonzero : bmp ≠ 0 := fun zero => by simp [setBits_eq_nil.mpr zero] at bits
          have found : ffs bmp - 1 = lowest := by simp [ffs, bits]
          have cleared := setBits_clear_lowest bits
          have fewer : popcount (bmp &&& ~~~(1#32 <<< lowest)) ≤ rounds := by
            simp only [popcount, bits, List.length_cons] at h
            simp only [popcount, cleared]
            omega
          simp only [populateLut, nonzero, if_false, found]
          rw [ih _ _ fewer, cleared, Window.update_eq_store]
          exact Window.store_append lut idx [lowest] rest

/-- A word has at most as many set bits as bits. -/
theorem popcount_le {w : Nat} (word : BitVec w) : popcount word ≤ w := by
  simpa [popcount, setBits] using List.length_filter_le word.getLsbD (List.range w)

/-- The tables agree with `rx_q_bitmap`: the count, the power-of-two flag, and the table of
enabled pairs in increasing order; and only pairs with a table entry are enabled.
-/
structure RelayVirtio.QueueTables (vio : RelayVirtio) : Prop where
  pairs : ∀ pair, vio.rxQBitmap.getLsbD pair = true → pair < maxMultiqueuePairs
  active : vio.rxQActive = popcount vio.rxQBitmap
  pow2 : vio.pow2queues = decide (vio.rxQActive &&& (vio.rxQActive - 1) = 0)
  lut : Window.slice vio.rxQLut 0 vio.rxQActive = setBits vio.rxQBitmap

/-- Truncation keeps the set bits of a word whose set bits are all low. -/
theorem setBits_setWidth {word : BitVec 64} (h : ∀ i, word.getLsbD i = true → i < 32)
    : setBits (word.setWidth 32) = setBits word := by
  apply (pairwise_setBits _).eq_of_mem_iff (pairwise_setBits _)
  intro i
  simp only [mem_setBits, BitVec.getLsbD_setWidth, Bool.and_eq_true, decide_eq_true_eq,
    and_iff_right_iff_imp]
  exact h i

/-- Deriving the tables makes them agree with a bitmap of valid pairs. -/
theorem RelayVirtio.deriveQueues_tables {vio : RelayVirtio}
    (h : ∀ pair, vio.rxQBitmap.getLsbD pair = true → pair < maxMultiqueuePairs)
    : vio.deriveQueues.QueueTables := by
  refine ⟨h, rfl, rfl, ?_⟩
  simp only [RelayVirtio.deriveQueues]
  rw [populateLut_eq_store _ _ (popcount_le _), setBits_setWidth h]
  exact Window.slice_store ..

/-- A ring notification for a valid pair leaves tables that agree with the bitmap. -/
theorem vringStateChange_tables {relay : Relay} {queueId : Nat} {enable : Bool}
    (pairs : ∀ pair, relay.vio.rxQBitmap.getLsbD pair = true → pair < maxMultiqueuePairs)
    (valid : queueId < 2 * maxMultiqueuePairs)
    : (vringStateChange relay queueId enable).vio.QueueTables := by
  have bound : queueId / 2 < maxMultiqueuePairs := by omega
  apply RelayVirtio.deriveQueues_tables
  intro pair
  split
  · exact pairs pair
  · have wide : queueId / 2 < 64 := Nat.lt_trans bound (by decide)
    simp only [getLsbD_assignBit wide]
    split
    · rename_i same
      exact fun _ => same ▸ bound
    · exact pairs pair

/-- After at least one notification, and all of them valid, the tables agree with the
bitmap. Witness: induction on the notifications, keeping the bitmap inside the pairs.
-/
theorem vringStateChanges_tables {relay : Relay} {changes : List VringChange}
    (pairs : ∀ pair, relay.vio.rxQBitmap.getLsbD pair = true → pair < maxMultiqueuePairs)
    (valid : ∀ change ∈ changes, change.queueId < 2 * maxMultiqueuePairs)
    (some : changes ≠ [])
    : (vringStateChanges relay changes).vio.QueueTables := by
  induction changes generalizing relay with
  | nil => exact absurd rfl some
  | cons change changes ih =>
      have tables : (vringStateChange relay change.queueId change.enable).vio.QueueTables :=
        vringStateChange_tables pairs (valid change (by simp))
      by_cases last : changes = []
      · subst last
        exact tables
      · exact ih tables.pairs (fun later member => valid later (by simp [member])) last

end VirtioForwarder
