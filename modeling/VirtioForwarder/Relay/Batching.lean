import VirtioForwarder.Library.Grouping
import VirtioForwarder.Relay.Traffic

/-! What the loops of the multiqueue `virtio_tx` compute: batches by queue tag, the packets
written back into the cache, and the calls made for each queue.
-/

namespace VirtioForwarder

open Grouping

/-- The row of `q_pkts` that the code selects for a packet. -/
def Mbuf.queueTag (pkt : Mbuf) : Nat := pkt.fdirId.value

/-- Batching stays inside its arrays exactly for packets tagged below `active`, and then
appends each packet to the row of its tag. Witness: induction on the packets.
-/
theorem batchPkts_eq_ok_iff {active : Nat} {pkts : List Mbuf} {qPkts batches : Nat → List Mbuf}
    : batchPkts active pkts qPkts = .ok batches
      ↔ (∀ pkt ∈ pkts, pkt.queueTag < active)
        ∧ batches = fun q => qPkts q ++ group Mbuf.queueTag q pkts := by
  induction pkts generalizing qPkts with
  | nil => simp [batchPkts, eq_comm]
  | cons pkt pkts ih =>
      have rows : (fun q => Function.update qPkts pkt.queueTag
            (qPkts pkt.queueTag ++ [pkt]) q ++ group Mbuf.queueTag q pkts)
          = fun q => qPkts q ++ group Mbuf.queueTag q (pkt :: pkts) := by
        funext q
        by_cases same : q = pkt.queueTag
        · subst same
          simp [group]
        · simp [group, Function.update_of_ne same, Ne.symm same]
      by_cases bound : pkt.queueTag < active
      · have entered : batchPkts active (pkt :: pkts) qPkts = batchPkts active pkts
            (Function.update qPkts pkt.queueTag (qPkts pkt.queueTag ++ [pkt])) := by
          simp only [batchPkts]
          exact if_pos bound
        rw [entered, ih, rows]
        simp [bound]
      · have failed : batchPkts active (pkt :: pkts) qPkts = .error .outOfBounds := by
          simp only [batchPkts]
          exact if_neg bound
        rw [failed]
        simp [bound]

/-- The batching loop fails only by an index out of bounds. -/
theorem batchPkts_error {active : Nat} {pkts : List Mbuf} {qPkts : Nat → List Mbuf}
    {fault : Fault} (h : batchPkts active pkts qPkts = .error fault)
    : fault = .outOfBounds := by
  induction pkts generalizing qPkts with
  | nil => simp [batchPkts] at h
  | cons pkt pkts ih =>
      simp only [batchPkts] at h
      split at h
      · exact ih h
      · exact (Except.error.inj h).symm

/-- The write-back loop stores the packets from `j - 1` down to `sent`, last one first.
Witness: induction on `j`, splitting the last packet off the unsent ones.
-/
theorem putBack_eq (queue : List Mbuf) {sent j : Nat} (buf : Nat → Mbuf) (pos : Nat)
    (hs : sent ≤ j) (hj : j ≤ queue.length)
    : putBack queue sent j buf pos
      = (Window.store buf pos ((queue.take j).drop sent).reverse, pos + (j - sent)) := by
  induction j generalizing buf pos with
  | zero => simp [putBack]
  | succ j ih =>
      by_cases last : j + 1 > sent
      · have unsent : (queue.take (j + 1)).drop sent
            = (queue.take j).drop sent ++ [queue[j]] := by
          rw [List.take_succ_eq_append_getElem (by omega), List.drop_append_of_le_length]
          simp only [List.length_take]
          omega
        have cell : queue.getD j (buf pos) = queue[j] :=
          List.getD_eq_getElem _ _ (by omega)
        simp only [putBack, last, if_true]
        rw [ih _ _ (by omega) (by omega), cell, Window.update_eq_store, unsent,
          List.reverse_append, ← Window.store_append]
        simp only [List.reverse_singleton, List.length_singleton, Prod.mk.injEq, true_and]
        omega
      · have all : sent = j + 1 := by omega
        subst all
        simp [putBack]

/-- The number of packets of queue `i` that the guest takes in this call. -/
def sentOn (io : VfToVmIO) (qPkts : Nat → List Mbuf) (i : Nat) : Nat :=
  min (io.enqueueAccepted (i * 2)) (qPkts i).length

/-- The packets of queue `i` that return to the cache, in the order written there. -/
def leftover (io : VfToVmIO) (qPkts : Nat → List Mbuf) (i : Nat) : List Mbuf :=
  ((qPkts i).drop (sentOn io qPkts i)).reverse

/-- The calls made for queue `i`. -/
def sendActions (io : VfToVmIO) (qPkts : Nat → List Mbuf) (i : Nat) : List Action :=
  if qPkts i = [] then []
  else .enqueueBurst (i * 2) (qPkts i) (sentOn io qPkts i)
    :: ((qPkts i).take (sentOn io qPkts i)).reverse.map .free

/-- One round writes the leftover packets at the running position and adds its calls.
Witness: an empty queue has no leftover and no calls; else use the write-back loop.
-/
theorem sendQueue_eq (io : VfToVmIO) (qPkts : Nat → List Mbuf) (s : SendState) (i : Nat)
    : (sendQueue io qPkts s i).buf = Window.store s.buf s.pos (leftover io qPkts i)
      ∧ (sendQueue io qPkts s i).pos = s.pos + (leftover io qPkts i).length
      ∧ (sendQueue io qPkts s i).actions = s.actions ++ sendActions io qPkts i
      ∧ (sendQueue io qPkts s i).stats.vioTx
          = s.stats.vioTx + UInt64.ofNat (sentOn io qPkts i) := by
  by_cases empty : qPkts i = []
  · simp [sendQueue, sendActions, leftover, sentOn, empty]
  · have sent : sentOn io qPkts i ≤ (qPkts i).length := Nat.min_le_right ..
    have back := putBack_eq (qPkts i) s.buf s.pos sent (Nat.le_refl _)
    have unfolded : sendQueue io qPkts s i = {
        buf := (putBack (qPkts i) (sentOn io qPkts i) (qPkts i).length s.buf s.pos).1
        pos := (putBack (qPkts i) (sentOn io qPkts i) (qPkts i).length s.buf s.pos).2
        stats := { s.stats with
          vioTx := s.stats.vioTx + UInt64.ofNat (sentOn io qPkts i)
          vioTxBytes := s.stats.vioTxBytes
            + (burstBytes ((qPkts i).take (sentOn io qPkts i))).toUInt64 }
        actions := s.actions ++ [.enqueueBurst (i * 2) (qPkts i) (sentOn io qPkts i)]
          ++ ((qPkts i).take (sentOn io qPkts i)).reverse.map .free } := if_neg empty
    rw [unfolded, back]
    simp [leftover, sendActions, empty, List.take_length]

/-- The send loop touches no counter but the two of packets sent to the guest. -/
theorem sendQueue_stats (io : VfToVmIO) (qPkts : Nat → List Mbuf) (s : SendState) (i : Nat)
    : (sendQueue io qPkts s i).stats
      = { s.stats with
          vioTx := (sendQueue io qPkts s i).stats.vioTx
          vioTxBytes := (sendQueue io qPkts s i).stats.vioTxBytes } := by
  by_cases empty : qPkts i = []
  · simp [sendQueue, empty]
  · simp [sendQueue, empty]

/-- The whole send loop: leftovers of all queues one behind the other, in queue order, and
the calls of all queues in that order. Witness: induction on the queues.
-/
theorem sendQueues_eq (io : VfToVmIO) (qPkts : Nat → List Mbuf) (queues : List Nat)
    (s : SendState)
    : (queues.foldl (sendQueue io qPkts) s).buf
        = Window.store s.buf s.pos (queues.flatMap (leftover io qPkts))
      ∧ (queues.foldl (sendQueue io qPkts) s).pos
        = s.pos + (queues.flatMap (leftover io qPkts)).length
      ∧ (queues.foldl (sendQueue io qPkts) s).actions
        = s.actions ++ queues.flatMap (sendActions io qPkts)
      ∧ (queues.foldl (sendQueue io qPkts) s).stats.vioTx
        = s.stats.vioTx + UInt64.ofNat (queues.map (sentOn io qPkts)).sum := by
  induction queues generalizing s with
  | nil => simp
  | cons i queues ih =>
      obtain ⟨buf, pos, actions, sent⟩ := sendQueue_eq io qPkts s i
      obtain ⟨buf', pos', actions', sent'⟩ := ih (sendQueue io qPkts s i)
      simp only [List.foldl_cons, List.flatMap_cons, List.map_cons, List.sum_cons]
      refine ⟨?_, ?_, ?_, ?_⟩
      · rw [buf', buf, pos, Window.store_append]
      · rw [pos', pos, List.length_append, Nat.add_assoc]
      · rw [actions', actions, List.append_assoc]
      · rw [sent', sent, UInt64.ofNat_add, UInt64.add_assoc]

/-- The whole send loop touches no other counter, by induction on the queues. -/
theorem sendQueues_stats (io : VfToVmIO) (qPkts : Nat → List Mbuf) (queues : List Nat)
    (s : SendState)
    : (queues.foldl (sendQueue io qPkts) s).stats
      = { s.stats with
          vioTx := (queues.foldl (sendQueue io qPkts) s).stats.vioTx
          vioTxBytes := (queues.foldl (sendQueue io qPkts) s).stats.vioTxBytes } := by
  induction queues generalizing s with
  | nil => rfl
  | cons i queues ih =>
      rw [List.foldl_cons, ih, sendQueue_stats]

/-- The batches of the buffered packets. -/
def Relay.batches (relay : Relay) (q : Nat) : List Mbuf :=
  group Mbuf.queueTag q relay.dpdk.rxPkts.window

/-- What a multiqueue `virtio_tx` that returns has done: every buffered tag was in range,
the cache holds the leftovers of all queues in queue order, and the calls went out queue
by queue.
-/
structure MultiSent (relay : Relay) (io : VfToVmIO) (out : Outcome) : Prop where
  tags : ∀ pkt ∈ relay.dpdk.rxPkts.window, pkt.queueTag < relay.vio.rxQActive
  window
    : out.relay.dpdk.rxPkts.window
      = (List.range relay.vio.rxQActive).flatMap (leftover io relay.batches)
  used : out.relay.dpdk.rxPkts.used = relay.dpdk.rxPkts.used
  actions
    : out.actions = (List.range relay.vio.rxQActive).flatMap (sendActions io relay.batches)
  vioTx
    : out.relay.stats.vioTx
      = relay.stats.vioTx
        + UInt64.ofNat ((List.range relay.vio.rxQActive).map (sentOn io relay.batches)).sum
  frame
    : out.relay
      = { relay.setRxPkts out.relay.dpdk.rxPkts with
          stats := { relay.stats with
            vioTx := out.relay.stats.vioTx, vioTxBytes := out.relay.stats.vioTxBytes } }
  ret : out.ret = 0

/-- A multiqueue call that returns has the effect above, by the batching loop followed by
the send loop.
-/
theorem virtioTxMulti_eq_ok {relay : Relay} {io : VfToVmIO} {out : Outcome}
    (h : virtioTxMulti relay io = .ok out)
    : MultiSent relay io out := by
  cases batched : batchPkts relay.vio.rxQActive relay.dpdk.rxPkts.window fun _ => [] with
  | error fault => simp [virtioTxMulti, batched, bind, Except.bind] at h
  | ok qPkts =>
      obtain ⟨tags, rows⟩ := batchPkts_eq_ok_iff.mp batched
      have same : qPkts = relay.batches := rows
      subst same
      simp only [virtioTxMulti, batched, bind, Except.bind, pure, Except.pure,
        Except.ok.injEq] at h
      let start : SendState :=
        ⟨relay.dpdk.rxPkts.pkts, relay.dpdk.rxPkts.used, relay.stats, []⟩
      obtain ⟨buf, pos, actions, sent⟩ := sendQueues_eq io relay.batches
        (List.range relay.vio.rxQActive) start
      have stats := sendQueues_stats io relay.batches
        (List.range relay.vio.rxQActive) start
      subst h
      refine ⟨tags, ?_, rfl, ?_, sent, ?_, rfl⟩
      · simp only [Relay.setRxPkts, PktCache.window]
        rw [buf, pos, Nat.add_sub_cancel_left]
        exact Window.slice_store ..
      · simpa [start] using actions
      · rw [stats]
        rfl

/-- Every buffered tag in range is enough for the multiqueue call to return. -/
theorem virtioTxMulti_returns {relay : Relay} (io : VfToVmIO)
    (tags : ∀ pkt ∈ relay.dpdk.rxPkts.window, pkt.queueTag < relay.vio.rxQActive)
    : ∃ out, virtioTxMulti relay io = .ok out := by
  have batched : batchPkts relay.vio.rxQActive relay.dpdk.rxPkts.window (fun _ => [])
      = .ok _ := batchPkts_eq_ok_iff.mpr ⟨tags, rfl⟩
  simp [virtioTxMulti, batched, bind, Except.bind, pure, Except.pure]

end VirtioForwarder
