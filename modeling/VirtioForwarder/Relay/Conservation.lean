import Mathlib.Algebra.Order.Group.Multiset
import Mathlib.Tactic.Abel
import VirtioForwarder.Relay.Effects

/-! Packet conservation on every run of a relay.
The counters balance, every mbuf received is in exactly one place, and the two cache
windows stay inside their arrays, whatever the control threads and the drivers do.
-/

namespace VirtioForwarder

open Grouping

/-- The mbufs a call delivers to the relay. -/
def Action.received : Action → List Mbuf
  | .dequeueBurst _ pkts => pkts
  | .rxBurst pkts => pkts
  | _ => []

/-- The mbufs a call hands over to the VF driver. -/
def Action.handed : Action → List Mbuf
  | .txBurst offered sent => offered.take sent
  | _ => []

/-- The mbufs a call gives back to their pool. -/
def Action.freed : Action → List Mbuf
  | .free pkt => [pkt]
  | _ => []

/-- All mbufs received in the trace, with multiplicity. -/
def received (trace : List Action) : Multiset Mbuf := trace.flatMap Action.received

/-- All mbufs handed to the VF driver in the trace, with multiplicity. -/
def handed (trace : List Action) : Multiset Mbuf := trace.flatMap Action.handed

/-- All mbufs freed in the trace, with multiplicity. -/
def freed (trace : List Action) : Multiset Mbuf := trace.flatMap Action.freed

/-- The mbufs still in one of the two cache windows. -/
def Relay.cached (relay : Relay) : Multiset Mbuf :=
  relay.vio.txPkts.window + relay.dpdk.rxPkts.window

@[simp]
theorem received_append (first second : List Action)
    : received (first ++ second) = received first + received second := by
  simp [received]

@[simp]
theorem handed_append (first second : List Action)
    : handed (first ++ second) = handed first + handed second := by
  simp [handed]

@[simp]
theorem freed_append (first second : List Action)
    : freed (first ++ second) = freed first + freed second := by
  simp [freed]

/-- Freeing a burst frees its packets and neither receives nor hands over any. -/
theorem free_burst (pkts : List Mbuf)
    : received (pkts.reverse.map .free) = 0
      ∧ handed (pkts.reverse.map .free) = 0
      ∧ freed (pkts.reverse.map .free) = pkts := by
  refine ⟨by simp [received, Action.received], by simp [handed, Action.handed], ?_⟩
  have flat : (pkts.reverse.map Action.free).flatMap Action.freed = pkts.reverse := by
    induction pkts.reverse with
    | nil => rfl
    | cons pkt rest ih => simpa [Action.freed] using ih
  rw [freed, flat]
  simp

/-- The VM-to-VF counters account for every packet received from the guest. -/
def Relay.VmToVfBalanced (relay : Relay) : Prop :=
  relay.stats.vioRx
    = relay.stats.dpdkTx + relay.stats.dpdkDropFull + relay.stats.dpdkDropUnavail
      + UInt64.ofNat relay.vio.txPkts.avail

/-- The VF-to-VM counters account for every packet received from the VF. -/
def Relay.VfToVmBalanced (relay : Relay) : Prop :=
  relay.stats.dpdkRx
    = relay.stats.vioTx + relay.stats.vioDropFull + relay.stats.vioDropUnavail
      + UInt64.ofNat relay.dpdk.rxPkts.avail

/-- Both cache windows lie inside their arrays. -/
def Relay.Bounded (relay : Relay) : Prop :=
  relay.vio.txPkts.used + relay.vio.txPkts.avail ≤ burstLen
  ∧ relay.dpdk.rxPkts.used + relay.dpdk.rxPkts.avail ≤ burstLen

/-- A piece of a worker iteration that keeps the books: balances and bounds survive it,
and it loses and duplicates no mbuf.
-/
structure Accounted (before : Relay) (actions : List Action) (after : Relay) : Prop where
  vmToVf : before.VmToVfBalanced → after.VmToVfBalanced
  vfToVm : before.VfToVmBalanced → after.VfToVmBalanced
  mbufs
    : received actions + before.cached = handed actions + freed actions + after.cached
  bounded : before.Bounded → after.Bounded

/-- Doing nothing keeps the books. -/
theorem Accounted.refl (relay : Relay) : Accounted relay [] relay :=
  ⟨id, id, by simp [received, handed, freed], id⟩

/-- Accounted pieces compose; mbufs in between stay in the caches. -/
theorem Accounted.trans {first middle last : Relay} {early late : List Action}
    (hl : Accounted first early middle) (hr : Accounted middle late last)
    : Accounted first (early ++ late) last := by
  refine ⟨hr.vmToVf ∘ hl.vmToVf, hr.vfToVm ∘ hl.vfToVm, ?_, hr.bounded ∘ hl.bounded⟩
  calc received (early ++ late) + first.cached
      = received late + (received early + first.cached) := by rw [received_append]; abel
    _ = handed early + freed early + (received late + middle.cached) := by
        rw [hl.mbufs]; abel
    _ = handed (early ++ late) + freed (early ++ late) + last.cached := by
        rw [hr.mbufs, handed_append, freed_append]; abel

/-- Writing a state field moves no packet. -/
theorem Accounted.setVioState {before after : Relay} {actions : List Action}
    (h : Accounted before actions after) (state : VioState)
    : Accounted before actions (after.setVioState state) :=
  ⟨h.vmToVf, h.vfToVm, h.mbufs, h.bounded⟩

/-- Writing a state field moves no packet. -/
theorem Accounted.setDpdkState {before after : Relay} {actions : List Action}
    (h : Accounted before actions after) (state : DpdkState)
    : Accounted before actions (after.setDpdkState state) :=
  ⟨h.vmToVf, h.vfToVm, h.mbufs, h.bounded⟩

/-- Sent and remaining packets make up the old window. -/
theorem PktCache.take_add_advance (cache : PktCache) {sent : Nat} (h : sent ≤ cache.avail)
    : ((cache.window.take sent : List Mbuf) : Multiset Mbuf)
        + ((cache.advance sent).window : List Mbuf)
      = (cache.window : List Mbuf) := by
  rw [cache.window_advance h, Multiset.coe_add, List.take_append_drop]

/-- A counter that grows by the packets sent balances a window that shrinks by them. -/
theorem ofNat_sent_add_rest {sent avail : Nat} (h : sent ≤ avail)
    : UInt64.ofNat sent + UInt64.ofNat (avail - sent) = UInt64.ofNat avail := by
  rw [← UInt64.ofNat_add, Nat.add_sub_cancel' h]

/-- `virtio_rx` on an empty cache: the burst becomes the window. -/
theorem virtioRx_accounted {relay : Relay} {io : VmToVfIO} {out : Outcome}
    (h : virtioRx relay io = .ok out) (empty : relay.vio.txPkts.avail = 0)
    : Accounted relay out.actions out.relay := by
  rcases virtioRx_cases h with ⟨_, rfl⟩ | ⟨_, pkts, rr, bytes, limit, actions, after⟩
  · exact .refl relay
  · have nothing := PktCache.window_eq_nil empty
    rw [after]
    refine ⟨?_, id, ?_, ?_⟩
    · intro balanced
      simp only [Relay.VmToVfBalanced, empty] at balanced
      simp only [Relay.VmToVfBalanced, PktCache.receive, balanced]
      simp
    · rcases actions with polled | ⟨idle, none⟩
      · simp [polled, nothing, Relay.cached, received, handed, freed, Action.received,
          Action.handed, Action.freed]
      · simp [idle, none, nothing, Relay.cached, received, handed, freed]
    · intro bound
      refine ⟨?_, bound.2⟩
      simpa [PktCache.receive] using limit

/-- `dpdk_tx`: the accepted packets leave the window and are handed over. -/
theorem dpdkTx_accounted {relay : Relay} {io : VmToVfIO} {out : Outcome}
    (h : dpdkTx relay io = .ok out)
    : Accounted relay out.actions out.relay := by
  rcases dpdkTx_cases h with ⟨_, rfl⟩ | ⟨_, sent, bytes, limit, actions, _, after⟩
  · exact .refl relay
  · have rest := ofNat_sent_add_rest limit
    have moved := relay.vio.txPkts.take_add_advance limit
    rw [after, actions]
    refine ⟨?_, id, ?_, ?_⟩
    · intro balanced
      simp only [Relay.VmToVfBalanced] at balanced
      simp only [Relay.VmToVfBalanced, Relay.setTxPkts, PktCache.advance, balanced, ← rest]
      ac_rfl
    · simp only [received, handed, freed, Relay.cached, Relay.setTxPkts, List.flatMap_cons,
        List.flatMap_nil, List.append_nil, Action.received, Action.handed, Action.freed,
        Multiset.coe_nil, zero_add, add_zero, ← moved, add_assoc]
    · intro bound
      have inside := bound.1
      refine ⟨?_, bound.2⟩
      simp only [Relay.setTxPkts, PktCache.advance]
      omega

/-- Emptying the TX cache: its packets are freed and counted as unavailable. -/
theorem freeTx_accounted (relay : Relay) {used : Nat} (hu : used ≤ relay.vio.txPkts.used)
    : Accounted relay relay.vio.txPkts.freeAll
        { relay.setTxPkts { relay.vio.txPkts with avail := 0, used := used } with
          stats := { relay.stats with
            dpdkDropUnavail := relay.stats.dpdkDropUnavail
              + UInt64.ofNat relay.vio.txPkts.avail } } := by
  obtain ⟨hr, hh, hf⟩ := free_burst relay.vio.txPkts.window
  refine ⟨?_, id, ?_, ?_⟩
  · intro balanced
    simp only [Relay.VmToVfBalanced] at balanced
    simp only [Relay.VmToVfBalanced, Relay.setTxPkts, balanced]
    grind
  · simp only [PktCache.freeAll, hr, hh, hf, Relay.cached, Relay.setTxPkts, zero_add]
    simp [PktCache.window_eq_nil]
  · intro bound
    have inside := bound.1
    refine ⟨?_, bound.2⟩
    simp only [Relay.setTxPkts]
    omega

/-- Emptying the RX cache: its packets are freed and counted as unavailable. -/
theorem freeRx_accounted (relay : Relay) {used : Nat} (hu : used ≤ relay.dpdk.rxPkts.used)
    : Accounted relay relay.dpdk.rxPkts.freeAll
        { relay.setRxPkts { relay.dpdk.rxPkts with avail := 0, used := used } with
          stats := { relay.stats with
            vioDropUnavail := relay.stats.vioDropUnavail
              + UInt64.ofNat relay.dpdk.rxPkts.avail } } := by
  obtain ⟨hr, hh, hf⟩ := free_burst relay.dpdk.rxPkts.window
  refine ⟨id, ?_, ?_, ?_⟩
  · intro balanced
    simp only [Relay.VfToVmBalanced] at balanced
    simp only [Relay.VfToVmBalanced, Relay.setRxPkts, balanced]
    grind
  · simp only [PktCache.freeAll, hr, hh, hf, Relay.cached, Relay.setRxPkts, zero_add]
    simp [PktCache.window_eq_nil, List.perm_append_comm]
  · intro bound
    have inside := bound.2
    refine ⟨bound.1, ?_⟩
    simp only [Relay.setRxPkts]
    omega

/-- The cleanup of the TX cache keeps the books. -/
theorem clearTxPkts_accounted (relay : Relay)
    : Accounted relay (clearTxPkts relay).actions (clearTxPkts relay).relay := by
  unfold clearTxPkts
  split
  · exact freeTx_accounted relay (Nat.zero_le _)
  · exact .refl relay

/-- The cleanup of the RX cache keeps the books. -/
theorem clearRxPkts_accounted (relay : Relay)
    : Accounted relay (clearRxPkts relay).actions (clearRxPkts relay).relay := by
  unfold clearRxPkts
  split
  · exact freeRx_accounted relay (Nat.zero_le _)
  · exact .refl relay

/-- `dpdk_rx` on an empty cache: the burst becomes the window. -/
theorem dpdkRx_accounted {relay : Relay} {io : VfToVmIO} {out : Outcome}
    (h : dpdkRx relay io = .ok out) (empty : relay.dpdk.rxPkts.avail = 0)
    : Accounted relay out.actions out.relay := by
  rcases dpdkRx_cases h with ⟨_, rfl⟩ | ⟨_, pkts, bytes, limit, _, actions, after⟩
  · exact .refl relay
  · have nothing := PktCache.window_eq_nil empty
    rw [after, actions]
    refine ⟨id, ?_, ?_, ?_⟩
    · intro balanced
      simp only [Relay.VfToVmBalanced, empty] at balanced
      simp only [Relay.VfToVmBalanced, Relay.setRxPkts, PktCache.receive, balanced]
      simp
    · simp [nothing, Relay.cached, Relay.setRxPkts, received, handed, freed, Action.received,
        Action.handed, Action.freed, add_comm]
    · intro bound
      refine ⟨bound.1, ?_⟩
      simpa [Relay.setRxPkts, PktCache.receive] using limit

/-- The calls for one queue free what the guest took; the leftover completes the batch. -/
theorem sendActions_accounted (io : VfToVmIO) (qPkts : Nat → List Mbuf) (i : Nat)
    : received (sendActions io qPkts i) = 0
      ∧ handed (sendActions io qPkts i) = 0
      ∧ freed (sendActions io qPkts i) + (leftover io qPkts i : List Mbuf)
        = (qPkts i : List Mbuf) := by
  by_cases empty : qPkts i = []
  · simp [sendActions, leftover, empty, received, handed, freed]
  · obtain ⟨hr, hh, hf⟩ := free_burst ((qPkts i).take (sentOn io qPkts i))
    have calls : sendActions io qPkts i
        = [.enqueueBurst (i * 2) (qPkts i) (sentOn io qPkts i)]
          ++ ((qPkts i).take (sentOn io qPkts i)).reverse.map .free := by
      simp [sendActions, empty]
    rw [calls, received_append, handed_append, freed_append, hr, hh, hf]
    refine ⟨rfl, rfl, ?_⟩
    have enqueue : freed [.enqueueBurst (i * 2) (qPkts i) (sentOn io qPkts i)] = 0 := rfl
    rw [enqueue, leftover, zero_add, Multiset.coe_reverse, Multiset.coe_add,
      List.take_append_drop]

/-- The calls of the whole send loop free what the guest took, by induction on the queues.
-/
theorem flatMap_sendActions_accounted (io : VfToVmIO) (qPkts : Nat → List Mbuf)
    (queues : List Nat)
    : received (queues.flatMap (sendActions io qPkts)) = 0
      ∧ handed (queues.flatMap (sendActions io qPkts)) = 0
      ∧ freed (queues.flatMap (sendActions io qPkts))
          + (queues.flatMap (leftover io qPkts) : List Mbuf)
        = (queues.flatMap qPkts : List Mbuf) := by
  induction queues with
  | nil => exact ⟨rfl, rfl, rfl⟩
  | cons i queues ih =>
      obtain ⟨hr, hh, hf⟩ := sendActions_accounted io qPkts i
      obtain ⟨hrs, hhs, hfs⟩ := ih
      simp only [List.flatMap_cons, received_append, handed_append, freed_append, hr, hh, hrs,
        hhs, ← Multiset.coe_add, ← hf, ← hfs]
      refine ⟨rfl, rfl, ?_⟩
      abel

/-- Packets sent and packets left over add up to the packets batched. -/
theorem sum_sentOn_add_leftover (io : VfToVmIO) (qPkts : Nat → List Mbuf) (queues : List Nat)
    : (queues.map (sentOn io qPkts)).sum + (queues.flatMap (leftover io qPkts)).length
      = (queues.flatMap qPkts).length := by
  induction queues with
  | nil => rfl
  | cons i queues ih =>
      have sent : sentOn io qPkts i ≤ (qPkts i).length := Nat.min_le_right ..
      simp only [List.map_cons, List.sum_cons, List.flatMap_cons, List.length_append, leftover,
        List.length_reverse, List.length_drop] at ih ⊢
      omega

/-- The multiqueue `virtio_tx`: every batch splits into packets freed and packets put back.
-/
theorem MultiSent.accounted {relay : Relay} {io : VfToVmIO} {out : Outcome}
    (h : MultiSent relay io out)
    : Accounted relay out.actions out.relay := by
  let queues := List.range relay.vio.rxQActive
  have batched : (queues.flatMap relay.batches).Perm relay.dpdk.rxPkts.window :=
    flatMap_group_perm_of_lt h.tags
  have total := sum_sentOn_add_leftover io relay.batches queues
  have length : out.relay.dpdk.rxPkts.avail
      = (queues.flatMap (leftover io relay.batches)).length := by
    rw [← h.window, PktCache.length_window]
  rw [batched.length_eq, ← length, PktCache.length_window] at total
  have tx : out.relay.vio = relay.vio := by rw [h.frame]; rfl
  refine ⟨?_, ?_, ?_, ?_⟩
  · intro balanced
    rw [h.frame]
    exact balanced
  · intro balanced
    have counted : UInt64.ofNat relay.dpdk.rxPkts.avail
        = UInt64.ofNat (queues.map (sentOn io relay.batches)).sum
          + UInt64.ofNat out.relay.dpdk.rxPkts.avail := by
      rw [← total, UInt64.ofNat_add]
    have sent := h.vioTx
    simp only [Relay.VfToVmBalanced] at balanced ⊢
    rw [sent]
    rw [h.frame]
    simp only [balanced, counted, queues, Relay.setRxPkts]
    ac_rfl
  · obtain ⟨hr, hh, hf⟩ := flatMap_sendActions_accounted io relay.batches queues
    rw [h.actions, hr, hh, zero_add, zero_add, Relay.cached, Relay.cached, tx, h.window,
      ← Multiset.coe_eq_coe.mpr batched, ← hf]
    abel
  · intro bound
    have inside := bound.2
    refine ⟨tx ▸ bound.1, ?_⟩
    rw [h.used]
    omega

/-- The single-queue `virtio_tx`: the accepted packets leave the window and are freed. -/
theorem SingleSent.accounted {relay : Relay} {out : Outcome} {sent : Nat}
    (h : SingleSent relay out sent)
    : Accounted relay out.actions out.relay := by
  obtain ⟨hr, hh, hf⟩ := free_burst (relay.dpdk.rxPkts.window.take sent)
  have rest := ofNat_sent_add_rest h.le_avail
  have moved := relay.dpdk.rxPkts.take_add_advance h.le_avail
  rw [h.relay_eq, h.actions]
  refine ⟨id, ?_, ?_, ?_⟩
  · intro balanced
    simp only [Relay.VfToVmBalanced] at balanced
    simp only [Relay.VfToVmBalanced, Relay.setRxPkts, PktCache.advance, balanced, ← rest]
    ac_rfl
  · rw [← List.singleton_append, received_append, handed_append, freed_append, hr, hh, hf]
    simp only [Relay.cached, Relay.setRxPkts, ← moved, received, handed, freed,
      List.flatMap_cons, List.flatMap_nil, Action.received, Action.handed, Action.freed]
    simp only [List.append_nil, Multiset.coe_nil, zero_add, add_zero]
    abel
  · intro bound
    have inside := bound.2
    have limit := h.le_avail
    refine ⟨bound.1, ?_⟩
    simp only [Relay.setRxPkts, PktCache.advance]
    omega

/-- `virtio_tx` keeps the books in both modes. -/
theorem virtioTx_accounted {relay : Relay} {io : VfToVmIO} {out : Outcome}
    (h : virtioTx relay io = .ok out)
    : Accounted relay out.actions out.relay := by
  rcases virtioTx_cases h with ⟨_, rfl⟩ | ⟨_, _, sent⟩ | ⟨_, _, sent⟩
  · exact .refl relay
  · exact sent.accounted
  · exact sent.accounted

/-- Dropping unsent packets for the VF keeps the books. -/
theorem dropTxPkts_accounted (relay : Relay) (sent : Int)
    : Accounted relay (dropTxPkts relay sent).actions (dropTxPkts relay sent).relay := by
  unfold dropTxPkts
  split
  · exact freeTx_accounted relay (Nat.le_refl _)
  · exact .refl relay

/-- Dropping unsent packets for the guest keeps the books. -/
theorem dropRxPkts_accounted (relay : Relay) (sent : Int)
    : Accounted relay (dropRxPkts relay sent).actions (dropRxPkts relay sent).relay := by
  unfold dropRxPkts
  split
  · exact freeRx_accounted relay (Nat.le_refl _)
  · exact .refl relay

/-- The end of a VF removal frees both caches and moves no other packet. -/
theorem finishVfRemoval_accounted (relay : Relay)
    : Accounted relay (finishVfRemoval relay).actions (finishVfRemoval relay).relay := by
  unfold finishVfRemoval
  split
  · exact ((clearRxPkts_accounted relay).trans (clearTxPkts_accounted _)).setDpdkState _
  · exact .refl relay

/-- The end of a virtio removal frees both caches and moves no other packet. -/
theorem finishVirtioRemoval_accounted (relay : Relay)
    : Accounted relay (finishVirtioRemoval relay).actions (finishVirtioRemoval relay).relay := by
  unfold finishVirtioRemoval
  split
  · exact ((clearRxPkts_accounted relay).trans (clearTxPkts_accounted _)).setVioState _
  · exact .refl relay

/-- The virtio handshake only writes a state. -/
theorem releaseVirtio_accounted (relay : Relay) : Accounted relay [] (releaseVirtio relay) := by
  unfold releaseVirtio
  split
  · split <;> exact (Accounted.refl relay).setVioState _
  · exact .refl relay

/-- The VF handshake only writes a state. -/
theorem releaseVf_accounted (relay : Relay) : Accounted relay [] (releaseVf relay) := by
  unfold releaseVf
  split
  · split <;> exact (Accounted.refl relay).setDpdkState _
  · exact .refl relay

/-- Fetching from the guest keeps the books; it happens on an empty cache only. -/
theorem fetchFromVm_accounted {relay : Relay} {io : VmToVfIO} {rx : Outcome}
    (h : fetchFromVm relay io = .ok rx)
    : Accounted relay rx.actions rx.relay := by
  unfold fetchFromVm at h
  split at h
  · exact virtioRx_accounted h ‹_›
  · cases Except.ok.inj h
    exact .refl relay

/-- Sending to the VF keeps the books. -/
theorem sendToVf_accounted {relay : Relay} {io : VmToVfIO} {tx : Outcome}
    (h : sendToVf relay io = .ok tx)
    : Accounted relay tx.actions tx.relay := by
  unfold sendToVf at h
  split at h
  · exact dpdkTx_accounted h
  · cases Except.ok.inj h
    exact .refl relay

/-- Fetching from the VF keeps the books; it happens on an empty cache only. -/
theorem fetchFromVf_accounted {relay : Relay} {io : VfToVmIO} {rx : Outcome}
    (h : fetchFromVf relay io = .ok rx)
    : Accounted relay rx.actions rx.relay := by
  unfold fetchFromVf at h
  split at h
  · exact dpdkRx_accounted h ‹_›
  · cases Except.ok.inj h
    exact .refl relay

/-- Sending to the guest keeps the books. -/
theorem sendToVm_accounted {relay : Relay} {io : VfToVmIO} {tx : Outcome}
    (h : sendToVm relay io = .ok tx)
    : Accounted relay tx.actions tx.relay := by
  unfold sendToVm at h
  split at h
  · exact virtioTx_accounted h
  · cases Except.ok.inj h
    exact .refl relay

/-- A VM-to-VF iteration keeps the books, by composing its parts. -/
theorem relayVm2vfTraffic_accounted {relay : Relay} {io : VmToVfIO} {out : Outcome}
    (h : relayVm2vfTraffic relay io = .ok out)
    : Accounted relay out.actions out.relay := by
  obtain ⟨rx, tx, fetched, sent, after, actions⟩ := relayVm2vfTraffic_parts h
  rw [after, actions]
  have dropped := ((fetchFromVm_accounted fetched).trans (sendToVf_accounted sent)).trans
    (dropTxPkts_accounted tx.relay tx.ret)
  simpa using (dropped.trans (releaseVirtio_accounted _)).trans (finishVfRemoval_accounted _)

/-- A VF-to-VM iteration keeps the books, by composing its parts. -/
theorem relayVf2vmTraffic_accounted {relay : Relay} {io : VfToVmIO} {out : Outcome}
    (h : relayVf2vmTraffic relay io = .ok out)
    : Accounted relay out.actions out.relay := by
  obtain ⟨rx, tx, fetched, sent, after, actions⟩ := relayVf2vmTraffic_parts h
  rw [after, actions]
  have dropped := ((fetchFromVf_accounted fetched).trans (sendToVm_accounted sent)).trans
    (dropRxPkts_accounted tx.relay tx.ret)
  simpa using (dropped.trans (finishVirtioRemoval_accounted _)).trans (releaseVf_accounted _)

/-- No assertion of a VM-to-VF iteration fails while the windows are inside their arrays.
Witness: the fetch keeps the bound, and `dpdk_tx` cannot move `tx_pkts_used` behind it.
-/
theorem relayVm2vfTraffic_asserts {relay : Relay} (bound : relay.Bounded) (io : VmToVfIO)
    : relayVm2vfTraffic relay io ≠ .error .assertFailed := by
  intro failed
  rcases relayVm2vfTraffic_error failed with fetching | ⟨rx, fetched, sending⟩
  · unfold fetchFromVm at fetching
    split at fetching
    · cases virtioRx_error fetching
    · cases fetching
  · have inside := ((fetchFromVm_accounted fetched).bounded bound).1
    unfold sendToVf at sending
    split at sending
    · have outside := dpdkTx_error sending
      omega
    · cases sending

/-- No assertion of a VF-to-VM iteration fails while the windows are inside their arrays. -/
theorem relayVf2vmTraffic_asserts {relay : Relay} (bound : relay.Bounded) (io : VfToVmIO)
    : relayVf2vmTraffic relay io ≠ .error .assertFailed := by
  intro failed
  rcases relayVf2vmTraffic_error failed with fetching | ⟨rx, fetched, sending⟩
  · unfold fetchFromVf at fetching
    split at fetching
    · exact dpdkRx_error fetching rfl
    · cases fetching
  · have inside := ((fetchFromVf_accounted fetched).bounded bound).2
    unfold sendToVm at sending
    split at sending
    · have outside := virtioTx_assertFailed sending
      omega
    · cases sending

/-- The control threads left the packets and the counters of a relay alone. They may have
changed everything else: both states, the CPUs, the queue tables and the pool.
-/
structure Relay.SamePackets (before after : Relay) : Prop where
  txPkts : after.vio.txPkts = before.vio.txPkts
  rxPkts : after.dpdk.rxPkts = before.dpdk.rxPkts
  stats : after.stats = before.stats

/-- A run of a relay from `start` with its trace of packet-path calls: iterations that
return, in any order, between arbitrary actions of the control threads. A multiqueue
`virtio_tx` returns only if every buffered tag is below `rx_q_active`.
-/
inductive Forwarding (start : Relay) : Relay → List Action → Prop
  | start : Forwarding start start []
  | vm2vf {relay : Relay} {trace : List Action} (run : Forwarding start relay trace)
    (io : VmToVfIO) {out : Outcome} (returned : relayVm2vfTraffic relay io = .ok out)
    : Forwarding start out.relay (trace ++ out.actions)
  | vf2vm {relay : Relay} {trace : List Action} (run : Forwarding start relay trace)
    (io : VfToVmIO) {out : Outcome} (returned : relayVf2vmTraffic relay io = .ok out)
    : Forwarding start out.relay (trace ++ out.actions)
  | control {relay : Relay} {trace : List Action} (run : Forwarding start relay trace)
    {after : Relay} (same : relay.SamePackets after)
    : Forwarding start after trace

/-- The books of a relay with its trace: the counters balance, each mbuf received is handed
over, freed or cached, exactly once, and the windows are inside their arrays.
-/
structure Conserved (relay : Relay) (trace : List Action) : Prop where
  vmToVf
    : relay.stats.vioRx
      = relay.stats.dpdkTx + relay.stats.dpdkDropFull + relay.stats.dpdkDropUnavail
        + UInt64.ofNat relay.vio.txPkts.avail
  vfToVm
    : relay.stats.dpdkRx
      = relay.stats.vioTx + relay.stats.vioDropFull + relay.stats.vioDropUnavail
        + UInt64.ofNat relay.dpdk.rxPkts.avail
  mbufs
    : received trace
      = handed trace + freed trace
        + (relay.vio.txPkts.window : Multiset Mbuf) + (relay.dpdk.rxPkts.window : Multiset Mbuf)
  txBound : relay.vio.txPkts.used + relay.vio.txPkts.avail ≤ burstLen
  rxBound : relay.dpdk.rxPkts.used + relay.dpdk.rxPkts.avail ≤ burstLen

/-- Accounted iterations extend the books. -/
theorem Conserved.extend {before after : Relay} {trace actions : List Action}
    (h : Conserved before trace) (step : Accounted before actions after)
    : Conserved after (trace ++ actions) := by
  obtain ⟨txBound, rxBound⟩ := step.bounded ⟨h.txBound, h.rxBound⟩
  refine ⟨step.vmToVf h.vmToVf, step.vfToVm h.vfToVm, ?_, txBound, rxBound⟩
  have moved := step.mbufs
  simp only [Relay.cached] at moved
  calc received (trace ++ actions)
      = handed trace + freed trace + (received actions
          + (before.vio.txPkts.window + before.dpdk.rxPkts.window : Multiset Mbuf)) := by
        rw [received_append, h.mbufs]; abel
    _ = handed (trace ++ actions) + freed (trace ++ actions) + after.vio.txPkts.window
          + after.dpdk.rxPkts.window := by
        rw [moved, handed_append, freed_append]; abel

/-- Every run from an initialized relay keeps the books, by induction on the run. -/
theorem Forwarding.conserved {id : Nat} {socketId : Int} {useJumbo : Bool} {relay : Relay}
    {trace : List Action} (run : Forwarding (.initial id socketId useJumbo) relay trace)
    : Conserved relay trace := by
  induction run with
  | start =>
      refine ⟨rfl, rfl, rfl, ?_, ?_⟩ <;> exact Nat.zero_le _
  | vm2vf _ io returned ih => exact ih.extend (relayVm2vfTraffic_accounted returned)
  | vf2vm _ io returned ih => exact ih.extend (relayVf2vmTraffic_accounted returned)
  | control _ same ih =>
      obtain ⟨tx, rx, stats⟩ := same
      exact ⟨by rw [stats, tx]; exact ih.vmToVf, by rw [stats, rx]; exact ih.vfToVm,
        by rw [tx, rx]; exact ih.mbufs, by rw [tx]; exact ih.txBound,
        by rw [rx]; exact ih.rxBound⟩

/-- Packet conservation: in every state of every run the counters balance, each mbuf is in
exactly one place, the windows fit, and the next iteration fails no assertion.
-/
theorem forwarding_conserves_packets {id : Nat} {socketId : Int} {useJumbo : Bool}
    {relay : Relay} {trace : List Action}
    (run : Forwarding (.initial id socketId useJumbo) relay trace)
    : Conserved relay trace
      ∧ (∀ io, relayVm2vfTraffic relay io ≠ .error .assertFailed)
      ∧ (∀ io, relayVf2vmTraffic relay io ≠ .error .assertFailed) := by
  have books := run.conserved
  have bound : relay.Bounded := ⟨books.txBound, books.rxBound⟩
  exact ⟨books, relayVm2vfTraffic_asserts bound, relayVf2vmTraffic_asserts bound⟩

/-- An initialized relay whose control threads have made both sides ready, with one queue
pair enabled.
-/
def Relay.connected (id : Nat) : Relay :=
  let relay := Relay.initial id 0 false
  { relay with
    vio := { relay.vio with
      state := .ready, maxQueuePairs := 1, rxQBitmap := 1, txQBitmap := 1, rxQActive := 1
      pow2queues := true }
    dpdk := { relay.dpdk with state := .ready } }

/-- A run with a partial burst in each direction: the VF takes one of two packets, and the
guest takes one of two.
-/
theorem forwarding_conserves_partial_bursts
    : ∃ relay trace,
        Forwarding (.initial 0 0 false) relay trace
        ∧ relay.vio.txPkts.avail = 1
        ∧ relay.dpdk.rxPkts.avail = 1
        ∧ Conserved relay trace
        ∧ (∀ io, relayVm2vfTraffic relay io ≠ .error .assertFailed)
        ∧ (∀ io, relayVf2vmTraffic relay io ≠ .error .assertFailed) := by
  let pkt (addr : Nat) : Mbuf := ⟨addr, 64, 0, .driver 0⟩
  have ready : Forwarding (.initial 0 0 false) (.connected 0) [] :=
    .control .start ⟨rfl, rfl, rfl⟩
  have sent := ready.vm2vf ⟨[pkt 1, pkt 2], 1⟩ rfl
  have run := sent.vf2vm ⟨2, [pkt 3, pkt 4], fun _ => 1⟩ rfl
  exact ⟨_, _, run, rfl, rfl, forwarding_conserves_packets run⟩

end VirtioForwarder
