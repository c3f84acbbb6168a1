import VirtioForwarder.Relay.Iteration
import VirtioForwarder.Relay.QueueDelivery

/-! The order of the packets of one queue on their way from the VF to the guest.
The guest may take only a part of a batch; the rest is written back into the cache, where
the next iteration batches it again.
-/

namespace VirtioForwarder

open Bits Grouping

/-- The packets that `dpdk_rx` stored for queue pair `q`, in the order of arrival. -/
def receivedFor (q : Nat) (trace : List Action) : List Mbuf :=
  trace.flatMap fun
    | .rxBurst pkts => group Mbuf.queueTag q pkts
    | _ => []

/-- The packets that the guest has taken on the vhost queue of pair `q`, in order. -/
def enqueuedOn (q : Nat) (trace : List Action) : List Mbuf :=
  trace.flatMap fun
    | .enqueueBurst queue offered sent => if queue = q * 2 then offered.take sent else []
    | _ => []

/-- The packets of every queue pair leave in the order in which they arrived; some may be
dropped on the way.
-/
def InFlowOrder (trace : List Action) : Prop :=
  ∀ q, (enqueuedOn q trace).Sublist (receivedFor q trace)

/-- The RX queue fields are the same. -/
structure RelayVirtio.SameTables (before after : RelayVirtio) : Prop where
  bitmap : after.rxQBitmap = before.rxQBitmap
  active : after.rxQActive = before.rxQActive
  lut : after.rxQLut = before.rxQLut
  pow2 : after.pow2queues = before.pow2queues

/-- What the other threads do while the guest's queues stay enabled: the RX cache is left
alone, or `worker_remove_vf` empties it.
-/
structure Relay.SameQueues (before after : Relay) : Prop where
  tables : before.vio.SameTables after.vio
  rxPkts : after.dpdk.rxPkts = before.dpdk.rxPkts ∨ after.dpdk.rxPkts.avail = 0

/-- Iterations of `relay_vf2vm_traffic` that satisfy `allowed`, between steps of the other
threads that keep the queues, with the calls made on the way.
-/
inductive FlowRun (allowed : Relay → VfToVmIO → Prop) (start : Relay)
    : Relay → List Action → Prop
  | start : FlowRun allowed start start []
  | vf2vm {relay : Relay} {trace : List Action} (run : FlowRun allowed start relay trace)
    (io : VfToVmIO) (ok : allowed relay io) {out : Outcome}
    (returned : relayVf2vmTraffic relay io = .ok out)
    : FlowRun allowed start out.relay (trace ++ out.actions)
  | others {relay : Relay} {trace : List Action} (run : FlowRun allowed start relay trace)
    {after : Relay} (same : relay.SameQueues after)
    : FlowRun allowed start after trace

/-- The packets that an iteration offers to the guest: those left in the cache, else the
burst that the VF delivers, tagged.
-/
def pendingPkts (relay : Relay) (io : VfToVmIO) : List Mbuf :=
  if relay.dpdk.rxPkts.avail ≠ 0 then relay.dpdk.rxPkts.window
  else if relay.dpdk.state = .ready then
    (io.received.take (tryRcv relay io)).map relay.vio.tag
  else []

/-- A ready guest takes all packets of each batch but at most one. -/
def TakesAllButOne (relay : Relay) (io : VfToVmIO) : Prop :=
  relay.vio.state = .ready
  → ∀ q, (group Mbuf.queueTag q (pendingPkts relay io)).length
      ≤ io.enqueueAccepted (q * 2) + 1

@[simp]
theorem receivedFor_append (q : Nat) (first second : List Action)
    : receivedFor q (first ++ second) = receivedFor q first ++ receivedFor q second :=
  List.flatMap_append

@[simp]
theorem enqueuedOn_append (q : Nat) (first second : List Action)
    : enqueuedOn q (first ++ second) = enqueuedOn q first ++ enqueuedOn q second :=
  List.flatMap_append

/-- Freeing packets adds to neither history. -/
@[simp]
theorem receivedFor_free (q : Nat) (pkts : List Mbuf) : receivedFor q (pkts.map .free) = [] := by
  simp [receivedFor]

@[simp]
theorem enqueuedOn_free (q : Nat) (pkts : List Mbuf) : enqueuedOn q (pkts.map .free) = [] := by
  simp [enqueuedOn]

/-- The calls made for queue `i` add what the guest takes to the history of queue `i`. -/
theorem enqueuedOn_sendActions (io : VfToVmIO) (qPkts : Nat → List Mbuf) (q i : Nat)
    : enqueuedOn q (sendActions io qPkts i)
      = if i = q then (qPkts i).take (sentOn io qPkts i) else [] := by
  by_cases empty : qPkts i = []
  · simp [sendActions, empty, enqueuedOn]
  · have calls : sendActions io qPkts i
        = [.enqueueBurst (i * 2) (qPkts i) (sentOn io qPkts i)]
          ++ ((qPkts i).take (sentOn io qPkts i)).reverse.map .free := if_neg empty
    have doubled : i * 2 = q * 2 ↔ i = q := by omega
    rw [calls, enqueuedOn_append, enqueuedOn_free, List.append_nil]
    simp [enqueuedOn, doubled]

theorem receivedFor_sendActions (io : VfToVmIO) (qPkts : Nat → List Mbuf) (q i : Nat)
    : receivedFor q (sendActions io qPkts i) = [] := by
  unfold sendActions
  split
  · rfl
  · exact receivedFor_free q _

/-- The calls of the whole send loop, by induction on the number of queues. -/
theorem histories_sendLoop (io : VfToVmIO) (qPkts : Nat → List Mbuf) (q active : Nat)
    : enqueuedOn q ((List.range active).flatMap (sendActions io qPkts))
        = (if q < active then (qPkts q).take (sentOn io qPkts q) else [])
      ∧ receivedFor q ((List.range active).flatMap (sendActions io qPkts)) = [] := by
  induction active with
  | zero => exact ⟨rfl, rfl⟩
  | succ active ih =>
      obtain ⟨enqueued, received⟩ := ih
      simp only [List.range_succ, List.flatMap_append, List.flatMap_cons, List.flatMap_nil,
        List.append_nil, enqueuedOn_append, receivedFor_append, enqueued, received,
        enqueuedOn_sendActions, receivedFor_sendActions, and_true]
      rcases Nat.lt_trichotomy q active with below | rfl | above
      · have last : active ≠ q := by omega
        simp [below, last, Nat.lt_succ_of_lt below]
      · simp
      · have last : active ≠ q := by omega
        have outside : ¬ q < active := by omega
        have beyond : ¬ q < active + 1 := by omega
        simp [last, outside, beyond]

/-- What the guest has taken, followed by what is buffered, keeps the order of arrival. -/
def Flowing (relay : Relay) (trace : List Action) : Prop :=
  ∀ q, (enqueuedOn q trace ++ group Mbuf.queueTag q relay.dpdk.rxPkts.window).Sublist
    (receivedFor q trace)

theorem Flowing.inFlowOrder {relay : Relay} {trace : List Action} (h : Flowing relay trace)
    : InFlowOrder trace :=
  fun q => (List.sublist_append_left ..).trans (h q)

/-- A burst is fetched only into an empty cache, so it continues the history. -/
theorem Flowing.fetch {relay : Relay} {trace : List Action} (h : Flowing relay trace)
    {io : VfToVmIO} {rx : Outcome} (fetched : fetchFromVf relay io = .ok rx)
    : Flowing rx.relay (trace ++ rx.actions) := by
  unfold fetchFromVf at fetched
  split at fetched
  · rename_i empty
    rcases dpdkRx_cases fetched with ⟨_, rfl⟩ | ⟨_, pkts, _, _, _, actions, after⟩
    · simpa using h
    · intro q
      have stored : rx.relay.dpdk.rxPkts.window = pkts := by
        rw [after]
        exact PktCache.window_receive ..
      have before := h q
      rw [PktCache.window_eq_nil empty, group_nil, List.append_nil] at before
      have enqueued : enqueuedOn q [.rxBurst pkts] = [] := rfl
      have received : receivedFor q [.rxBurst pkts] = group Mbuf.queueTag q pkts := by
        simp [receivedFor]
      rw [stored, actions, enqueuedOn_append, receivedFor_append, enqueued, received,
        List.append_nil]
      exact before.append (List.Sublist.refl _)
  · cases Except.ok.inj fetched
    simpa [Outcome.skip] using h

/-- A batch whose guest takes all packets but at most one leaves its rest in order: the
write-back loop reverses the rest, which then has at most one packet.
-/
theorem leftover_eq_drop {io : VfToVmIO} {qPkts : Nat → List Mbuf} {q : Nat}
    (h : (qPkts q).length ≤ io.enqueueAccepted (q * 2) + 1)
    : leftover io qPkts q = (qPkts q).drop (sentOn io qPkts q) := by
  have short : ((qPkts q).drop (sentOn io qPkts q)).length ≤ 1 := by
    simp only [List.length_drop, sentOn]
    omega
  unfold leftover
  generalize (qPkts q).drop (sentOn io qPkts q) = rest at short
  cases rest with
  | nil => rfl
  | cons pkt rest =>
      rw [List.length_eq_zero_iff.mp (Nat.le_zero.mp (Nat.le_of_succ_le_succ short))]
      rfl

/-- The multiqueue send keeps the order if every batch loses all packets but at most one. -/
theorem Flowing.multiSent {relay : Relay} {trace : List Action} (h : Flowing relay trace)
    {io : VfToVmIO} {tx : Outcome} (sent : MultiSent relay io tx)
    (taken : ∀ q, (relay.batches q).length ≤ io.enqueueAccepted (q * 2) + 1)
    : Flowing tx.relay (trace ++ tx.actions) := by
  intro q
  obtain ⟨enqueued, received⟩ := histories_sendLoop io relay.batches q relay.vio.rxQActive
  have keyed : ∀ i, ∀ pkt ∈ leftover io relay.batches i, pkt.queueTag = i := by
    intro i pkt member
    exact (mem_group.mp (List.mem_of_mem_drop (List.mem_reverse.mp member))).2
  have rest := group_flatMap_range keyed q relay.vio.rxQActive
  rw [sent.window, rest, sent.actions, enqueuedOn_append, receivedFor_append, enqueued,
    received, List.append_nil, List.append_assoc]
  have split : (if q < relay.vio.rxQActive
        then (relay.batches q).take (sentOn io relay.batches q) else [])
      ++ (if q < relay.vio.rxQActive then leftover io relay.batches q else [])
      = relay.batches q := by
    split
    · rw [leftover_eq_drop (taken q), List.take_append_drop]
    · rename_i outside
      refine (group_eq_nil fun pkt member same => ?_).symm
      exact outside (same ▸ sent.tags pkt member)
  rw [split]
  exact h q

/-- Freed packets leave the history; the cache is then empty or as before. -/
theorem Flowing.free {before after : Relay} {trace : List Action} (h : Flowing before trace)
    (pkts : List Mbuf)
    (window : after.dpdk.rxPkts.window = before.dpdk.rxPkts.window
      ∨ after.dpdk.rxPkts.window = [])
    : Flowing after (trace ++ pkts.map .free) := by
  intro q
  rw [enqueuedOn_append, receivedFor_append, enqueuedOn_free, receivedFor_free,
    List.append_nil, List.append_nil]
  rcases window with same | empty
  · rw [same]
    exact h q
  · rw [empty, group_nil, List.append_nil]
    exact (List.sublist_append_left ..).trans (h q)

theorem dropRxPkts_frees (relay : Relay) (sent : Int)
    : ∃ pkts : List Mbuf, (dropRxPkts relay sent).actions = pkts.map .free
        ∧ ((dropRxPkts relay sent).relay.dpdk.rxPkts.window = relay.dpdk.rxPkts.window
          ∨ (dropRxPkts relay sent).relay.dpdk.rxPkts.window = []) := by
  unfold dropRxPkts
  split
  · exact ⟨_, rfl, Or.inr (PktCache.window_eq_nil rfl)⟩
  · exact ⟨[], rfl, Or.inl rfl⟩

theorem finishVirtioRemoval_frees (relay : Relay)
    : ∃ pkts : List Mbuf, (finishVirtioRemoval relay).actions = pkts.map .free
        ∧ ((finishVirtioRemoval relay).relay.dpdk.rxPkts.window = relay.dpdk.rxPkts.window
          ∨ (finishVirtioRemoval relay).relay.dpdk.rxPkts.window = []) := by
  unfold finishVirtioRemoval
  split
  · obtain ⟨pkts, frees⟩ := clearBoth_frees relay
    obtain ⟨_, _, rxEmpty⟩ := clearBoth_cases relay
    exact ⟨pkts, frees, Or.inr (PktCache.window_eq_nil rxEmpty)⟩
  · exact ⟨[], rfl, Or.inl rfl⟩

/-- Valid tables tag every packet of a burst as `RelayVirtio.tag` says. -/
theorem tagged_eq_map {vio : RelayVirtio} (tables : vio.QueueTables)
    (multi : vio.rxQBitmap > 1) {rcvd pkts : List Mbuf}
    (tagged : List.Forall₂ (fun pkt pkt' => calcMbufQueue vio pkt = .ok pkt') rcvd pkts)
    : pkts = rcvd.map vio.tag := by
  induction tagged with
  | nil => rfl
  | cons head _ ih =>
      rw [calcMbufQueue_eq tables multi] at head
      rw [List.map_cons, ← ih, ← Except.ok.inj head]
      rfl

/-- The fetched window is the one that the condition speaks about. -/
theorem fetchFromVf_window {relay : Relay} {io : VfToVmIO} {rx : Outcome}
    (tables : relay.vio.QueueTables) (multi : relay.vio.rxQBitmap > 1)
    (fetched : fetchFromVf relay io = .ok rx)
    : rx.relay.dpdk.rxPkts.window = pendingPkts relay io := by
  unfold fetchFromVf at fetched
  unfold pendingPkts
  split at fetched
  · rename_i empty
    rw [if_neg (not_not.mpr empty)]
    rcases dpdkRx_cases fetched with ⟨away, rfl⟩ | ⟨ready, pkts, _, _, stored, _, after⟩
    · rw [if_neg away]
      exact PktCache.window_eq_nil empty
    · rw [if_pos ready, after]
      simp only [Relay.setRxPkts, PktCache.window_receive]
      rcases stored with ⟨_, tagged⟩ | ⟨single, _⟩
      · exact tagged_eq_map tables multi tagged
      · exact absurd multi single
  · rename_i buffered
    cases Except.ok.inj fetched
    rw [if_pos buffered]
    rfl

/-- Two or more enabled pairs make the bitmap exceed one. -/
theorem multi_of_enabled {bitmap : BitVec 64} {k : Nat} (several : 2 ≤ k)
    (enabled : setBits bitmap = List.range k)
    : bitmap > 1 := by
  have second : bitmap.getLsbD 1 = true := by
    rw [← mem_setBits, enabled, List.mem_range]
    exact several
  by_contra small
  have value : bitmap.toNat ≤ 1 := by
    simpa [BitVec.lt_def] using small
  have clear : bitmap.getLsbD 1 = false := by
    rw [BitVec.getLsbD]
    exact Nat.testBit_lt_two_pow (by omega)
  rw [clear] at second
  cases second

/-- Ring notifications do not touch the VF side. -/
theorem vringStateChanges_dpdk (relay : Relay) (changes : List VringChange)
    : (vringStateChanges relay changes).dpdk = relay.dpdk := by
  induction changes generalizing relay with
  | nil => rfl
  | cons change changes ih => exact ih (vringStateChange relay change.queueId change.enable)

/-- The queues of a run with a fixed set of enabled pairs. -/
structure Relay.FixedQueues (k : Nat) (relay : Relay) : Prop where
  tables : relay.vio.QueueTables
  enabled : setBits relay.vio.rxQBitmap = List.range k

/-- The queues depend on the RX queue fields only. -/
theorem Relay.FixedQueues.congr {k : Nat} {before after : Relay} (h : before.FixedQueues k)
    (same : before.vio.SameTables after.vio)
    : after.FixedQueues k := by
  obtain ⟨bitmap, active, lut, pow2⟩ := same
  obtain ⟨tables, enabled⟩ := h
  refine ⟨⟨?_, ?_, ?_, ?_⟩, ?_⟩
  · rw [bitmap]
    exact tables.pairs
  · rw [bitmap, active]
    exact tables.active
  · rw [pow2, active]
    exact tables.pow2
  · rw [lut, active, bitmap]
    exact tables.lut
  · rw [bitmap]
    exact enabled

/-- Worker iterations do not write the RX queue fields. -/
theorem SameSetup.sameTables {before after : Relay} (h : SameSetup before after)
    : before.vio.SameTables after.vio := by
  obtain ⟨_, _, _, ⟨_, _, _, _, rfl⟩, rfl⟩ := h
  exact ⟨rfl, rfl, rfl, rfl⟩

/-- A whole iteration keeps the order: fetch, send, drop and removal each keep it. -/
theorem Flowing.iterate {relay : Relay} {trace : List Action} (h : Flowing relay trace)
    {k : Nat} (several : 2 ≤ k) (queues : relay.FixedQueues k) {io : VfToVmIO} {out : Outcome}
    (taken : TakesAllButOne relay io) (returned : relayVf2vmTraffic relay io = .ok out)
    : Flowing out.relay (trace ++ out.actions) := by
  obtain ⟨rx, tx, fetched, sent, after, actions⟩ := relayVf2vmTraffic_parts returned
  have multi := multi_of_enabled several queues.enabled
  have window := fetchFromVf_window queues.tables multi fetched
  have arrived := h.fetch fetched
  have sending : Flowing tx.relay (trace ++ rx.actions ++ tx.actions) := by
    obtain ⟨_, _, _, _, same⟩ := fetchFromVf_packetsOnly fetched
    unfold sendToVm at sent
    split at sent
    · rcases virtioTx_cases sent with ⟨_, rfl⟩ | ⟨ready, _, effect⟩ | ⟨_, single, _⟩
      · simpa using arrived
      · refine arrived.multiSent effect fun q => ?_
        have ready' : relay.vio.state = .ready := by
          rw [same] at ready
          exact ready
        rw [Relay.batches, window]
        exact taken ready' q
      · rw [same] at single
        exact absurd multi single
    · cases Except.ok.inj sent
      simpa [Outcome.skip] using arrived
  obtain ⟨dropped, dropActions, dropWindow⟩ := dropRxPkts_frees tx.relay tx.ret
  have dropping := sending.free dropped dropWindow
  obtain ⟨removed, removeActions, removeWindow⟩ :=
    finishVirtioRemoval_frees (dropRxPkts tx.relay tx.ret).relay
  have removing := dropping.free removed removeWindow
  rw [← dropActions, ← removeActions] at removing
  rw [after, actions, releaseVf_eq]
  simp only [List.append_assoc] at removing ⊢
  exact removing

/-- Every run in which a ready guest takes all but at most one packet of each batch keeps
the order and the queues. Witness: induction on the run.
-/
theorem FlowRun.flowing {start relay : Relay} {trace : List Action} {k : Nat} (several : 2 ≤ k)
    (queues : start.FixedQueues k) (empty : start.dpdk.rxPkts.avail = 0)
    (run : FlowRun TakesAllButOne start relay trace)
    : Flowing relay trace ∧ relay.FixedQueues k := by
  induction run with
  | start =>
      refine ⟨fun q => ?_, queues⟩
      rw [PktCache.window_eq_nil empty]
      exact List.Sublist.refl _
  | vf2vm _ io ok returned ih =>
      obtain ⟨flowing, fixed⟩ := ih
      exact ⟨flowing.iterate several fixed ok returned,
        fixed.congr (relayVf2vmTraffic_effect returned).setup.sameTables⟩
  | others _ same ih =>
      obtain ⟨flowing, fixed⟩ := ih
      refine ⟨?_, fixed.congr same.tables⟩
      have window := same.rxPkts.imp (congrArg PktCache.window) PktCache.window_eq_nil
      simpa using flowing.free [] window

/-- Order within a flow: with the first `k ≥ 2` pairs enabled, every run in which a ready
guest takes all but at most one packet of each batch enqueues the packets of each queue in
the order in which they were received.
-/
theorem flow_order_of_short_rests {id : Nat} {socketId : Int} {useJumbo : Bool}
    {changes : List VringChange} {k : Nat} {relay : Relay} {trace : List Action}
    (valid : ∀ change ∈ changes, change.queueId < 2 * maxMultiqueuePairs)
    (several : 2 ≤ k)
    (enabled : setBits (vringStateChanges (.initial id socketId useJumbo) changes).vio.rxQBitmap
      = List.range k)
    (run : FlowRun TakesAllButOne (vringStateChanges (.initial id socketId useJumbo) changes)
      relay trace)
    : InFlowOrder trace := by
  have some : changes ≠ [] := by
    rintro rfl
    have none : setBits (Relay.initial id socketId useJumbo).vio.rxQBitmap = [] :=
      setBits_eq_nil.mpr rfl
    have bound := congrArg List.length (none.symm.trans enabled)
    simp only [List.length_nil, List.length_range] at bound
    omega
  have tables : (vringStateChanges (.initial id socketId useJumbo) changes).vio.QueueTables :=
    vringStateChanges_tables (by simp [Relay.initial]) valid some
  have empty : (vringStateChanges (.initial id socketId useJumbo) changes).dpdk.rxPkts.avail
      = 0 := by
    rw [vringStateChanges_dpdk]
    rfl
  exact (run.flowing several ⟨tables, enabled⟩ empty).1.inFlowOrder

/-- A relay with pairs 0 and 1 enabled whose guest and VF are ready. -/
def Relay.twoPairs : Relay :=
  ((vringStateChanges (.initial 0 0 false) [⟨0, true⟩, ⟨2, true⟩]).setVioState
    .ready).setDpdkState .ready

theorem flowRun_twoPairs (allowed : Relay → VfToVmIO → Prop)
    : FlowRun allowed (vringStateChanges (.initial 0 0 false) [⟨0, true⟩, ⟨2, true⟩])
        .twoPairs [] :=
  .others .start ⟨⟨rfl, rfl, rfl, rfl⟩, Or.inl rfl⟩

/-- Three packets of one flow, of which the guest takes two at first and the last one
later.
-/
theorem flow_order_with_one_retry
    : ∃ relay trace,
        FlowRun TakesAllButOne
          (vringStateChanges (.initial 0 0 false) [⟨0, true⟩, ⟨2, true⟩]) relay trace
        ∧ (enqueuedOn 0 trace).map Mbuf.addr = [1, 2, 3]
        ∧ InFlowOrder trace := by
  let pkt (addr : Nat) : Mbuf := ⟨addr, 64, 0, .driver 0⟩
  have few {relay : Relay} {io : VfToVmIO} {most : Nat} (accepts : ∀ q, io.enqueueAccepted q = most)
      (bound : (pendingPkts relay io).length ≤ most + 1) : TakesAllButOne relay io := by
    intro _ q
    rw [accepts]
    exact (List.length_filter_le ..).trans bound
  have first := (flowRun_twoPairs TakesAllButOne).vf2vm
    ⟨3, [pkt 1, pkt 2, pkt 3], fun _ => 2⟩ (few (fun _ => rfl) (by decide +kernel))
    (eq_ok_outcomeOf (by decide +kernel))
  have run := first.vf2vm ⟨0, [], fun _ => 1⟩ (few (fun _ => rfl) (by decide +kernel))
    (eq_ok_outcomeOf (by decide +kernel))
  exact ⟨_, _, run, by decide +kernel,
    flow_order_of_short_rests (by decide) (Nat.le_refl 2) (by decide) run⟩

/-- Three packets of one flow, of which the guest takes one at first: the write-back loop
reverses the other two, which are then enqueued as 3, 2.
-/
theorem flow_order_fails_for_longer_rest
    : ¬ ∀ (changes : List VringChange) (k : Nat) (relay : Relay) (trace : List Action),
        (∀ change ∈ changes, change.queueId < 2 * maxMultiqueuePairs)
        → 2 ≤ k
        → setBits (vringStateChanges (.initial 0 0 false) changes).vio.rxQBitmap = List.range k
        → FlowRun (fun _ _ => True) (vringStateChanges (.initial 0 0 false) changes) relay trace
        → InFlowOrder trace := by
  intro claim
  let pkt (addr : Nat) : Mbuf := ⟨addr, 64, 0, .driver 0⟩
  have first := (flowRun_twoPairs fun _ _ => True).vf2vm
    ⟨3, [pkt 1, pkt 2, pkt 3], fun _ => 1⟩ trivial (eq_ok_outcomeOf (by decide +kernel))
  have run := first.vf2vm ⟨0, [], fun _ => 2⟩ trivial (eq_ok_outcomeOf (by decide +kernel))
  have order := claim _ 2 _ _ (by decide) (Nat.le_refl 2) (by decide) run 0
  exact absurd (order.map Mbuf.addr) (by decide +kernel)

end VirtioForwarder
