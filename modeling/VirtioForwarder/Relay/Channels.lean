import VirtioForwarder.Library.Channel
import VirtioForwarder.Relay.Conservation
import VirtioForwarder.Relay.FlowOrder

/-! A relay as two channels, one for each direction.
Its worker iterations only ever perform steps of the two channels, whatever the control
threads do in between, so each direction delivers in order and loses only ends of bursts.
-/

namespace VirtioForwarder

/-- The bursts a call delivers from the guest. -/
def Action.fromVm : Action → List (List Mbuf)
  | .dequeueBurst _ pkts => [pkts]
  | _ => []

/-- The bursts a call delivers from the VF. -/
def Action.fromVf : Action → List (List Mbuf)
  | .rxBurst pkts => [pkts]
  | _ => []

/-- The packets a call puts into the guest's queues. -/
def Action.toVm : Action → List Mbuf
  | .enqueueBurst _ offered sent => offered.take sent
  | _ => []

/-- The channel from the guest to the VF, with the history of the calls made. -/
def Relay.vmToVf (relay : Relay) (trace : List Action) : Channel.Contents Mbuf where
  entered := trace.flatMap Action.fromVm
  held := relay.vio.txPkts.window
  left := trace.flatMap Action.handed

/-- The channel from the VF to the guest, with the history of the calls made. -/
def Relay.vfToVm (relay : Relay) (trace : List Action) : Channel.Contents Mbuf where
  entered := trace.flatMap Action.fromVf
  held := relay.dpdk.rxPkts.window
  left := trace.flatMap Action.toVm

/-- Runs of a relay whose worker iterations all start in a relay of the given `mode`. -/
inductive ForwardingWhile (mode : Relay → Prop) (start : Relay) : Relay → List Action → Prop
  | start : ForwardingWhile mode start start []
  | vm2vf {relay : Relay} {trace : List Action}
    (run : ForwardingWhile mode start relay trace) (inMode : mode relay) (io : VmToVfIO)
    {out : Outcome} (returned : relayVm2vfTraffic relay io = .ok out)
    : ForwardingWhile mode start out.relay (trace ++ out.actions)
  | vf2vm {relay : Relay} {trace : List Action}
    (run : ForwardingWhile mode start relay trace) (inMode : mode relay) (io : VfToVmIO)
    {out : Outcome} (returned : relayVf2vmTraffic relay io = .ok out)
    : ForwardingWhile mode start out.relay (trace ++ out.actions)
  | control {relay : Relay} {trace : List Action}
    (run : ForwardingWhile mode start relay trace) {after : Relay}
    (same : relay.SamePackets after)
    : ForwardingWhile mode start after trace

/-- At most queue pair 0 is enabled: `virtio_tx` neither batches nor puts packets back. -/
def Relay.SingleQueue (relay : Relay) : Prop := ¬ relay.vio.rxQBitmap > 1

instance (relay : Relay) : Decidable relay.SingleQueue :=
  inferInstanceAs (Decidable (¬ relay.vio.rxQBitmap > 1))

/-- The VF takes packets, and no removal is under way that empties the caches. -/
def Relay.VfOpen (relay : Relay) : Prop :=
  relay.dpdk.state = .ready ∧ relay.vio.state ≠ .removing2

/-- The guest takes packets, and no removal is under way that empties the caches. -/
def Relay.VmOpen (relay : Relay) : Prop :=
  relay.vio.state = .ready ∧ relay.dpdk.state ≠ .removing2

instance (relay : Relay) : Decidable relay.VfOpen :=
  inferInstanceAs (Decidable (relay.dpdk.state = .ready ∧ relay.vio.state ≠ .removing2))

instance (relay : Relay) : Decidable relay.VmOpen :=
  inferInstanceAs (Decidable (relay.vio.state = .ready ∧ relay.dpdk.state ≠ .removing2))

/-- Every run is a run in a mode without a condition. -/
theorem Forwarding.always {start relay : Relay} {trace : List Action}
    (run : Forwarding start relay trace)
    : ForwardingWhile (fun _ => True) start relay trace := by
  induction run with
  | start => exact .start
  | vm2vf _ io returned ih => exact ih.vm2vf trivial io returned
  | vf2vm _ io returned ih => exact ih.vf2vm trivial io returned
  | control _ same ih => exact ih.control same

/-- A piece of an iteration performs steps of the channel that `view` shows. -/
def Carries (view : Relay → List Action → Channel.Contents Mbuf) (mayLose : Prop)
    (before : Relay) (actions : List Action) (after : Relay)
    : Prop :=
  ∀ trace, Channel.Run mayLose (view before trace) (view after (trace ++ actions))

section Pieces

variable {view : Relay → List Action → Channel.Contents Mbuf} {mayLose : Prop}

/-- Doing nothing carries nothing. -/
theorem Carries.refl (relay : Relay) : Carries view mayLose relay [] relay := by
  intro trace
  rw [List.append_nil]

/-- Pieces compose. -/
theorem Carries.trans {first middle last : Relay} {early late : List Action}
    (hl : Carries view mayLose first early middle) (hr : Carries view mayLose middle late last)
    : Carries view mayLose first (early ++ late) last := by
  intro trace
  rw [← List.append_assoc]
  exact (hl trace).trans (hr (trace ++ early))

end Pieces

/-- Calls that neither deliver packets from the guest nor hand packets to the VF. -/
def NotForVf (actions : List Action) : Prop :=
  actions.flatMap Action.fromVm = [] ∧ actions.flatMap Action.handed = []

/-- Calls that neither deliver packets from the VF nor put packets into the guest. -/
def NotForVm (actions : List Action) : Prop :=
  actions.flatMap Action.fromVf = [] ∧ actions.flatMap Action.toVm = []

theorem NotForVf.append {first second : List Action} (hl : NotForVf first)
    (hr : NotForVf second)
    : NotForVf (first ++ second) := by
  constructor
  · rw [List.flatMap_append, hl.1, hr.1, List.append_nil]
  · rw [List.flatMap_append, hl.2, hr.2, List.append_nil]

theorem NotForVm.append {first second : List Action} (hl : NotForVm first)
    (hr : NotForVm second)
    : NotForVm (first ++ second) := by
  constructor
  · rw [List.flatMap_append, hl.1, hr.1, List.append_nil]
  · rw [List.flatMap_append, hl.2, hr.2, List.append_nil]

/-- Freed packets belong to neither channel's history. -/
theorem notForVf_free (pkts : List Mbuf) : NotForVf (pkts.map .free) := by
  simp [NotForVf, List.flatMap_map, Action.fromVm, Action.handed]

theorem notForVm_free (pkts : List Mbuf) : NotForVm (pkts.map .free) := by
  simp [NotForVm, List.flatMap_map, Action.fromVf, Action.toVm]

/-- A piece that leaves the TX window as it is does not concern the channel to the VF. -/
theorem NotForVf.idle {mayLose : Prop} {before after : Relay} {actions : List Action}
    (calls : NotForVf actions) (same : after.vio.txPkts.window = before.vio.txPkts.window)
    : Carries Relay.vmToVf mayLose before actions after := by
  intro trace
  have view : after.vmToVf (trace ++ actions) = before.vmToVf trace := by
    simp only [Relay.vmToVf, same, List.flatMap_append, calls.1, calls.2, List.append_nil]
  rw [view]

/-- A piece that empties the TX window gives up what the channel to the VF holds. -/
theorem NotForVf.lose {mayLose : Prop} {before after : Relay} {actions : List Action}
    (calls : NotForVf actions) (may : mayLose) (emptied : after.vio.txPkts.avail = 0)
    : Carries Relay.vmToVf mayLose before actions after := by
  intro trace
  have view : after.vmToVf (trace ++ actions)
      = ⟨(before.vmToVf trace).entered, [], (before.vmToVf trace).left⟩ := by
    simp only [Relay.vmToVf, PktCache.window_eq_nil emptied, List.flatMap_append, calls.1,
      calls.2, List.append_nil]
  rw [view]
  exact .single (.lose may)

/-- A piece that leaves the RX window as it is does not concern the channel to the guest. -/
theorem NotForVm.idle {mayLose : Prop} {before after : Relay} {actions : List Action}
    (calls : NotForVm actions) (same : after.dpdk.rxPkts.window = before.dpdk.rxPkts.window)
    : Carries Relay.vfToVm mayLose before actions after := by
  intro trace
  have view : after.vfToVm (trace ++ actions) = before.vfToVm trace := by
    simp only [Relay.vfToVm, same, List.flatMap_append, calls.1, calls.2, List.append_nil]
  rw [view]

/-- A piece that empties the RX window gives up what the channel to the guest holds. -/
theorem NotForVm.lose {mayLose : Prop} {before after : Relay} {actions : List Action}
    (calls : NotForVm actions) (may : mayLose) (emptied : after.dpdk.rxPkts.avail = 0)
    : Carries Relay.vfToVm mayLose before actions after := by
  intro trace
  have view : after.vfToVm (trace ++ actions)
      = ⟨(before.vfToVm trace).entered, [], (before.vfToVm trace).left⟩ := by
    simp only [Relay.vfToVm, PktCache.window_eq_nil emptied, List.flatMap_append, calls.1,
      calls.2, List.append_nil]
  rw [view]
  exact .single (.lose may)

/-- `virtio_rx` is called on an empty cache only, so its burst enters the channel. -/
theorem fetchFromVm_carries {mayLose : Prop} {relay : Relay} {io : VmToVfIO} {rx : Outcome}
    (h : fetchFromVm relay io = .ok rx)
    : Carries Relay.vmToVf mayLose relay rx.actions rx.relay := by
  unfold fetchFromVm at h
  split at h
  · rename_i empty
    have free := PktCache.window_eq_nil empty
    rcases virtioRx_cases h with ⟨_, rfl⟩ | ⟨_, pkts, rr, bytes, _, calls, after⟩
    · exact .refl relay
    · intro trace
      have window : rx.relay.vio.txPkts.window = pkts := by
        rw [after]
        exact PktCache.window_receive ..
      rcases calls with polled | ⟨idle, rfl⟩
      · have view : rx.relay.vmToVf (trace ++ rx.actions)
            = ⟨(relay.vmToVf trace).entered ++ [pkts], pkts, (relay.vmToVf trace).left⟩ := by
          simp [Relay.vmToVf, window, polled, Action.fromVm, Action.handed]
        rw [view]
        exact .single (.enter pkts free)
      · refine NotForVf.idle ?_ (window.trans free.symm) trace
        rw [idle]
        exact ⟨rfl, rfl⟩
  · cases Except.ok.inj h
    exact .refl relay

/-- `dpdk_tx` lets the front of the window leave. -/
theorem sendToVf_carries {mayLose : Prop} {relay : Relay} {io : VmToVfIO} {tx : Outcome}
    (h : sendToVf relay io = .ok tx)
    : Carries Relay.vmToVf mayLose relay tx.actions tx.relay := by
  unfold sendToVf at h
  split at h
  · rcases dpdkTx_cases h with ⟨_, rfl⟩ | ⟨_, sent, bytes, limit, calls, _, after⟩
    · exact .refl relay
    · intro trace
      have window : tx.relay.vio.txPkts.window = relay.vio.txPkts.window.drop sent := by
        rw [after]
        exact PktCache.window_advance _ limit
      have view : tx.relay.vmToVf (trace ++ tx.actions)
          = ⟨(relay.vmToVf trace).entered, (relay.vmToVf trace).held.drop sent,
              (relay.vmToVf trace).left ++ (relay.vmToVf trace).held.take sent⟩ := by
        simp [Relay.vmToVf, window, calls, Action.fromVm, Action.handed]
      rw [view]
      exact .single (.leave sent)
  · cases Except.ok.inj h
    exact .refl relay

/-- A ready VF refuses no packets for good: `dpdk_tx` does not report it as unavailable. -/
theorem sendToVf_ret {relay : Relay} {io : VmToVfIO} {tx : Outcome}
    (h : sendToVf relay io = .ok tx) (ready : relay.dpdk.state = .ready)
    : tx.ret ≠ -1 := by
  unfold sendToVf at h
  split at h
  · rcases dpdkTx_cases h with ⟨away, _⟩ | ⟨_, sent, _, _, _, ret, _⟩
    · exact absurd ready away
    · rw [ret]
      omega
  · cases Except.ok.inj h
    exact (by decide : (0 : Int) ≠ -1)

/-- The drop branch of `relay_vm2vf_traffic` only frees, and empties the window if it runs. -/
theorem dropTxPkts_carries {mayLose : Prop} {relay : Relay} {sent : Int}
    (may : sent = -1 → mayLose)
    : Carries Relay.vmToVf mayLose relay (dropTxPkts relay sent).actions
        (dropTxPkts relay sent).relay := by
  unfold dropTxPkts
  split
  · rename_i refused
    exact (notForVf_free _).lose (may refused.1) rfl
  · exact .refl relay

theorem finishVfRemoval_carries {mayLose : Prop} {relay : Relay}
    (may : relay.dpdk.state = .removing2 → mayLose)
    : Carries Relay.vmToVf mayLose relay (finishVfRemoval relay).actions
          (finishVfRemoval relay).relay
      ∧ Carries Relay.vfToVm mayLose relay (finishVfRemoval relay).actions
          (finishVfRemoval relay).relay := by
  unfold finishVfRemoval
  split
  · rename_i removing
    obtain ⟨pkts, frees⟩ := clearBoth_frees relay
    obtain ⟨_, txEmpty, rxEmpty⟩ := clearBoth_cases relay
    rw [workerRemoveVf, frees]
    exact ⟨(notForVf_free pkts).lose (may removing) txEmpty,
      (notForVm_free pkts).lose (may removing) rxEmpty⟩
  · exact ⟨.refl relay, .refl relay⟩

theorem finishVirtioRemoval_carries {mayLose : Prop} {relay : Relay}
    (may : relay.vio.state = .removing2 → mayLose)
    : Carries Relay.vmToVf mayLose relay (finishVirtioRemoval relay).actions
          (finishVirtioRemoval relay).relay
      ∧ Carries Relay.vfToVm mayLose relay (finishVirtioRemoval relay).actions
          (finishVirtioRemoval relay).relay := by
  unfold finishVirtioRemoval
  split
  · rename_i removing
    obtain ⟨pkts, frees⟩ := clearBoth_frees relay
    obtain ⟨_, txEmpty, rxEmpty⟩ := clearBoth_cases relay
    rw [workerRemoveVirtio, frees]
    exact ⟨(notForVf_free pkts).lose (may removing) txEmpty,
      (notForVm_free pkts).lose (may removing) rxEmpty⟩
  · exact ⟨.refl relay, .refl relay⟩

/-- `dpdk_rx` is called on an empty cache only, so its burst enters the channel. -/
theorem fetchFromVf_carries {mayLose : Prop} {relay : Relay} {io : VfToVmIO} {rx : Outcome}
    (h : fetchFromVf relay io = .ok rx)
    : Carries Relay.vfToVm mayLose relay rx.actions rx.relay := by
  unfold fetchFromVf at h
  split at h
  · rename_i empty
    have free := PktCache.window_eq_nil empty
    rcases dpdkRx_cases h with ⟨_, rfl⟩ | ⟨_, pkts, _, _, _, calls, after⟩
    · exact .refl relay
    · intro trace
      have window : rx.relay.dpdk.rxPkts.window = pkts := by
        rw [after]
        exact PktCache.window_receive ..
      have view : rx.relay.vfToVm (trace ++ rx.actions)
          = ⟨(relay.vfToVm trace).entered ++ [pkts], pkts, (relay.vfToVm trace).left⟩ := by
        simp [Relay.vfToVm, window, calls, Action.fromVf, Action.toVm]
      rw [view]
      exact .single (.enter pkts free)
  · cases Except.ok.inj h
    exact .refl relay

/-- The single-queue `virtio_tx` lets the front of the window leave. -/
theorem sendToVm_carries {mayLose : Prop} {relay : Relay} {io : VfToVmIO} {tx : Outcome}
    (single : relay.SingleQueue) (h : sendToVm relay io = .ok tx)
    : Carries Relay.vfToVm mayLose relay tx.actions tx.relay := by
  unfold sendToVm at h
  split at h
  · rcases virtioTx_cases h with ⟨_, rfl⟩ | ⟨_, several, _⟩ | ⟨_, _, effect⟩
    · exact .refl relay
    · exact absurd several single
    · intro trace
      generalize min (io.enqueueAccepted 0) relay.dpdk.rxPkts.avail = sent at effect
      have window : tx.relay.dpdk.rxPkts.window = relay.dpdk.rxPkts.window.drop sent := by
        rw [effect.relay_eq]
        exact PktCache.window_advance _ effect.le_avail
      obtain ⟨noBursts, noneToVm⟩ :=
        notForVm_free (relay.dpdk.rxPkts.window.take sent).reverse
      have view : tx.relay.vfToVm (trace ++ tx.actions)
          = ⟨(relay.vfToVm trace).entered, (relay.vfToVm trace).held.drop sent,
              (relay.vfToVm trace).left ++ (relay.vfToVm trace).held.take sent⟩ := by
        simp only [Relay.vfToVm, window, effect.actions, List.flatMap_append,
          List.flatMap_cons, noBursts, noneToVm, Action.fromVf, Action.toVm, List.append_nil]
      rw [view]
      exact .single (.leave sent)
  · cases Except.ok.inj h
    exact .refl relay

/-- A ready guest refuses no packets for good. -/
theorem sendToVm_ret {relay : Relay} {io : VfToVmIO} {tx : Outcome}
    (h : sendToVm relay io = .ok tx) (ready : relay.vio.state = .ready)
    : tx.ret ≠ -1 := by
  unfold sendToVm at h
  split at h
  · rcases virtioTx_cases h with ⟨away, _⟩ | ⟨_, _, effect⟩ | ⟨_, _, effect⟩
    · exact absurd ready away
    · rw [effect.ret]
      decide
    · rw [effect.ret]
      decide
  · cases Except.ok.inj h
    exact (by decide : (0 : Int) ≠ -1)

theorem dropRxPkts_carries {mayLose : Prop} {relay : Relay} {sent : Int}
    (may : sent = -1 → mayLose)
    : Carries Relay.vfToVm mayLose relay (dropRxPkts relay sent).actions
        (dropRxPkts relay sent).relay := by
  unfold dropRxPkts
  split
  · rename_i refused
    exact (notForVm_free _).lose (may refused.1) rfl
  · exact .refl relay

/-- The calls of `relay_vm2vf_traffic` but for the removal of a VF are not for the guest. -/
theorem vm2vf_notForVm {relay : Relay} {io : VmToVfIO} {rx tx : Outcome}
    (fetched : fetchFromVm relay io = .ok rx) (sent : sendToVf rx.relay io = .ok tx)
    : NotForVm (rx.actions ++ tx.actions ++ (dropTxPkts tx.relay tx.ret).actions) := by
  have fetching : NotForVm rx.actions := by
    unfold fetchFromVm at fetched
    split at fetched
    · rcases virtioRx_cases fetched with ⟨_, rfl⟩ | ⟨_, _, _, _, _, polled | ⟨idle, _⟩, _⟩
      · exact ⟨rfl, rfl⟩
      · rw [polled]
        exact ⟨rfl, rfl⟩
      · rw [idle]
        exact ⟨rfl, rfl⟩
    · cases Except.ok.inj fetched
      exact ⟨rfl, rfl⟩
  have sending : NotForVm tx.actions := by
    unfold sendToVf at sent
    split at sent
    · rcases dpdkTx_cases sent with ⟨_, rfl⟩ | ⟨_, _, _, _, calls, _⟩
      · exact ⟨rfl, rfl⟩
      · rw [calls]
        exact ⟨rfl, rfl⟩
    · cases Except.ok.inj sent
      exact ⟨rfl, rfl⟩
  refine (fetching.append sending).append ?_
  unfold dropTxPkts
  split
  · exact notForVm_free _
  · exact ⟨rfl, rfl⟩

/-- The calls of the send loop enqueue and free. -/
theorem notForVf_sendLoop (io : VfToVmIO) (qPkts : Nat → List Mbuf) (queues : List Nat)
    : NotForVf (queues.flatMap (sendActions io qPkts)) := by
  induction queues with
  | nil => exact ⟨rfl, rfl⟩
  | cons i queues ih =>
      have round : NotForVf (sendActions io qPkts i) := by
        unfold sendActions
        split
        · exact ⟨rfl, rfl⟩
        · exact notForVf_free _
      exact round.append ih

/-- The calls of `relay_vf2vm_traffic` but for the removal of a guest are not for the VF. -/
theorem vf2vm_notForVf {relay : Relay} {io : VfToVmIO} {rx tx : Outcome}
    (fetched : fetchFromVf relay io = .ok rx) (sent : sendToVm rx.relay io = .ok tx)
    : NotForVf (rx.actions ++ tx.actions ++ (dropRxPkts tx.relay tx.ret).actions) := by
  have fetching : NotForVf rx.actions := by
    unfold fetchFromVf at fetched
    split at fetched
    · rcases dpdkRx_cases fetched with ⟨_, rfl⟩ | ⟨_, _, _, _, _, calls, _⟩
      · exact ⟨rfl, rfl⟩
      · rw [calls]
        exact ⟨rfl, rfl⟩
    · cases Except.ok.inj fetched
      exact ⟨rfl, rfl⟩
  have sending : NotForVf tx.actions := by
    unfold sendToVm at sent
    split at sent
    · rcases virtioTx_cases sent with ⟨_, rfl⟩ | ⟨_, _, effect⟩ | ⟨_, _, effect⟩
      · exact ⟨rfl, rfl⟩
      · rw [effect.actions]
        exact notForVf_sendLoop io rx.relay.batches _
      · rw [effect.actions]
        exact notForVf_free _
    · cases Except.ok.inj sent
      exact ⟨rfl, rfl⟩
  refine (fetching.append sending).append ?_
  unfold dropRxPkts
  split
  · exact notForVf_free _
  · exact ⟨rfl, rfl⟩

/-- An iteration towards the VF steps both channels; it gives up packets for the VF only if
the VF is not ready, and packets for the guest only at the end of a VF removal.
-/
theorem relayVm2vfTraffic_carries {toVf toVm : Prop} {relay : Relay} {io : VmToVfIO}
    {out : Outcome} (away : relay.dpdk.state ≠ .ready → toVf)
    (removing : relay.dpdk.state = .removing2 → toVm)
    (returned : relayVm2vfTraffic relay io = .ok out)
    : Carries Relay.vmToVf toVf relay out.actions out.relay
      ∧ Carries Relay.vfToVm toVm relay out.actions out.relay := by
  obtain ⟨rx, tx, fetched, sent, after, actions⟩ := relayVm2vfTraffic_parts returned
  have rxState : rx.relay.dpdk.state = relay.dpdk.state := by
    obtain ⟨_, _, _, _, same⟩ := fetchFromVm_packetsOnly fetched
    rw [same]
    rfl
  have middleState : (releaseVirtio (dropTxPkts tx.relay tx.ret).relay).dpdk.state
      = relay.dpdk.state := by
    obtain ⟨_, _, _, _, same⟩ :=
      (sendToVf_packetsOnly sent).trans (dropTxPkts_packetsOnly tx.relay tx.ret)
    rw [releaseVirtio_eq, same]
    exact rxState
  have refused : tx.ret = -1 → toVf := fun ret =>
    away fun ready => sendToVf_ret sent (rxState.trans ready) ret
  rw [after, actions]
  constructor
  · have dropped : Carries Relay.vmToVf toVf relay
        (rx.actions ++ tx.actions ++ (dropTxPkts tx.relay tx.ret).actions)
        (dropTxPkts tx.relay tx.ret).relay :=
      ((fetchFromVm_carries fetched).trans (sendToVf_carries sent)).trans
        (dropTxPkts_carries refused)
    have released : Carries Relay.vmToVf toVf (dropTxPkts tx.relay tx.ret).relay []
        (releaseVirtio (dropTxPkts tx.relay tx.ret).relay) := by
      rw [releaseVirtio_eq]
      exact NotForVf.idle ⟨rfl, rfl⟩ rfl
    have finished := (finishVfRemoval_carries fun removing => away fun ready => by
      rw [middleState, ready] at removing
      cases removing).1
    simpa using (dropped.trans released).trans finished
  · have moved : (releaseVirtio (dropTxPkts tx.relay tx.ret).relay).dpdk.rxPkts
        = relay.dpdk.rxPkts := by
      rw [releaseVirtio_eq]
      exact (sendToVf_drop_caches sent).1.trans (fetchFromVm_caches fetched).1
    have idle : Carries Relay.vfToVm toVm relay
        (rx.actions ++ tx.actions ++ (dropTxPkts tx.relay tx.ret).actions)
        (releaseVirtio (dropTxPkts tx.relay tx.ret).relay) :=
      (vm2vf_notForVm fetched sent).idle (congrArg PktCache.window moved)
    exact idle.trans (finishVfRemoval_carries fun state =>
      removing (middleState.symm.trans state)).2

/-- An iteration towards the guest gives up packets for the VF only at the end of a guest
removal.
-/
theorem relayVf2vmTraffic_carries_vmToVf {toVf : Prop} {relay : Relay} {io : VfToVmIO}
    {out : Outcome} (removing : relay.vio.state = .removing2 → toVf)
    (returned : relayVf2vmTraffic relay io = .ok out)
    : Carries Relay.vmToVf toVf relay out.actions out.relay := by
  obtain ⟨rx, tx, fetched, sent, after, actions⟩ := relayVf2vmTraffic_parts returned
  have moved : PacketsOnly relay (dropRxPkts tx.relay tx.ret).relay :=
    ((fetchFromVf_packetsOnly fetched).trans (sendToVm_packetsOnly sent)).trans
      (dropRxPkts_packetsOnly ..)
  have middleState : (dropRxPkts tx.relay tx.ret).relay.vio.state = relay.vio.state := by
    obtain ⟨_, _, _, _, same⟩ := moved
    rw [same]
    rfl
  have kept : (dropRxPkts tx.relay tx.ret).relay.vio.txPkts = relay.vio.txPkts :=
    (sendToVm_drop_caches sent).1.trans (fetchFromVf_caches fetched).1
  have idle : Carries Relay.vmToVf toVf relay
      (rx.actions ++ tx.actions ++ (dropRxPkts tx.relay tx.ret).actions)
      (dropRxPkts tx.relay tx.ret).relay :=
    (vf2vm_notForVf fetched sent).idle (congrArg PktCache.window kept)
  have finished := (finishVirtioRemoval_carries fun state =>
    removing (middleState.symm.trans state)).1
  have released (r : Relay) : Carries Relay.vmToVf toVf r [] (releaseVf r) := by
    rw [releaseVf_eq]
    exact NotForVf.idle ⟨rfl, rfl⟩ rfl
  rw [after, actions]
  simpa using (idle.trans finished).trans (released _)

/-- A single-queue iteration towards the guest gives up packets for the guest only if the
guest is not ready.
-/
theorem relayVf2vmTraffic_carries_vfToVm {toVm : Prop} {relay : Relay} {io : VfToVmIO}
    {out : Outcome} (single : relay.SingleQueue) (away : relay.vio.state ≠ .ready → toVm)
    (returned : relayVf2vmTraffic relay io = .ok out)
    : Carries Relay.vfToVm toVm relay out.actions out.relay := by
  obtain ⟨rx, tx, fetched, sent, after, actions⟩ := relayVf2vmTraffic_parts returned
  have arrived := fetchFromVf_packetsOnly fetched
  have rxState : rx.relay.vio.state = relay.vio.state := by
    obtain ⟨_, _, _, _, same⟩ := arrived
    rw [same]
    rfl
  have rxSingle : rx.relay.SingleQueue := by
    obtain ⟨_, _, _, _, same⟩ := arrived
    rw [same]
    exact single
  have middleState : (dropRxPkts tx.relay tx.ret).relay.vio.state = relay.vio.state := by
    obtain ⟨_, _, _, _, same⟩ :=
      (sendToVm_packetsOnly sent).trans (dropRxPkts_packetsOnly tx.relay tx.ret)
    rw [same]
    exact rxState
  have refused : tx.ret = -1 → toVm := fun ret =>
    away fun ready => sendToVm_ret sent (rxState.trans ready) ret
  have dropped : Carries Relay.vfToVm toVm relay
      (rx.actions ++ tx.actions ++ (dropRxPkts tx.relay tx.ret).actions)
      (dropRxPkts tx.relay tx.ret).relay :=
    ((fetchFromVf_carries fetched).trans (sendToVm_carries rxSingle sent)).trans
      (dropRxPkts_carries refused)
  have finished := (finishVirtioRemoval_carries fun removing => away fun ready => by
    rw [middleState, ready] at removing
    cases removing).2
  have released (r : Relay) : Carries Relay.vfToVm toVm r [] (releaseVf r) := by
    rw [releaseVf_eq]
    exact NotForVm.idle ⟨rfl, rfl⟩ rfl
  rw [after, actions]
  simpa using (dropped.trans finished).trans (released _)

/-- Writing a state leaves the packets alone. -/
theorem Relay.SamePackets.setDpdkState (relay : Relay) (state : DpdkState)
    : relay.SamePackets (relay.setDpdkState state) :=
  ⟨rfl, rfl, rfl⟩

theorem Relay.SamePackets.setVioState (relay : Relay) (state : VioState)
    : relay.SamePackets (relay.setVioState state) :=
  ⟨rfl, rfl, rfl⟩

/-- Control threads do not show in either channel. -/
theorem Relay.SamePackets.carries {mayLose : Prop} {before after : Relay}
    (same : before.SamePackets after)
    : Carries Relay.vmToVf mayLose before [] after
      ∧ Carries Relay.vfToVm mayLose before [] after :=
  ⟨NotForVf.idle ⟨rfl, rfl⟩ (congrArg PktCache.window same.txPkts),
    NotForVm.idle ⟨rfl, rfl⟩ (congrArg PktCache.window same.rxPkts)⟩

/-- Every run is a run of the channel to the VF, by induction on the run. -/
theorem ForwardingWhile.vmToVf_run {mode : Relay → Prop} {mayLose : Prop} {id : Nat}
    {socketId : Int} {useJumbo : Bool} {relay : Relay} {trace : List Action}
    (closed : ∀ relay, mode relay → ¬ relay.VfOpen → mayLose)
    (run : ForwardingWhile mode (.initial id socketId useJumbo) relay trace)
    : Channel.Run mayLose .empty (relay.vmToVf trace) := by
  induction run with
  | start => exact .refl
  | vm2vf _ inMode io returned ih =>
      have away (state : _ ≠ DpdkState.ready) := closed _ inMode fun isOpen => state isOpen.1
      exact ih.trans ((relayVm2vfTraffic_carries away (fun _ => trivial)
        returned).1 _)
  | vf2vm _ inMode io returned ih =>
      have removing := fun state => closed _ inMode fun isOpen => isOpen.2 state
      exact ih.trans (relayVf2vmTraffic_carries_vmToVf removing returned _)
  | @control _ trace _ _ same ih =>
      have quiet := ih.trans (same.carries.1 trace)
      rwa [List.append_nil] at quiet

/-- Every single-queue run is a run of the channel to the guest, by induction on the run. -/
theorem ForwardingWhile.vfToVm_run {mode : Relay → Prop} {mayLose : Prop} {id : Nat}
    {socketId : Int} {useJumbo : Bool} {relay : Relay} {trace : List Action}
    (single : ∀ relay, mode relay → relay.SingleQueue)
    (closed : ∀ relay, mode relay → ¬ relay.VmOpen → mayLose)
    (run : ForwardingWhile mode (.initial id socketId useJumbo) relay trace)
    : Channel.Run mayLose .empty (relay.vfToVm trace) := by
  induction run with
  | start => exact .refl
  | vm2vf _ inMode io returned ih =>
      have removing := fun state => closed _ inMode fun isOpen => isOpen.2 state
      exact ih.trans ((relayVm2vfTraffic_carries (fun _ => trivial) removing
        returned).2 _)
  | vf2vm _ inMode io returned ih =>
      have away (state : _ ≠ VioState.ready) := closed _ inMode fun isOpen => state isOpen.1
      exact ih.trans (relayVf2vmTraffic_carries_vfToVm (single _ inMode) away returned _)
  | @control _ trace _ _ same ih =>
      have quiet := ih.trans (same.carries.2 trace)
      rwa [List.append_nil] at quiet

/-- From the guest to the VF every run delivers in order: the VF is handed a prefix of each
burst, one burst after the other, and only the rest of the last burst is still buffered.
-/
theorem vmToVf_in_order {id : Nat} {socketId : Int} {useJumbo : Bool} {relay : Relay}
    {trace : List Action} (run : Forwarding (.initial id socketId useJumbo) relay trace)
    : (∃ parts, Channel.InOrder (relay.vmToVf trace) parts)
      ∧ (trace.flatMap Action.handed ++ relay.vio.txPkts.window).Sublist
          (trace.flatMap Action.fromVm).flatten := by
  have steps : Channel.Run True .empty (relay.vmToVf trace) :=
    run.always.vmToVf_run fun _ _ _ => trivial
  obtain ⟨parts, ordered⟩ := steps.inOrder
  exact ⟨⟨parts, ordered⟩, ordered.sublist⟩

/-- A run in which the VF takes two of three packets, loses its link with the third one
buffered, and takes a packet of the next burst later.
-/
theorem vmToVf_in_order_after_loss
    : ∃ relay trace,
        Forwarding (.initial 0 0 false) relay trace
        ∧ (trace.flatMap Action.handed).map Mbuf.addr = [1, 2, 4]
        ∧ relay.vio.txPkts.window.map Mbuf.addr = [5]
        ∧ (∃ parts, Channel.InOrder (relay.vmToVf trace) parts)
        ∧ (trace.flatMap Action.handed ++ relay.vio.txPkts.window).Sublist
            (trace.flatMap Action.fromVm).flatten := by
  let pkt (addr : Nat) : Mbuf := ⟨addr, 64, 0, .driver 0⟩
  have ready : Forwarding (.initial 0 0 false) (.connected 0) [] :=
    .control .start ⟨rfl, rfl, rfl⟩
  have partly := ready.vm2vf ⟨[pkt 1, pkt 2, pkt 3], 2⟩ (eq_ok_outcomeOf (by decide +kernel))
  have unplugged := partly.control (.setDpdkState _ .added)
  have lost := unplugged.vm2vf ⟨[], 0⟩ (eq_ok_outcomeOf (by decide +kernel))
  have plugged := lost.control (.setDpdkState _ .ready)
  have run := plugged.vm2vf ⟨[pkt 4, pkt 5], 1⟩ (eq_ok_outcomeOf (by decide +kernel))
  exact ⟨_, _, run, by decide +kernel, by decide +kernel, vmToVf_in_order run⟩

/-- From the VF to a guest with a single queue every run delivers in order, as above. -/
theorem vfToVm_in_order {id : Nat} {socketId : Int} {useJumbo : Bool} {relay : Relay}
    {trace : List Action}
    (run : ForwardingWhile Relay.SingleQueue (.initial id socketId useJumbo) relay trace)
    : (∃ parts, Channel.InOrder (relay.vfToVm trace) parts)
      ∧ (trace.flatMap Action.toVm ++ relay.dpdk.rxPkts.window).Sublist
          (trace.flatMap Action.fromVf).flatten := by
  have steps : Channel.Run True .empty (relay.vfToVm trace) :=
    run.vfToVm_run (fun _ single => single) fun _ _ _ => trivial
  obtain ⟨parts, ordered⟩ := steps.inOrder
  exact ⟨⟨parts, ordered⟩, ordered.sublist⟩

/-- A run in which the guest takes one of three packets, is removed and comes back. -/
theorem vfToVm_in_order_after_removal
    : ∃ relay trace,
        ForwardingWhile Relay.SingleQueue (.initial 0 0 false) relay trace
        ∧ (trace.flatMap Action.toVm).map Mbuf.addr = [1, 4]
        ∧ relay.dpdk.rxPkts.window.map Mbuf.addr = [5]
        ∧ (∃ parts, Channel.InOrder (relay.vfToVm trace) parts)
        ∧ (trace.flatMap Action.toVm ++ relay.dpdk.rxPkts.window).Sublist
            (trace.flatMap Action.fromVf).flatten := by
  let pkt (addr : Nat) : Mbuf := ⟨addr, 64, 0, .driver 0⟩
  have ready : ForwardingWhile Relay.SingleQueue (.initial 0 0 false) (.connected 0) [] :=
    .control .start ⟨rfl, rfl, rfl⟩
  have partly := ready.vf2vm (by decide +kernel) ⟨3, [pkt 1, pkt 2, pkt 3], fun _ => 1⟩
    (eq_ok_outcomeOf (by decide +kernel))
  have leaving := partly.control (.setVioState _ .removing2)
  have gone := leaving.vf2vm (by decide +kernel) ⟨0, [], fun _ => 0⟩
    (eq_ok_outcomeOf (by decide +kernel))
  have back := gone.control (.setVioState _ .ready)
  have run := back.vf2vm (by decide +kernel) ⟨2, [pkt 4, pkt 5], fun _ => 1⟩
    (eq_ok_outcomeOf (by decide +kernel))
  exact ⟨_, _, run, by decide +kernel, by decide +kernel, vfToVm_in_order run⟩

/-- While a side stays ready and no removal ends, the channel towards it loses nothing: what
came in is what went out followed by what is buffered.
-/
theorem nothing_lost_while_open {mode : Relay → Prop} {id : Nat} {socketId : Int}
    {useJumbo : Bool} {relay : Relay} {trace : List Action}
    (run : ForwardingWhile mode (.initial id socketId useJumbo) relay trace)
    : ((∀ relay, mode relay → relay.VfOpen)
        → (trace.flatMap Action.fromVm).flatten
          = trace.flatMap Action.handed ++ relay.vio.txPkts.window)
      ∧ ((∀ relay, mode relay → relay.SingleQueue ∧ relay.VmOpen)
        → (trace.flatMap Action.fromVf).flatten
          = trace.flatMap Action.toVm ++ relay.dpdk.rxPkts.window) := by
  constructor
  · intro isOpen
    exact (run.vmToVf_run fun r inMode closed => closed (isOpen r inMode)).lossless
  · intro isOpen
    exact (run.vfToVm_run (fun r inMode => (isOpen r inMode).1)
      fun r inMode closed => closed (isOpen r inMode).2).lossless

/-- A run in both directions with both sides ready and partial bursts. -/
theorem nothing_lost_in_partial_bursts
    : ∃ relay trace,
        ForwardingWhile (fun r => r.SingleQueue ∧ r.VfOpen ∧ r.VmOpen) (.initial 0 0 false)
          relay trace
        ∧ (trace.flatMap Action.fromVm).flatten
          = trace.flatMap Action.handed ++ relay.vio.txPkts.window
        ∧ (trace.flatMap Action.fromVf).flatten
          = trace.flatMap Action.toVm ++ relay.dpdk.rxPkts.window
        ∧ (trace.flatMap Action.handed).map Mbuf.addr = [1, 2]
        ∧ (trace.flatMap Action.toVm).map Mbuf.addr = [3] := by
  let pkt (addr : Nat) : Mbuf := ⟨addr, 64, 0, .driver 0⟩
  have ready : ForwardingWhile (fun r => r.SingleQueue ∧ r.VfOpen ∧ r.VmOpen)
      (.initial 0 0 false) (.connected 0) [] :=
    .control .start ⟨rfl, rfl, rfl⟩
  have partly := ready.vm2vf (by decide +kernel) ⟨[pkt 1, pkt 2], 1⟩
    (eq_ok_outcomeOf (by decide +kernel))
  have back := partly.vf2vm (by decide +kernel) ⟨2, [pkt 3, pkt 4], fun _ => 1⟩
    (eq_ok_outcomeOf (by decide +kernel))
  have run := back.vm2vf (by decide +kernel) ⟨[], 1⟩ (eq_ok_outcomeOf (by decide +kernel))
  obtain ⟨toVf, toVm⟩ := nothing_lost_while_open run
  exact ⟨_, _, run, toVf fun _ inMode => inMode.2.1,
    toVm fun _ inMode => ⟨inMode.1, inMode.2.2⟩, by decide +kernel, by decide +kernel⟩

end VirtioForwarder
