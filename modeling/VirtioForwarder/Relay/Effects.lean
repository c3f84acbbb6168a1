import VirtioForwarder.Relay.Batching

/-! What each function of a worker iteration can do, stated once.
Later proofs take a returned call apart with these lemmas and never unfold the function.
-/

namespace VirtioForwarder

/-- `virtio_rx` either finds the guest not ready, or polls one queue and makes the burst
the new window of the TX cache.
-/
theorem virtioRx_cases {relay : Relay} {io : VmToVfIO} {out : Outcome}
    (h : virtioRx relay io = .ok out)
    : (relay.vio.state ≠ .ready ∧ out = ⟨relay, [], -1⟩)
      ∨ relay.vio.state = .ready
        ∧ ∃ pkts rr bytes,
            pkts.length ≤ burstLen
            ∧ (out.actions = [.dequeueBurst (relay.vio.txQRr * 2 + 1) pkts]
              ∨ out.actions = [] ∧ pkts = [])
            ∧ out.relay
              = { relay with
                  vio := { relay.vio with txPkts := relay.vio.txPkts.receive pkts, txQRr := rr }
                  stats := { relay.stats with
                    vioRx := relay.stats.vioRx + UInt64.ofNat pkts.length
                    vioRxBytes := bytes } } := by
  unfold virtioRx at h
  by_cases ready : relay.vio.state = .ready
  · rw [if_neg (not_not.mpr ready)] at h
    refine Or.inr ⟨ready, ?_⟩
    split at h
    · cases h
    · rename_i rr _
      cases Except.ok.inj h
      refine ⟨_, rr, _, ?_, ?_, rfl⟩
      · split
        · simp only [List.length_take]
          omega
        · simp
      · split
        · exact Or.inl rfl
        · exact Or.inr ⟨rfl, rfl⟩
  · rw [if_pos ready] at h
    exact Or.inl ⟨ready, (Except.ok.inj h).symm⟩

/-- `virtio_rx` fails only by scanning forever. -/
theorem virtioRx_error {relay : Relay} {io : VmToVfIO} {fault : Fault}
    (h : virtioRx relay io = .error fault)
    : fault = .hang := by
  unfold virtioRx at h
  dsimp only at h
  split at h
  · cases h
  · split at h
    · exact (Except.error.inj h).symm
    · cases h

/-- `dpdk_tx` either finds the VF not ready, or the VF takes a prefix of the window. -/
theorem dpdkTx_cases {relay : Relay} {io : VmToVfIO} {out : Outcome}
    (h : dpdkTx relay io = .ok out)
    : (relay.dpdk.state ≠ .ready ∧ out = ⟨relay, [], -1⟩)
      ∨ relay.dpdk.state = .ready
        ∧ ∃ sent bytes,
            sent ≤ relay.vio.txPkts.avail
            ∧ out.actions = [.txBurst relay.vio.txPkts.window sent]
            ∧ out.ret = sent
            ∧ out.relay
              = { relay.setTxPkts (relay.vio.txPkts.advance sent) with
                  stats := { relay.stats with
                    dpdkTx := relay.stats.dpdkTx + UInt64.ofNat sent
                    dpdkTxBytes := bytes } } := by
  unfold dpdkTx at h
  by_cases ready : relay.dpdk.state = .ready
  · rw [if_neg (not_not.mpr ready)] at h
    simp only at h
    split at h
    · cases Except.ok.inj h
      exact Or.inr ⟨ready, _, _, Nat.min_le_right .., rfl, rfl, rfl⟩
    · cases h
  · rw [if_pos ready] at h
    exact Or.inl ⟨ready, (Except.ok.inj h).symm⟩

/-- `dpdk_tx` fails only if the window already reaches behind the cache. -/
theorem dpdkTx_error {relay : Relay} {io : VmToVfIO} {fault : Fault}
    (h : dpdkTx relay io = .error fault)
    : burstLen < relay.vio.txPkts.used + relay.vio.txPkts.avail := by
  unfold dpdkTx at h
  split at h
  · cases h
  · simp only at h
    split at h
    · cases h
    · rename_i out
      simp only [PktCache.advance] at out
      omega

/-- `calc_mbuf_queue` returns exactly when its table index is in bounds; then the tag is the
table entry and nothing else changes.
-/
theorem calcMbufQueue_eq_ok_iff {vio : RelayVirtio} {pkt tagged : Mbuf}
    : calcMbufQueue vio pkt = .ok tagged
      ↔ ∃ index,
          lutIndex vio pkt.headerHash = .ok index
          ∧ index < maxMultiqueuePairs
          ∧ tagged = { pkt with fdirId := .queue (vio.rxQLut index) } := by
  cases found : lutIndex vio pkt.headerHash with
  | error fault => simp [calcMbufQueue, found, bind, Except.bind]
  | ok index =>
      by_cases bound : index < maxMultiqueuePairs
      · simp [calcMbufQueue, found, bound, bind, Except.bind, pure, Except.pure, eq_comm]
      · simp [calcMbufQueue, found, bound, bind, Except.bind, throw, throwThe,
          MonadExceptOf.throw]

/-- A tagging loop that returns has tagged the packets one by one. -/
theorem mapM_calcMbufQueue {vio : RelayVirtio} {pkts tagged : List Mbuf}
    (h : pkts.mapM (calcMbufQueue vio) = .ok tagged)
    : List.Forall₂ (fun pkt pkt' => calcMbufQueue vio pkt = .ok pkt') pkts tagged := by
  induction pkts generalizing tagged with
  | nil =>
      cases Except.ok.inj h
      exact .nil
  | cons pkt pkts ih =>
      rw [List.mapM_cons] at h
      cases head : calcMbufQueue vio pkt with
      | error fault => simp [head, bind, Except.bind] at h
      | ok pkt' =>
          cases tail : pkts.mapM (calcMbufQueue vio) with
          | error fault => simp [head, tail, bind, Except.bind] at h
          | ok rest =>
              simp only [head, tail, bind, Except.bind, pure, Except.pure,
                Except.ok.injEq] at h
              subst h
              exact .cons head (ih tail)

/-- The burst that `dpdk_rx` stores: tagged packets while several queues are enabled, the
packets as the driver left them otherwise.
-/
def Stored (relay : Relay) (rcvd pkts : List Mbuf) : Prop :=
  (relay.vio.rxQBitmap > 1
    ∧ List.Forall₂ (fun pkt pkt' => calcMbufQueue relay.vio pkt = .ok pkt') rcvd pkts)
  ∨ (¬ relay.vio.rxQBitmap > 1 ∧ pkts = rcvd)

/-- A stored burst has as many packets as the driver delivered. -/
theorem Stored.length_eq {relay : Relay} {rcvd pkts : List Mbuf} (h : Stored relay rcvd pkts)
    : pkts.length = rcvd.length := by
  rcases h with ⟨_, tagged⟩ | ⟨_, same⟩
  · exact tagged.length_eq.symm
  · rw [same]

/-- The VF is asked for at most one burst. -/
theorem tryRcv_le (relay : Relay) (io : VfToVmIO) : tryRcv relay io ≤ burstLen := by
  unfold tryRcv
  split
  · exact Nat.le_refl _
  · exact Nat.min_le_right ..

/-- `dpdk_rx` either finds the VF not ready, or makes the received burst the new window of
the RX cache.
-/
theorem dpdkRx_cases {relay : Relay} {io : VfToVmIO} {out : Outcome}
    (h : dpdkRx relay io = .ok out)
    : (relay.dpdk.state ≠ .ready ∧ out = ⟨relay, [], -1⟩)
      ∨ relay.dpdk.state = .ready
        ∧ ∃ pkts bytes,
            pkts.length ≤ burstLen
            ∧ Stored relay (io.received.take (tryRcv relay io)) pkts
            ∧ out.actions = [.rxBurst pkts]
            ∧ out.relay
              = { relay.setRxPkts (relay.dpdk.rxPkts.receive pkts) with
                  stats := { relay.stats with
                    dpdkRx := relay.stats.dpdkRx + UInt64.ofNat pkts.length
                    dpdkRxBytes := bytes } } := by
  unfold dpdkRx at h
  by_cases ready : relay.dpdk.state = .ready
  · simp only [ready, ne_eq, not_true_eq_false, if_false] at h
    refine Or.inr ⟨ready, ?_⟩
    have limit : (io.received.take (tryRcv relay io)).length ≤ burstLen :=
      Nat.le_trans (List.length_take_le ..) (tryRcv_le relay io)
    by_cases multi : relay.vio.rxQBitmap > 1
    · simp only [multi, if_true] at h
      cases tagging : (io.received.take (tryRcv relay io)).mapM (calcMbufQueue relay.vio) with
      | error fault => simp [tagging, bind, Except.bind] at h
      | ok pkts =>
          simp only [tagging, bind, Except.bind, pure, Except.pure, Except.ok.injEq] at h
          have stored : Stored relay (io.received.take (tryRcv relay io)) pkts :=
            Or.inl ⟨multi, mapM_calcMbufQueue tagging⟩
          subst h
          exact ⟨pkts, _, stored.length_eq ▸ limit, stored, rfl, rfl⟩
    · simp only [multi, if_false, bind, Except.bind, pure, Except.pure, Except.ok.injEq] at h
      subst h
      exact ⟨_, _, limit, Or.inr ⟨multi, rfl⟩, rfl, rfl⟩
  · simp only [ne_eq, ready, not_false_eq_true, if_true] at h
    exact Or.inl ⟨ready, (Except.ok.inj h).symm⟩

/-- `calc_mbuf_queue` never fails an assertion. -/
theorem calcMbufQueue_error {vio : RelayVirtio} {pkt : Mbuf} {fault : Fault}
    (h : calcMbufQueue vio pkt = .error fault)
    : fault ≠ .assertFailed := by
  unfold calcMbufQueue lutIndex at h
  rintro rfl
  dsimp only at h
  split at h
  · simp only [bind, Except.bind] at h
    split at h <;> cases h
  · split at h
    · cases h
    · simp only [bind, Except.bind] at h
      split at h <;> cases h

/-- `dpdk_rx` has no assertion to fail. -/
theorem dpdkRx_error {relay : Relay} {io : VfToVmIO} {fault : Fault}
    (h : dpdkRx relay io = .error fault)
    : fault ≠ .assertFailed := by
  have tagging (pkts : List Mbuf) (failed : pkts.mapM (calcMbufQueue relay.vio) = .error fault)
      : fault ≠ .assertFailed := by
    induction pkts with
    | nil => cases failed
    | cons pkt pkts ih =>
        rw [List.mapM_cons] at failed
        cases head : calcMbufQueue relay.vio pkt with
        | error fault' =>
            simp only [head, bind, Except.bind, Except.error.injEq] at failed
            exact failed ▸ calcMbufQueue_error head
        | ok pkt' =>
            cases tail : pkts.mapM (calcMbufQueue relay.vio) with
            | error fault' =>
                simp only [head, tail, bind, Except.bind, Except.error.injEq] at failed
                exact ih (failed ▸ tail)
            | ok rest => simp [head, tail, bind, Except.bind, pure, Except.pure] at failed
  unfold dpdkRx at h
  split at h
  · cases h
  · split at h
    · cases failed : (io.received.take (tryRcv relay io)).mapM (calcMbufQueue relay.vio) with
      | error fault' =>
          simp only [failed, bind, Except.bind, Except.error.injEq] at h
          exact tagging _ (h ▸ failed)
      | ok pkts => simp [failed, bind, Except.bind, pure, Except.pure] at h
    · simp [bind, Except.bind, pure, Except.pure] at h

/-- What a single-queue `virtio_tx` that returns has done: the guest has taken a prefix of
the window, whose packets are freed.
-/
structure SingleSent (relay : Relay) (out : Outcome) (sent : Nat) : Prop where
  le_avail : sent ≤ relay.dpdk.rxPkts.avail
  actions
    : out.actions
      = .enqueueBurst 0 relay.dpdk.rxPkts.window sent
        :: (relay.dpdk.rxPkts.window.take sent).reverse.map .free
  relay_eq
    : out.relay
      = { relay.setRxPkts (relay.dpdk.rxPkts.advance sent) with
          stats := { relay.stats with
            vioTx := relay.stats.vioTx + UInt64.ofNat sent
            vioTxBytes := out.relay.stats.vioTxBytes } }
  ret : out.ret = 0

/-- `virtio_tx` finds the guest not ready, or serves several queues, or a single one. -/
theorem virtioTx_cases {relay : Relay} {io : VfToVmIO} {out : Outcome}
    (h : virtioTx relay io = .ok out)
    : (relay.vio.state ≠ .ready ∧ out = ⟨relay, [], -1⟩)
      ∨ (relay.vio.state = .ready ∧ relay.vio.rxQBitmap > 1 ∧ MultiSent relay io out)
      ∨ (relay.vio.state = .ready ∧ ¬ relay.vio.rxQBitmap > 1
        ∧ SingleSent relay out (min (io.enqueueAccepted 0) relay.dpdk.rxPkts.avail)) := by
  unfold virtioTx at h
  by_cases ready : relay.vio.state = .ready
  · rw [if_neg (not_not.mpr ready)] at h
    split at h
    · exact Or.inr (Or.inl ⟨ready, ‹_›, virtioTxMulti_eq_ok h⟩)
    · rename_i single
      unfold virtioTxSingle at h
      simp only at h
      split at h
      · cases Except.ok.inj h
        exact Or.inr (Or.inr ⟨ready, single, Nat.min_le_right .., rfl, rfl, rfl⟩)
      · cases h
  · rw [if_pos ready] at h
    exact Or.inl ⟨ready, (Except.ok.inj h).symm⟩

/-- `virtio_tx` fails an assertion only if the window already reaches behind the cache. -/
theorem virtioTx_assertFailed {relay : Relay} {io : VfToVmIO}
    (h : virtioTx relay io = .error .assertFailed)
    : burstLen < relay.dpdk.rxPkts.used + relay.dpdk.rxPkts.avail := by
  unfold virtioTx at h
  split at h
  · cases h
  · split at h
    · unfold virtioTxMulti at h
      cases batched : batchPkts relay.vio.rxQActive relay.dpdk.rxPkts.window (fun _ => []) with
      | error fault =>
          simp only [batched, bind, Except.bind, Except.error.injEq] at h
          cases h ▸ batchPkts_error batched
      | ok qPkts => simp [batched, bind, Except.bind, pure, Except.pure] at h
    · unfold virtioTxSingle at h
      simp only at h
      split at h
      · cases h
      · rename_i out
        simp only [PktCache.advance] at out
        omega

/-- A sequence of two fallible calls returns exactly when both return. -/
theorem bind_eq_ok {α β : Type} {first : Except Fault α} {next : α → Except Fault β} {b : β}
    : (first >>= next) = .ok b ↔ ∃ a, first = .ok a ∧ next a = .ok b := by
  cases first <;> simp [bind, Except.bind]

/-- A sequence of two fallible calls fails in the first or in the second. -/
theorem bind_eq_error {α β : Type} {first : Except Fault α} {next : α → Except Fault β}
    {fault : Fault}
    : (first >>= next) = .error fault
      ↔ first = .error fault ∨ ∃ a, first = .ok a ∧ next a = .error fault := by
  cases first <;> simp [bind, Except.bind]

/-- The outcome of a call that returns, for evaluating concrete runs. -/
def outcomeOf : Except Fault Outcome → Outcome
  | .ok out => out
  | .error _ => .skip (.initial 0 0 false)

theorem eq_ok_outcomeOf {result : Except Fault Outcome} (h : result.isOk = true)
    : result = .ok (outcomeOf result) := by
  cases result with
  | ok out => rfl
  | error fault => cases h

/-- A `relay_vm2vf_traffic` that returns fetches, sends, drops and finishes removals. -/
theorem relayVm2vfTraffic_parts {relay : Relay} {io : VmToVfIO} {out : Outcome}
    (h : relayVm2vfTraffic relay io = .ok out)
    : ∃ rx tx,
        fetchFromVm relay io = .ok rx
        ∧ sendToVf rx.relay io = .ok tx
        ∧ out.relay = (finishVfRemoval (releaseVirtio (dropTxPkts tx.relay tx.ret).relay)).relay
        ∧ out.actions
          = rx.actions ++ tx.actions ++ (dropTxPkts tx.relay tx.ret).actions
            ++ (finishVfRemoval
                (releaseVirtio (dropTxPkts tx.relay tx.ret).relay)).actions := by
  obtain ⟨rx, fetched, h⟩ := bind_eq_ok.mp h
  obtain ⟨tx, sent, h⟩ := bind_eq_ok.mp h
  cases Except.ok.inj h
  exact ⟨rx, tx, fetched, sent, rfl, rfl⟩

/-- A `relay_vf2vm_traffic` that returns fetches, sends, drops and finishes removals. -/
theorem relayVf2vmTraffic_parts {relay : Relay} {io : VfToVmIO} {out : Outcome}
    (h : relayVf2vmTraffic relay io = .ok out)
    : ∃ rx tx,
        fetchFromVf relay io = .ok rx
        ∧ sendToVm rx.relay io = .ok tx
        ∧ out.relay
          = releaseVf (finishVirtioRemoval (dropRxPkts tx.relay tx.ret).relay).relay
        ∧ out.actions
          = rx.actions ++ tx.actions ++ (dropRxPkts tx.relay tx.ret).actions
            ++ (finishVirtioRemoval (dropRxPkts tx.relay tx.ret).relay).actions := by
  obtain ⟨rx, fetched, h⟩ := bind_eq_ok.mp h
  obtain ⟨tx, sent, h⟩ := bind_eq_ok.mp h
  cases Except.ok.inj h
  exact ⟨rx, tx, fetched, sent, rfl, rfl⟩

/-- A fault of `relay_vm2vf_traffic` comes from its fetch or from its send. -/
theorem relayVm2vfTraffic_error {relay : Relay} {io : VmToVfIO} {fault : Fault}
    (h : relayVm2vfTraffic relay io = .error fault)
    : fetchFromVm relay io = .error fault
      ∨ ∃ rx, fetchFromVm relay io = .ok rx ∧ sendToVf rx.relay io = .error fault := by
  refine (bind_eq_error.mp h).imp_right fun ⟨rx, fetched, rest⟩ => ⟨rx, fetched, ?_⟩
  rcases bind_eq_error.mp rest with sending | ⟨tx, _, impossible⟩
  · exact sending
  · cases impossible

/-- A fault of `relay_vf2vm_traffic` comes from its fetch or from its send. -/
theorem relayVf2vmTraffic_error {relay : Relay} {io : VfToVmIO} {fault : Fault}
    (h : relayVf2vmTraffic relay io = .error fault)
    : fetchFromVf relay io = .error fault
      ∨ ∃ rx, fetchFromVf relay io = .ok rx ∧ sendToVm rx.relay io = .error fault := by
  refine (bind_eq_error.mp h).imp_right fun ⟨rx, fetched, rest⟩ => ⟨rx, fetched, ?_⟩
  rcases bind_eq_error.mp rest with sending | ⟨tx, _, impossible⟩
  · exact sending
  · cases impossible

end VirtioForwarder
