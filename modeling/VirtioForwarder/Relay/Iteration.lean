import VirtioForwarder.Relay.Effects

/-! What one worker iteration does to a relay as a whole: which fields it can touch, which
states it leaves behind, and when packets remain in the caches.
-/

namespace VirtioForwarder

/-- The relay with other packets, counters and round-robin position, all else the same. -/
def Relay.withPackets (relay : Relay) (tx rx : PktCache) (rr : Nat) (stats : RelayStats)
    : Relay :=
  { relay with
    vio := { relay.vio with txPkts := tx, txQRr := rr }
    dpdk := { relay.dpdk with rxPkts := rx }
    stats := stats }

/-- A piece of an iteration that moves packets and writes no state, CPU, queue or pool. -/
def PacketsOnly (before after : Relay) : Prop :=
  ∃ tx rx rr stats, after = before.withPackets tx rx rr stats

/-- Doing nothing moves no packets. -/
theorem PacketsOnly.refl (relay : Relay) : PacketsOnly relay relay :=
  ⟨_, _, _, _, rfl⟩

/-- Two pieces that only move packets make up a piece that only moves packets. -/
theorem PacketsOnly.trans {first middle last : Relay} (hl : PacketsOnly first middle)
    (hr : PacketsOnly middle last)
    : PacketsOnly first last := by
  obtain ⟨_, _, _, _, rfl⟩ := hl
  obtain ⟨_, _, _, _, rfl⟩ := hr
  exact ⟨_, _, _, _, rfl⟩

/-- Fetching from the guest only moves packets. -/
theorem fetchFromVm_packetsOnly {relay : Relay} {io : VmToVfIO} {rx : Outcome}
    (h : fetchFromVm relay io = .ok rx)
    : PacketsOnly relay rx.relay := by
  unfold fetchFromVm at h
  split at h
  · rcases virtioRx_cases h with ⟨_, rfl⟩ | ⟨_, _, _, _, _, _, after⟩
    · exact .refl relay
    · exact ⟨_, _, _, _, after⟩
  · cases Except.ok.inj h
    exact .refl relay

/-- Sending to the VF only moves packets. -/
theorem sendToVf_packetsOnly {relay : Relay} {io : VmToVfIO} {tx : Outcome}
    (h : sendToVf relay io = .ok tx)
    : PacketsOnly relay tx.relay := by
  unfold sendToVf at h
  split at h
  · rcases dpdkTx_cases h with ⟨_, rfl⟩ | ⟨_, _, _, _, _, _, after⟩
    · exact .refl relay
    · exact ⟨_, _, _, _, after⟩
  · cases Except.ok.inj h
    exact .refl relay

/-- Fetching from the VF only moves packets. -/
theorem fetchFromVf_packetsOnly {relay : Relay} {io : VfToVmIO} {rx : Outcome}
    (h : fetchFromVf relay io = .ok rx)
    : PacketsOnly relay rx.relay := by
  unfold fetchFromVf at h
  split at h
  · rcases dpdkRx_cases h with ⟨_, rfl⟩ | ⟨_, _, _, _, _, _, after⟩
    · exact .refl relay
    · exact ⟨_, _, _, _, after⟩
  · cases Except.ok.inj h
    exact .refl relay

/-- Sending to the guest only moves packets. -/
theorem sendToVm_packetsOnly {relay : Relay} {io : VfToVmIO} {tx : Outcome}
    (h : sendToVm relay io = .ok tx)
    : PacketsOnly relay tx.relay := by
  unfold sendToVm at h
  split at h
  · rcases virtioTx_cases h with ⟨_, rfl⟩ | ⟨_, _, sent⟩ | ⟨_, _, sent⟩
    · exact .refl relay
    · exact ⟨_, _, _, _, sent.frame⟩
    · exact ⟨_, _, _, _, sent.relay_eq⟩
  · cases Except.ok.inj h
    exact .refl relay

/-- Dropping packets for the VF only moves packets. -/
theorem dropTxPkts_packetsOnly (relay : Relay) (sent : Int)
    : PacketsOnly relay (dropTxPkts relay sent).relay := by
  unfold dropTxPkts
  split
  · exact ⟨_, _, _, _, rfl⟩
  · exact .refl relay

/-- Dropping packets for the guest only moves packets. -/
theorem dropRxPkts_packetsOnly (relay : Relay) (sent : Int)
    : PacketsOnly relay (dropRxPkts relay sent).relay := by
  unfold dropRxPkts
  split
  · exact ⟨_, _, _, _, rfl⟩
  · exact .refl relay

/-- Both cleanup functions empty both caches and, but for the state, only move packets. -/
theorem clearBoth_cases (relay : Relay)
    : PacketsOnly relay (clearTxPkts (clearRxPkts relay).relay).relay
      ∧ (clearTxPkts (clearRxPkts relay).relay).relay.vio.txPkts.avail = 0
      ∧ (clearTxPkts (clearRxPkts relay).relay).relay.dpdk.rxPkts.avail = 0 := by
  by_cases rx : relay.dpdk.rxPkts.avail = 0 <;> by_cases tx : relay.vio.txPkts.avail = 0
  · simpa [clearRxPkts, clearTxPkts, Outcome.skip, rx, tx] using PacketsOnly.refl relay
  · simp only [clearRxPkts, clearTxPkts, Outcome.skip, rx, tx, ne_eq, not_true_eq_false,
      if_false, not_false_eq_true, if_true]
    exact ⟨⟨_, _, _, _, rfl⟩, rfl, rx⟩
  · simp only [clearRxPkts, clearTxPkts, Outcome.skip, rx, tx, ne_eq, not_true_eq_false,
      if_false, not_false_eq_true, if_true, Relay.setRxPkts]
    exact ⟨⟨_, _, _, _, rfl⟩, trivial, trivial⟩
  · simp only [clearRxPkts, clearTxPkts, Outcome.skip, rx, tx, ne_eq, not_false_eq_true,
      if_true, Relay.setRxPkts]
    exact ⟨⟨_, _, _, _, rfl⟩, rfl, rfl⟩

theorem clearRxPkts_frees (relay : Relay)
    : ∃ pkts : List Mbuf, (clearRxPkts relay).actions = pkts.map .free := by
  unfold clearRxPkts
  split
  · exact ⟨_, rfl⟩
  · exact ⟨[], rfl⟩

theorem clearTxPkts_frees (relay : Relay)
    : ∃ pkts : List Mbuf, (clearTxPkts relay).actions = pkts.map .free := by
  unfold clearTxPkts
  split
  · exact ⟨_, rfl⟩
  · exact ⟨[], rfl⟩

/-- Clearing both caches only frees. -/
theorem clearBoth_frees (relay : Relay)
    : ∃ pkts : List Mbuf,
        (clearRxPkts relay).actions ++ (clearTxPkts (clearRxPkts relay).relay).actions
          = pkts.map .free := by
  obtain ⟨rxPkts, rxEq⟩ := clearRxPkts_frees relay
  obtain ⟨txPkts, txEq⟩ := clearTxPkts_frees (clearRxPkts relay).relay
  exact ⟨rxPkts ++ txPkts, by rw [rxEq, txEq, List.map_append]⟩

/-- The virtio state after the first phase of a virtio removal. -/
def VioState.released (state : VioState) (vf2vioCpu : Int) : VioState :=
  if state = .removing1 then if vf2vioCpu = -1 then .uninit else .removing2 else state

/-- The VF state after the first phase of a VF removal. -/
def DpdkState.released (state : DpdkState) (vio2vfCpu : Int) : DpdkState :=
  if state = .removing1 then if vio2vfCpu = -1 then .uninit else .removing2 else state

/-- Nothing but packets, counters, the round-robin position and the two states differs. -/
def SameSetup (before after : Relay) : Prop :=
  ∃ middle vioState dpdkState,
    PacketsOnly before middle
    ∧ after = (middle.setVioState vioState).setDpdkState dpdkState

/-- The states and caches that a `relay_vm2vf_traffic` call leaves behind. -/
structure VmToVfEffect (relay after : Relay) : Prop where
  setup : SameSetup relay after
  vioState : after.vio.state = relay.vio.state.released relay.dpdk.vf2vioCpu
  dpdkState
    : after.dpdk.state
      = if relay.dpdk.state = .removing2 then .uninit else relay.dpdk.state
  rxPkts : relay.dpdk.state ≠ .removing2 → after.dpdk.rxPkts = relay.dpdk.rxPkts
  cleared
    : relay.dpdk.state = .removing2
      → after.vio.txPkts.avail = 0 ∧ after.dpdk.rxPkts.avail = 0
  dropped : relay.dpdk.state ≠ .ready → after.vio.txPkts.avail = 0
  fetched
    : after.vio.txPkts.avail ≠ 0
      → relay.vio.txPkts.avail ≠ 0 ∨ relay.vio.state = .ready

/-- The states and caches that a `relay_vf2vm_traffic` call leaves behind. -/
structure VfToVmEffect (relay after : Relay) : Prop where
  setup : SameSetup relay after
  vioState
    : after.vio.state = if relay.vio.state = .removing2 then .uninit else relay.vio.state
  dpdkState : after.dpdk.state = relay.dpdk.state.released relay.vio.vio2vfCpu
  txPkts : relay.vio.state ≠ .removing2 → after.vio.txPkts = relay.vio.txPkts
  cleared
    : relay.vio.state = .removing2
      → after.vio.txPkts.avail = 0 ∧ after.dpdk.rxPkts.avail = 0
  dropped : relay.vio.state ≠ .ready → after.dpdk.rxPkts.avail = 0
  fetched
    : after.dpdk.rxPkts.avail ≠ 0
      → relay.dpdk.rxPkts.avail ≠ 0 ∨ relay.dpdk.state = .ready

/-- Fetching from the guest leaves the RX cache alone and fills the TX cache only from a
ready guest.
-/
theorem fetchFromVm_caches {relay : Relay} {io : VmToVfIO} {rx : Outcome}
    (h : fetchFromVm relay io = .ok rx)
    : rx.relay.dpdk.rxPkts = relay.dpdk.rxPkts
      ∧ (rx.relay.vio.txPkts.avail ≠ 0
        → relay.vio.txPkts.avail ≠ 0 ∨ relay.vio.state = .ready) := by
  unfold fetchFromVm at h
  split at h
  · rcases virtioRx_cases h with ⟨_, rfl⟩ | ⟨ready, _, _, _, _, _, after⟩
    · exact ⟨rfl, Or.inl⟩
    · exact ⟨by rw [after], fun _ => Or.inr ready⟩
  · cases Except.ok.inj h
    exact ⟨rfl, Or.inl⟩

/-- Sending and dropping leave the RX cache alone, never fill the TX cache, and empty it
unless the VF is ready.
-/
theorem sendToVf_drop_caches {relay : Relay} {io : VmToVfIO} {tx : Outcome}
    (h : sendToVf relay io = .ok tx)
    : (dropTxPkts tx.relay tx.ret).relay.dpdk.rxPkts = relay.dpdk.rxPkts
      ∧ ((dropTxPkts tx.relay tx.ret).relay.vio.txPkts.avail ≠ 0
        → relay.vio.txPkts.avail ≠ 0)
      ∧ (relay.dpdk.state ≠ .ready
        → (dropTxPkts tx.relay tx.ret).relay.vio.txPkts.avail = 0) := by
  unfold sendToVf at h
  split at h
  · rename_i buffered
    rcases dpdkTx_cases h with ⟨_, rfl⟩ | ⟨ready, sent, _, _, _, ret, after⟩
    · simp only [dropTxPkts, buffered, ne_eq, not_false_eq_true, and_self, if_true,
        Relay.setTxPkts, not_true_eq_false, implies_true]
    · have kept : dropTxPkts tx.relay tx.ret = .skip tx.relay := by
        rw [dropTxPkts, if_neg]
        rintro ⟨negative, _⟩
        rw [ret] at negative
        omega
      rw [kept]
      refine ⟨by rw [Outcome.skip, after]; rfl, fun _ => buffered, fun away => ?_⟩
      exact absurd ready away
  · rename_i empty
    cases Except.ok.inj h
    have skipped : dropTxPkts relay 0 = .skip relay := rfl
    rw [Outcome.skip, skipped]
    exact ⟨rfl, fun buffered => absurd buffered empty, fun _ => not_not.mp empty⟩

theorem fetchFromVf_caches {relay : Relay} {io : VfToVmIO} {rx : Outcome}
    (h : fetchFromVf relay io = .ok rx)
    : rx.relay.vio.txPkts = relay.vio.txPkts
      ∧ (rx.relay.dpdk.rxPkts.avail ≠ 0
        → relay.dpdk.rxPkts.avail ≠ 0 ∨ relay.dpdk.state = .ready) := by
  unfold fetchFromVf at h
  split at h
  · rcases dpdkRx_cases h with ⟨_, rfl⟩ | ⟨ready, _, _, _, _, _, after⟩
    · exact ⟨rfl, Or.inl⟩
    · exact ⟨by rw [after]; rfl, fun _ => Or.inr ready⟩
  · cases Except.ok.inj h
    exact ⟨rfl, Or.inl⟩

theorem sendToVm_drop_caches {relay : Relay} {io : VfToVmIO} {tx : Outcome}
    (h : sendToVm relay io = .ok tx)
    : (dropRxPkts tx.relay tx.ret).relay.vio.txPkts = relay.vio.txPkts
      ∧ ((dropRxPkts tx.relay tx.ret).relay.dpdk.rxPkts.avail ≠ 0
        → relay.dpdk.rxPkts.avail ≠ 0)
      ∧ (relay.vio.state ≠ .ready
        → (dropRxPkts tx.relay tx.ret).relay.dpdk.rxPkts.avail = 0) := by
  unfold sendToVm at h
  split at h
  · rename_i buffered
    have kept {out : Outcome} (ret : out.ret = 0) : dropRxPkts out.relay out.ret = .skip out.relay := by
      rw [ret]
      rfl
    rcases virtioTx_cases h with ⟨_, rfl⟩ | ⟨ready, _, sent⟩ | ⟨ready, _, sent⟩
    · simp only [dropRxPkts, buffered, ne_eq, not_false_eq_true, and_self, if_true,
        Relay.setRxPkts, not_true_eq_false, implies_true]
    · rw [kept sent.ret]
      refine ⟨by rw [Outcome.skip, sent.frame]; rfl, fun _ => buffered, fun away => ?_⟩
      exact absurd ready away
    · rw [kept sent.ret]
      refine ⟨by rw [Outcome.skip, sent.relay_eq]; rfl, fun _ => buffered, fun away => ?_⟩
      exact absurd ready away
  · rename_i empty
    cases Except.ok.inj h
    have skipped : dropRxPkts relay 0 = .skip relay := rfl
    rw [Outcome.skip, skipped]
    exact ⟨rfl, fun buffered => absurd buffered empty, fun _ => not_not.mp empty⟩

theorem releaseVirtio_eq (relay : Relay)
    : releaseVirtio relay
      = relay.setVioState (relay.vio.state.released relay.dpdk.vf2vioCpu) := by
  unfold releaseVirtio VioState.released
  split
  · split <;> rfl
  · rfl

theorem releaseVf_eq (relay : Relay)
    : releaseVf relay
      = relay.setDpdkState (relay.dpdk.state.released relay.vio.vio2vfCpu) := by
  unfold releaseVf DpdkState.released
  split
  · split <;> rfl
  · rfl

/-- A `relay_vm2vf_traffic` that returns has the effect above: the packets move first, then
the two removal phases look at the states, which no packet call has written.
-/
theorem relayVm2vfTraffic_effect {relay : Relay} {io : VmToVfIO} {out : Outcome}
    (h : relayVm2vfTraffic relay io = .ok out)
    : VmToVfEffect relay out.relay := by
  obtain ⟨rx, tx, fetched, sent, after, _⟩ := relayVm2vfTraffic_parts h
  obtain ⟨rxKept, txFetched⟩ := fetchFromVm_caches fetched
  obtain ⟨rxKept', txSent, txDropped⟩ := sendToVf_drop_caches sent
  have arrived := fetchFromVm_packetsOnly fetched
  have moved : PacketsOnly relay (dropTxPkts tx.relay tx.ret).relay :=
    (arrived.trans (sendToVf_packetsOnly sent)).trans (dropTxPkts_packetsOnly ..)
  have sameState : rx.relay.dpdk.state = relay.dpdk.state := by
    obtain ⟨_, _, _, _, same⟩ := arrived
    rw [same]
    rfl
  rw [sameState] at txDropped
  rw [rxKept] at rxKept'
  generalize (dropTxPkts tx.relay tx.ret).relay = middle at *
  obtain ⟨tx', rx', rr, stats, rfl⟩ := moved
  rw [after, releaseVirtio_eq]
  let released := (relay.withPackets tx' rx' rr stats).setVioState
    (relay.vio.state.released relay.dpdk.vf2vioCpu)
  change VmToVfEffect relay (finishVfRemoval released).relay
  by_cases removing : relay.dpdk.state = .removing2
  · have finished : finishVfRemoval released = workerRemoveVf released := if_pos removing
    rw [finished, workerRemoveVf]
    obtain ⟨cleared, txEmpty, rxEmpty⟩ := clearBoth_cases released
    obtain ⟨_, _, _, _, same⟩ := cleared
    exact {
      setup := ⟨_, _, _, ⟨_, _, _, _, rfl⟩, congrArg (Relay.setDpdkState · .uninit) same⟩
      vioState := by rw [Relay.setDpdkState, same]; rfl
      dpdkState := by rw [if_pos removing]; rfl
      rxPkts := fun away => absurd removing away
      cleared := fun _ => ⟨txEmpty, rxEmpty⟩
      dropped := fun _ => txEmpty
      fetched := fun buffered => absurd txEmpty buffered
    }
  · have finished : finishVfRemoval released = .skip released := if_neg removing
    rw [finished, Outcome.skip]
    exact {
      setup :=
        ⟨relay.withPackets tx' rx' rr stats, released.vio.state, relay.dpdk.state,
          ⟨_, _, _, _, rfl⟩, rfl⟩
      vioState := rfl
      dpdkState := by rw [if_neg removing]; rfl
      rxPkts := fun _ => rxKept'
      cleared := fun there => absurd there removing
      dropped := txDropped
      fetched := fun buffered => txFetched (txSent buffered)
    }

/-- A `relay_vf2vm_traffic` that returns has the mirrored effect. -/
theorem relayVf2vmTraffic_effect {relay : Relay} {io : VfToVmIO} {out : Outcome}
    (h : relayVf2vmTraffic relay io = .ok out)
    : VfToVmEffect relay out.relay := by
  obtain ⟨rx, tx, fetched, sent, after, _⟩ := relayVf2vmTraffic_parts h
  obtain ⟨txKept, rxFetched⟩ := fetchFromVf_caches fetched
  obtain ⟨txKept', rxSent, rxDropped⟩ := sendToVm_drop_caches sent
  have arrived := fetchFromVf_packetsOnly fetched
  have moved : PacketsOnly relay (dropRxPkts tx.relay tx.ret).relay :=
    (arrived.trans (sendToVm_packetsOnly sent)).trans (dropRxPkts_packetsOnly ..)
  have sameState : rx.relay.vio.state = relay.vio.state := by
    obtain ⟨_, _, _, _, same⟩ := arrived
    rw [same]
    rfl
  rw [sameState] at rxDropped
  rw [txKept] at txKept'
  generalize (dropRxPkts tx.relay tx.ret).relay = middle at *
  obtain ⟨tx', rx', rr, stats, rfl⟩ := moved
  let moved := relay.withPackets tx' rx' rr stats
  rw [after, releaseVf_eq]
  by_cases removing : relay.vio.state = .removing2
  · have finished : finishVirtioRemoval moved = workerRemoveVirtio moved := if_pos removing
    rw [finished, workerRemoveVirtio]
    obtain ⟨cleared, txEmpty, rxEmpty⟩ := clearBoth_cases moved
    obtain ⟨_, _, _, _, same⟩ := cleared
    exact {
      setup := ⟨_, _, _, ⟨_, _, _, _, rfl⟩, by rw [same]; rfl⟩
      vioState := by rw [if_pos removing]; rfl
      dpdkState := by rw [same]; rfl
      txPkts := fun away => absurd removing away
      cleared := fun _ => ⟨txEmpty, rxEmpty⟩
      dropped := fun _ => rxEmpty
      fetched := fun buffered => absurd rxEmpty buffered
    }
  · have finished : finishVirtioRemoval moved = .skip moved := if_neg removing
    rw [finished, Outcome.skip]
    exact {
      setup := ⟨moved, relay.vio.state, _, ⟨_, _, _, _, rfl⟩, rfl⟩
      vioState := by rw [if_neg removing]; rfl
      dpdkState := rfl
      txPkts := fun _ => txKept'
      cleared := fun there => absurd there removing
      dropped := rxDropped
      fetched := fun buffered => rxFetched (rxSent buffered)
    }

end VirtioForwarder
