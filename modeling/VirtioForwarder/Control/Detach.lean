import VirtioForwarder.Control.Attach

/-! What removing a device leaves in its relay, and when the removal can fail. -/

namespace VirtioForwarder

open Program

/-- The answers of a driver call that mean success. -/
def DriverCall.Succeeds : DriverCall → Int → Prop
  | .nextMatchingDev _, answer | .bondCreate _ _, answer | .bondSlavesGet _, answer => 0 ≤ answer
  | .poolCreate _ _, answer => answer ≠ 0
  | .bondSlave _ _, _ | .portByName _, _ | .uninitializedPort, _ | .vringNum _, _
  | .guestNumaNode _, _ | .poolFree _, _ => True
  | _, answer => answer = 0

/-- A driver call that fails, or a wait that gives up. -/
def Instr.Fails : Instr → Int → Prop
  | .call request, answer => ¬ request.Succeeds answer
  | .logTimeout, _ => True
  | _, _ => False

/-- Some failure is admitted. -/
def Failing (admits : Instr → Int → World → Prop) : Prop :=
  ∃ i answer s, admits i answer s ∧ i.Fails answer

/-- A relay whose device is gone, as before it was attached. -/
structure Relay.Restored (relay : Relay) : Prop where
  dpdkState : relay.dpdk.state = .uninit
  vf2vioCpu : relay.dpdk.vf2vioCpu = -1
  pciDbdf : relay.dpdk.pciDbdf = []
  isBond : relay.dpdk.isBond = false
  numSlaves : relay.dpdk.numSlaves = 0

theorem tending_restored : Tending Relay.Restored :=
  fun _ _ tended held =>
    ⟨tending_uninit tended held.dpdkState, tended.vf2vioCpu.trans held.vf2vioCpu,
      tended.pciDbdf.trans held.pciDbdf, tended.isBond.trans held.isBond,
      tended.numSlaves.trans held.numSlaves⟩

section Detaching

variable {settings : Settings} {id : Nat} {admits : Instr → Int → World → Prop}
  {fault : Abort → Prop} {world : World} {P : Relay → Prop}

/-- A call that answers 0 on success. -/
def DriverCall.OnlyZero (call : DriverCall) : Prop :=
  ∀ answer, call.Succeeds answer → answer = 0

theorem drive_fails {call : DriverCall} (status : call.OnlyZero) (tending : Tending P) (h : P (world.relays id))
    : wp (accesses id) (soloContract admits fault) (drive call)
        (fun answer s => P (s.relays id) ∧ (answer ≠ 0 → Failing admits)) world := by
  refine wp_drive tending.stable h fun s answer _ held admitted => ⟨trivial, trivial, ?_, ?_⟩
  · rwa [DriverCall.relays_apply]
  · exact fun failed => ⟨.call call, answer, s, admitted, fun ok => failed (status answer ok)⟩

theorem cleanupEthDev_fails {port : Nat} (tending : Tending P) (h : P (world.relays id))
    : wp (accesses id) (soloContract admits fault) (cleanupEthDev port)
        (fun err s => P (s.relays id) ∧ (err ≠ 0 → Failing admits)) world := by
  have info : (DriverCall.devInfoGet port).OnlyZero := fun _ ok => ok
  have stop : (DriverCall.devStop port).OnlyZero := fun _ ok => ok
  have close : (DriverCall.devClose port).OnlyZero := fun _ ok => ok
  have remove : (DriverCall.devRemove port).OnlyZero := fun _ ok => ok
  refine wp.bind ((drive_fails info tending h).mono fun err s outcome => ?_)
  split
  · exact outcome
  · refine wp.bind ((drive_fails stop tending outcome.1).mono fun err s outcome => ?_)
    split
    · exact outcome
    · refine wp.bind ((drive_fails close tending outcome.1).mono fun err s outcome => ?_)
      split
      · exact outcome
      · exact drive_fails remove tending outcome.1

theorem releaseDevice_fails {port : Nat} (tending : Tending P) (h : P (world.relays id))
    : wp (accesses id) (soloContract admits fault) (releaseDevice id port)
        (fun err s => P (s.relays id) ∧ (err ≠ 0 → Failing admits)) world := by
  refine wp_see_bind tending h fun s held => ?_
  split
  · refine wp_tend_bind tending held (detachSlaves_sure id).sparing fun _ s held => ?_
    refine wp_tend_bind tending held (.perform trivial) fun _ s held => ?_
    refine wp_tend_bind tending held (.perform trivial) fun _ s held => ?_
    have free (name : List Char) : (DriverCall.bondFree name).OnlyZero := fun _ ok => ok
    exact drive_fails (free _) tending held
  · exact cleanupEthDev_fails tending held

/-- The states of a device on its way out. -/
def DpdkState.Leaving (state : DpdkState) : Prop :=
  state = .removing1 ∨ state = .removing2 ∨ state = .uninit

theorem tending_leaving : Tending fun relay => relay.dpdk.state.Leaving := by
  intro before after tended leaving
  have := tended.dpdkState
  unfold DpdkState.Leaving at leaving ⊢
  grind

theorem DpdkState.Leaving.inactive {relay : Relay} (h : relay.dpdk.state.Leaving)
    : ¬ relay.Active := by
  unfold DpdkState.Leaving at h
  unfold Relay.Active
  grind

theorem waitReleased_sparing (field : Field) (released : Relay → Bool) (polls : Nat)
    : (waitReleased id field released polls).All Instr.SparesDevice fault := by
  induction polls with
  | zero => exact .bind (.perform trivial) fun _ => trivial
  | succ polls ih =>
      refine .bind (.perform trivial) fun relay => ?_
      split
      · trivial
      · exact ih

/-- The handshake with the workers takes the device out of use. It fails only if its wait
gives up, and leaves everything but the state.
-/
theorem stopVm2vfThread_leaves (tending : Tending P)
    (anyState : ∀ state relay, P relay → P ((Write.dpdkState state).apply relay))
    (h : P (world.relays id) ∧ 0 ≤ (world.relays id).dpdk.vf2vioCpu)
    : wp (accesses id) (soloContract admits fault) (stopVm2vfThread id)
        (fun err s => P (s.relays id) ∧ (s.relays id).dpdk.state.Leaving
          ∧ (err = 0 → (s.relays id).dpdk.state = .uninit) ∧ (err ≠ 0 → Failing admits))
        world := by
  have assigned : Tending fun relay => P relay ∧ 0 ≤ relay.dpdk.vf2vioCpu :=
    tending.and (tending_vf2vioCpu (0 ≤ ·))
  have leaving : Tending fun relay => P relay ∧ relay.dpdk.state.Leaving :=
    tending.and tending_leaving
  refine wp_see_bind assigned h fun s held => ?_
  rw [if_neg (not_lt.mpr held.2)]
  refine wp_set_bind (fun relay => P relay ∧ relay.dpdk.state.Leaving) assigned held
    (fun relay held => ⟨anyState _ relay held.1, Or.inl rfl⟩) fun s held => ?_
  refine wp_tend_bind leaving held (waitReleased_sparing ..) fun _ s held => ?_
  refine wp_see_bind leaving held fun s held => ?_
  split
  · rename_i uninit
    exact ⟨held.1, held.2, fun _ => uninit, fun failed => absurd rfl failed⟩
  · refine wp.bind (wp.perform leaving.stable held fun s answer _ held admitted => ?_)
    refine ⟨trivial, trivial, held.1, held.2, fun ok => absurd ok (by decide), fun _ => ?_⟩
    exact ⟨.logTimeout, answer, s, admitted, trivial⟩

/-- `detach_device` of a device with a worker takes it out of use. It fails only if a driver
call fails or its wait gives up; otherwise the relay is as before the device was attached.
-/
theorem detachDevice_detaches (h : (world.relays id).Tidy ∧ (world.relays id).Active)
    : wp (accesses id) (soloContract admits fault) (detachDevice id)
        (fun err s => ¬ (s.relays id).Active ∧ (s.relays id).Tidy
          ∧ (err = 0 → (s.relays id).Restored) ∧ (err ≠ 0 → Failing admits)) world := by
  have named : Tending fun relay =>
      relay.dpdk.pciDbdf.length ≤ 19 ∧ CpuIndex relay.dpdk.vf2vioCpu :=
    (tending_pciDbdf (List.length · ≤ 19)).and (tending_vf2vioCpu CpuIndex)
  have here : (world.relays id).dpdk.pciDbdf.length ≤ 19
      ∧ CpuIndex (world.relays id).dpdk.vf2vioCpu := ⟨h.1.pciDbdf, h.1.cpu h.2⟩
  refine wp_see_bind named here fun s held => ?_
  refine wp.bind ((stopVm2vfThread_leaves named (fun _ _ held => held)
    ⟨held, held.2.1⟩).mono fun err s stopped => ?_)
  obtain ⟨held, leaving, uninit, failing⟩ := stopped
  split
  · rename_i failed
    exact ⟨leaving.inactive, ⟨held.1, fun active => absurd active leaving.inactive⟩,
      fun ok => absurd ok failed, failing⟩
  · rename_i ok
    have gone := uninit (not_not.mp ok)
    have idle : Tending fun relay =>
        (relay.dpdk.pciDbdf.length ≤ 19 ∧ CpuIndex relay.dpdk.vf2vioCpu)
          ∧ relay.dpdk.state = .uninit :=
      named.and tending_uninit
    refine wp_see_bind idle ⟨held, gone⟩ fun s held => ?_
    have index := held.1.2
    have left : Tending fun relay =>
        (relay.dpdk.pciDbdf.length ≤ 19 ∧ relay.dpdk.vf2vioCpu = -1)
          ∧ relay.dpdk.state = .uninit :=
      ((tending_pciDbdf (List.length · ≤ 19)).and (tending_vf2vioCpu (· = -1))).and
        tending_uninit
    refine wp_set_bind (fun relay =>
        (relay.dpdk.pciDbdf.length ≤ 19 ∧ relay.dpdk.vf2vioCpu = -1)
          ∧ relay.dpdk.state = .uninit)
      idle held (fun _ held => ⟨⟨held.1.1, rfl⟩, held.2⟩) fun s held => ?_
    refine wp.bind ((wp_flag (fun outside => absurd index outside) left held).mono
      fun _ s flagged => ?_)
    refine wp.bind ((releaseDevice_fails left flagged.1).mono fun err s released => ?_)
    obtain ⟨held, failing⟩ := released
    have inactive {relay : Relay} (uninit : relay.dpdk.state = .uninit) : ¬ relay.Active :=
      DpdkState.Leaving.inactive (Or.inr (Or.inr uninit))
    split
    · rename_i failed
      exact ⟨inactive held.2, ⟨held.1.1, fun active => absurd active (inactive held.2)⟩,
        fun ok => absurd ok (by decide), fun _ => failing failed⟩
    · refine wp_set_bind (fun relay =>
          (relay.dpdk.pciDbdf.length ≤ 19 ∧ relay.dpdk.vf2vioCpu = -1)
            ∧ relay.dpdk.state = .uninit)
        left held (fun _ held => held) fun s held => ?_
      refine wp_set_bind (fun relay => (relay.dpdk.vf2vioCpu = -1 ∧ relay.dpdk.state = .uninit)
          ∧ relay.dpdk.pciDbdf = [])
        left held (fun _ held => ⟨⟨held.1.2, held.2⟩, rfl⟩) fun s held => ?_
      have unnamed := ((tending_vf2vioCpu (· = -1)).and tending_uninit).and (tending_pciDbdf (· = []))
      refine wp_set_bind (fun relay => ((relay.dpdk.vf2vioCpu = -1 ∧ relay.dpdk.state = .uninit)
          ∧ relay.dpdk.pciDbdf = []) ∧ relay.dpdk.isBond = false)
        unnamed held (fun _ held => ⟨held, rfl⟩) fun s held => ?_
      have single := unnamed.and (Q := fun relay => relay.dpdk.isBond = false)
        fun _ _ tended same => tended.isBond.trans same
      refine wp_set_bind Relay.Restored single held
        (fun _ held => ⟨held.1.1.2, held.1.1.1, held.1.2, held.2, rfl⟩) fun s restored => ?_
      have freeing : (freePoolUnlessConnected id).All Instr.SparesDevice fault := by
        refine .bind (.perform trivial) fun relay => ?_
        split
        · exact .bind (.perform trivial) fun _ => .bind (.perform trivial) fun _ =>
            .perform trivial
        · trivial
      refine wp_tend_bind tending_restored restored freeing fun _ s restored => ?_
      refine ⟨inactive restored.dpdkState, ⟨?_, ?_⟩, fun _ => restored, fun failed => absurd rfl failed⟩
      · simp [restored.pciDbdf]
      · exact fun active => absurd active (inactive restored.dpdkState)

/-- `remove_vf2` under the name of the attached device detaches it. -/
theorem removeVf2_detaches {dbdf : List Char} {conditional : Bool} (below : id < settings.maxRelays)
    (tidy : (world.relays id).Tidy) (active : (world.relays id).Active)
    (name : (world.relays id).dpdk.pciDbdf = dbdf)
    : wp (accesses id) (soloContract admits fault) (removeVf2 settings dbdf id conditional)
        (fun err s => ¬ (s.relays id).Active ∧ (s.relays id).Tidy
          ∧ (err = 0 → (s.relays id).Restored) ∧ (err ≠ 0 → Failing admits)) world := by
  have known : Tending fun relay => (relay.Tidy ∧ relay.Active) ∧ relay.dpdk.pciDbdf = dbdf :=
    (tending_tidy.and tending_active).and (tending_pciDbdf (· = dbdf))
  unfold removeVf2
  rw [if_neg (not_le.mpr below)]
  refine wp.bind ((vfActive_tells known ⟨⟨tidy, active⟩, name⟩).mono fun found s told => ?_)
  obtain ⟨held, found⟩ := told
  rw [if_pos (found.mpr held.1.2)]
  refine wp_see_bind known held fun s held => ?_
  rw [if_pos held.2.symm]
  exact detachDevice_detaches held.1

/-- `remove_vf2` under another name fails with 3 and changes nothing. -/
theorem removeVf2_mismatch {dbdf : List Char} {conditional : Bool}
    (below : id < settings.maxRelays) (tending : Tending P) (h : P (world.relays id))
    (active : (world.relays id).Active) (name : (world.relays id).dpdk.pciDbdf ≠ dbdf)
    : wp (accesses id) (soloContract admits fault) (removeVf2 settings dbdf id conditional)
        (fun err s => err = 3 ∧ P (s.relays id)) world := by
  have known : Tending fun relay => (P relay ∧ relay.Active) ∧ relay.dpdk.pciDbdf ≠ dbdf :=
    (tending.and tending_active).and (tending_pciDbdf (· ≠ dbdf))
  unfold removeVf2
  rw [if_neg (not_le.mpr below)]
  refine wp.bind ((vfActive_tells known ⟨⟨h, active⟩, name⟩).mono fun found s told => ?_)
  obtain ⟨held, found⟩ := told
  rw [if_pos (found.mpr held.1.2)]
  refine wp_see_bind known held fun s held => ?_
  rw [if_neg (Ne.symm held.2)]
  exact ⟨rfl, held.1.1⟩

/-- `remove_vf2` without an attached device changes nothing. -/
theorem removeVf2_inactive {dbdf : List Char} {conditional : Bool} (tending : Tending P)
    (h : P (world.relays id)) (inactive : ¬ (world.relays id).Active)
    : wp (accesses id) (soloContract admits fault) (removeVf2 settings dbdf id conditional)
        (fun err s => (err = if id ≥ settings.maxRelays then 1 else if conditional then 0 else 4)
          ∧ P (s.relays id)) world := by
  unfold removeVf2
  split
  · exact ⟨rfl, h⟩
  · refine wp.bind ((vfActive_tells (tending.and tending_inactive) ⟨h, inactive⟩).mono
      fun found s told => ?_)
    obtain ⟨⟨held, inactive⟩, found⟩ := told
    rw [if_neg fun there => inactive (found.mp there)]
    split <;> exact ⟨rfl, held⟩

/-- `remove_virtio` may stop a started VF, and otherwise leaves the device alone. -/
theorem removeVirtio_keeps (tending : Tending P)
    (stopped : ∀ relay, P relay → relay.dpdk.state = .ready
      → P ((Write.dpdkState .added).apply relay))
    (h : P (world.relays id))
    : wp (accesses id) (soloContract admits fun _ => True) (removeVirtio settings id)
        (fun _ s => P (s.relays id)) world := by
  have waits : (waitVirtioReleased id).All Instr.SparesDevice fun _ => True := by
    refine .bind (waitReleased_sparing ..) fun result => ?_
    obtain ⟨_, pollsLeft⟩ := result
    dsimp only
    split
    · exact .perform trivial
    · trivial
  have started : Tending fun relay => P relay ∧ relay.dpdk.state = .ready := by
    refine tending.and fun before after tended ready => ?_
    have := tended.dpdkState
    grind
  unfold removeVirtio
  split
  · exact h
  · refine wp_see_bind tending h fun s held => ?_
    split
    · exact held
    · refine wp_tend_bind tending held (.perform trivial) fun _ s held => ?_
      refine wp_tend_bind tending held waits fun _ s held => ?_
      refine wp_see_bind tending held fun s held => ?_
      refine wp_tend_bind tending held (.perform trivial) fun _ s held => ?_
      refine wp_tend_bind tending held (.perform trivial) fun _ s held => ?_
      refine wp_tend_bind tending held (.perform trivial) fun _ s held => ?_
      refine wp.bind ((wp_flag (fun _ => trivial) tending held).mono fun _ s flagged => ?_)
      refine wp.bind (wp.mono (?_ : wp _ _ (stopVfOrFreePool id)
        (fun _ s => P (s.relays id)) s) fun _ s held => held)
      refine wp_see_bind tending flagged.1 fun s held => ?_
      split
      · rename_i ready
        refine wp_see_bind started ⟨held, ready⟩ fun s held => ?_
        refine wp_tend_bind started held (.perform trivial) fun _ s held => ?_
        refine wp_set_bind P started held (fun relay held => stopped relay held.1 held.2)
          fun s held => ?_
        refine wp_see_bind tending held fun s held => ?_
        exact (wp_flag (fun _ => trivial) tending held).mono fun _ s flagged => flagged.1
      · refine wp_see_bind tending held fun s held => ?_
        refine wp_tend_bind tending held (.perform trivial) fun _ s held => ?_
        exact wp_tend (.perform trivial) tending held

end Detaching

end VirtioForwarder
