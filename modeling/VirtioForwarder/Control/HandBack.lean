import VirtioForwarder.Control.Detach

/-! What a removal that returns 0 has done. A conditional removal also returns 0 if there is no VF
in use, and does not look whether an earlier removal has given the device back to DPDK.
-/

namespace VirtioForwarder

open Program

/-- The devices that are attached to DPDK. For a relay with a device, `held` has the ports of the
VFs of its bond that are still attached, which are none for a single VF; `joined` has the VFs of a
bond that is not published yet.
-/
structure Devices where
  held : Nat → Option (List Nat)
  joined : List Nat

/-- The state with the record of the attached devices. -/
abbrev DeviceState := World × Devices

/-- A port is removed. A device without a bond is given back with its port. -/
def Devices.removePort (devices : Devices) (world : World) (port : Nat) : Devices :=
  { devices with
    held := fun id =>
      if (world.relays id).dpdk.isBond = false ∧ (world.relays id).dpdk.dpdkPort = port then none
      else (devices.held id).map (·.filter (· ≠ port)) }

/-- A bond is freed. It is given back if none of its VFs is left behind. -/
def Devices.freeBond (devices : Devices) (world : World) (name : List Char) : Devices :=
  { devices with
    held := fun id =>
      if (world.relays id).dpdk.isBond ∧ (world.relays id).dpdk.pciDbdf = name
          ∧ devices.held id = some [] then none
      else devices.held id }

/-- The record of the attached devices. A device is recorded when it is published, and given back
when the port of the relay is removed, or its bond is freed after the ports of all its VFs.
-/
def recordDevice (op : Op) (i : Instr) (answer : Int) (world : World) (devices : Devices)
    : Devices :=
  match i with
  | .write (.dpdkPort _) =>
      match op with
      | .addVf2 _ id _ => { devices with held := Function.update devices.held id (some []) }
      | .bondAdd _ _ id =>
          { devices with held := Function.update devices.held id (some devices.joined) }
      | _ => devices
  | .call (.bondCreate _ _) => { devices with joined := [] }
  | .call (.bondSlaveAdd _ slave) => { devices with joined := devices.joined ++ [slave] }
  | .call (.devRemove port) =>
      if answer = 0 then devices.removePort world port else devices
  | .call (.bondFree name) =>
      if answer = 0 then devices.freeBond world name else devices
  | _ => devices

/-- The VFs of the bond of a relay that are attached. -/
def Devices.slaves (devices : Devices) (id : Nat) : List Nat := (devices.held id).getD []

/-- The control operations with the record of the attached devices. -/
def deviceSystem (settings : Settings)
    : System Op Instr Int World Abort DeviceState Event Int :=
  (controlSystem settings).recorded recordDevice

/-- A configuration of one control thread with the record. -/
abbrev DeviceConfig := Config Unit Op Instr Int World Abort DeviceState Int

/-- The daemon after its start, without any device. -/
def noDevices (settings : Settings) (useJumbo : Bool) (initialized : Nat → Bool) : DeviceConfig :=
  .idle (World.initial settings useJumbo initialized, ⟨fun _ => none, []⟩) (.removeVirtio 0) 0

/-- Control operations one after another, with any answers. -/
def anyDeviceOps : Policy Unit Op Instr Int DeviceState where
  instr _ _ _ _ := True
  call _ _ _ := True

/-- DPDK lists the VFs of a bond in the order in which they were added, and their ports can be
stopped, closed and removed.
-/
def DriverCall.ReturnsSlaves (slaves : List Nat) (answer : Int) : DriverCall → Prop
  | .bondSlavesGet _ => answer = slaves.length
  | .bondSlave _ index => slaves[index]? = some answer.toNat
  | .devInfoGet port | .devStop port | .devClose port | .devRemove port =>
      port ∈ slaves → answer = 0
  | _ => True

/-- The same of an access of an operation on the relay. -/
def Instr.ReturnsSlaves (id : Nat) (answer : Int) (state : DeviceState) : Instr → Prop
  | .call request => request.ReturnsSlaves (state.2.slaves id) answer
  | _ => True

/-- A single control operation. All answers are possible, but those on the VFs of the bond that is
removed.
-/
def slavesReturned : Policy Unit Op Instr Int DeviceState where
  instr op i answer state :=
    match op with
    | .removeVf2 _ id _ => i.ReturnsSlaves id answer state
    | _ => True
  call _ _ _ := False

/-- A removal begins. -/
def removing (settings : Settings) (state : DeviceState) (dbdf : List Char) (id : Nat)
    (conditional : Bool) : DeviceConfig :=
  ⟨state, fun _ =>
    (.removeVf2 dbdf id conditional, removeVf2 settings dbdf id conditional)⟩

/-- If the removal returns 0, the VF is out of use and its device is given back. -/
def RemovesDevice (settings : Settings) (state : DeviceState) (dbdf : List Char)
    (id : Nat) (conditional : Bool) : Prop :=
  ∀ config,
    Run (deviceSystem settings) slavesReturned (removing settings state dbdf id conditional) config
    → ∀ op, config.running () = (op, .ret 0)
      → (config.state.1.relays id).dpdk.state = .uninit ∧ config.state.2.held id = none

-----------------------------------------------------------------------------------------
-- The removal with the record
-----------------------------------------------------------------------------------------

section Removing

variable {settings : Settings} {dbdf : List Char} {id : Nat} {conditional : Bool}
  {state : DeviceState} {α β : Type} {P : Relay → Prop} {R : Option (List Nat) → Prop}

/-- How the accesses of a removal run, with the record. -/
abbrev removalAccesses (dbdf : List Char) (id : Nat) (conditional : Bool)
    : Machine Instr Int World DeviceState :=
  (accesses id).recorded (recordDevice (.removeVf2 dbdf id conditional))

/-- The contract of a removal beside the workers, which do not touch the record. -/
abbrev removalContract (id : Nat) : Contract Instr Int Abort DeviceState :=
  (soloContract (fun _ _ _ => True) fun _ => True).recorded
    fun i answer state => i.ReturnsSlaves id answer state

/-- What is known of the relay and of its device on record. -/
def DeviceState.Knows (id : Nat) (P : Relay → Prop) (R : Option (List Nat) → Prop)
    (state : DeviceState) : Prop :=
  P (state.1.relays id) ∧ R (state.2.held id)

theorem Tending.stable_recorded (tending : Tending P)
    : (removalContract id).Stable (DeviceState.Knows id P R) :=
  fun _ _ later _ held => ⟨tending (later.1 id) held.1, later.2 ▸ held.2⟩

/-- What is proved without the record holds with it. -/
theorem wp_unrecorded {p : Control α} {post : α → World → Prop}
    (h : wp (accesses id) (soloContract (fun _ _ _ => True) fun _ => True) p post state.1)
    : wp (removalAccesses dbdf id conditional) (removalContract id) p (fun a s => post a s.1)
        state :=
  h.recorded fun _ _ _ _ => trivial

/-- The removal leaves the devices on record as they are. -/
def Instr.KeepsDevices (i : Instr) : Prop :=
  ∀ (dbdf : List Char) (id : Nat) (conditional : Bool) (answer : Int) (world : World)
    (devices : Devices),
    (recordDevice (.removeVf2 dbdf id conditional) i answer world devices).held = devices.held

/-- The access changes neither the device of the relay nor the record. -/
def Instr.Spares (i : Instr) : Prop := i.SparesDevice ∧ i.KeepsDevices

/-- Go on after accesses that leave the device alone. -/
theorem wp_removal_tend_bind {p : Control α} {next : α → Control β}
    {post : β → DeviceState → Prop} (tending : Tending P) (h : state.Knows id P R)
    (all : p.All Instr.Spares fun _ => True)
    (rest : ∀ a s, DeviceState.Knows id P R s
      → wp (removalAccesses dbdf id conditional) (removalContract id) (next a) post s)
    : wp (removalAccesses dbdf id conditional) (removalContract id) (p >>= next) post state := by
  refine wp.bind ((all.wp (fun _ error => error) tending.stable_recorded ?_ h).mono rest)
  intro i spares s answer _ held _
  refine ⟨trivial, trivial, tending (spares.1.tended id answer s.1 id) held.1, ?_⟩
  exact (congrFun (spares.2 dbdf id conditional answer s.1 s.2) id) ▸ held.2

/-- Go on after a read of the relay. -/
theorem wp_removal_see_bind {field : Field} {next : Relay → Control β}
    {post : β → DeviceState → Prop} (tending : Tending P) (h : state.Knows id P R)
    (rest : ∀ s, DeviceState.Knows id P R s
      → wp (removalAccesses dbdf id conditional) (removalContract id) (next (s.1.relays id)) post s)
    : wp (removalAccesses dbdf id conditional) (removalContract id) (look id field >>= next) post
        state :=
  wp.bind (wp.perform tending.stable_recorded h fun s _ _ held _ => ⟨trivial, trivial, rest s held⟩)

/-- Go on after an assignment. -/
theorem wp_removal_set_bind {write : Write} {next : Unit → Control β}
    {post : β → DeviceState → Prop} (Q : Relay → Prop) (tending : Tending P)
    (h : P (state.1.relays id)) (step : ∀ relay, P relay → Q (write.apply relay))
    (rest : ∀ s : DeviceState, Q (s.1.relays id)
      → wp (removalAccesses dbdf id conditional) (removalContract id) (next ()) post s)
    : wp (removalAccesses dbdf id conditional) (removalContract id) (assign write >>= next) post
        state := by
  have assigned : wp (accesses id) (soloContract (fun _ _ _ => True) fun _ => True) (assign write)
      (fun _ s => Q (s.relays id)) state.1 := by
    refine wp_assign tending.stable h fun s _ _ held _ => ⟨trivial, trivial, ?_⟩
    rw [World.relays_modifyRelay_self]
    exact step _ held
  exact wp.bind ((wp_unrecorded assigned).mono fun _ s held => rest s held)

theorem Devices.removePort_gone {devices : Devices} (gone : devices.held id = none)
    (world : World) (port : Nat)
    : (devices.removePort world port).held id = none := by
  simp [Devices.removePort, gone]

theorem Devices.freeBond_gone {devices : Devices} (gone : devices.held id = none)
    (world : World) (name : List Char)
    : (devices.freeBond world name).held id = none := by
  simp [Devices.freeBond, gone]

/-- A removal puts no device on record. -/
theorem recordDevice_removal {devices : Devices} (gone : devices.held id = none) (i : Instr)
    (answer : Int) (world : World)
    : (recordDevice (.removeVf2 dbdf id conditional) i answer world devices).held id = none := by
  cases i with
  | write assignment => cases assignment <;> exact gone
  | call request =>
      cases request with
      | devRemove port =>
          simp only [recordDevice]
          split
          · exact Devices.removePort_gone gone world port
          · exact gone
      | bondFree name =>
          simp only [recordDevice]
          split
          · exact Devices.freeBond_gone gone world name
          · exact gone
      | _ => exact gone
  | _ => exact gone

/-- A driver call is answered as for a bond that can be removed, and leaves this on record. -/
theorem drive_records {call : DriverCall} (tending : Tending P) (h : state.Knows id P R)
    : wp (removalAccesses dbdf id conditional) (removalContract id) (drive call)
        (fun err s => P (s.1.relays id)
          ∧ ∃ before : DeviceState, before.Knows id P R
            ∧ call.ReturnsSlaves (before.2.slaves id) err
            ∧ s.2 = recordDevice (.removeVf2 dbdf id conditional) (.call call) err before.1
                before.2) state := by
  refine wp.perform tending.stable_recorded h fun s answer _ held admitted =>
    ⟨trivial, trivial, ?_, s, held, admitted, rfl⟩
  change P ((call.apply answer s.1).relays id)
  rw [DriverCall.relays_apply]
  exact held.1

/-- A VF whose port is removed is given back. -/
theorem cleanupEthDev_gives_back {port : Nat} (tending : Tending P)
    (mine : ∀ relay, P relay → relay.dpdk.isBond = false ∧ relay.dpdk.dpdkPort = port)
    (h : P (state.1.relays id))
    : wp (removalAccesses dbdf id conditional) (removalContract id) (cleanupEthDev port)
        (fun err s => P (s.1.relays id) ∧ (err = 0 → s.2.held id = none)) state := by
  have failed {err : Int} {s : DeviceState} (failure : err ≠ 0)
      (held : s.Knows id P fun _ => True)
      : P (s.1.relays id) ∧ (err = 0 → s.2.held id = none) :=
    ⟨held.1, fun ok => absurd ok failure⟩
  have called (call : DriverCall) (keeps : Instr.KeepsDevices (.call call))
      : (drive call).All Instr.Spares fun _ => True :=
    .perform ⟨trivial, keeps⟩
  refine wp_removal_tend_bind (R := fun _ => True) tending ⟨h, trivial⟩
    (called (.devInfoGet port) fun _ _ _ _ _ _ => rfl) fun err s held => ?_
  split
  · rename_i failure
    exact failed failure held
  · refine wp_removal_tend_bind tending held (called (.devStop port) fun _ _ _ _ _ _ => rfl)
      fun err s held => ?_
    split
    · rename_i failure
      exact failed failure held
    · refine wp_removal_tend_bind tending held (called (.devClose port) fun _ _ _ _ _ _ => rfl)
        fun err s held => ?_
      split
      · rename_i failure
        exact failed failure held
      · refine (drive_records tending held).mono fun err s outcome => ⟨outcome.1, fun ok => ?_⟩
        obtain ⟨before, held, _, gone⟩ := outcome.2
        simp [gone, recordDevice, Devices.removePort, ok, mine _ held.1]

-----------------------------------------------------------------------------------------
-- The VFs of a bond
-----------------------------------------------------------------------------------------

/-- Only these VFs of the bond are left on record. -/
def OnlySlaves (slaves : List Nat) (held : Option (List Nat)) : Prop := held.getD [] ⊆ slaves

/-- What `rte_eth_bond_slaves_get` has put into the array, by induction on the count. -/
theorem bondSlaves_returns {slaves : List Nat} (port : Nat) (tending : Tending P)
    {count : Nat} (within : count ≤ slaves.length)
    (h : state.Knows id P fun held => held.getD [] = slaves)
    : wp (removalAccesses dbdf id conditional) (removalContract id) (bondSlaves port count)
        (fun listed s => listed = slaves.take count
          ∧ s.Knows id P fun held => held.getD [] = slaves) state := by
  induction count with
  | zero => exact ⟨rfl, h⟩
  | succ count ih =>
      refine wp.bind ((ih (Nat.le_of_succ_le within)).mono fun listed s outcome => ?_)
      refine wp.bind ((drive_records tending outcome.2).mono fun slave s answered => ?_)
      obtain ⟨relay, before, known, told, same⟩ := answered
      have entry : slaves[count]? = some slave.toNat := known.2 ▸ told
      refine ⟨?_, relay, ?_⟩
      · rw [outcome.1, List.take_add_one, entry]
        rfl
      · rw [same]
        exact known.2

/-- A VF that is on record after a port was removed has another port, and was on record before. -/
theorem Devices.mem_removePort {devices : Devices} {port other : Nat}
    (member : other ∈ (devices.removePort world port).slaves id)
    : other ∈ devices.slaves id ∧ other ≠ port := by
  simp only [Devices.slaves, Devices.removePort] at member ⊢
  split at member
  · cases member
  · cases held : devices.held id with
    | none => simp [held] at member
    | some slaves => simpa [held] using member

/-- The calls that clean up a port. -/
def DriverCall.Cleans (port : Nat) (call : DriverCall) : Prop :=
  call = .devInfoGet port ∨ call = .devStop port ∨ call = .devClose port ∨ call = .devRemove port

/-- A failed call is not about a VF of the bond, and the others leave no VF on record but those
that were there.
-/
theorem drive_cleans {slave : Nat} {rest : List Nat} {call : DriverCall} (tending : Tending P)
    (cleans : call.Cleans slave) (h : state.Knows id P (OnlySlaves (slave :: rest)))
    : wp (removalAccesses dbdf id conditional) (removalContract id) (drive call)
        (fun err s => s.Knows id P (OnlySlaves (slave :: rest))
          ∧ (err ≠ 0 ∨ call = .devRemove slave → s.Knows id P (OnlySlaves rest))) state := by
  refine (drive_records tending h).mono fun err s outcome => ?_
  obtain ⟨relay, before, ⟨_, only⟩, told, same⟩ := outcome
  have answered : slave ∈ before.2.slaves id → err = 0 := by
    rcases cleans with rfl | rfl | rfl | rfl <;> exact told
  have tail (away : slave ∉ before.2.slaves id) : OnlySlaves rest (before.2.held id) :=
    fun other member =>
      (List.mem_cons.mp (only member)).resolve_left fun same => away (same ▸ member)
  have unchanged (other : call ≠ .devRemove slave) : s.2.held = before.2.held := by
    rw [same]
    rcases cleans with rfl | rfl | rfl | rfl
    · rfl
    · rfl
    · rfl
    · exact absurd rfl other
  by_cases removes : call = .devRemove slave
  · have left : OnlySlaves rest (s.2.held id) := by
      rw [same, removes]
      by_cases ok : err = 0
      · simp only [recordDevice, ok, if_true]
        intro other member
        obtain ⟨before, different⟩ := Devices.mem_removePort member
        exact (List.mem_cons.mp (only before)).resolve_left different
      · simp only [recordDevice, ok, if_false]
        exact tail fun member => ok (answered member)
    exact ⟨⟨relay, fun other member => List.mem_cons_of_mem _ (left member)⟩,
      fun _ => ⟨relay, left⟩⟩
  · refine ⟨⟨relay, unchanged removes ▸ only⟩, fun failed => ⟨relay, ?_⟩⟩
    have failure := failed.resolve_right removes
    exact unchanged removes ▸ tail fun member => failure (answered member)

/-- A VF of the bond that is cleaned up is no longer on record. -/
theorem cleanupEthDev_cleans {slave : Nat} {rest : List Nat} (tending : Tending P)
    (h : state.Knows id P (OnlySlaves (slave :: rest)))
    : wp (removalAccesses dbdf id conditional) (removalContract id) (cleanupEthDev slave)
        (fun _ s => s.Knows id P (OnlySlaves rest)) state := by
  refine wp.bind ((drive_cleans tending (Or.inl rfl) h).mono fun err s outcome => ?_)
  split
  · rename_i failure
    exact outcome.2 (Or.inl failure)
  · refine wp.bind ((drive_cleans tending (Or.inr (Or.inl rfl)) outcome.1).mono
      fun err s outcome => ?_)
    split
    · rename_i failure
      exact outcome.2 (Or.inl failure)
    · refine wp.bind ((drive_cleans tending (Or.inr (Or.inr (Or.inl rfl))) outcome.1).mono
        fun err s outcome => ?_)
      split
      · rename_i failure
        exact outcome.2 (Or.inl failure)
      · exact (drive_cleans tending (Or.inr (Or.inr (Or.inr rfl))) outcome.1).mono
          fun err s outcome => outcome.2 (Or.inr rfl)

/-- After the loop over the VFs of the bond none is on record, by induction on the loop. -/
theorem cleanupSlaves_cleans (tending : Tending P) (slaves : List Nat)
    (h : state.Knows id P (OnlySlaves slaves))
    : wp (removalAccesses dbdf id conditional) (removalContract id)
        (cleanupSlaves (slaves.map some)) (fun _ s => s.Knows id P (OnlySlaves [])) state := by
  induction slaves generalizing state with
  | nil => exact h
  | cons slave rest ih =>
      exact wp.bind ((cleanupEthDev_cleans tending h).mono fun _ _ cleaned => ih cleaned)

theorem removeSlaves_spares (port : Nat) (slaves : List Nat)
    : (removeSlaves port slaves).All Instr.Spares fun _ => True := by
  induction slaves with
  | nil => trivial
  | cons slave slaves ih =>
      exact .bind (.perform ⟨trivial, fun _ _ _ _ _ _ => rfl⟩) fun _ => ih

/-- `detach_slaves` leaves no VF of the bond on record. -/
theorem detachSlaves_cleans (tending : Tending P) (bond : ∀ relay, P relay → relay.dpdk.isBond)
    (h : P (state.1.relays id))
    : wp (removalAccesses dbdf id conditional) (removalContract id) (detachSlaves id)
        (fun _ s => s.Knows id P (OnlySlaves [])) state := by
  have start : state.Knows id P fun held => held.getD [] = state.2.slaves id := ⟨h, rfl⟩
  generalize state.2.slaves id = slaves at start
  refine wp_removal_see_bind tending start fun s known => ?_
  rw [bond _ known.1]
  refine wp.bind ((drive_records tending known).mono fun count s outcome => ?_)
  obtain ⟨relay, before, known, told, same⟩ := outcome
  have counted : count = slaves.length := known.2 ▸ told
  have held : s.Knows id P fun held => held.getD [] = slaves := by
    refine ⟨relay, ?_⟩
    rw [same]
    exact known.2
  rw [if_neg (by omega)]
  refine wp.bind ((bondSlaves_returns _ tending (by omega) held).mono fun listed s outcome => ?_)
  have all : listed = slaves := by rw [outcome.1, counted, Int.toNat_natCast, List.take_length]
  refine wp_removal_tend_bind tending outcome.2 (removeSlaves_spares _ _) fun _ s held => ?_
  have only : s.Knows id P (OnlySlaves listed) := by
    refine ⟨held.1, ?_⟩
    rw [OnlySlaves, held.2, all]
    exact List.Subset.refl _
  exact wp.bind ((cleanupSlaves_cleans tending listed only).mono fun _ s cleaned => cleaned)

/-- A bond that is freed under its name is given back, and so is a VF whose port is removed. -/
theorem releaseDevice_gives_back {port : Nat} (tending : Tending P)
    (mine : ∀ relay, P relay → relay.dpdk.dpdkPort = port) (h : P (state.1.relays id))
    : wp (removalAccesses dbdf id conditional) (removalContract id) (releaseDevice id port)
        (fun err s => P (s.1.relays id) ∧ (err = 0 → s.2.held id = none)) state := by
  have bonded (name : List Char) (bond : Bool) : Tending fun relay =>
      P relay ∧ relay.dpdk.isBond = bond ∧ relay.dpdk.pciDbdf = name :=
    fun _ _ tended held =>
      ⟨tending tended held.1, tended.isBond.trans held.2.1, tended.pciDbdf.trans held.2.2⟩
  refine wp_removal_see_bind (R := fun _ => True) tending ⟨h, trivial⟩ fun s held => ?_
  split
  · rename_i bond
    have known := bonded (s.1.relays id).dpdk.pciDbdf true
    refine wp.bind ((detachSlaves_cleans known (fun _ held => held.2.1) ⟨held.1, bond, rfl⟩).mono
      fun _ s held => ?_)
    refine wp_removal_tend_bind known held (.perform ⟨trivial, fun _ _ _ _ _ _ => rfl⟩)
      fun _ s held => ?_
    refine wp_removal_tend_bind known held (.perform ⟨trivial, fun _ _ _ _ _ _ => rfl⟩)
      fun _ s held => ?_
    refine (drive_records known held).mono fun err s outcome => ⟨outcome.1.1, fun ok => ?_⟩
    obtain ⟨before, ⟨relay, none⟩, _, gone⟩ := outcome.2
    have empty : (before.2.held id).getD [] = [] := List.subset_nil.mp none
    simp only [gone, recordDevice, ok, if_true, Devices.freeBond, relay.2.1, relay.2.2, true_and]
    split
    · rfl
    · rename_i left
      cases device : before.2.held id with
      | none => rfl
      | some slaves =>
          rw [device, Option.getD_some] at empty
          exact absurd (device.trans (congrArg some empty)) left
  · rename_i single
    have known := bonded (s.1.relays id).dpdk.pciDbdf false
    have alone : (s.1.relays id).dpdk.isBond = false := by simpa using single
    exact (cleanupEthDev_gives_back known (fun _ held => ⟨held.2.1, mine _ held.1⟩)
      ⟨held.1, alone, rfl⟩).mono fun err s outcome => ⟨outcome.1.1, outcome.2⟩

/-- What a removal keeps after the device is given back. -/
def GivenBack (id : Nat) (state : DeviceState) : Prop :=
  state.Knows id (·.dpdk.state = .uninit) (· = none)

theorem givenBack_stable : (removalContract id).Stable (GivenBack id) :=
  tending_uninit.stable_recorded

/-- Accesses that do not assign the state of the VF leave a device given back. -/
theorem GivenBack.exec {i : Instr} (other : ∀ next, i ≠ .write (.dpdkState next)) (answer : Int)
    (h : GivenBack id state)
    : GivenBack id ((removalAccesses dbdf id conditional).exec i answer state) := by
  have gone := @recordDevice_removal dbdf id conditional state.2 h.2 i answer state.1
  refine ⟨?_, gone⟩
  have uninit := h.1
  cases i with
  | write assignment =>
      change ((state.1.modifyRelay id assignment.apply).relays id).dpdk.state = .uninit
      rw [World.relays_modifyRelay_self]
      cases assignment with
      | dpdkState next => exact absurd rfl (other next)
      | _ => exact uninit
  | call request =>
      change ((request.apply answer state.1).relays id).dpdk.state = .uninit
      rwa [DriverCall.relays_apply]
  | read | flagWorker | logTimeout => exact uninit

theorem wp_given_back {p : Control α}
    (all : p.All (fun i => ∀ next, i ≠ .write (.dpdkState next)) fun _ => True)
    (h : GivenBack id state)
    : wp (removalAccesses dbdf id conditional) (removalContract id) p (fun _ => GivenBack id)
        state :=
  all.wp (fun _ error => error) givenBack_stable
    (fun _ other _ answer _ held _ => ⟨trivial, trivial, held.exec other answer⟩) h

/-- `detach_device` returns 0 only after the device was given back. -/
theorem detachDevice_gives_back
    : wp (removalAccesses dbdf id conditional) (removalContract id) (detachDevice id)
        (fun err s => err = 0 → GivenBack id s) state := by
  have anything : Tending fun _ => True := fun _ _ _ held => held
  refine wp_removal_see_bind (R := fun _ => True) anything ⟨trivial, trivial⟩ fun s _ => ?_
  generalize mine : (s.1.relays id).dpdk.dpdkPort = port
  have known : Tending fun relay => relay.dpdk.dpdkPort = port :=
    fun _ _ tended held => tended.dpdkPort.trans held
  rcases Int.lt_or_le (s.1.relays id).dpdk.vf2vioCpu 0 with unassigned | assigned
  · -- without a worker there is no wait, and the operation ends at an index below 0
    have low : Tending fun relay => relay.dpdk.vf2vioCpu < 0 := tending_vf2vioCpu (· < 0)
    refine wp.bind (wp_removal_see_bind (R := fun _ => True) low ⟨unassigned, trivial⟩
      fun s unassigned => ?_)
    rw [if_pos unassigned.1]
    refine wp_removal_see_bind low unassigned fun s unassigned => ?_
    refine wp_removal_set_bind (fun _ => True) low unassigned.1 (fun _ _ => trivial) fun _ _ => ?_
    unfold flagWorker
    rw [if_neg fun inRange => absurd inRange.1 (not_le.mpr unassigned.1)]
    trivial
  · refine wp.bind ((wp_unrecorded (stopVm2vfThread_leaves known (fun _ _ held => held)
      ⟨mine, assigned⟩)).mono fun err s outcome => ?_)
    obtain ⟨mine, _, uninit, _⟩ := outcome
    split
    · rename_i failure
      exact fun ok => absurd ok failure
    · rename_i ok
      have out : Tending fun relay => relay.dpdk.dpdkPort = port ∧ relay.dpdk.state = .uninit :=
        known.and tending_uninit
      refine wp_removal_see_bind (R := fun _ => True) out ⟨⟨mine, uninit (not_not.mp ok)⟩, trivial⟩
        fun s held => ?_
      refine wp_removal_set_bind
        (fun relay => relay.dpdk.dpdkPort = port ∧ relay.dpdk.state = .uninit) out held.1
        (fun _ held => held) fun s held => ?_
      refine wp.bind ((wp_unrecorded (wp_flag (fun _ => trivial) out held)).mono
        fun _ s flagged => ?_)
      refine wp.bind ((releaseDevice_gives_back out (fun _ held => held.1) flagged.1).mono
        fun err s outcome => ?_)
      obtain ⟨held, gone⟩ := outcome
      split
      · exact fun ok => absurd ok (by decide)
      · rename_i ok
        refine (wp_given_back ?_ ⟨held.2, gone (not_not.mp ok)⟩).mono fun _ _ back _ => back
        refine .bind (.perform nofun) fun _ => .bind (.perform nofun) fun _ =>
          .bind (.perform nofun) fun _ => .bind (.perform nofun) fun _ => .bind ?_ fun _ => trivial
        refine .bind (.perform nofun) fun relay => ?_
        split
        · exact .bind (.perform nofun) fun _ => .bind (.perform nofun) fun _ => .perform nofun
        · trivial

/-- A removal of a VF in use returns 0 only after the device was given back. -/
theorem removeVf2_gives_back (active : (state.1.relays id).Active)
    : wp (removalAccesses dbdf id conditional) (removalContract id)
        (removeVf2 settings dbdf id conditional)
        (fun err s => err = 0 → GivenBack id s) state := by
  unfold removeVf2
  split
  · exact fun ok => absurd ok (by decide)
  · refine wp.bind ((wp_unrecorded (vfActive_tells tending_active active)).mono
      fun found s told => ?_)
    obtain ⟨active, found⟩ := told
    rw [if_pos (found.mpr active)]
    refine wp_removal_see_bind (R := fun _ => True) tending_active ⟨active, trivial⟩ fun s _ => ?_
    split
    · exact detachDevice_gives_back
    · exact fun ok => absurd ok (by decide)

theorem vfActive_given_back (back : GivenBack id state)
    : wp (removalAccesses dbdf id conditional) (removalContract id) (vfActive id)
        (fun found s => found = false ∧ GivenBack id s) state := by
  refine wp.bind (wp.perform givenBack_stable back fun s _ _ back _ => ⟨trivial, trivial, ?_⟩)
  split
  · rename_i ready
    exact absurd (back.1.symm.trans ready) (by decide)
  · refine wp.bind (wp.perform givenBack_stable back fun s _ _ back _ => ⟨trivial, trivial, ?_, back⟩)
    exact decide_eq_false fun added => absurd (back.1.symm.trans added) (by decide)

/-- Without a VF in use, a removal leaves the device as it is. -/
theorem removeVf2_leaves (inactive : ¬ (state.1.relays id).Active)
    (back : conditional = true → GivenBack id state)
    : wp (removalAccesses dbdf id conditional) (removalContract id)
        (removeVf2 settings dbdf id conditional)
        (fun err s => err = 0 → GivenBack id s) state := by
  unfold removeVf2
  split
  · exact fun ok => absurd ok (by decide)
  · cases conditional with
    | false =>
        refine wp.bind ((wp_unrecorded (vfActive_tells tending_inactive inactive)).mono
          fun found s told => ?_)
        rw [if_neg fun there => told.1 (told.2.mp there)]
        exact fun ok => absurd ok (by decide)
    | true =>
        refine wp.bind ((vfActive_given_back (back rfl)).mono fun found s told => ?_)
        rw [told.1]
        exact fun _ => told.2

end Removing

/-- A conditional removal without a VF in use returns 0 at once. -/
theorem removeVf2_at_once {settings : Settings} {state : DeviceState} {dbdf : List Char}
    {id : Nat} (below : id < settings.maxRelays) (inactive : ¬ (state.1.relays id).Active)
    : Run (deviceSystem settings) slavesReturned (removing settings state dbdf id true)
        ⟨state, fun _ => (.removeVf2 dbdf id true, .ret 0)⟩ := by
  have notReady : (state.1.relays id).dpdk.state ≠ .ready := fun ready => inactive (Or.inl ready)
  have notAdded : (state.1.relays id).dpdk.state ≠ .added := fun added => inactive (Or.inr added)
  have looked : (vfActive id).alone (removalAccesses dbdf id true) (fun _ => 0) state
      = (.ok false, state) := by
    change ((if (state.1.relays id).dpdk.state = .ready then pure true
      else do return decide ((← look id .dpdkState).dpdk.state = .added) : Control Bool).alone
        (removalAccesses dbdf id true) (fun _ => 0) state) = _
    rw [if_neg notReady]
    change (Except.ok (decide ((state.1.relays id).dpdk.state = .added)), state) = _
    rw [decide_eq_false notAdded]
  have admitted : (vfActive id).All
      (fun i => ∀ s, slavesReturned.instr (.removeVf2 dbdf id true) i 0 s) fun _ => True := by
    refine .bind (.perform fun _ => trivial) fun relay => ?_
    split
    · trivial
    · exact .bind (.perform fun _ => trivial) fun _ => trivial
  unfold removing removeVf2
  rw [if_neg (not_le.mpr below)]
  exact Run.alone (deviceSystem settings) slavesReturned (fun _ => 0) admitted looked

/-- What is proved of a removal beside the workers holds whenever it has returned 0. -/
theorem removes_of_wp {settings : Settings} {state : DeviceState} {dbdf : List Char}
    {id : Nat} {conditional : Bool}
    (spec : wp (removalAccesses dbdf id conditional) (removalContract id)
      (removeVf2 settings dbdf id conditional) (fun err s => err = 0 → GivenBack id s) state)
    {config : DeviceConfig}
    (run : Run (deviceSystem settings) slavesReturned (removing settings state dbdf id conditional)
      config)
    {op : Op} (returned : config.running () = (op, .ret 0))
    : GivenBack id config.state := by
  have events (event : Event) (s s' : DeviceState)
      (happened : (deviceSystem settings).env event s = some s')
      : (∀ id, (s.1.relays id).Tended (s'.1.relays id)) ∧ s'.2 = s.2 := by
    obtain ⟨world, applied, rfl⟩ := Option.map_eq_some_iff.mp happened
    exact ⟨Event.tended applied, rfl⟩
  have stable (err : Int) ⦃s s' : DeviceState⦄
      (later : (∀ id, (s.1.relays id).Tended (s'.1.relays id)) ∧ s'.2 = s.2)
      (held : err = 0 → GivenBack id s) (zero : err = 0) : GivenBack id s' :=
    givenBack_stable later trivial (held zero)
  have part : wp ⟨(deviceSystem settings).exec (.removeVf2 dbdf id conditional),
        (deviceSystem settings).obs⟩
      ⟨fun _ => True, (removalContract id).rely, fun _ _ => True,
        slavesReturned.instr (.removeVf2 dbdf id conditional), fun _ => True⟩
      (removeVf2 settings dbdf id conditional) (fun err s => err = 0 → GivenBack id s) state :=
    spec
  have outcome := Run.solo (deviceSystem settings) (removalContract id).rely (fun _ => True)
    (fun _ _ _ called => called) (fun s => ⟨fun _ => .refl _, rfl⟩)
    (fun _ _ _ first rest => ⟨fun id => (first.1 id).trans (rest.1 id), rest.2.trans first.2⟩)
    events stable part run
  exact outcome.1 op 0 returned rfl

/-- **Removals**: in every state, if DPDK lists the VFs of a bond that is removed and takes them
back, a removal that returns 0 has given the device back to DPDK and left the VF out of use if and
only if the VF is in use before, or the removal is not conditional, or this was already so.
-/
theorem removal_gives_back_iff (settings : Settings) (state : DeviceState)
    (dbdf : List Char) {id : Nat} (below : id < settings.maxRelays) (conditional : Bool)
    : RemovesDevice settings state dbdf id conditional
      ↔ (state.1.relays id).Active ∨ conditional = false
        ∨ (state.1.relays id).dpdk.state = .uninit ∧ state.2.held id = none := by
  constructor
  · intro removes
    by_cases active : (state.1.relays id).Active
    · exact Or.inl active
    · cases conditional with
      | false => exact Or.inr (Or.inl rfl)
      | true =>
          exact Or.inr (Or.inr (removes _ (removeVf2_at_once below active) _ rfl))
  · intro known config run op returned
    have spec : wp (removalAccesses dbdf id conditional) (removalContract id)
        (removeVf2 settings dbdf id conditional) (fun err s => err = 0 → GivenBack id s) state := by
      by_cases active : (state.1.relays id).Active
      · exact removeVf2_gives_back active
      · refine removeVf2_leaves active fun asked => ?_
        rcases known with active' | unconditional | back
        · exact absurd active' active
        · rw [asked] at unconditional
          cases unconditional
        · exact back
    exact removes_of_wp spec run returned

instance (op : Op) (i : Instr) (answer : Int) (state : DeviceState)
    : Decidable (anyDeviceOps.instr op i answer state) :=
  .isTrue trivial

instance (thread : Unit) (op : Op) (state : DeviceState)
    : Decidable (anyDeviceOps.call thread op state) :=
  .isTrue trivial

/-- A VF is added to relay 0; every call succeeds. -/
def addOnlyVf : List (Choice Unit Op Int Event) :=
  .call () (.addVf2 "0000:05:08.0".toList 0 false)
  :: answered () (List.replicate 8 0 ++ 1 :: List.replicate 21 0)

/-- The settings with ports for a bond. -/
def fourPorts : Settings := { twoWorkers with maxRelays := 4, relaysFit := by decide }

/-- A bond of the VFs on ports 1 and 2 is added to relay 0 as port 3; every call succeeds. -/
def addOnlyBond : List (Choice Unit Op Int Event) :=
  .call () (.bondAdd ["0000:05:08.0".toList, "0000:05:08.1".toList] "net_bonding0".toList 0)
  :: answered () ([0, 0, 3, -1, -1, 0, 1] ++ List.replicate 17 0 ++ [1] ++ List.replicate 13 0 ++ [2]
    ++ List.replicate 25 0)

/-- Witness: a bond of two VFs that was added is removed. -/
theorem added_bond_is_given_back
    : ∃ config : DeviceConfig,
        Run (deviceSystem fourPorts) anyDeviceOps (noDevices fourPorts false fun _ => true) config
        ∧ config.state.2.held 0 = some [1, 2]
        ∧ RemovesDevice fourPorts config.state "net_bonding0".toList 0 true := by
  obtain ⟨config, run, reached⟩ := Run.of_follow (deviceSystem fourPorts) anyDeviceOps
    (noDevices fourPorts false fun _ => true) addOnlyBond
    (fun c => c.state.2.held 0 = some [1, 2] && (c.state.1.relays 0).Active)
    (by decide +kernel)
  simp only [Bool.and_eq_true, decide_eq_true_eq] at reached
  exact ⟨config, run, reached.1,
    (removal_gives_back_iff fourPorts config.state _ (by decide) true).mpr (Or.inl reached.2)⟩

/-- The results of `cleanup_eth_dev` are dropped for the VFs of a bond: here their ports cannot be
removed, and the removal of the bond returns 0.
-/
theorem bonded_vfs_kept_after_failed_cleanup
    : ∃ config : DeviceConfig,
        Run (deviceSystem fourPorts) anyDeviceOps (noDevices fourPorts false fun _ => true) config
        ∧ config.running () = (.removeVf2 "net_bonding0".toList 0 true, .ret 0)
        ∧ config.state.2.held 0 = some [1, 2] := by
  obtain ⟨config, run, reached⟩ := Run.of_follow (deviceSystem fourPorts) anyDeviceOps
    (noDevices fourPorts false fun _ => true)
    (addOnlyBond ++ .call () (.removeVf2 "net_bonding0".toList 0 true)
      :: (answered () (List.replicate 7 0) ++ .env (.vf2vm 0 ⟨0, [], fun _ => 0⟩)
        :: answered () (List.replicate 7 0 ++ [2, 1, 2, 0, 0, 0, 0, 0, -1, 0, 0, 0, -1]
          ++ List.replicate 11 0)))
    (fun c => (c.running ()).1 = .removeVf2 "net_bonding0".toList 0 true
      && (c.running ()).2.value? = some 0 && c.state.2.held 0 = some [1, 2])
    (by decide +kernel)
  simp only [Bool.and_eq_true, decide_eq_true_eq] at reached
  obtain ⟨⟨removed, returned⟩, left⟩ := reached
  exact ⟨config, run, Prod.ext removed (Prog.eq_ret_of_value? returned), left⟩

/-- After a removal whose wait has given up, the next one returns 0 and has done nothing. -/
theorem vf_kept_after_timeout
    : ¬ ∀ (settings : Settings) (useJumbo : Bool) (initialized : Nat → Bool) (rest : DeviceConfig)
        (op : Op) (value : Int),
        Run (deviceSystem settings) anyDeviceOps (noDevices settings useJumbo initialized) rest
        → rest.running () = (op, .ret value)
        → ∀ (dbdf : List Char) (id : Nat) (conditional : Bool),
          id < settings.maxRelays → RemovesDevice settings rest.state dbdf id conditional := by
  intro claim
  let dbdf := "0000:05:08.0".toList
  obtain ⟨rest, run, reached⟩ := Run.of_follow (deviceSystem twoWorkers) anyDeviceOps
    (noDevices twoWorkers false fun _ => true)
    (addOnlyVf ++ .call () (.removeVf2 dbdf 0 true) :: answered () (List.replicate 29 0))
    (fun c => (c.running ()).2.value? = some 5 && (c.state.1.relays 0).dpdk.state = .removing1
      && c.state.2.held 0 = some [])
    (by decide +kernel)
  simp only [Bool.and_eq_true, decide_eq_true_eq] at reached
  obtain ⟨⟨returned, waiting⟩, _⟩ := reached
  have inactive : ¬ (rest.state.1.relays 0).Active := DpdkState.Leaving.inactive (Or.inl waiting)
  have again : Run (deviceSystem twoWorkers) slavesReturned
      (removing twoWorkers rest.state dbdf 0 true) _ :=
    removeVf2_at_once (by decide) inactive
  have removes := claim twoWorkers false (fun _ => true) rest _ _ run
    (Prod.ext rfl (Prog.eq_ret_of_value? returned)) dbdf 0 true (by decide)
  have gone := (removes _ again _ rfl).1
  rw [waiting] at gone
  cases gone

end VirtioForwarder
