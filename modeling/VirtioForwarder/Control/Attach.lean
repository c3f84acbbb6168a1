import VirtioForwarder.Control.Frame

/-! What attaching and removing a device leaves in its relay, whatever the drivers answer and
the workers do meanwhile. The operations run one at a time; the rules below follow the device
of one relay from access to access.
-/

namespace VirtioForwarder

open Program

/-- A VF or bond is attached: `DPDK_READY` or `DPDK_ADDED`. -/
def Relay.Active (relay : Relay) : Prop :=
  relay.dpdk.state = .ready ∨ relay.dpdk.state = .added

instance (relay : Relay) : Decidable relay.Active :=
  inferInstanceAs (Decidable (_ ∨ _))

/-- The CPU number is an index of `worker_threads`. -/
def CpuIndex (cpu : Int) : Prop := 0 ≤ cpu ∧ cpu < maxCpus

/-- What the workers and accesses to other fields leave of a relay: its device with its
worker, and a state that only changes on its way out.
-/
structure Relay.Tended (before after : Relay) : Prop where
  id : after.id = before.id
  dpdkPort : after.dpdk.dpdkPort = before.dpdk.dpdkPort
  pciDbdf : after.dpdk.pciDbdf = before.dpdk.pciDbdf
  isBond : after.dpdk.isBond = before.dpdk.isBond
  numSlaves : after.dpdk.numSlaves = before.dpdk.numSlaves
  vf2vioCpu : after.dpdk.vf2vioCpu = before.dpdk.vf2vioCpu
  dpdkState
    : after.dpdk.state = before.dpdk.state
      ∨ (before.dpdk.state = .removing1 ∨ before.dpdk.state = .removing2)
        ∧ (after.dpdk.state = .removing2 ∨ after.dpdk.state = .uninit)

theorem Relay.Tended.refl (relay : Relay) : relay.Tended relay :=
  ⟨rfl, rfl, rfl, rfl, rfl, rfl, Or.inl rfl⟩

theorem Relay.Tended.trans {first middle last : Relay} (hl : first.Tended middle)
    (hr : middle.Tended last)
    : first.Tended last where
  id := hr.id.trans hl.id
  dpdkPort := hr.dpdkPort.trans hl.dpdkPort
  pciDbdf := hr.pciDbdf.trans hl.pciDbdf
  isBond := hr.isBond.trans hl.isBond
  numSlaves := hr.numSlaves.trans hl.numSlaves
  vf2vioCpu := hr.vf2vioCpu.trans hl.vf2vioCpu
  dpdkState := by
    have early := hl.dpdkState
    have late := hr.dpdkState
    grind

/-- A property of a relay that is kept while the relay is tended. -/
def Tending (P : Relay → Prop) : Prop :=
  ∀ ⦃before after : Relay⦄, before.Tended after → P before → P after

theorem Tending.and {P Q : Relay → Prop} (hp : Tending P) (hq : Tending Q)
    : Tending fun relay => P relay ∧ Q relay :=
  fun _ _ tended h => ⟨hp tended h.1, hq tended h.2⟩

theorem tending_uninit : Tending fun relay => relay.dpdk.state = .uninit := by
  intro before after tended uninit
  have := tended.dpdkState
  grind

theorem tending_active : Tending Relay.Active := by
  intro before after tended active
  have := tended.dpdkState
  unfold Relay.Active at active ⊢
  grind

theorem tending_inactive : Tending fun relay => ¬ relay.Active := by
  intro before after tended inactive active
  have := tended.dpdkState
  unfold Relay.Active at inactive active
  grind

theorem tending_pciDbdf (Q : List Char → Prop)
    : Tending fun relay => Q relay.dpdk.pciDbdf := by
  intro before after tended h
  rwa [tended.pciDbdf]

theorem tending_vf2vioCpu (Q : Int → Prop)
    : Tending fun relay => Q relay.dpdk.vf2vioCpu := by
  intro before after tended h
  rwa [tended.vf2vioCpu]

/-- A device that is attached under a name, with its kind and a worker. -/
structure Relay.Attached (relay : Relay) (name : List Char) (isBond : Bool) (numSlaves : Nat)
    : Prop where
  active : relay.Active
  pciDbdf : relay.dpdk.pciDbdf = name
  isBond : relay.dpdk.isBond = isBond
  numSlaves : relay.dpdk.numSlaves = numSlaves
  cpu : CpuIndex relay.dpdk.vf2vioCpu

theorem storedDbdf_length (dbdf : List Char) : (storedDbdf dbdf).length ≤ 19 :=
  List.length_take_le 19 dbdf

/-- A relay between two operations: its name fits the field, and an attached device has a
worker.
-/
structure Relay.Tidy (relay : Relay) : Prop where
  pciDbdf : relay.dpdk.pciDbdf.length ≤ 19
  cpu : relay.Active → CpuIndex relay.dpdk.vf2vioCpu

theorem tending_tidy : Tending Relay.Tidy := by
  intro before after tended tidy
  refine ⟨tended.pciDbdf ▸ tidy.pciDbdf, fun active => ?_⟩
  have same := tended.dpdkState
  have old : before.Active := by
    unfold Relay.Active at active ⊢
    grind
  exact tended.vf2vioCpu ▸ tidy.cpu old

theorem Relay.Attached.tidy {relay : Relay} {name : List Char} {isBond : Bool} {numSlaves : Nat}
    (h : relay.Attached name isBond numSlaves) (short : name.length ≤ 19)
    : relay.Tidy :=
  ⟨h.pciDbdf ▸ short, fun _ => h.cpu⟩

-----------------------------------------------------------------------------------------
-- The environment
-----------------------------------------------------------------------------------------

theorem tended_of_sameSetup {before after : Relay} (same : SameSetup before after)
    (served : before.Served after)
    : before.Tended after := by
  have state := served.dpdkState
  obtain ⟨_, _, _, ⟨_, _, _, _, rfl⟩, rfl⟩ := same
  exact ⟨rfl, rfl, rfl, rfl, rfl, rfl, state⟩

theorem World.tended_modifyRelay {world : World} {target : Nat} {f : Relay → Relay}
    (h : (world.relays target).Tended (f (world.relays target))) (id : Nat)
    : (world.relays id).Tended ((world.modifyRelay target f).relays id) := by
  rcases eq_or_ne id target with rfl | other
  · rw [World.relays_modifyRelay_self]
    exact h
  · rw [World.relays_modifyRelay_of_ne world f other]
    exact .refl _

/-- Every event tends every relay. -/
theorem Event.tended {settings : Settings} {event : Event} {world after : World}
    (happened : event.apply settings world = some after) (id : Nat)
    : (world.relays id).Tended (after.relays id) := by
  cases event with
  | vm2vf target io =>
      simp only [Event.apply] at happened
      split at happened
      · rename_i out returned
        cases Option.some.inj happened
        have effect := relayVm2vfTraffic_effect returned
        exact World.tended_modifyRelay (tended_of_sameSetup effect.setup effect.served) id
      · cases happened
  | vf2vm target io =>
      simp only [Event.apply] at happened
      split at happened
      · rename_i out returned
        cases Option.some.inj happened
        have effect := relayVf2vmTraffic_effect returned
        exact World.tended_modifyRelay (tended_of_sameSetup effect.setup effect.served) id
      · cases happened
  | updateThread cpu =>
      cases Option.some.inj happened
      exact .refl _
  | vringStateChange target change =>
      cases Option.some.inj happened
      apply World.tended_modifyRelay
      unfold VirtioForwarder.vringStateChange RelayVirtio.deriveQueues
      dsimp only
      split <;> exact ⟨rfl, rfl, rfl, rfl, rfl, rfl, Or.inl rfl⟩
  | setLmPending target =>
      cases Option.some.inj happened
      apply World.tended_modifyRelay
      exact ⟨rfl, rfl, rfl, rfl, rfl, rfl, Or.inl rfl⟩

-----------------------------------------------------------------------------------------
-- Rules
-----------------------------------------------------------------------------------------

/-- The contract of a control thread that runs alone beside the workers. -/
abbrev soloContract (admits : Instr → Int → World → Prop) (fault : Abort → Prop)
    : Contract Instr Int Abort World :=
  ⟨fun _ => True, fun s s' => ∀ id, (s.relays id).Tended (s'.relays id), fun _ _ => True,
    admits, fault⟩

/-- Assignments that leave the device of the relay alone. -/
def Write.SparesDevice : Write → Prop
  | .dpdkState _ | .vf2vioCpu _ | .dpdkPort _ | .pciDbdf _ | .isBond _ | .numSlaves _ => False
  | _ => True

/-- Accesses that leave the device of the relay alone. -/
def Instr.SparesDevice : Instr → Prop
  | .write assignment => assignment.SparesDevice
  | _ => True

theorem Instr.Repooling.sparesDevice {instr : Instr} (h : instr.Repooling)
    : instr.SparesDevice := by
  cases instr with
  | write assignment =>
      cases assignment with
      | mempool | mempoolSocketId => trivial
      | _ => exact h.elim
  | _ => trivial

theorem Write.SparesDevice.tended {write : Write} (h : write.SparesDevice) (relay : Relay)
    : relay.Tended (write.apply relay) := by
  cases write with
  | dpdkState | vf2vioCpu | dpdkPort | pciDbdf | isBond | numSlaves => exact h.elim
  | _ => exact ⟨rfl, rfl, rfl, rfl, rfl, rfl, Or.inl rfl⟩

theorem Instr.SparesDevice.tended {instr : Instr} (h : instr.SparesDevice) (id : Nat)
    (answer : Int) (world : World) (other : Nat)
    : (world.relays other).Tended ((instr.exec id answer world).relays other) := by
  cases instr with
  | write assignment => exact World.tended_modifyRelay (Write.SparesDevice.tended h _) other
  | call request =>
      change (world.relays other).Tended ((request.apply answer world).relays other)
      rw [DriverCall.relays_apply]
      exact .refl _
  | read | flagWorker | logTimeout => exact .refl _

theorem AbortingProg.sparing {α : Type} {p : Control α} (h : AbortingProg p)
    : p.All Instr.SparesDevice fun _ => True :=
  h.mono (fun _ => Instr.Repooling.sparesDevice) fun _ error => error

theorem SureProg.sparing {α : Type} {p : Control α} (h : SureProg p) {fault : Abort → Prop}
    : p.All Instr.SparesDevice fault :=
  h.mono (fun _ inert => inert.observing.repooling.sparesDevice) fun _ => False.elim

section Rules

variable {id : Nat} {admits : Instr → Int → World → Prop} {fault : Abort → Prop} {world : World}
  {α β : Type} {P : Relay → Prop}

theorem Tending.stable (tending : Tending P)
    : (soloContract admits fault).Stable fun s => P (s.relays id) :=
  fun _ _ later _ h => tending (later id) h

/-- Accesses that leave the device alone keep what is known of it. -/
theorem wp_tend {p : Control α} (all : p.All Instr.SparesDevice fault) (tending : Tending P)
    (h : P (world.relays id))
    : wp (accesses id) (soloContract admits fault) p (fun _ s => P (s.relays id)) world :=
  all.wp (fun _ => fun error => error) tending.stable
    (fun _ spares s answer _ held _ =>
      ⟨trivial, trivial, tending (spares.tended id answer s id) held⟩)
    h

/-- Go on after accesses that leave the device alone. -/
theorem wp_tend_bind {p : Control α} {next : α → Control β} {post : β → World → Prop}
    (tending : Tending P) (h : P (world.relays id)) (all : p.All Instr.SparesDevice fault)
    (rest : ∀ a s, P (s.relays id)
      → wp (accesses id) (soloContract admits fault) (next a) post s)
    : wp (accesses id) (soloContract admits fault) (p >>= next) post world :=
  wp.bind ((wp_tend all tending h).mono rest)

/-- A thread that relies on the workers, and that may do nothing. -/
structure Beholding (c : Contract Instr Int Abort World) : Prop where
  refl : ∀ s, c.guar s s
  tended : ∀ ⦃s s'⦄, c.rely s s' → ∀ id, (s.relays id).Tended (s'.relays id)

theorem beholding_solo : Beholding (soloContract admits fault) :=
  ⟨fun _ => trivial, fun _ _ later => later⟩

/-- Go on after a read of the relay, under any contract of this kind. -/
theorem wp_behold_bind {c : Contract Instr Int Abort World} (beholding : Beholding c)
    {field : Field} {next : Relay → Control β} {post : β → World → Prop}
    (tending : Tending P) (h : P (world.relays id))
    (rest : ∀ s, P (s.relays id) → wp (accesses id) c (next (s.relays id)) post s)
    : wp (accesses id) c (look id field >>= next) post world := by
  have stable : c.Stable fun s => P (s.relays id) :=
    fun _ _ later _ h => tending (beholding.tended later id) h
  exact wp.bind (wp_look beholding.refl stable h fun s _ held => rest s held)

/-- Go on after a read of the relay. -/
theorem wp_see_bind {field : Field} {next : Relay → Control β} {post : β → World → Prop}
    (tending : Tending P) (h : P (world.relays id))
    (rest : ∀ s, P (s.relays id)
      → wp (accesses id) (soloContract admits fault) (next (s.relays id)) post s)
    : wp (accesses id) (soloContract admits fault) (look id field >>= next) post world :=
  wp_behold_bind beholding_solo tending h rest

/-- Go on after an assignment. -/
theorem wp_set_bind {write : Write} {next : Unit → Control β} {post : β → World → Prop}
    (Q : Relay → Prop) (tending : Tending P) (h : P (world.relays id))
    (step : ∀ relay, P relay → Q (write.apply relay))
    (rest : ∀ s, Q (s.relays id)
      → wp (accesses id) (soloContract admits fault) (next ()) post s)
    : wp (accesses id) (soloContract admits fault) (assign write >>= next) post world := by
  refine wp.bind (wp_assign tending.stable h fun s _ _ held _ => ⟨trivial, trivial, ?_⟩)
  refine rest _ ?_
  rw [World.relays_modifyRelay_self]
  exact step _ held

/-- Flagging a worker that is there. -/
theorem wp_flag {cpu : Int} (errors : ¬ CpuIndex cpu → fault .workerIndex)
    (tending : Tending P) (h : P (world.relays id))
    : wp (accesses id) (soloContract admits fault) (flagWorker cpu)
        (fun _ s => P (s.relays id) ∧ CpuIndex cpu) world := by
  unfold flagWorker
  split
  · rename_i inRange
    exact wp.perform tending.stable h fun s _ _ held _ => ⟨trivial, trivial, held, inRange⟩
  · rename_i outside
    exact errors outside

end Rules

-----------------------------------------------------------------------------------------
-- Attaching a device
-----------------------------------------------------------------------------------------

section Attaching

variable {settings : Settings} {id : Nat} {admits : Instr → Int → World → Prop}
  {fault : Abort → Prop} {world : World} {P : Relay → Prop}

/-- The choice of a worker keeps what does not depend on the worker. -/
theorem findVf2virtioCpu_keeps (errors : ∀ e, Abort.OfWorker e → fault e) (tending : Tending P)
    (anyCpu : ∀ cpu relay, P relay → P ((Write.vf2vioCpu cpu).apply relay))
    (h : P (world.relays id))
    : wp (accesses id) (soloContract admits fault) (findVf2virtioCpu settings id)
        (fun _ s => P (s.relays id)) world := by
  have chosen := findVf2virtioCpu_assigning settings id
  refine chosen.wp errors tending.stable (fun i assigning s answer _ held _ => ?_) h
  refine ⟨trivial, trivial, ?_⟩
  cases i with
  | write assignment =>
      change P ((s.modifyRelay id assignment.apply).relays id)
      rw [World.relays_modifyRelay_self]
      cases assignment with
      | vf2vioCpu cpu => exact anyCpu cpu _ held
      | vio2vfCpu cpu =>
          have spared : (Write.vio2vfCpu cpu).SparesDevice := trivial
          exact tending (spared.tended _) held
      | _ => exact assigning.elim
  | call request => exact assigning.elim
  | read | flagWorker | logTimeout => exact held

/-- Publishing attaches the device under the name that fits the field. -/
theorem publishVf_attaches {dbdf : List Char} {port numSlaves : Nat} {isBond : Bool}
    {state : DpdkState} (active : state = .ready ∨ state = .added)
    (uninit : (world.relays id).dpdk.state = .uninit)
    : wp (accesses id) (soloContract admits fun _ => True)
        (publishVf settings id dbdf port state isBond numSlaves)
        (fun _ s => (s.relays id).Attached (storedDbdf dbdf) isBond numSlaves) world := by
  have named : Tending fun relay => relay.dpdk.pciDbdf = storedDbdf dbdf :=
    tending_pciDbdf (· = storedDbdf dbdf)
  refine wp_tend_bind tending_uninit uninit (.perform trivial) fun _ s uninit => ?_
  refine wp_set_bind (fun relay => relay.dpdk.state = .uninit) tending_uninit uninit
    (fun _ uninit => uninit) fun s uninit => ?_
  refine wp_set_bind (fun relay => relay.dpdk.pciDbdf = storedDbdf dbdf) tending_uninit uninit
    (fun _ _ => rfl) fun s name => ?_
  refine wp.bind ((findVf2virtioCpu_keeps (fun _ _ => trivial) named (fun _ _ name => name)
    name).mono fun _ s name => ?_)
  refine wp_set_bind
    (fun relay => relay.Active ∧ relay.dpdk.pciDbdf = storedDbdf dbdf) named name
    (fun _ name => ⟨active, name⟩) fun s held => ?_
  refine wp_set_bind
    (fun relay => (relay.Active ∧ relay.dpdk.pciDbdf = storedDbdf dbdf)
      ∧ relay.dpdk.isBond = isBond)
    (tending_active.and named) held (fun _ held => ⟨held, rfl⟩) fun s held => ?_
  have bonded : Tending fun relay =>
      (relay.Active ∧ relay.dpdk.pciDbdf = storedDbdf dbdf) ∧ relay.dpdk.isBond = isBond :=
    (tending_active.and named).and fun _ _ tended h => tended.isBond.trans h
  refine wp_set_bind
    (fun relay => ((relay.Active ∧ relay.dpdk.pciDbdf = storedDbdf dbdf)
      ∧ relay.dpdk.isBond = isBond) ∧ relay.dpdk.numSlaves = numSlaves)
    bonded held (fun _ held => ⟨held, rfl⟩) fun s held => ?_
  have counted : Tending fun relay =>
      ((relay.Active ∧ relay.dpdk.pciDbdf = storedDbdf dbdf) ∧ relay.dpdk.isBond = isBond)
        ∧ relay.dpdk.numSlaves = numSlaves :=
    bonded.and fun _ _ tended h => tended.numSlaves.trans h
  refine wp_see_bind counted held fun s held => ?_
  -- the CPU that is flagged is the one of the relay, which the workers leave alone
  have assigned : Tending fun relay => relay.dpdk.vf2vioCpu = (s.relays id).dpdk.vf2vioCpu :=
    tending_vf2vioCpu (· = (s.relays id).dpdk.vf2vioCpu)
  refine (wp_flag (fun _ => trivial) (counted.and assigned) ⟨held, rfl⟩).mono
    fun _ s' flagged => ?_
  obtain ⟨⟨⟨⟨⟨active, name⟩, bond⟩, slaves⟩, cpu⟩, index⟩ := flagged
  exact ⟨active, name, bond, slaves, cpu ▸ index⟩

theorem configureDevWithVirtio_attaches {dbdf : List Char} {port numSlaves : Nat} {isBond : Bool}
    (tending : Tending P) (unused : ∀ relay, P relay → relay.dpdk.state = .uninit)
    (h : P (world.relays id))
    : wp (accesses id) (soloContract admits fun _ => True)
        (configureDevWithVirtio settings id dbdf port isBond numSlaves)
        (fun err s => err = 0 ∧ (s.relays id).Attached (storedDbdf dbdf) isBond numSlaves
          ∨ err ≠ 0 ∧ P (s.relays id)) world := by
  have decides : (startOrStop id port).Returns fun state =>
      ∀ decided, state = some decided → decided = .ready ∨ decided = .added := by
    refine .bind fun relay => ?_
    split
    · refine .bind fun err => ?_
      split
      · exact nofun
      · exact fun decided same => Or.inl (Option.some.inj same).symm
    · exact .bind fun _ decided same => Or.inr (Option.some.inj same).symm
  have kept : wp (accesses id) (soloContract admits fun _ => True) (startOrStop id port)
      (fun _ s => P (s.relays id)) world :=
    wp_tend (startOrStop_observing id port).repooling.aborting.sparing tending h
  refine wp.bind ((kept.returns decides).mono fun state s outcome => ?_)
  obtain ⟨decided, held⟩ := outcome
  cases state with
  | none => exact Or.inr ⟨by decide, held⟩
  | some state =>
      refine wp.bind ((publishVf_attaches (decided state rfl) (unused _ held)).mono
        fun _ s attached => ?_)
      exact Or.inl ⟨rfl, attached⟩

/-- Attaching a VF to a relay without one: it is attached under its stored name, or what was
known of the relay still holds.
-/
theorem initAndConfigure_attaches {dbdf : List Char} (tending : Tending P)
    (unused : ∀ relay, P relay → relay.dpdk.state = .uninit) (h : P (world.relays id))
    : wp (accesses id) (soloContract admits fun _ => True)
        (do
          match ← initVf settings id dbdf with
          | .error (err, _) => return err
          | .ok port =>
              let err ← configureDevWithVirtio settings id dbdf port false 0
              if err = 0 then return 0
              let _ ← cleanupEthDev port
              return err)
        (fun err s => err = 0 ∧ (s.relays id).Attached (storedDbdf dbdf) false 0
          ∨ err ≠ 0 ∧ P (s.relays id)) world := by
  have kept : wp (accesses id) (soloContract admits fun _ => True) (initVf settings id dbdf)
      (fun _ s => P (s.relays id)) world :=
    wp_tend (initVf_pooling ..).repooling.aborting.sparing tending h
  refine wp.bind ((kept.returns (initVf_returns settings id dbdf)).mono
    fun result s outcome => ?_)
  obtain ⟨failed, held⟩ := outcome
  cases result with
  | error failure => exact Or.inr ⟨failed _ _ rfl, held⟩
  | ok port =>
      refine wp.bind ((configureDevWithVirtio_attaches tending unused held).mono
        fun err s outcome => ?_)
      rcases outcome with ⟨rfl, attached⟩ | ⟨failed, held⟩
      · exact Or.inl ⟨rfl, attached⟩
      · rw [if_neg failed]
        exact wp_tend_bind tending held (cleanupEthDev_sure port).sparing
          fun _ s held => Or.inr ⟨failed, held⟩

/-- The error paths of a bond return their error code. -/
theorem deconfigureBond_keeps {name : List Char} {ports : List (Option Nat)} {rc : Int}
    (tending : Tending P) (h : P (world.relays id))
    : wp (accesses id) (soloContract admits fault) (deconfigureBond name ports rc)
        (fun err s => err = rc ∧ P (s.relays id)) world := by
  refine wp_tend_bind tending h (cleanupSlaves_sure ports).sparing fun _ s held => ?_
  exact wp_tend_bind tending held (.perform trivial) fun _ s held => ⟨rfl, held⟩

/-- `bond_add` attaches the bond under its stored name, or fails and leaves what was known of
the relay.
-/
theorem bondAdd_attaches {slaves : List (List Char)} {name : List Char} (tending : Tending P)
    (h : P (world.relays id))
    : wp (accesses id) (soloContract admits fun _ => True) (bondAdd settings slaves name id)
        (fun err s => err = 0 ∧ (s.relays id).Attached (storedDbdf name) true slaves.length
          ∨ err ≠ 0 ∧ P (s.relays id)) world := by
  have failing {s : World} {ports : List (Option Nat)} {rc : Int} (code : rc ≠ 0)
      (held : P (s.relays id))
      : wp (accesses id) (soloContract admits fun _ => True) (deconfigureBond name ports rc)
          (fun err s => err = 0 ∧ (s.relays id).Attached (storedDbdf name) true slaves.length
            ∨ err ≠ 0 ∧ P (s.relays id)) s :=
    (deconfigureBond_keeps tending held).mono fun _ _ kept => Or.inr ⟨kept.1 ▸ code, kept.2⟩
  have unused : Tending fun relay => P relay ∧ relay.dpdk.state = .uninit :=
    tending.and tending_uninit
  unfold bondAdd
  split
  · exact Or.inr ⟨by decide, h⟩
  · refine wp_see_bind tending h fun s held => ?_
    split
    · exact Or.inr ⟨by decide, held⟩
    · rename_i uninit
      refine wp_see_bind unused ⟨held, not_not.mp uninit⟩ fun s held => ?_
      refine wp_tend_bind unused held (.perform trivial) fun created s held => ?_
      dsimp only
      split
      · exact Or.inr ⟨by decide, held.1⟩
      · refine wp_tend_bind unused held
          (slaveInUse_inert slaves).observing.repooling.aborting.sparing fun used s held => ?_
        split
        · exact failing (by decide) held.1
        · refine wp_tend_bind unused held (migrateMempool_aborting ..).sparing fun _ s held => ?_
          refine wp_tend_bind unused held
            (devQueueConfigure_pooling ..).repooling.aborting.sparing fun err s held => ?_
          split
          · exact failing (by decide) held.1
          · refine wp_tend_bind unused held
              (addSlaves_pooling ..).repooling.aborting.sparing fun result s held => ?_
            obtain ⟨added, ports⟩ := result
            dsimp only
            split
            · exact failing (by decide) held.1
            · refine wp.bind ((configureDevWithVirtio_attaches unused (fun _ held => held.2)
                held).mono fun err s outcome => ?_)
              rcases outcome with ⟨rfl, attached⟩ | ⟨failed, held⟩
              · exact Or.inl ⟨rfl, attached⟩
              · rw [if_pos failed]
                exact failing (by decide) held.1

/-- The test for an attached device says whether there is one. -/
theorem vfActive_beholds {c : Contract Instr Int Abort World} (beholding : Beholding c)
    (tending : Tending P) (h : P (world.relays id))
    : wp (accesses id) c (vfActive id)
        (fun active s => P (s.relays id) ∧ (active = true ↔ (s.relays id).Active)) world := by
  refine wp_behold_bind beholding tending h fun s held => ?_
  split
  · rename_i ready
    exact ⟨held, fun _ => Or.inl ready, fun _ => rfl⟩
  · rename_i unready
    have away : Tending fun relay => P relay ∧ relay.dpdk.state ≠ .ready := by
      refine tending.and fun before after tended unready ready => ?_
      have := tended.dpdkState
      grind
    refine wp_behold_bind beholding away ⟨held, unready⟩ fun s held => ?_
    refine ⟨held.1, fun added => Or.inr (of_decide_eq_true added), fun active => ?_⟩
    exact decide_eq_true (active.resolve_left held.2)

theorem vfActive_tells (tending : Tending P) (h : P (world.relays id))
    : wp (accesses id) (soloContract admits fault) (vfActive id)
        (fun active s => P (s.relays id) ∧ (active = true ↔ (s.relays id).Active)) world :=
  vfActive_beholds beholding_solo tending h

/-- A conditional add finds the device only if it is attached under that very name. -/
theorem conditionalAddOk_tells {dbdf : List Char} (tending : Tending P)
    (h : P (world.relays id))
    : wp (accesses id) (soloContract admits fault) (conditionalAddOk id dbdf)
        (fun ok s => P (s.relays id)
          ∧ (ok = true → (s.relays id).Active ∧ (s.relays id).dpdk.pciDbdf = dbdf)) world := by
  refine wp.bind ((vfActive_tells tending h).mono fun active s told => ?_)
  obtain ⟨held, active⟩ := told
  split
  · exact ⟨held, nofun⟩
  · rename_i found
    have there : (s.relays id).Active := active.mp (by simpa using found)
    refine wp_see_bind (tending.and tending_active) ⟨held, there⟩ fun s held => ?_
    exact ⟨held.1, fun ok => ⟨held.2, (of_decide_eq_true ok).2⟩⟩

/-- `add_vf2` attaches the device under its stored name, or finds it attached, or fails and
leaves what was known of the relay.
-/
theorem addVf2_attaches {dbdf : List Char} {conditional : Bool} (tending : Tending P)
    (h : P (world.relays id))
    : wp (accesses id) (soloContract admits fun _ => True) (addVf2 settings dbdf id conditional)
        (fun err s => err = 0 ∧ (s.relays id).Attached (storedDbdf dbdf) false 0
          ∨ err = 0 ∧ P (s.relays id) ∧ (s.relays id).Active
            ∧ (s.relays id).dpdk.pciDbdf = dbdf
          ∨ err ≠ 0 ∧ P (s.relays id)) world := by
  unfold addVf2
  split
  · exact Or.inr (Or.inr ⟨by decide, h⟩)
  · refine wp_see_bind tending h fun s held => ?_
    split
    · split
      · exact Or.inr (Or.inr ⟨by decide, held⟩)
      · refine wp.bind ((conditionalAddOk_tells tending held).mono fun ok s told => ?_)
        obtain ⟨held, found⟩ := told
        split
        · rename_i ok
          exact Or.inr (Or.inl ⟨rfl, held, found ok⟩)
        · exact Or.inr (Or.inr ⟨by decide, held⟩)
    · rename_i uninit
      refine (initAndConfigure_attaches (tending.and tending_uninit) (fun _ held => held.2)
        ⟨held, not_not.mp uninit⟩).mono fun err s outcome => ?_
      rcases outcome with attached | ⟨failed, held, _⟩
      · exact Or.inl attached
      · exact Or.inr (Or.inr ⟨failed, held⟩)

/-- A successful add leaves the device attached under its stored name, and every add leaves
the relay tidy.
-/
theorem addVf2_tidy {dbdf : List Char} {conditional : Bool} (tidy : (world.relays id).Tidy)
    : wp (accesses id) (soloContract admits fun _ => True) (addVf2 settings dbdf id conditional)
        (fun err s => (s.relays id).Tidy
          ∧ (err = 0 → (s.relays id).Active
            ∧ (s.relays id).dpdk.pciDbdf = storedDbdf dbdf)) world := by
  refine (addVf2_attaches tending_tidy tidy).mono fun err s outcome => ?_
  rcases outcome with ⟨_, attached⟩ | ⟨_, tidy, active, rfl⟩ | ⟨failed, tidy⟩
  · exact ⟨attached.tidy (storedDbdf_length dbdf), fun _ => ⟨attached.active, attached.pciDbdf⟩⟩
  · exact ⟨tidy, fun _ => ⟨active, (List.take_of_length_le tidy.pciDbdf).symm⟩⟩
  · exact ⟨tidy, fun ok => absurd ok failed⟩

theorem bondAdd_tidy {slaves : List (List Char)} {name : List Char}
    (tidy : (world.relays id).Tidy)
    : wp (accesses id) (soloContract admits fun _ => True) (bondAdd settings slaves name id)
        (fun err s => (s.relays id).Tidy
          ∧ (err = 0 → (s.relays id).Active
            ∧ (s.relays id).dpdk.pciDbdf = storedDbdf name)) world := by
  refine (bondAdd_attaches tending_tidy tidy).mono fun err s outcome => ?_
  rcases outcome with ⟨_, attached⟩ | ⟨failed, tidy⟩
  · exact ⟨attached.tidy (storedDbdf_length name), fun _ => ⟨attached.active, attached.pciDbdf⟩⟩
  · exact ⟨tidy, fun ok => absurd ok failed⟩

end Attaching

end VirtioForwarder
