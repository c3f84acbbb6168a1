import VirtioForwarder.Control.PortTable

/-! An addition that fails detaches the ports that it has attached, and the removal of a device
detaches the ports of the addition, if each device had a port of its own.
-/

namespace VirtioForwarder

open Program

-----------------------------------------------------------------------------------------
-- One device
-----------------------------------------------------------------------------------------

theorem Ports.detach_attach {ports : Ports} {port : Nat} (fresh : ports.attached port = false)
    : (ports.attach port).detach port = ports := by
  have same : Function.update (Function.update ports.attached port true) port false
      = ports.attached := by
    rw [Function.update_idem]
    exact Function.update_eq_self_iff.mpr fresh.symm
  simp only [Ports.attach, Ports.detach, same]

/-- A device has no port. -/
def Ports.lose (ports : Ports) : Ports := { ports with stray := true }

/-- What `init_vf` leaves: a new port, or no port because none was found, or the ports as before
with an entry that is not an attached port.
-/
def InitLeaves (settings : Settings) (ports : Ports) (failed : Prop)
    : Except (Int × Option Nat) Nat → PortRecord → Prop
  | .error (_, entry), record =>
      record.At ports True
      ∧ ∀ port ∈ entry, port < settings.maxRelays ∧ ports.attached port = false
  | .ok port, record =>
      port < settings.maxRelays ∧ ports.attached port = false
        ∧ record.At (ports.attach port) failed
      ∨ port = settings.maxRelays ∧ record.At ports.lose failed

section Adding

variable {settings : Settings} {id : Nat} {P : Relay → Prop} {state : World × PortRecord}
  {ports : Ports} {failed : Prop}

theorem initVf_leaves {dbdf : List Char} (tending : Tending P)
    (h : P (state.1.relays id) ∧ state.2.At ports failed)
    : wp (portAccesses settings id) (portContract settings) (initVf settings id dbdf)
        (fun result s => P (s.1.relays id) ∧ InitLeaves settings ports failed result s.2)
        state := by
  refine wp_ports_try_bind tending h trivial (DriverCall.givesUp_of_ne fun _ => rfl) ?_ ?_
  · intro answer s refused held
    rw [if_pos refused]
    exact ⟨held.1, held.2, nofun⟩
  · intro s held
    rw [if_neg (not_not.mpr rfl)]
    refine wp_ports_call_bind (fun answer => 0 ≤ answer → answer < settings.maxRelays
      → ports.attached answer.toNat = false) tending held ?_ ?_
    · rintro answer record ⟨rfl, _⟩ _ prudent
      exact prudent
    · rintro answer s ⟨held, here, new⟩
      split
      · rename_i inRange
        have fresh := new inRange.1 inRange.2
        have below : answer.toNat < settings.maxRelays := by omega
        simp only [DriverCall.portsAfter, if_pos inRange] at here
        refine wp.bind ((devQueueConfigure_gives_up tending ⟨held, here⟩).mono fun err s held => ?_)
        split
        · rename_i refused
          have torn : P (s.1.relays id) ∧ s.2.At (ports.attach answer.toNat) True :=
            ⟨held.1, held.2.weaken fun _ => Or.inr refused⟩
          refine wp.bind ((cleanupEthDev_detaches answer.toNat tending torn).mono
            fun _ s outcome => ?_)
          have back : (ports.attach answer.toNat).without settings answer.toNat = ports := by
            rw [Ports.without, if_pos below, Ports.detach_attach fresh]
          rw [back] at outcome
          refine ⟨outcome.1.1, outcome.1.2, ?_⟩
          rintro port same
          cases Option.some.inj same
          exact ⟨below, fresh⟩
        · have going : P (s.1.relays id) ∧ s.2.At (ports.attach answer.toNat) failed :=
            ⟨held.1, held.2.weaken Or.inl⟩
          refine wp_ports_keep_bind tending going (.perform trivial) (.perform trivial)
            fun _ s held => ?_
          exact ⟨held.1, Or.inl ⟨below, fresh, held.2⟩⟩
      · rename_i outside
        simp only [DriverCall.portsAfter, if_neg outside] at here
        exact ⟨held, Or.inr ⟨rfl, here⟩⟩

theorem findVf2virtioCpu_portless (settings : Settings) (id : Nat)
    : (findVf2virtioCpu settings id).All Instr.Portless fun _ => True := by
  refine (findVf2virtioCpu_assigning settings id).mono (fun i assigning => ?_) fun _ _ => trivial
  cases i with
  | call request => exact assigning.elim
  | _ => trivial

theorem flagWorker_portless (cpu : Int) : (flagWorker cpu).All Instr.Portless fun _ => True := by
  unfold flagWorker
  split
  · exact .perform trivial
  · trivial

theorem flagWorker_sparing (cpu : Int)
    : (flagWorker cpu).All Instr.SparesDevice fun _ => True := by
  unfold flagWorker
  split
  · exact .perform trivial
  · trivial

theorem publishVf_portless (settings : Settings) (id : Nat) (dbdf : List Char) (port : Nat)
    (state : DpdkState) (isBond : Bool) (numSlaves : Nat)
    : (publishVf settings id dbdf port state isBond numSlaves).All Instr.Portless
        fun _ => True := by
  refine .bind (.perform trivial) fun _ => .bind (.perform trivial) fun _ =>
    .bind (.perform trivial) fun _ => .bind (findVf2virtioCpu_portless settings id) fun _ =>
    .bind (.perform trivial) fun _ => .bind (.perform trivial) fun _ =>
    .bind (.perform trivial) fun _ => .bind (.perform trivial) fun _ => ?_
  exact flagWorker_portless _

/-- `configure_dev_with_virtio` leaves the ports alone; it fails only after a step has failed. -/
theorem configureDevWithVirtio_gives_up {dbdf : List Char} {port numSlaves : Nat} {isBond : Bool}
    (h : state.2.At ports failed)
    : wp (portAccesses settings id) (portContract settings)
        (configureDevWithVirtio settings id dbdf port isBond numSlaves)
        (fun err s => s.2.At ports (failed ∨ err ≠ 0)) state := by
  have decided : wp (portAccesses settings id) (portContract settings) (startOrStop id port)
      (fun result s => s.2.At ports (failed ∨ result = none)) state := by
    refine wp_ports_see_bind tending_true ⟨trivial, h⟩ fun s held => ?_
    split
    · refine wp_ports_try_bind tending_true held trivial
        (DriverCall.givesUp_of_ne fun _ => rfl) ?_ ?_
      · intro answer s refused held
        rw [if_pos refused]
        exact held.2.weaken fun _ => trivial
      · intro s held
        rw [if_neg (not_not.mpr rfl)]
        exact held.2.weaken fun either => either.resolve_right nofun
    · refine wp_ports_keep_bind tending_true held (.perform trivial) (.perform trivial)
        fun _ s held => ?_
      exact held.2.weaken fun either => either.resolve_right nofun
  refine wp.bind (decided.mono fun result s held => ?_)
  cases result with
  | none => exact held.weaken fun _ => Or.inr rfl
  | some state =>
      have going : s.2.At ports failed := held.weaken Or.inl
      refine wp.bind ((wp_portless (publishVf_portless ..) going).mono fun _ s held => ?_)
      exact held.weaken fun either => either.resolve_right (not_not.mpr rfl)

theorem tending_dpdkPort (port : Nat) : Tending fun relay => relay.dpdk.dpdkPort = port :=
  fun _ _ tended same => tended.dpdkPort.trans same

/-- A device that is published has its port in the relay. -/
theorem publishVf_port {world : World} {dbdf : List Char} {port numSlaves : Nat} {isBond : Bool}
    {state : DpdkState}
    : wp (accesses id) (soloContract (fun _ _ _ => True) fun _ => True)
        (publishVf settings id dbdf port state isBond numSlaves)
        (fun _ s => (s.relays id).dpdk.dpdkPort = port) world := by
  have named := tending_dpdkPort port
  refine wp_tend_bind tending_true trivial (.perform trivial) fun _ s _ => ?_
  refine wp_set_bind (fun relay => relay.dpdk.dpdkPort = port) tending_true trivial
    (fun _ _ => rfl) fun s held => ?_
  refine wp_set_bind (fun relay => relay.dpdk.dpdkPort = port) named held
    (fun _ same => same) fun s held => ?_
  refine wp.bind ((findVf2virtioCpu_keeps (fun _ _ => trivial) named (fun _ _ same => same)
    held).mono fun _ s held => ?_)
  refine wp_set_bind (fun relay => relay.dpdk.dpdkPort = port) named held
    (fun _ same => same) fun s held => ?_
  refine wp_set_bind (fun relay => relay.dpdk.dpdkPort = port) named held
    (fun _ same => same) fun s held => ?_
  refine wp_set_bind (fun relay => relay.dpdk.dpdkPort = port) named held
    (fun _ same => same) fun s held => ?_
  refine wp_see_bind named held fun s held => ?_
  exact (wp_flag (fun _ => trivial) named held).mono fun _ _ flagged => flagged.1

theorem configureDevWithVirtio_port {world : World} {dbdf : List Char} {port numSlaves : Nat}
    {isBond : Bool}
    : wp (accesses id) (soloContract (fun _ _ _ => True) fun _ => True)
        (configureDevWithVirtio settings id dbdf port isBond numSlaves)
        (fun err s => err = 0 → (s.relays id).dpdk.dpdkPort = port) world := by
  have decided : wp (accesses id) (soloContract (fun _ _ _ => True) fun _ => True)
      (startOrStop id port) (fun _ _ => True) world :=
    wp_tend (startOrStop_observing id port).repooling.aborting.sparing tending_true trivial
  refine wp.bind (decided.mono fun result s _ => ?_)
  cases result with
  | none => exact fun zero => absurd zero (by decide)
  | some state => exact wp.bind (publishVf_port.mono fun _ s same _ => same)

/-- A VF that was added has a port of its own, or it is astray. -/
def VfAdded (settings : Settings) (ports : Ports) (failed : Prop) (relay : Relay)
    (record : PortRecord)
    : Prop :=
  relay.dpdk.dpdkPort < settings.maxRelays
    ∧ ports.attached relay.dpdk.dpdkPort = false
    ∧ record.At (ports.attach relay.dpdk.dpdkPort) failed
  ∨ record.ports.stray = true

/-- `add_vf2` to a relay without a device attaches one port, or leaves the ports as they were. -/
theorem addVf2_ports {dbdf : List Char} {conditional : Bool}
    (h : (state.1.relays id).dpdk.state = .uninit ∧ state.2.At ports failed)
    : wp (portAccesses settings id) (portContract settings) (addVf2 settings dbdf id conditional)
        (fun err s => (err ≠ 0 → s.2.ports.attached = ports.attached)
          ∧ (err = 0 → VfAdded settings ports failed (s.1.relays id) s.2)) state := by
  unfold addVf2
  split
  · exact ⟨fun _ => congrArg Ports.attached h.2.1, fun zero => absurd zero (by decide)⟩
  · refine wp_ports_see_bind tending_uninit h fun s held => ?_
    rw [if_neg (not_not.mpr held.1)]
    refine wp.bind (((initVf_leaves tending_uninit held).returns
      (initVf_returns settings id dbdf)).mono fun result s outcome => ?_)
    obtain ⟨nonzero, uninit, leaves⟩ := outcome
    cases result with
    | error failure =>
        obtain ⟨err, entry⟩ := failure
        exact ⟨fun _ => congrArg Ports.attached leaves.1.1,
          fun zero => absurd zero (nonzero err entry rfl)⟩
    | ok port =>
        have configured (known : Ports) (here : s.2.At known failed)
            (back : (known.without settings port).attached = ports.attached)
            (there : ∀ relay record, relay.dpdk.dpdkPort = port → record.At known failed
              → VfAdded settings ports failed relay record)
            : wp (portAccesses settings id) (portContract settings)
                (do
                  let err ← configureDevWithVirtio settings id dbdf port false 0
                  if err = 0 then return 0
                  let _ ← cleanupEthDev port
                  return err)
                (fun err s => (err ≠ 0 → s.2.ports.attached = ports.attached)
                  ∧ (err = 0 → VfAdded settings ports failed (s.1.relays id) s.2)) s := by
          refine wp.bind (((wp_without_ports configureDevWithVirtio_port).and
            (configureDevWithVirtio_gives_up here)).mono fun err s outcome => ?_)
          obtain ⟨same, held⟩ := outcome
          split
          · rename_i zero
            exact ⟨fun refused => absurd rfl refused,
              fun _ => there _ _ (same zero) (held.weaken Or.inl)⟩
          · rename_i refused
            have torn : True ∧ s.2.At known True :=
              ⟨trivial, held.weaken fun _ => Or.inr refused⟩
            refine wp.bind ((cleanupEthDev_detaches port tending_true torn).mono
              fun _ s outcome => ?_)
            refine ⟨fun _ => ?_, fun zero => absurd zero refused⟩
            rw [outcome.1.2.1]
            exact back
        rcases leaves with ⟨below, fresh, here⟩ | ⟨rfl, here⟩
        · refine configured _ here ?_ ?_
          · rw [Ports.without, if_pos below, Ports.detach_attach fresh]
          · rintro relay record rfl known
            exact Or.inl ⟨below, fresh, known⟩
        · refine configured _ here ?_ ?_
          · rw [Ports.without, if_neg (Nat.lt_irrefl _)]
            rfl
          · rintro relay record _ known
            exact Or.inr (known.1 ▸ rfl)

end Adding

-----------------------------------------------------------------------------------------
-- The slaves of a bond
-----------------------------------------------------------------------------------------

/-- The ports after the entries of the array of slave ports were cleaned up. -/
def Ports.withoutAll (settings : Settings) (ports : Ports) : List (Option Nat) → Ports
  | [] => ports
  | some port :: entries => (ports.without settings port).withoutAll settings entries
  | none :: entries => ports.withoutAll settings entries

theorem Ports.without_attached (settings : Settings) (ports : Ports) (port other : Nat)
    : (ports.without settings port).attached other = true
      ↔ ports.attached other = true ∧ ¬(other = port ∧ port < settings.maxRelays) := by
  unfold Ports.without
  split
  · rename_i below
    rcases eq_or_ne other port with rfl | away
    · simp [Ports.detach, below]
    · simp [Ports.detach, away]
  · rename_i above
    simp [above]

theorem Ports.withoutAll_attached (settings : Settings) (entries : List (Option Nat)) (other : Nat)
    : ∀ ports : Ports, (ports.withoutAll settings entries).attached other = true
        ↔ ports.attached other = true ∧ ¬(some other ∈ entries ∧ other < settings.maxRelays) := by
  induction entries with
  | nil => simp [Ports.withoutAll]
  | cons entry entries hind =>
      intro ports
      cases entry with
      | none => simpa [Ports.withoutAll] using hind ports
      | some port =>
          rw [Ports.withoutAll, hind, Ports.without_attached]
          simp only [List.mem_cons, Option.some.injEq]
          constructor
          · rintro ⟨⟨attached, away⟩, absent⟩
            refine ⟨attached, ?_⟩
            rintro ⟨rfl | later, below⟩
            · exact away ⟨rfl, below⟩
            · exact absent ⟨later, below⟩
          · rintro ⟨attached, absent⟩
            refine ⟨⟨attached, ?_⟩, ?_⟩
            · rintro ⟨rfl, below⟩
              exact absent ⟨Or.inl rfl, below⟩
            · rintro ⟨later, below⟩
              exact absent ⟨Or.inr later, below⟩

theorem Ports.without_bonds (settings : Settings) (ports : Ports) (port : Nat)
    : (ports.without settings port).bonds = ports.bonds := by
  unfold Ports.without
  split
  · rfl
  · rfl

theorem Ports.withoutAll_bonds (settings : Settings) (entries : List (Option Nat))
    : ∀ ports : Ports, (ports.withoutAll settings entries).bonds = ports.bonds := by
  induction entries with
  | nil => exact fun _ => rfl
  | cons entry entries hind =>
      intro ports
      cases entry with
      | none => exact hind ports
      | some port => rw [Ports.withoutAll, hind, Ports.without_bonds]

section Slaves

variable {settings : Settings} {id : Nat} {P : Relay → Prop} {state : World × PortRecord}
  {failed : Prop}

/-- The loop of the error path cleans up the entries; what happens to be in the others is not an
attached port.
-/
theorem cleanupSlaves_detaches (tending : Tending P) (entries : List (Option Nat))
    : ∀ (ports : Ports) (state : World × PortRecord),
        P (state.1.relays id) ∧ state.2.At ports True →
        wp (portAccesses settings id) (portContract settings) (cleanupSlaves entries)
          (fun _ s => P (s.1.relays id) ∧ s.2.At (ports.withoutAll settings entries) True)
          state := by
  induction entries with
  | nil => exact fun ports state h => h
  | cons entry entries hind =>
      intro ports state h
      cases entry with
      | some port =>
          refine wp.bind ((cleanupEthDev_detaches port tending h).mono fun _ s outcome => ?_)
          exact hind _ s outcome.1
      | none =>
          refine wp_ports_told_bind (fun answer => ports.attached answer.toNat = false) tending h
            trivial ?_ ?_
          · rintro answer record ⟨rfl, _⟩ _ prudent
            exact prudent
          · rintro answer s ⟨held, here, absent⟩
            refine wp.bind ((cleanupEthDev_detaches answer.toNat tending ⟨held, here⟩).mono
              fun _ s outcome => ?_)
            have same : ports.without settings answer.toNat = ports := by
              unfold Ports.without
              split
              · exact Ports.detach_of_not_attached absent
              · rfl
            rw [same] at outcome
            exact hind _ s outcome.1

/-- The ports after some slaves were set up: besides those of before, only entries of the array
are attached, and these are new.
-/
structure Covered (settings : Settings) (base : Ports) (entries : List (Option Nat))
    (ports : Ports)
    : Prop where
  kept : ∀ port, base.attached port = true → ports.attached port = true
  listed : ∀ port, ports.attached port = true →
    base.attached port = true ∨ some port ∈ entries ∧ port < settings.maxRelays
  fresh : ∀ port, some port ∈ entries → port < settings.maxRelays → base.attached port = false
  bonds : ports.bonds = base.bonds

/-- The slaves of the bond are the entries, unless a slave is astray. -/
def Joined (settings : Settings) (bond : Nat) (entries : List (Option Nat)) (ports : Ports) : Prop :=
  ports.stray = false →
    entries = (ports.members bond).map some ∧ ∀ port ∈ ports.members bond, port < settings.maxRelays

theorem Covered.withoutAll {base ports : Ports} {entries : List (Option Nat)}
    (covered : Covered settings base entries ports)
    : (ports.withoutAll settings entries).attached = base.attached := by
  funext port
  rw [Bool.eq_iff_iff, Ports.withoutAll_attached]
  constructor
  · rintro ⟨attached, absent⟩
    exact (covered.listed port attached).resolve_right absent
  · intro before
    refine ⟨covered.kept port before, ?_⟩
    rintro ⟨inside, below⟩
    rw [covered.fresh port inside below] at before
    cases before

/-- One more entry, with a port that was not attached. -/
theorem Covered.entry {base ports ports' : Ports} {entries : List (Option Nat)}
    {entry : Option Nat} (covered : Covered settings base entries ports)
    (absent : ∀ port, entry = some port → port < settings.maxRelays → ports.attached port = false)
    (kept : ∀ port, ports.attached port = true → ports'.attached port = true)
    (listed : ∀ port, ports'.attached port = true →
      ports.attached port = true ∨ entry = some port ∧ port < settings.maxRelays)
    (bonds : ports'.bonds = ports.bonds)
    : Covered settings base (entries ++ [entry]) ports' where
  kept port before := kept port (covered.kept port before)
  listed port attached := by
    rcases listed port attached with before | ⟨rfl, below⟩
    · refine (covered.listed port before).imp_right ?_
      rintro ⟨inside, below⟩
      exact ⟨List.mem_append_left _ inside, below⟩
    · exact Or.inr ⟨List.mem_append_right _ (List.mem_singleton.mpr rfl), below⟩
  fresh port inside below := by
    rcases List.mem_append.mp inside with earlier | last
    · exact covered.fresh port earlier below
    · cases before : base.attached port with
      | false => rfl
      | true =>
          have attached := covered.kept port before
          rw [absent port (List.mem_singleton.mp last).symm below] at attached
          cases attached
  bonds := bonds.trans covered.bonds

/-- What the loop over the slaves leaves. -/
def SlavesLeave (settings : Settings) (base : Ports) (bond : Nat) (failed : Prop)
    (result : Bool × List (Option Nat)) (record : PortRecord)
    : Prop :=
  Covered settings base result.2 record.ports
  ∧ (result.1 = true → record.At record.ports failed
      ∧ Joined settings bond result.2 record.ports)
  ∧ (result.1 = false → record.failed = true)

/-- One more slave, with a port that `init_vf` has attached. -/
theorem Covered.attached_entry {base ports ports' : Ports} {entries : List (Option Nat)}
    {port : Nat} (covered : Covered settings base entries ports)
    (below : port < settings.maxRelays) (fresh : ports.attached port = false)
    (attached : ports'.attached = (ports.attach port).attached)
    (bonds : ports'.bonds = ports.bonds)
    : Covered settings base (entries ++ [some port]) ports' := by
  refine covered.entry ?_ ?_ ?_ bonds
  · rintro other same _
    cases Option.some.inj same
    exact fresh
  · intro other before
    rw [attached]
    rcases eq_or_ne other port with rfl | away
    · exact Function.update_self ..
    · exact (Function.update_of_ne away ..).trans before
  · intro other now
    rw [attached] at now
    rcases eq_or_ne other port with rfl | away
    · exact Or.inr ⟨rfl, below⟩
    · exact Or.inl ((Function.update_of_ne away ..).symm.trans now)

/-- One more slave, for which no port was found. -/
theorem Covered.stray_entry {base ports ports' : Ports} {entries : List (Option Nat)}
    (covered : Covered settings base entries ports)
    (attached : ports'.attached = ports.attached) (bonds : ports'.bonds = ports.bonds)
    : Covered settings base (entries ++ [some settings.maxRelays]) ports' := by
  refine covered.entry ?_ (fun other before => attached ▸ before)
    (fun other now => Or.inl (attached ▸ now)) bonds
  rintro other same below
  cases Option.some.inj same
  exact absurd below (Nat.lt_irrefl _)

theorem DriverCall.portsAfter_slaveAdd (settings : Settings) (bond port : Nat) (answer : Int) (ports : Ports)
    : ((DriverCall.bondSlaveAdd bond port).portsAfter settings answer ports).attached
        = ports.attached
      ∧ ((DriverCall.bondSlaveAdd bond port).portsAfter settings answer ports).bonds
        = ports.bonds := by
  simp only [DriverCall.portsAfter]
  split
  · exact ⟨rfl, rfl⟩
  · exact ⟨rfl, rfl⟩

/-- A slave that was set up joins the bond, or it is astray. -/
theorem Joined.entry {bond port : Nat} {entries : List (Option Nat)} {ports known : Ports}
    (joined : Joined settings bond entries ports)
    (same : known.stray = false → port < settings.maxRelays
      ∧ ports.stray = false ∧ known.members = ports.members)
    (answer : Int)
    : Joined settings bond (entries ++ [some port])
        ((DriverCall.bondSlaveAdd bond port).portsAfter settings answer known) := by
  intro together
  simp only [DriverCall.portsAfter] at together ⊢
  split at together
  · rename_i accepted
    obtain ⟨below, before, members⟩ := same together
    obtain ⟨entered, inRange⟩ := joined before
    have now : (known.setMembers bond (known.members bond ++ [port])).members bond
        = ports.members bond ++ [port] := by
      simp [Ports.setMembers, members]
    rw [if_pos accepted, now]
    refine ⟨by rw [entered, List.map_append]; rfl, ?_⟩
    intro other inside
    rcases List.mem_append.mp inside with earlier | last
    · exact inRange other earlier
    · rw [List.mem_singleton.mp last]
      exact below
  · cases together

theorem addSlaves_leaves {bond : Nat} {base : Ports} (tending : Tending P)
    (slaves : List (List Char))
    : ∀ (entries : List (Option Nat)) (ports : Ports) (state : World × PortRecord),
        Covered settings base entries ports → Joined settings bond entries ports →
        P (state.1.relays id) ∧ state.2.At ports failed →
        wp (portAccesses settings id) (portContract settings)
          (addSlaves settings id bond entries slaves)
          (fun result s => P (s.1.relays id) ∧ SlavesLeave settings base bond failed result s.2)
          state := by
  induction slaves with
  | nil =>
      rintro entries ports state covered joined ⟨held, rfl, still⟩
      exact ⟨held, covered, fun _ => ⟨⟨rfl, still⟩, joined⟩, fun unfinished => by
        cases unfinished⟩
  | cons slave slaves hind =>
      intro entries ports state covered joined h
      refine wp.bind ((initVf_leaves tending h).mono fun result s outcome => ?_)
      obtain ⟨held, leaves⟩ := outcome
      cases result with
      | error failure =>
          obtain ⟨err, entry⟩ := failure
          obtain ⟨⟨rfl, still⟩, absent⟩ := leaves
          refine ⟨held, ?_, fun finished => absurd finished Bool.false_ne_true,
            fun _ => still trivial⟩
          refine covered.entry (fun port same _ => (absent port same).2) (fun _ same => same)
            (fun _ same => Or.inl same) rfl
      | ok port =>
          -- the slave has a new port or none, and it joins the bond or not
          obtain ⟨known, here, next⟩ : ∃ known : Ports, s.2.At known failed ∧ ∀ answer,
              Covered settings base (entries ++ [some port])
                ((DriverCall.bondSlaveAdd bond port).portsAfter settings answer known)
              ∧ Joined settings bond (entries ++ [some port])
                ((DriverCall.bondSlaveAdd bond port).portsAfter settings answer known) := by
            rcases leaves with ⟨below, fresh, here⟩ | ⟨rfl, here⟩
            · refine ⟨_, here, fun answer => ⟨?_, joined.entry (fun kept => ?_) answer⟩⟩
              · have after := DriverCall.portsAfter_slaveAdd settings bond port answer
                  (ports.attach port)
                exact covered.attached_entry below fresh after.1 after.2
              · exact ⟨below, kept, rfl⟩
            · refine ⟨_, here, fun answer => ⟨?_, joined.entry (fun kept => ?_) answer⟩⟩
              · have after := DriverCall.portsAfter_slaveAdd settings bond settings.maxRelays answer
                  ports.lose
                exact covered.stray_entry after.1 after.2
              · cases kept
          refine wp_ports_call_bind (fun _ => True) tending ⟨held, here⟩
            (fun _ _ _ _ _ => trivial) ?_
          rintro answer s ⟨held, here, -⟩
          exact hind _ _ s (next answer).1 (next answer).2 ⟨held, here⟩

end Slaves

-----------------------------------------------------------------------------------------
-- A bond
-----------------------------------------------------------------------------------------

theorem slaveInUse_portless (slaves : List (List Char))
    : (slaveInUse slaves).All Instr.Portless fun _ => True := by
  induction slaves with
  | nil => trivial
  | cons slave slaves hind =>
      refine .bind (.perform trivial) fun answer => ?_
      split
      · trivial
      · exact hind

theorem reconfigureVf_portless (id port : Nat)
    : (reconfigureVf id port).All Instr.Portless fun _ => True := by
  have tx : (setupTxQueue id port).All Instr.Portless fun _ => True :=
    .bind (.perform trivial) fun _ => .perform trivial
  have rx : (setupRxQueue id port).All Instr.Portless fun _ => True :=
    .bind (.perform trivial) fun _ => .bind (.perform trivial) fun _ => .perform trivial
  refine .bind (.perform trivial) fun err => ?_
  split
  · trivial
  · refine .bind tx fun err => ?_
    split
    · exact .bind (.perform trivial) fun _ => trivial
    · refine .bind rx fun err => ?_
      split
      · exact .bind (.perform trivial) fun _ => trivial
      · trivial

theorem migrateMempool_portless (id : Nat) (newnode : Int) (size : Nat)
    : (migrateMempool id newnode size).All Instr.Portless fun _ => True := by
  have stops (port : Nat) : (stopAddedVf id port).All Instr.Portless fun _ => True := by
    refine .bind (.perform trivial) fun relay => ?_
    split
    · exact .bind (.perform trivial) fun _ => trivial
    · trivial
  have frees : (freeOldPool id).All Instr.Portless fun _ => True := by
    refine .bind (.perform trivial) fun relay => ?_
    dsimp only
    split
    · exact .bind (.perform trivial) fun _ => trivial
    · trivial
  refine .bind (.perform trivial) fun relay => .bind (.perform trivial) fun pool => ?_
  cases pool with
  | none => trivial
  | some pool =>
      refine .bind (.perform trivial) fun relay' => ?_
      split
      · trivial
      · refine .bind (.perform trivial) fun relay' => ?_
        split
        · trivial
        · refine .bind (stops _) fun _ => .bind frees fun _ => .bind (.perform trivial) fun _ =>
            .bind (.perform trivial) fun _ => .bind (.perform trivial) fun relay' => ?_
          split
          · exact reconfigureVf_portless ..
          · trivial

section Bond

variable {settings : Settings} {id : Nat} {P : Relay → Prop} {state : World × PortRecord}
  {ports : Ports} {failed : Prop} {name : List Char} {port : Nat}

/-- A bond that is freed under its name is detached. -/
theorem bondFree_detaches {known : Ports} (tending : Tending P)
    (bond : known.bonds name = some port)
    (h : P (state.1.relays id) ∧ state.2.At known failed)
    : wp (portAccesses settings id) (portContract settings) (drive (.bondFree name))
        (fun err s => P (s.1.relays id)
          ∧ s.2.ports.attached = Function.update known.attached port false ∧ err = 0) state := by
  have known_name : (known.bonds name).isSome = true := by
    rw [bond]
    rfl
  refine wp.mono (wp_ports_call (fun answer => answer = 0) tending h
    fun _ _ here sure _ => sure (here.1 ▸ known_name)) ?_
  rintro answer s ⟨held, here, rfl⟩
  refine ⟨held, ?_, rfl⟩
  rw [here.1]
  simp [DriverCall.portsAfter, Ports.freeBond, bond, Ports.detach]

theorem Ports.update_createBond (fresh : ports.attached port = false)
    : Function.update (ports.createBond name port).attached port false = ports.attached := by
  simp only [Ports.createBond, Ports.attach, Function.update_idem]
  exact Function.update_eq_self_iff.mpr fresh.symm

theorem Covered.bond {entries : List (Option Nat)} {known : Ports}
    (covered : Covered settings (ports.createBond name port) entries known)
    : (known.withoutAll settings entries).bonds name = some port := by
  rw [Ports.withoutAll_bonds, covered.bonds]
  exact Function.update_self ..

/-- The error path of a bond detaches the slaves and the bond. -/
theorem deconfigureBond_detaches {entries : List (Option Nat)} {known : Ports} {rc : Int}
    (tending : Tending P) (fresh : ports.attached port = false)
    (covered : Covered settings (ports.createBond name port) entries known)
    (h : P (state.1.relays id) ∧ state.2.At known failed) (torn : entries = [] ∨ failed)
    : wp (portAccesses settings id) (portContract settings) (deconfigureBond name entries rc)
        (fun err s => err = rc ∧ s.2.ports.attached = ports.attached) state := by
  have cleaned : wp (portAccesses settings id) (portContract settings) (cleanupSlaves entries)
      (fun _ s => P (s.1.relays id) ∧ s.2.At (known.withoutAll settings entries) failed) state := by
    rcases torn with rfl | given
    · exact h
    · exact (cleanupSlaves_detaches tending entries known state
        ⟨h.1, h.2.weaken fun _ => given⟩).mono
        fun _ s held => ⟨held.1, held.2.weaken fun _ => trivial⟩
  refine wp.bind (cleaned.mono fun _ s held => ?_)
  refine wp.bind ((bondFree_detaches tending covered.bond held).mono fun _ s outcome => ?_)
  refine ⟨rfl, ?_⟩
  rw [outcome.2.1, covered.withoutAll]
  exact Ports.update_createBond fresh

/-- A bond that was added is known under its name, and the ports that are attached with it are
the entries of the array.
-/
def BondAdded (settings : Settings) (ports : Ports) (name : List Char) (relay : Relay)
    (record : PortRecord)
    : Prop :=
  relay.dpdk.dpdkPort < settings.maxRelays
  ∧ ports.attached relay.dpdk.dpdkPort = false
  ∧ ∃ entries,
      Covered settings (ports.createBond name relay.dpdk.dpdkPort) entries record.ports
      ∧ Joined settings relay.dpdk.dpdkPort entries record.ports

theorem Covered.append_none {base known : Ports} {entries : List (Option Nat)}
    (covered : Covered settings base entries known) (missing : Nat)
    : Covered settings base (entries ++ List.replicate missing none) known := by
  have same (port : Nat) : some port ∈ entries ++ List.replicate missing none
      ↔ some port ∈ entries := by
    simp [List.mem_append, List.mem_replicate]
  refine ⟨covered.kept, ?_, ?_, covered.bonds⟩
  · intro port attached
    rw [same]
    exact covered.listed port attached
  · intro port inside
    exact covered.fresh port ((same port).mp inside)

/-- An error path of `bond_add` leaves the ports as they were. -/
theorem deconfigureBond_leaves {entries : List (Option Nat)} {known : Ports} {rc : Int}
    (nonzero : rc ≠ 0) (fresh : ports.attached port = false)
    (covered : Covered settings (ports.createBond name port) entries known)
    (here : state.2.At known failed) (torn : entries = [] ∨ failed)
    : wp (portAccesses settings id) (portContract settings) (deconfigureBond name entries rc)
        (fun err s => (err ≠ 0 → s.2.ports.attached = ports.attached)
          ∧ (err = 0 → BondAdded settings ports name (s.1.relays id) s.2)) state := by
  refine (deconfigureBond_detaches tending_true fresh covered ⟨trivial, here⟩ torn).mono ?_
  rintro err s ⟨rfl, back⟩
  exact ⟨fun _ => back, fun zero => absurd zero nonzero⟩

/-- A bond is created with a port of its own, without slaves, or it is not created. -/
theorem wp_bondCreate_bind {β : Type} {next : Int → Control β} {node : Int}
    {post : β → World × PortRecord → Prop} (tending : Tending P)
    (h : P (state.1.relays id) ∧ state.2.At ports failed)
    (refused : ∀ answer s, answer < 0 → P (s.1.relays id) ∧ s.2.At ports failed
      → wp (portAccesses settings id) (portContract settings) (next answer) post s)
    (created : ∀ (port : Nat) s, port < settings.maxRelays → ports.attached port = false
      → P (s.1.relays id) ∧ s.2.At (ports.createBond name port) failed
      → wp (portAccesses settings id) (portContract settings) (next port) post s)
    : wp (portAccesses settings id) (portContract settings)
        (drive (.bondCreate name node) >>= next) post state := by
  refine wp_ports_call_bind (fun answer => 0 ≤ answer → answer < settings.maxRelays
    ∧ ports.attached answer.toNat = false) tending h ?_ ?_
  · rintro answer record ⟨rfl, _⟩ assumed _
    exact assumed
  · rintro answer s ⟨held, here, new⟩
    by_cases positive : 0 ≤ answer
    · simp only [DriverCall.portsAfter, if_pos positive] at here
      obtain ⟨port, rfl⟩ := Int.eq_ofNat_of_zero_le positive
      obtain ⟨below, fresh⟩ := new positive
      exact created port s (by omega) fresh ⟨held, here⟩
    · simp only [DriverCall.portsAfter, if_neg positive] at here
      exact refused answer s (by omega) ⟨held, here⟩

theorem Covered.created (settings : Settings) (ports : Ports) (name : List Char) (port : Nat)
    : Covered settings (ports.createBond name port) [] (ports.createBond name port) :=
  ⟨fun _ same => same, fun _ same => Or.inl same, fun _ member => absurd member List.not_mem_nil,
    rfl⟩

theorem Joined.created (settings : Settings) (ports : Ports) (name : List Char) (port : Nat)
    : Joined settings port [] (ports.createBond name port) := by
  intro _
  simp [Ports.createBond]

/-- `bond_add` attaches a bond with its slaves, or leaves the ports as they were. -/
theorem bondAdd_ports {slaves : List (List Char)}
    (h : (state.1.relays id).dpdk.state = .uninit ∧ state.2.At ports failed)
    : wp (portAccesses settings id) (portContract settings) (bondAdd settings slaves name id)
        (fun err s => (err ≠ 0 → s.2.ports.attached = ports.attached)
          ∧ (err = 0 → BondAdded settings ports name (s.1.relays id) s.2)) state := by
  have unchanged {s : World × PortRecord} {err : Int} (nonzero : err ≠ 0) (here : s.2.At ports failed)
      : (err ≠ 0 → s.2.ports.attached = ports.attached)
        ∧ (err = 0 → BondAdded settings ports name (s.1.relays id) s.2) :=
    ⟨fun _ => congrArg Ports.attached here.1, fun zero => absurd zero nonzero⟩
  unfold bondAdd
  split
  · exact unchanged (by decide) h.2
  · refine wp_ports_see_bind tending_uninit h fun s held => ?_
    rw [if_neg (not_not.mpr held.1)]
    refine wp_ports_see_bind tending_uninit held fun s held => ?_
    refine wp_bondCreate_bind tending_uninit held ?_ ?_
    · intro answer s negative held
      rw [if_pos negative]
      exact unchanged (by decide) held.2
    · intro port s below fresh held
      rw [if_neg (by omega)]
      obtain ⟨-, here⟩ := held
      have fit := settings.relaysFit
      have same : ((port : Int).toNat) % 2 ^ 16 = port := Nat.mod_eq_of_lt (by omega)
      dsimp only
      rw [same]
      have empty := Covered.created settings ports name port
      refine wp.bind ((wp_portless (slaveInUse_portless slaves) here).mono fun used s here => ?_)
      split
      · exact deconfigureBond_leaves (by decide) fresh empty here (Or.inl rfl)
      · refine wp.bind ((wp_portless (migrateMempool_portless ..) here).mono fun _ s here => ?_)
        refine wp.bind ((devQueueConfigure_gives_up tending_true ⟨trivial, here⟩).mono
          fun err s held => ?_)
        split
        · exact deconfigureBond_leaves (by decide) fresh empty held.2 (Or.inl rfl)
        · have going : True ∧ s.2.At (ports.createBond name port) failed :=
            ⟨trivial, held.2.weaken Or.inl⟩
          refine wp.bind ((addSlaves_leaves tending_true slaves [] _ s empty
            (Joined.created settings ports name port) going).mono fun result s outcome => ?_)
          obtain ⟨added, entries⟩ := result
          obtain ⟨-, covered, all, failure⟩ := outcome
          have padded := covered.append_none (slaves.length - entries.length)
          dsimp only
          split
          · rename_i unfinished
            have given : s.2.failed = true := failure (by simpa using unfinished)
            have torn : s.2.At s.2.ports True := ⟨rfl, fun _ => given⟩
            exact deconfigureBond_leaves (by decide) fresh padded torn (Or.inr trivial)
          · rename_i finished
            obtain ⟨here, joined⟩ := all (by simpa using finished)
            refine wp.bind (((wp_without_ports configureDevWithVirtio_port).and
              (configureDevWithVirtio_gives_up here)).mono fun err s' outcome => ?_)
            obtain ⟨there, held⟩ := outcome
            split
            · rename_i refused
              have torn := held.weaken fun _ : True => Or.inr refused
              exact deconfigureBond_leaves (by decide) fresh padded torn (Or.inr trivial)
            · rename_i accepted
              have home := there (not_not.mp accepted)
              refine ⟨fun nonzero => absurd rfl nonzero, fun _ => ?_⟩
              refine ⟨home ▸ below, home ▸ fresh, entries, ?_, ?_⟩
              · rw [home, held.1]
                exact covered
              · rw [home, held.1]
                exact joined

end Bond

-----------------------------------------------------------------------------------------
-- Removing a device
-----------------------------------------------------------------------------------------

section Removing

variable {settings : Settings} {id : Nat} {β : Type} {P : Relay → Prop}
  {state : World × PortRecord} {ports : Ports} {failed : Prop}

/-- Go on after an assignment that keeps what is known of the relay. -/
theorem wp_ports_set_bind {write : Write} {next : Unit → Control β}
    {post : β → World × PortRecord → Prop} (tending : Tending P)
    (h : P (state.1.relays id) ∧ state.2.At ports failed)
    (step : ∀ relay, P relay → P (write.apply relay))
    (rest : ∀ s, P (s.1.relays id) ∧ s.2.At ports failed
      → wp (portAccesses settings id) (portContract settings) (next ()) post s)
    : wp (portAccesses settings id) (portContract settings) (assign write >>= next) post state := by
  have assigned : wp (accesses id) (soloContract (fun _ _ _ => True) fun _ => True) (assign write)
      (fun _ s => P (s.relays id)) state.1 := by
    refine wp_assign tending.stable h.1 fun s _ _ held _ => ⟨trivial, trivial, ?_⟩
    rw [World.relays_modifyRelay_self]
    exact step _ held
  exact wp.bind (((wp_without_ports assigned).and (wp_portless (.perform trivial) h.2)).mono
    fun _ s held => rest s held)

theorem waitReleased_portless (field : Field) (released : Relay → Bool) (polls : Nat)
    : (waitReleased id field released polls).All Instr.Portless fun _ => True := by
  induction polls with
  | zero => exact .bind (.perform trivial) fun _ => trivial
  | succ polls hind =>
      refine .bind (.perform trivial) fun relay => ?_
      split
      · trivial
      · exact hind

/-- The workers answer, so the handshake succeeds. -/
theorem stopVm2vfThread_succeeds (tending : Tending P)
    (anyState : ∀ state relay, P relay → P ((Write.dpdkState state).apply relay))
    (h : P (state.1.relays id) ∧ state.2.At ports failed)
    : wp (portAccesses settings id) (portContract settings) (stopVm2vfThread id)
        (fun err s => (P (s.1.relays id) ∧ s.2.At ports failed) ∧ err = 0) state := by
  refine wp_ports_see_bind tending h fun s held => ?_
  split
  · exact ⟨held, rfl⟩
  · refine wp_ports_set_bind tending held (anyState _) fun s held => ?_
    refine wp_ports_keep_bind tending held (waitReleased_sparing ..) (waitReleased_portless ..)
      fun _ s held => ?_
    refine wp_ports_see_bind tending held fun s held => ?_
    split
    · exact ⟨held, rfl⟩
    · refine wp.bind (wp.perform (ports_stable tending _) held fun s answer _ _ admitted => ?_)
      exact absurd admitted.1 not_false

/-- The array of slaves is filled with the first slaves of the bond. -/
theorem bondSlaves_lists {port : Nat} (tending : Tending P)
    : ∀ (count : Nat) (state : World × PortRecord),
        count ≤ (ports.members port).length →
        P (state.1.relays id) ∧ state.2.At ports failed →
        wp (portAccesses settings id) (portContract settings) (bondSlaves port count)
          (fun slaves s => (P (s.1.relays id) ∧ s.2.At ports failed)
            ∧ slaves = (ports.members port).take count) state := by
  intro count
  induction count with
  | zero => exact fun state _ h => ⟨h, rfl⟩
  | succ count hind =>
      intro state enough h
      refine wp.bind ((hind state (by omega) h).mono fun slaves s outcome => ?_)
      obtain ⟨held, rfl⟩ := outcome
      have inside : count < (ports.members port).length := by omega
      refine wp_ports_told_bind (fun answer => answer = (ports.members port)[count]) tending held
        trivial ?_ ?_
      · rintro answer record ⟨rfl, _⟩ assumed _
        exact assumed _ (List.getElem?_eq_getElem inside)
      · rintro answer s ⟨held, here, rfl⟩
        refine ⟨⟨held, here⟩, ?_⟩
        rw [Int.toNat_natCast, List.take_succ_eq_append_getElem inside]

/-- Slaves that leave their bond stay attached. -/
theorem removeSlaves_keeps {port : Nat} (tending : Tending P) (slaves : List Nat)
    : ∀ (known : Ports) (state : World × PortRecord),
        P (state.1.relays id) ∧ state.2.At known failed →
        wp (portAccesses settings id) (portContract settings) (removeSlaves port slaves)
          (fun _ s => P (s.1.relays id)
            ∧ ∃ members, s.2.At { known with members := members } failed) state := by
  induction slaves with
  | nil => exact fun known state h => ⟨h.1, known.members, h.2⟩
  | cons slave slaves hind =>
      intro known state h
      refine wp_ports_call_bind (fun answer => answer = 0) tending h
        (fun _ _ _ assumed _ => assumed) ?_
      rintro answer s ⟨held, here, rfl⟩
      exact hind (known.setMembers port ((known.members port).erase slave)) s ⟨held, here⟩

/-- What is known of the relay of a device that was added. -/
structure Relay.Holds (relay : Relay) (port : Nat) (isBond : Bool) (name : List Char) : Prop where
  dpdkPort : relay.dpdk.dpdkPort = port
  isBond : relay.dpdk.isBond = isBond
  pciDbdf : relay.dpdk.pciDbdf = name

theorem tending_holds (port : Nat) (isBond : Bool) (name : List Char)
    : Tending fun relay => relay.Holds port isBond name :=
  fun _ _ tended held => ⟨tended.dpdkPort.trans held.dpdkPort, tended.isBond.trans held.isBond,
    tended.pciDbdf.trans held.pciDbdf⟩

/-- A VF is given back with its port. -/
theorem releaseDevice_vf {port : Nat} {name : List Char} (below : port < settings.maxRelays)
    (fresh : ports.attached port = false)
    (h : (state.1.relays id).Holds port false name ∧ state.2.At (ports.attach port) True)
    : wp (portAccesses settings id) (portContract settings) (releaseDevice id port)
        (fun err s => err = 0 ∧ s.2.ports.attached = ports.attached) state := by
  have tending := tending_holds port false name
  refine wp_ports_see_bind tending h fun s held => ?_
  rw [if_neg (by simp [held.1.isBond])]
  refine (cleanupEthDev_detaches port tending held).mono fun err s outcome => ?_
  obtain ⟨⟨_, here⟩, zero⟩ := outcome
  have attached : (ports.attach port).attached port = true := Function.update_self ..
  refine ⟨zero attached below, ?_⟩
  rw [here.1, Ports.without, if_pos below, Ports.detach_attach fresh]

/-- A bond is given back with its slaves. -/
theorem releaseDevice_bond {port : Nat} {name : List Char} {entries : List (Option Nat)}
    {known : Ports} (fresh : ports.attached port = false)
    (covered : Covered settings (ports.createBond name port) entries known)
    (joined : Joined settings port entries known) (together : known.stray = false)
    (h : (state.1.relays id).Holds port true name ∧ state.2.At known True)
    : wp (portAccesses settings id) (portContract settings) (releaseDevice id port)
        (fun err s => err = 0 ∧ s.2.ports.attached = ports.attached) state := by
  have tending := tending_holds port true name
  have attached : known.attached port = true :=
    covered.kept port (Function.update_self ..)
  obtain ⟨listed, -⟩ := joined together
  have detached (s : World × PortRecord)
      (held : (s.1.relays id).Holds port true name ∧ s.2.At known True)
      : wp (portAccesses settings id) (portContract settings) (detachSlaves id)
          (fun _ s => (s.1.relays id).Holds port true name
            ∧ ∃ members, s.2.At
                (({ known with members := members } : Ports).withoutAll settings entries) True)
          s := by
    refine wp_ports_see_bind tending held fun s held => ?_
    rw [if_neg (by simp [held.1.isBond]), held.1.dpdkPort]
    refine wp_ports_told_bind (fun answer => answer = (known.members port).length) tending held
      trivial ?_ ?_
    · rintro answer record ⟨rfl, _⟩ assumed _
      exact assumed attached
    · rintro answer s ⟨held, here, rfl⟩
      rw [if_neg (by omega), Int.toNat_natCast]
      refine wp.bind ((bondSlaves_lists tending _ s (Nat.le_refl _) ⟨held, here⟩).mono
        fun slaves s outcome => ?_)
      obtain ⟨held, rfl⟩ := outcome
      rw [List.take_length]
      refine wp.bind ((removeSlaves_keeps tending _ known s held).mono fun _ s outcome => ?_)
      obtain ⟨held, members, here⟩ := outcome
      rw [← listed]
      exact wp.bind ((cleanupSlaves_detaches tending entries _ s ⟨held, here⟩).mono
        fun _ s held => ⟨held.1, members, held.2⟩)
  refine wp_ports_see_bind tending h fun s held => ?_
  rw [if_pos held.1.isBond, held.1.pciDbdf]
  refine wp.bind ((detached s held).mono fun _ s outcome => ?_)
  obtain ⟨held, members, here⟩ := outcome
  have covered : Covered settings (ports.createBond name port) entries
      { known with members := members } :=
    ⟨covered.kept, covered.listed, covered.fresh, covered.bonds⟩
  refine wp_ports_keep_bind tending ⟨held, here⟩ (.perform trivial) (.perform trivial)
    fun _ s held => ?_
  refine wp_ports_keep_bind tending held (.perform trivial) (.perform trivial) fun _ s held => ?_
  refine (bondFree_detaches tending covered.bond held).mono fun err s outcome => ?_
  refine ⟨outcome.2.2, ?_⟩
  rw [outcome.2.1, covered.withoutAll]
  exact Ports.update_createBond fresh

/-- `detach_device` succeeds, and the ports are those after the release of the device. -/
theorem detachDevice_releases {port : Nat} {isBond : Bool} {name : List Char} {known : Ports}
    {attached : Nat → Bool}
    (release : ∀ s : World × PortRecord,
      (s.1.relays id).Holds port isBond name ∧ s.2.At known True
      → wp (portAccesses settings id) (portContract settings) (releaseDevice id port)
          (fun err s => err = 0 ∧ s.2.ports.attached = attached) s)
    (h : (state.1.relays id).Holds port isBond name ∧ state.2.At known True)
    : wp (portAccesses settings id) (portContract settings) (detachDevice id)
        (fun err s => err = 0 ∧ s.2.ports.attached = attached) state := by
  have tending := tending_holds port isBond name
  refine wp_ports_see_bind tending h fun s held => ?_
  rw [held.1.dpdkPort]
  refine wp.bind ((stopVm2vfThread_succeeds tending
    (fun _ _ held => ⟨held.dpdkPort, held.isBond, held.pciDbdf⟩) held).mono fun err s outcome => ?_)
  obtain ⟨held, rfl⟩ := outcome
  rw [if_neg (not_not.mpr rfl)]
  refine wp_ports_see_bind tending held fun s held => ?_
  refine wp_ports_set_bind tending held
    (fun _ held => ⟨held.dpdkPort, held.isBond, held.pciDbdf⟩) fun s held => ?_
  refine wp_ports_keep_bind tending held (flagWorker_sparing _) (flagWorker_portless _)
    fun _ s held => ?_
  refine wp.bind ((release s held).mono fun err s outcome => ?_)
  obtain ⟨rfl, same⟩ := outcome
  rw [if_neg (not_not.mpr rfl)]
  have here : s.2.At s.2.ports False := ⟨rfl, nofun⟩
  have freeing : (freePoolUnlessConnected id).All Instr.Portless fun _ => True := by
    refine .bind (.perform trivial) fun relay => ?_
    split
    · exact .bind (.perform trivial) fun _ => .bind (.perform trivial) fun _ => .perform trivial
    · trivial
  have clearing (write : Write) : (assign write).All Instr.Portless fun _ => True :=
    .perform trivial
  refine wp.bind ((wp_portless (clearing _) here).mono fun _ s here => ?_)
  refine wp.bind ((wp_portless (clearing _) here).mono fun _ s here => ?_)
  refine wp.bind ((wp_portless (clearing _) here).mono fun _ s here => ?_)
  refine wp.bind ((wp_portless (clearing _) here).mono fun _ s here => ?_)
  refine wp.bind ((wp_portless freeing here).mono fun _ s here => ?_)
  exact ⟨rfl, here.1 ▸ same⟩

/-- `remove_vf2` under the name of the device clears the relay, and the ports are those after the
release of the device.
-/
theorem removeVf2_takes_back {port : Nat} {isBond conditional : Bool} {name : List Char}
    {known : Ports} {attached : Nat → Bool} (below : id < settings.maxRelays)
    (release : ∀ s : World × PortRecord,
      (s.1.relays id).Holds port isBond name ∧ s.2.At known True
      → wp (portAccesses settings id) (portContract settings) (releaseDevice id port)
          (fun err s => err = 0 ∧ s.2.ports.attached = attached) s)
    (tidy : (state.1.relays id).Tidy) (active : (state.1.relays id).Active)
    (h : (state.1.relays id).Holds port isBond name ∧ state.2.At known True)
    : wp (portAccesses settings id) (portContract settings) (removeVf2 settings name id conditional)
        (fun _ s => (s.1.relays id).Restored ∧ s.2.ports.attached = attached) state := by
  have released : wp (portAccesses settings id) (portContract settings)
      (removeVf2 settings name id conditional)
      (fun err s => err = 0 ∧ s.2.ports.attached = attached) state := by
    have tending := (tending_holds port isBond name).and tending_active
    have asking : (vfActive id).All Instr.Portless fun _ => True := by
      refine .bind (.perform trivial) fun relay => ?_
      split
      · trivial
      · exact .bind (.perform trivial) fun _ => trivial
    unfold removeVf2
    rw [if_neg (not_le.mpr below)]
    refine wp.bind (((wp_without_ports (vfActive_tells tending ⟨h.1, active⟩)).and
      (wp_portless asking h.2)).mono fun found s outcome => ?_)
    obtain ⟨⟨held, found⟩, here⟩ := outcome
    rw [if_pos (found.mpr held.2)]
    refine wp_ports_see_bind tending ⟨held, here⟩ fun s held => ?_
    rw [if_pos held.1.1.pciDbdf.symm]
    exact detachDevice_releases release ⟨held.1.1, held.2⟩
  refine ((wp_without_ports (removeVf2_detaches below tidy active h.1.pciDbdf)).and
    released).mono fun err s outcome => ?_
  obtain ⟨⟨_, _, restored, _⟩, zero, same⟩ := outcome
  exact ⟨restored zero, same⟩

end Removing

end VirtioForwarder
