import VirtioForwarder.Control.PortRollback
import VirtioForwarder.Sockets.OneToOne

/-! An addition of a pair that fails leaves no trace, if each device has a port of its own and, in
case that the socket cannot be registered, the device is found again under its name.
-/

namespace VirtioForwarder

open Program

/-- The record of an access of a pair operation. A registration that is refused makes the
operation give up.
-/
def recordAdd (settings : Settings) (_ : PairOp) (i : SockInstr) (answer : Int) (daemon : Daemon)
    (record : PortRecord)
    : PortRecord :=
  match i with
  | .control _ access => recordPorts settings access answer daemon.world record
  | .vhost call => ⟨record.ports, record.failed || decide (call.Refuses answer)⟩
  | _ => record

/-- The pair operations with the record of the ports. -/
def addSystem (settings : Settings) (conf : SocketConf)
    : System PairOp SockInstr Int Daemon SockFault (Daemon × PortRecord) Event Int :=
  (pairSystem settings conf).recorded (recordAdd settings)

/-- A configuration of one thread of pair operations with the record. -/
abbrev AddConfig := Config Unit PairOp SockInstr Int Daemon SockFault (Daemon × PortRecord) Int

/-- The daemon and the ports before a call: no step of the call has failed. -/
def beginning (daemon : Daemon) (ports : Ports) : Daemon × PortRecord :=
  (daemon, ⟨{ ports with stray := false }, false⟩)

/-- The addition of a pair begins. -/
def adding (settings : Settings) (conf : SocketConf) (daemon : Daemon) (ports : Ports)
    (vhostPath : Option (List Char)) (slaves : List (List Char)) (name : Option (List Char))
    (conditional : Bool) : AddConfig :=
  ⟨beginning daemon ports, fun _ =>
    (.add vhostPath slaves name conditional,
      virtioAddSockDevPair settings conf vhostPath slaves name conditional)⟩

/-- A single call. The teardown driver calls succeed and the workers answer the removal
handshake; DPDK otherwise answers as it likes.
-/
def teardownSucceeds (settings : Settings) : Policy Unit PairOp SockInstr Int (Daemon × PortRecord)
    where
  instr _ i answer s :=
    match i with
    | .control _ access => access.Assumed settings s.2 answer
    | _ => True
  call _ _ _ := False

/-- The device can be taken back: it is known under its whole name, no slave of it is astray, and
the relay that came into use for it had nothing of an earlier device.
-/
def Reversible (settings : Settings) (before : Daemon) (dev : List Char) (s : Daemon × PortRecord)
    : Prop :=
  s.2.ports.stray = false
  ∧ dev.length ≤ 19
  ∧ ∀ id < settings.maxRelays, (s.1.world.relays id).Active → ¬ (before.world.relays id).Active
      → (before.world.relays id).Restored

/-- Moreover, the ports are new that are found for the devices, what happens to be in the array of
slave ports is not an attached port, and a device whose socket is refused can be taken back.
-/
def reversibleAdds (settings : Settings) (before : Daemon)
    : Policy Unit PairOp SockInstr Int (Daemon × PortRecord) where
  instr op i answer s :=
    (teardownSucceeds settings).instr op i answer s
    ∧ match op, i with
      | _, .control _ access => access.Prudent settings s.2 answer
      | .add _ slaves name _, .vhost call =>
          call.Refuses answer → Reversible settings before ((pairDevice slaves name).getD []) s
      | _, _ => True
  call _ _ _ := False

/-- The device of a relay is what it was. -/
structure Relay.SameDevice (before after : Relay) : Prop where
  dpdkState : after.dpdk.state = before.dpdk.state
  pciDbdf : after.dpdk.pciDbdf = before.dpdk.pciDbdf
  isBond : after.dpdk.isBond = before.dpdk.isBond
  numSlaves : after.dpdk.numSlaves = before.dpdk.numSlaves
  vf2vioCpu : after.dpdk.vf2vioCpu = before.dpdk.vf2vioCpu

/-- The sockets, the attached ports and the devices of all relays are what they were. -/
structure NoTrace (before : Daemon) (ports : Ports) (after : Daemon × PortRecord) : Prop where
  relayIfnameMap : after.1.relayIfnameMap = before.relayIfnameMap
  attached : after.2.ports.attached = ports.attached
  relays : ∀ id, (before.world.relays id).SameDevice (after.1.world.relays id)

/-- No removal is under way: the workers have answered all of them. -/
def Daemon.AtRest (daemon : Daemon) : Prop :=
  ∀ id, (daemon.world.relays id).dpdk.state ≠ .removing1
    ∧ (daemon.world.relays id).dpdk.state ≠ .removing2

-----------------------------------------------------------------------------------------
-- Rules
-----------------------------------------------------------------------------------------

section Rules

variable {settings : Settings} {before : Daemon} {op : PairOp} {α β : Type}
  {state : Daemon × PortRecord}

/-- How the accesses of an addition run, with the record. -/
abbrev addAccesses (settings : Settings) (op : PairOp)
    : Machine SockInstr Int Daemon (Daemon × PortRecord) :=
  sockAccesses.recorded (recordAdd settings op)

/-- The contract of an addition beside the workers, which do not touch the record. -/
abbrev addContract (settings : Settings) (before : Daemon) (op : PairOp)
    : Contract SockInstr Int SockFault (Daemon × PortRecord) :=
  (sockContract fun _ _ _ => True).recorded ((reversibleAdds settings before).instr op)

/-- A program that does not ask the driver, without a registration, leaves the record. -/
theorem wp_add_keeps {p : SockProg α} {post : α → Daemon → Prop}
    (h : wp sockAccesses (sockContract fun _ _ _ => True) p post state.1)
    (all : p.All (fun i => ∀ answer daemon record,
      recordAdd settings op i answer daemon record = record) fun _ => True)
    : wp (addAccesses settings op) (addContract settings before op) p
        (fun a s => post a s.1 ∧ s.2 = state.2) state :=
  h.recorded_kept (fun _ _ _ _ => trivial) all

/-- A control program on relay `id` does there what it is proved to do with the ports, and leaves
the rest of the daemon alone.
-/
theorem wp_onRelay_ports {id : Nat} {p : Control α} {post : α → World × PortRecord → Prop}
    (h : wp (portAccesses settings id) (portContract settings) p post (state.1.world, state.2))
    : wp (addAccesses settings op) (addContract settings before op) (onRelay id p)
        (fun a s => post a (s.1.world, s.2) ∧ state.1.Beside id s.1) state := by
  induction p generalizing state with
  | ret a => exact ⟨h, rfl, fun _ _ => .refl _⟩
  | fail e => trivial
  | instr i next hind =>
      intro middle later _ answer admitted
      obtain ⟨_, _, rest⟩ :=
        h (middle.1.world, middle.2) ⟨later.1.relays, later.2⟩ trivial answer admitted
      have going := @hind answer middle.1.world
        ((addAccesses settings op).exec (.control id i) answer middle) rest
      refine ⟨trivial, trivial, going.mono fun a s outcome => ?_⟩
      obtain ⟨held, map, relays⟩ := outcome
      refine ⟨held, map.trans later.1.map, fun other away => (later.1.relays other).trans ?_⟩
      have untouched := relays other away
      change ((i.exec id answer middle.1.world).relays other).Tended _ at untouched
      rwa [Instr.relays_exec_of_ne away] at untouched

theorem stable_add {A : Daemon → Prop} {ports : Ports} {failed : Prop} (kept : Kept A)
    : (addContract settings before op).Stable fun s => A s.1 ∧ s.2.At ports failed :=
  fun _ _ later _ held => ⟨kept later.1 held.1, later.2 ▸ held.2⟩

/-- A call of the registration is accepted, or it is refused and the device can be taken back. -/
theorem wp_register_bind {vhostPath : Option (List Char)} {slaves : List (List Char)}
    {name : Option (List Char)} {conditional : Bool} {call : VhostCall} {next : Int → SockProg β}
    {post : β → Daemon × PortRecord → Prop} {A : Daemon → Prop} {ports : Ports} {failed : Prop}
    (kept : Kept A) (h : A state.1 ∧ state.2.At ports failed)
    (refused : ∀ answer s, call.Refuses answer → A s.1 ∧ s.2.At ports True
      → Reversible settings before ((pairDevice slaves name).getD []) s
      → wp (addAccesses settings (.add vhostPath slaves name conditional))
          (addContract settings before (.add vhostPath slaves name conditional)) (next answer)
          post s)
    (accepted : ∀ answer s, ¬ call.Refuses answer → A s.1 ∧ s.2.At ports failed
      → wp (addAccesses settings (.add vhostPath slaves name conditional))
          (addContract settings before (.add vhostPath slaves name conditional)) (next answer)
          post s)
    : wp (addAccesses settings (.add vhostPath slaves name conditional))
        (addContract settings before (.add vhostPath slaves name conditional))
        (vhost call >>= next) post state := by
  refine wp.bind (wp.perform (stable_add kept) h fun s answer _ held admitted => ⟨trivial, trivial, ?_⟩)
  by_cases refuses : call.Refuses answer
  · have reversible := admitted.2 refuses
    refine refused answer _ refuses ⟨held.1, held.2.1, fun _ => ?_⟩ reversible
    change (s.2.failed || decide (call.Refuses answer)) = true
    rw [decide_eq_true refuses, Bool.or_true]
  · refine accepted answer _ refuses ⟨held.1, held.2.1, fun given => ?_⟩
    change (s.2.failed || decide (call.Refuses answer)) = true
    rw [held.2.2 given, Bool.true_or]

end Rules

-----------------------------------------------------------------------------------------
-- The device of a new pair
-----------------------------------------------------------------------------------------

/-- The device of a relay can be given back to DPDK, with all its ports. -/
def Returnable (settings : Settings) (id : Nat) (dev : List Char) (attached : Nat → Bool)
    (known : Ports) (relay : Relay)
    : Prop :=
  ∃ port isBond, relay.Holds port isBond dev
    ∧ ∀ s : World × PortRecord, (s.1.relays id).Holds port isBond dev ∧ s.2.At known True
      → wp (portAccesses settings id) (portContract settings) (releaseDevice id port)
          (fun err s => err = 0 ∧ s.2.ports.attached = attached) s

theorem tending_returnable (settings : Settings) (id : Nat) (dev : List Char)
    (attached : Nat → Bool) (known : Ports)
    : Tending (Returnable settings id dev attached known) := by
  rintro earlier later tended ⟨port, isBond, holds, release⟩
  exact ⟨port, isBond, tending_holds port isBond dev tended holds, release⟩

/-- What attaching a device leaves in its relay and of the ports: if it fails nothing has changed,
and otherwise the device can be given back.
-/
def DeviceLeaves (settings : Settings) (id : Nat) (first : Relay) (attached : Nat → Bool)
    (dev : List Char) (err : Int) (relay : Relay) (record : PortRecord)
    : Prop :=
  (err ≠ 0 → first.Tended relay ∧ record.ports.attached = attached)
  ∧ (err = 0 → relay.Tidy ∧ relay.Active
      ∧ (record.ports.stray = false → dev.length ≤ 19
        → Returnable settings id dev attached record.ports relay))

section Device

variable {settings : Settings} {id : Nat} {first : Relay} {ports : Ports} {failed : Prop}

theorem tending_unused : Tending fun relay => first.Tended relay ∧ relay.dpdk.state = .uninit :=
  fun _ _ tended held => ⟨held.1.trans tended, tending_uninit tended held.2⟩

theorem addVf2_leaves_device {state : World × PortRecord} {dbdf : List Char} {conditional : Bool}
    (h : first.Tended (state.1.relays id) ∧ (state.1.relays id).dpdk.state = .uninit)
    (here : state.2.At ports failed)
    : wp (portAccesses settings id) (portContract settings) (addVf2 settings dbdf id conditional)
        (fun err s => DeviceLeaves settings id first ports.attached dbdf err (s.1.relays id) s.2)
        state := by
  refine ((wp_without_ports (addVf2_attaches tending_unused h)).and
    (addVf2_ports ⟨h.2, here⟩)).mono fun err s outcome => ?_
  obtain ⟨attaches, gone, added⟩ := outcome
  rcases attaches with ⟨ok, attached⟩ | ⟨_, ⟨_, uninit⟩, active, _⟩ | ⟨failed, held, _⟩
  · refine ⟨fun failed => absurd ok failed, fun _ => ?_⟩
    refine ⟨attached.tidy (storedDbdf_length dbdf), attached.active, fun together short => ?_⟩
    have whole : storedDbdf dbdf = dbdf := List.take_of_length_le short
    rcases added ok with ⟨below, fresh, known⟩ | stray
    · refine ⟨_, false, ⟨rfl, attached.isBond, attached.pciDbdf.trans whole⟩, fun s held => ?_⟩
      exact releaseDevice_vf below fresh ⟨held.1, known.1 ▸ held.2⟩
    · rw [together] at stray
      cases stray
  · exact absurd active (DpdkState.Leaving.inactive (Or.inr (Or.inr uninit)))
  · exact ⟨fun _ => ⟨held, gone failed⟩, fun ok => absurd ok failed⟩

theorem bondAdd_leaves_device {state : World × PortRecord} {slaves : List (List Char)}
    {name : List Char}
    (h : first.Tended (state.1.relays id) ∧ (state.1.relays id).dpdk.state = .uninit)
    (here : state.2.At ports failed)
    : wp (portAccesses settings id) (portContract settings) (bondAdd settings slaves name id)
        (fun err s => DeviceLeaves settings id first ports.attached name err (s.1.relays id) s.2)
        state := by
  refine ((wp_without_ports (bondAdd_attaches tending_unused h)).and
    (bondAdd_ports ⟨h.2, here⟩)).mono fun err s outcome => ?_
  obtain ⟨attaches, gone, added⟩ := outcome
  rcases attaches with ⟨ok, attached⟩ | ⟨failed, held, _⟩
  · refine ⟨fun failed => absurd ok failed, fun _ => ?_⟩
    refine ⟨attached.tidy (storedDbdf_length name), attached.active, fun together short => ?_⟩
    have whole : storedDbdf name = name := List.take_of_length_le short
    obtain ⟨_, fresh, entries, covered, joined⟩ := added ok
    refine ⟨_, true, ⟨rfl, attached.isBond, attached.pciDbdf.trans whole⟩, fun s held => ?_⟩
    exact releaseDevice_bond fresh covered joined together held
  · exact ⟨fun _ => ⟨held, gone failed⟩, fun ok => absurd ok failed⟩

variable {before : Daemon} {op : PairOp} {state : Daemon × PortRecord}

/-- Attaching the device leaves the other relays and the sockets alone. -/
theorem attachDevice_leaves {p : Control Int} {dev : List Char} {code : Int} (fails : code ≠ 0)
    (tended : before.Tended state.1) {attached : Nat → Bool}
    (h : wp (portAccesses settings id) (portContract settings) p
      (fun err s => DeviceLeaves settings id (before.world.relays id) attached dev err
        (s.1.relays id) s.2) (state.1.world, state.2))
    : wp (addAccesses settings op) (addContract settings before op)
        (do
          if (← onRelay id p) ≠ 0 then return code
          return 0)
        (fun err s => before.Beside id s.1
          ∧ DeviceLeaves settings id (before.world.relays id) attached dev err
              (s.1.world.relays id) s.2) state := by
  refine wp.bind ((wp_onRelay_ports h).mono fun err s outcome => ?_)
  obtain ⟨leaves, map, others⟩ := outcome
  have beside : before.Beside id s.1 :=
    ⟨map.trans tended.map, fun other away => (tended.relays other).trans (others other away)⟩
  split
  · rename_i failed
    exact ⟨beside, fun _ => leaves.1 failed, fun ok => absurd ok fails⟩
  · rename_i ok
    exact ⟨beside, fun failed => absurd rfl failed, fun _ => leaves.2 (not_not.mp ok)⟩

/-- The device of a new pair can be given back, or nothing has changed. -/
theorem addPairDevice_leaves {slaves : List (List Char)} {name : Option (List Char)}
    {conditional : Bool} (tended : before.Tended state.1)
    (uninit : (state.1.world.relays id).dpdk.state = .uninit) (here : state.2.At ports failed)
    : wp (addAccesses settings op) (addContract settings before op)
        (addPairDevice settings slaves name conditional id)
        (fun err s => before.Beside id s.1
          ∧ DeviceLeaves settings id (before.world.relays id) ports.attached
              ((pairDevice slaves name).getD []) err (s.1.world.relays id) s.2) state := by
  have unused : (before.world.relays id).Tended (state.1.world.relays id)
      ∧ (state.1.world.relays id).dpdk.state = .uninit := ⟨tended.relays id, uninit⟩
  unfold addPairDevice
  split
  · exact attachDevice_leaves (by decide) tended (addVf2_leaves_device unused here)
  · rename_i name several
    have device : pairDevice slaves (some name) = some name := by
      unfold pairDevice
      split
      · rename_i dbdf
        exact absurd rfl (several dbdf)
      · rfl
    rw [device]
    exact attachDevice_leaves (by decide) tended (bondAdd_leaves_device unused here)
  · refine ⟨⟨tended.map, fun other _ => tended.relays other⟩, ?_, ?_⟩
    · exact fun _ => ⟨tended.relays id, congrArg Ports.attached here.1⟩
    · exact fun ok => absurd ok (by decide)

end Device

-----------------------------------------------------------------------------------------
-- The registration
-----------------------------------------------------------------------------------------

section Registration

variable {settings : Settings} {conf : SocketConf} {before : Daemon}
  {vhostPath : Option (List Char)} {slaves : List (List Char)} {name : Option (List Char)}
  {conditional : Bool} {state : Daemon × PortRecord} {V : World → Prop}
  {m : Nat → Option (List Char)} {path : List Char} {id : Nat} {ports : Ports} {failed : Prop}

theorem clearStaleSocket_reversible (tending : TendingWorld V)
    (h : (state.1.relayIfnameMap = m ∧ V state.1.world) ∧ state.2.At ports failed)
    : wp (addAccesses settings (.add vhostPath slaves name conditional))
        (addContract settings before (.add vhostPath slaves name conditional))
        (clearStaleSocket conf path)
        (fun clear s => ((s.1.relayIfnameMap = m ∧ V s.1.world) ∧ s.2.At ports failed)
          ∧ (clear = false → s.2.At ports True
            ∧ Reversible settings before ((pairDevice slaves name).getD []) s)) state := by
  have kept := kept_map tending m
  have going {s : Daemon × PortRecord}
      (held : (s.1.relayIfnameMap = m ∧ V s.1.world) ∧ s.2.At ports failed)
      : ((s.1.relayIfnameMap = m ∧ V s.1.world) ∧ s.2.At ports failed)
        ∧ (true = false → s.2.At ports True
          ∧ Reversible settings before ((pairDevice slaves name).getD []) s) :=
    ⟨held, nofun⟩
  have stopped {s : Daemon × PortRecord}
      (held : (s.1.relayIfnameMap = m ∧ V s.1.world) ∧ s.2.At ports True)
      (reversible : Reversible settings before ((pairDevice slaves name).getD []) s) (clear : Bool)
      : ((s.1.relayIfnameMap = m ∧ V s.1.world) ∧ s.2.At ports failed)
        ∧ (clear = false → s.2.At ports True
          ∧ Reversible settings before ((pairDevice slaves name).getD []) s) :=
    ⟨⟨held.1, held.2.weaken fun _ => trivial⟩, fun _ => ⟨held.2, reversible⟩⟩
  unfold clearStaleSocket
  split
  · exact going h
  · refine wp_register_bind kept h (fun _ _ refuses => absurd refuses not_false) ?_
    intro found s _ held
    split
    · exact going held
    · refine wp_register_bind kept held ?_ ?_
      · intro isSocket s (refuses : isSocket = 0) held reversible
        rw [if_pos refuses]
        exact stopped held reversible false
      · intro isSocket s (accepts : ¬ isSocket = 0) held
        rw [if_neg accepts]
        refine wp_register_bind kept held ?_ ?_
        · intro err s refuses held reversible
          exact stopped held reversible _
        · intro err s accepts held
          have zero : err = 0 := not_not.mp accepts
          rw [decide_eq_true zero]
          exact going held

/-- A registration that fails was refused, so that the device can be taken back. -/
theorem registerRelaySocket_reversible (tending : TendingWorld V)
    (h : (state.1.relayIfnameMap = m ∧ V state.1.world) ∧ state.2.At ports failed)
    (free : m id = none)
    : wp (addAccesses settings (.add vhostPath slaves name conditional))
        (addContract settings before (.add vhostPath slaves name conditional))
        (registerRelaySocket conf path id)
        (fun err s => err ≠ 0
          → (V s.1.world ∧ s.2.At ports True)
            ∧ Reversible settings before ((pairDevice slaves name).getD []) s
            ∧ (s.1.relayIfnameMap = m ∨ s.1.relayIfnameMap = Function.update m id (some path)))
        state := by
  have kept := kept_map tending m
  refine wp.bind ((clearStaleSocket_reversible tending h).mono fun clear s cleared => ?_)
  obtain ⟨held, refused⟩ := cleared
  split
  · rename_i blocked
    obtain ⟨here, reversible⟩ := refused (by simpa using blocked)
    exact fun _ => ⟨⟨held.1.2, here⟩, reversible, Or.inl held.1.1⟩
  · have read : wp (addAccesses settings (.add vhostPath slaves name conditional))
        (addContract settings before (.add vhostPath slaves name conditional)) readMap
        (fun map s => ((s.1.relayIfnameMap = m ∧ V s.1.world) ∧ s.2.At ports failed) ∧ map = m)
        s := by
      refine wp.perform (stable_add kept) held fun s _ _ held _ => ?_
      exact ⟨trivial, trivial, held, held.1.1⟩
    refine wp.bind (read.mono fun map s outcome => ?_)
    obtain ⟨held, rfl⟩ := outcome
    simp only [free, Option.isSome_none, Bool.false_eq_true, if_false]
    refine wp_register_bind kept held ?_ ?_
    · intro err s (refuses : err ≠ 0) held reversible
      rw [if_pos refuses]
      exact fun _ => ⟨⟨held.1.2, held.2⟩, reversible, Or.inl held.1.1⟩
    · intro err s (accepts : ¬ err ≠ 0) held
      rw [if_neg accepts]
      refine wp_register_bind kept held ?_ ?_
      · intro err s (refuses : err ≠ 0) held reversible
        rw [if_pos refuses]
        exact fun _ => ⟨⟨held.1.2, held.2⟩, reversible, Or.inl held.1.1⟩
      · intro err s (accepts : ¬ err ≠ 0) held
        rw [if_neg accepts]
        have written : wp (addAccesses settings (.add vhostPath slaves name conditional))
            (addContract settings before (.add vhostPath slaves name conditional))
            (writeMap id (some path))
            (fun _ s => (s.1.relayIfnameMap = Function.update map id (some path) ∧ V s.1.world)
              ∧ s.2.At ports failed) s := by
          refine wp.perform (stable_add kept) held fun s _ _ held _ => ?_
          refine ⟨trivial, trivial, ⟨?_, held.1.2⟩, held.2⟩
          change Function.update s.1.relayIfnameMap id (some path) = _
          rw [held.1.1]
        refine wp.bind (written.mono fun _ s held => ?_)
        split
        · refine wp_register_bind (kept_map tending _) held ?_ ?_
          · intro err s (refuses : err ≠ 0) held reversible
            rw [if_pos refuses]
            exact fun _ => ⟨⟨held.1.2, held.2⟩, reversible, Or.inr held.1.1⟩
          · intro err s (accepts : ¬ err ≠ 0) held
            rw [if_neg accepts]
            exact fun failed => absurd rfl failed
        · exact fun failed => absurd rfl failed

end Registration

-----------------------------------------------------------------------------------------
-- The addition
-----------------------------------------------------------------------------------------

theorem Relay.Tended.sameDevice {earlier later : Relay} (tended : earlier.Tended later)
    (first : earlier.dpdk.state ≠ .removing1) (second : earlier.dpdk.state ≠ .removing2)
    : earlier.SameDevice later where
  dpdkState := by
    rcases tended.dpdkState with same | ⟨removing, _⟩
    · exact same
    · rcases removing with removing | removing
      · exact absurd removing first
      · exact absurd removing second
  pciDbdf := tended.pciDbdf
  isBond := tended.isBond
  numSlaves := tended.numSlaves
  vf2vioCpu := tended.vf2vioCpu

theorem Relay.Restored.sameDevice {earlier later : Relay} (first : earlier.Restored)
    (last : later.Restored)
    : earlier.SameDevice later where
  dpdkState := last.dpdkState.trans first.dpdkState.symm
  pciDbdf := last.pciDbdf.trans first.pciDbdf.symm
  isBond := last.isBond.trans first.isBond.symm
  numSlaves := last.numSlaves.trans first.numSlaves.symm
  vf2vioCpu := last.vf2vioCpu.trans first.vf2vioCpu.symm

theorem deregisterSocket_unrecorded {settings : Settings} {op : PairOp} {path : List Char}
    : (deregisterSocket settings (some path)).All (fun i => ∀ answer daemon record,
        recordAdd settings op i answer daemon record = record) fun _ => True := by
  have unregister (answer : Int) (daemon : Daemon) (record : PortRecord)
      : recordAdd settings op (.vhost (.driverUnregister (some path))) answer daemon record
        = record := by
    change (⟨record.ports, record.failed || decide False⟩ : PortRecord) = record
    rw [decide_false, Bool.or_false]
  refine .bind (.perform unregister) fun err => ?_
  refine .bind (.bind (.perform fun _ _ _ => rfl) fun map => trivial) fun found => ?_
  cases found with
  | none => trivial
  | some id =>
      refine .bind (.perform fun _ _ _ => rfl) fun map => ?_
      split
      · exact .bind (.perform fun _ _ _ => rfl) fun _ => trivial
      · trivial

section Addition

variable {settings : Settings} {conf : SocketConf} {before : Daemon} {op : PairOp}
  {state : Daemon × PortRecord} {path : List Char} {id : Nat} {ports known : Ports}

/-- The recovery of a failed add takes back the device and the path. -/
theorem deconfigurePair_leaves_no_trace {dev : List Char} {conditional : Bool}
    (atRest : before.AtRest) (below : id < settings.maxRelays)
    (free : before.relayIfnameMap id = none)
    (fresh : relayOf settings before.relayIfnameMap path = none)
    (restored : (before.world.relays id).Restored)
    (others : ∀ other ≠ id, (before.world.relays other).Tended (state.1.world.relays other))
    (map : state.1.relayIfnameMap = before.relayIfnameMap
      ∨ state.1.relayIfnameMap = Function.update before.relayIfnameMap id (some path))
    (tidy : (state.1.world.relays id).Tidy) (active : (state.1.world.relays id).Active)
    (returnable : Returnable settings id dev ports.attached known (state.1.world.relays id))
    (here : state.2.At known True)
    : wp (addAccesses settings op) (addContract settings before op)
        (deconfigurePair settings path dev conditional id) (fun _ s => NoTrace before ports s)
        state := by
  obtain ⟨port, isBond, holds, release⟩ := returnable
  refine wp.bind ((wp_onRelay_ports (removeVf2_takes_back below release tidy active
    ⟨holds, here⟩)).mono fun _ s outcome => ?_)
  obtain ⟨⟨gone, attached⟩, beside⟩ := outcome
  have tending : TendingWorld fun world =>
      (∀ other ≠ id, (before.world.relays other).Tended (world.relays other))
      ∧ (world.relays id).Restored :=
    fun _ _ tended held => ⟨fun other away => (held.1 other away).trans (tended other),
      tending_restored (tended id) held.2⟩
  refine wp.bind ((wp_add_keeps (deregisterSocket_frees tending ⟨rfl,
      fun other away => (others other away).trans (beside.relays other away), gone⟩)
    deregisterSocket_unrecorded).mono fun _ s' outcome => ?_)
  obtain ⟨⟨⟨others, gone⟩, freed⟩, same⟩ := outcome
  rw [beside.map] at freed
  refine ⟨?_, ?_, fun other => ?_⟩
  · -- the path was registered for this relay alone, or not at all
    rcases map with unchanged | registered
    · rw [unchanged, fresh] at freed
      rcases freed with ⟨_, _, map⟩ | ⟨_, found, _⟩
      · exact map
      · cases found
    · rw [registered, relayOf_update below fresh] at freed
      rcases freed with ⟨absent, _⟩ | ⟨_, there, map, _⟩
      · cases absent
      · cases Option.some.inj there
        rw [map, Function.update_idem, ← free, Function.update_eq_self]
  · rw [same]
    exact attached
  · rcases eq_or_ne other id with rfl | away
    · exact restored.sameDevice gone
    · exact (others other away).sameDevice (atRest other).1 (atRest other).2

theorem portByName_leaves {dev : Option (List Char)} {failed : Prop}
    (tended : before.Tended state.1) (here : state.2.At ports failed)
    : wp (addAccesses settings op) (addContract settings before op) (portByName dev)
        (fun _ s => before.Tended s.1 ∧ s.2.At ports failed) state := by
  unfold portByName
  split
  · rename_i name
    have tending : Tending fun relay => (before.world.relays 0).Tended relay :=
      fun _ _ later earlier => earlier.trans later
    have spares : (drive (.portByName name)).All Instr.SparesDevice fun _ => True :=
      .perform trivial
    have portless : (drive (.portByName name)).All Instr.Portless fun _ => True :=
      .perform trivial
    refine (wp_onRelay_ports (wp_ports_keep tending spares portless
      ⟨tended.relays 0, here⟩)).mono fun _ s outcome => ?_
    obtain ⟨⟨asked, here⟩, map, others⟩ := outcome
    refine ⟨⟨map.trans tended.map, fun id => ?_⟩, here⟩
    rcases eq_or_ne id 0 with rfl | away
    · exact asked
    · exact (tended.relays id).trans (others id away)
  · exact ⟨tended, here⟩

/-- The device is attached to a free relay. If the registration of the path fails, nothing is left
of the addition.
-/
theorem registerPair_leaves_no_trace {vhostPath : Option (List Char)}
    {slaves : List (List Char)} {name : Option (List Char)} {conditional : Bool}
    (atRest : before.AtRest) (below : id < settings.maxRelays)
    (free : before.relayIfnameMap id = none)
    (fresh : relayOf settings before.relayIfnameMap path = none)
    (unused : ¬ (before.world.relays id).Active) (beside : before.Beside id state.1)
    (leaves : DeviceLeaves settings id (before.world.relays id) ports.attached
      ((pairDevice slaves name).getD []) 0 (state.1.world.relays id) state.2)
    : wp (addAccesses settings (.add vhostPath slaves name conditional))
        (addContract settings before (.add vhostPath slaves name conditional))
        (do
          if (← registerRelaySocket conf path id) = 0 then return 0
          deconfigurePair settings path ((pairDevice slaves name).getD []) conditional id)
        (fun err s => err ≠ 0 → NoTrace before ports s) state := by
  obtain ⟨tidy, active, returnable⟩ := leaves.2 rfl
  have tending : TendingWorld fun world =>
      (∀ other ≠ id, (before.world.relays other).Tended (world.relays other))
      ∧ (world.relays id).Tidy ∧ (world.relays id).Active
      ∧ (state.2.ports.stray = false → ((pairDevice slaves name).getD []).length ≤ 19
        → Returnable settings id ((pairDevice slaves name).getD []) ports.attached state.2.ports
            (world.relays id)) := by
    rintro earlier later tended ⟨others, tidy, active, returnable⟩
    refine ⟨fun other away => (others other away).trans (tended other),
      tending_tidy (tended id) tidy, tending_active (tended id) active, fun together short => ?_⟩
    exact tending_returnable _ _ _ _ _ (tended id) (returnable together short)
  have here : state.2.At state.2.ports False := ⟨rfl, nofun⟩
  refine wp.bind ((registerRelaySocket_reversible tending
    ⟨⟨beside.map, beside.relays, tidy, active, returnable⟩, here⟩ free).mono
    fun err s outcome => ?_)
  split
  · exact fun failed => absurd rfl failed
  · rename_i failed
    obtain ⟨⟨⟨others, tidy, active, returnable⟩, here⟩, reversible, map⟩ := outcome failed
    obtain ⟨together, short, restored⟩ := reversible
    rw [here.1] at together
    exact (deconfigurePair_leaves_no_trace atRest below free fresh
      (restored id below active unused) others map tidy active (returnable together short)
      here).mono fun _ _ clean _ => clean

/-- An addition that fails leaves no trace. -/
theorem virtioAddSockDevPair_leaves_no_trace {vhostPath : Option (List Char)}
    {slaves : List (List Char)} {name : Option (List Char)} {conditional : Bool}
    (atRest : before.AtRest) (tended : before.Tended state.1) (here : state.2.At ports False)
    : wp (addAccesses settings (.add vhostPath slaves name conditional))
        (addContract settings before (.add vhostPath slaves name conditional))
        (virtioAddSockDevPair settings conf vhostPath slaves name conditional)
        (fun err s => err ≠ 0 → NoTrace before ports s) state := by
  have untouched {s : Daemon × PortRecord} (tended : before.Tended s.1)
      (here : s.2.At ports False) (err : Int)
      : err ≠ 0 → NoTrace before ports s :=
    fun _ => ⟨tended.map, congrArg Ports.attached here.1,
      fun id => (tended.relays id).sameDevice (atRest id).1 (atRest id).2⟩
  cases vhostPath with
  | none => exact untouched tended here (-1)
  | some path =>
      refine wp.bind ((portByName_leaves tended here).mono fun port s outcome => ?_)
      obtain ⟨tended, here⟩ := outcome
      split
      · exact untouched tended here _
      · have tending : TendingWorld fun world =>
            ∀ id, (before.world.relays id).Tended (world.relays id) :=
          fun _ _ later earlier id => (earlier id).trans (later id)
        have searching : (getRelayForSock settings (some path)).All
            (fun i => ∀ answer daemon record,
              recordAdd settings (.add (some path) slaves name conditional) i answer daemon record
              = record) fun _ => True :=
          .bind (.perform fun _ _ _ => rfl) fun _ => trivial
        refine wp.bind ((wp_add_keeps (getRelayForSock_finds tending ⟨tended.map, tended.relays⟩)
          searching).mono fun found s' outcome => ?_)
        obtain ⟨⟨⟨map, relays⟩, rfl⟩, same⟩ := outcome
        rw [← same] at here
        split
        · exact untouched ⟨map, relays⟩ here _
        · rename_i fresh
          rw [Option.not_isSome_iff_eq_none] at fresh
          refine wp.bind ((wp_add_keeps (virtioGetFreeRelayId_free tending ⟨map, relays⟩)
            (.perform fun _ _ _ => rfl)).mono fun found s outcome => ?_)
          obtain ⟨⟨⟨map, relays⟩, free⟩, same⟩ := outcome
          rw [← same] at here
          cases found with
          | none => exact untouched ⟨map, relays⟩ here _
          | some id =>
              obtain ⟨below, uninit, free⟩ := free id rfl
              have unused : ¬ (before.world.relays id).Active := by
                intro active
                exact DpdkState.Leaving.inactive (Or.inr (Or.inr uninit))
                  (tending_active (relays id) active)
              refine wp.bind ((addPairDevice_leaves ⟨map, relays⟩ uninit here).mono
                fun err s outcome => ?_)
              obtain ⟨beside, leaves⟩ := outcome
              split
              · rename_i failed
                obtain ⟨mine, attached⟩ := leaves.1 failed
                refine fun _ => ⟨beside.map, attached, fun other => ?_⟩
                have tended : (before.world.relays other).Tended (s.1.world.relays other) := by
                  rcases eq_or_ne other id with rfl | away
                  · exact mine
                  · exact beside.relays other away
                exact tended.sameDevice (atRest other).1 (atRest other).2
              · rename_i ok
                obtain rfl := not_not.mp ok
                exact registerPair_leaves_no_trace atRest below free fresh unused beside leaves

end Addition

/-- **Failed additions**: from every daemon without a removal under way and for all ports, paths,
devices and failures, an addition that does not return 0 leaves no trace, if every device has a
port of its own and a device whose socket is refused can be taken back.
-/
theorem failed_add_leaves_no_trace {settings : Settings} {conf : SocketConf} {daemon : Daemon}
    {ports : Ports} {vhostPath : Option (List Char)} {slaves : List (List Char)}
    {name : Option (List Char)} {conditional : Bool} (atRest : daemon.AtRest) {config : AddConfig}
    (run : Run (addSystem settings conf) (reversibleAdds settings daemon)
      (adding settings conf daemon ports vhostPath slaves name conditional) config)
    {op : PairOp} {err : Int} (returned : config.running () = (op, .ret err)) (failed : err ≠ 0)
    : NoTrace daemon ports config.state := by
  have events (event : Event) (s s' : Daemon × PortRecord)
      (happened : (addSystem settings conf).env event s = some s')
      : s.1.Tended s'.1 ∧ s'.2 = s.2 := by
    obtain ⟨after, applied, rfl⟩ := Option.map_eq_some_iff.mp happened
    exact ⟨Daemon.tended_event applied, rfl⟩
  have stable (err : Int) ⦃s s' : Daemon × PortRecord⦄ (later : s.1.Tended s'.1 ∧ s'.2 = s.2)
      (held : err ≠ 0 → NoTrace daemon ports s) (failed : err ≠ 0) : NoTrace daemon ports s' := by
    obtain ⟨map, attached, relays⟩ := held failed
    refine ⟨later.1.map.trans map, later.2 ▸ attached, fun id => ?_⟩
    have same := relays id
    have settled := (later.1.relays id).sameDevice (same.dpdkState ▸ (atRest id).1)
      (same.dpdkState ▸ (atRest id).2)
    exact ⟨settled.dpdkState.trans same.dpdkState, settled.pciDbdf.trans same.pciDbdf,
      settled.isBond.trans same.isBond, settled.numSlaves.trans same.numSlaves,
      settled.vf2vioCpu.trans same.vf2vioCpu⟩
  have here : (beginning daemon ports).2.At { ports with stray := false } False := ⟨rfl, nofun⟩
  have part : wp ⟨(addSystem settings conf).exec (.add vhostPath slaves name conditional),
        (addSystem settings conf).obs⟩
      ⟨fun _ => True, fun s s' => s.1.Tended s'.1 ∧ s'.2 = s.2, fun _ _ => True,
        (reversibleAdds settings daemon).instr (.add vhostPath slaves name conditional),
        fun _ => True⟩
      (virtioAddSockDevPair settings conf vhostPath slaves name conditional)
      (fun err s => err ≠ 0 → NoTrace daemon ports s) (beginning daemon ports) :=
    (virtioAddSockDevPair_leaves_no_trace atRest (.refl daemon) here).mono
      fun _ _ clean failed => ⟨(clean failed).relayIfnameMap, (clean failed).attached,
        (clean failed).relays⟩
  have outcome := Run.solo (addSystem settings conf) (fun s s' => s.1.Tended s'.1 ∧ s'.2 = s.2)
    (fun _ => True) (fun _ _ _ called => called) (fun s => ⟨.refl s.1, rfl⟩)
    (fun _ _ _ first rest => ⟨first.1.trans rest.1, rest.2.trans first.2⟩) events stable part run
  exact outcome.1 op err returned failed

-----------------------------------------------------------------------------------------
-- A registration that is refused
-----------------------------------------------------------------------------------------

instance (settings : Settings) (record : PortRecord) (call : DriverCall) (answer : Int)
    : Decidable (call.Assumed settings record answer) :=
  match call with
  | .devStop _ | .devClose _ | .devRemove _ | .bondFree _ | .bondSlavesGet _ | .bondCreate _ _ =>
      inferInstanceAs (Decidable (_ → _))
  | .bondSlaveRemove _ _ => inferInstanceAs (Decidable (_ = _))
  | .bondSlave port index =>
      inferInstanceAs (Decidable (∀ slave ∈ (record.ports.members port)[index]?, answer = slave))
  | .devInfoGet _ => inferInstanceAs (Decidable (_ ∧ _))
  | .devProbe _ | .nextMatchingDev _ | .devConfigure _ | .devSetMtu _ | .txQueueSetup _ _
  | .rxQueueSetup _ _ _ | .promiscuousEnable _ | .devStart _ | .poolCreate _ _ | .poolFree _
  | .bondSlaveAdd _ _ | .portByName _ | .uninitializedPort | .vringNum _ | .guestNumaNode _ =>
      .isTrue trivial

instance (settings : Settings) (record : PortRecord) (i : Instr) (answer : Int)
    : Decidable (i.Assumed settings record answer) :=
  match i with
  | .call request => inferInstanceAs (Decidable (request.Assumed settings record answer))
  | .logTimeout => .isFalse not_false
  | .read _ | .write _ | .flagWorker _ => .isTrue trivial

instance (settings : Settings) (op : PairOp) (i : SockInstr) (answer : Int)
    (s : Daemon × PortRecord)
    : Decidable ((teardownSucceeds settings).instr op i answer s) :=
  match i with
  | .control _ access => inferInstanceAs (Decidable (access.Assumed settings s.2 answer))
  | .readMap | .writeMap _ _ | .vringStateChange _ _ | .vhost _ => .isTrue trivial

instance (settings : Settings) (thread : Unit) (op : PairOp) (s : Daemon × PortRecord)
    : Decidable ((teardownSucceeds settings).call thread op s) :=
  .isFalse not_false

/-- No port is attached. -/
def noPorts : Ports := ⟨fun _ => false, fun _ => none, fun _ => [], false⟩

/-- The daemon after its start, with neither sockets nor devices. -/
def emptyDaemon (settings : Settings) : Daemon :=
  ⟨World.initial settings false fun _ => true, fun _ => none⟩

/-- A socket is refused for a bond whose name does not fit `pci_dbdf`: the bond is not found under
its name, and stays attached.
-/
theorem refused_bond_leaves_trace
    : ¬ ∀ (settings : Settings) (conf : SocketConf) (ports : Ports)
        (vhostPath : Option (List Char)) (slaves : List (List Char)) (name : Option (List Char))
        (conditional : Bool) (config : AddConfig) (op : PairOp) (err : Int),
        Run (addSystem settings conf) (teardownSucceeds settings)
          (adding settings conf (emptyDaemon settings) ports vhostPath slaves name conditional)
          config
        → config.running () = (op, .ret err) → err ≠ 0
        → NoTrace (emptyDaemon settings) ports config.state := by
  intro claim
  let settings : Settings := { twoWorkers with maxRelays := 4, relaysFit := by decide }
  let slaves := ["0000:05:08.0".toList, "0000:05:08.1".toList]
  obtain ⟨config, run, reached⟩ := Run.of_follow (addSystem settings ⟨false, false⟩)
    (teardownSucceeds settings)
    (adding settings ⟨false, false⟩ (emptyDaemon settings) noPorts
      (some "/tmp/virtio-forwarder0.sock".toList) slaves (some "net_bonding_tenants0".toList) true)
    (answered () ([-19, 0, 0, 0, 0, 2, -19, -19, 0, 1] ++ List.replicate 31 0 ++ [1]
      ++ List.replicate 25 0 ++ [-1, 0, -1] ++ List.replicate 5 0))
    (fun c => (c.running ()).2.value? = some 5 && c.state.2.ports.attached 2)
    (by decide +kernel)
  simp only [Bool.and_eq_true, decide_eq_true_eq] at reached
  have clean := claim _ _ _ _ _ _ _ config _ 5 run
    (Prod.ext rfl (Prog.eq_ret_of_value? reached.1)) (by decide)
  rw [clean.attached] at reached
  exact Bool.false_ne_true reached.2

instance (relay : Relay) : Decidable relay.Restored :=
  decidable_of_iff (relay.dpdk.state = .uninit ∧ relay.dpdk.vf2vioCpu = -1
      ∧ relay.dpdk.pciDbdf = [] ∧ relay.dpdk.isBond = false ∧ relay.dpdk.numSlaves = 0)
    ⟨fun h => ⟨h.1, h.2.1, h.2.2.1, h.2.2.2.1, h.2.2.2.2⟩,
      fun h => ⟨h.dpdkState, h.vf2vioCpu, h.pciDbdf, h.isBond, h.numSlaves⟩⟩

instance (settings : Settings) (record : PortRecord) (i : Instr) (answer : Int)
    : Decidable (i.Prudent settings record answer) :=
  match i with
  | .call call =>
      match call with
      | .nextMatchingDev _ => inferInstanceAs (Decidable (_ → _ → _))
      | .uninitializedPort => inferInstanceAs (Decidable (_ = _))
      | .devProbe _ | .devInfoGet _ | .devConfigure _ | .devSetMtu _ | .txQueueSetup _ _
      | .rxQueueSetup _ _ _ | .promiscuousEnable _ | .devStart _ | .devStop _ | .devClose _
      | .devRemove _ | .poolCreate _ _ | .poolFree _ | .bondCreate _ _ | .bondFree _
      | .bondSlaveAdd _ _ | .bondSlavesGet _ | .bondSlave _ _ | .bondSlaveRemove _ _
      | .portByName _ | .vringNum _ | .guestNumaNode _ =>
          .isTrue trivial
  | .read _ | .write _ | .flagWorker _ | .logTimeout => .isTrue trivial

instance (settings : Settings) (before : Daemon) (dev : List Char) (s : Daemon × PortRecord)
    : Decidable (Reversible settings before dev s) :=
  inferInstanceAs (Decidable (_ ∧ _ ∧ _))

instance (settings : Settings) (before : Daemon) (op : PairOp) (i : SockInstr) (answer : Int)
    (s : Daemon × PortRecord)
    : Decidable ((reversibleAdds settings before).instr op i answer s) :=
  match op, i with
  | .add _ _ _ _, .control _ access | .remove _ _ _ _, .control _ access =>
      inferInstanceAs (Decidable (access.Assumed settings s.2 answer
        ∧ access.Prudent settings s.2 answer))
  | .add _ slaves name _, .vhost call =>
      inferInstanceAs (Decidable (True ∧ (call.Refuses answer
        → Reversible settings before ((pairDevice slaves name).getD []) s)))
  | .remove _ _ _ _, .vhost _ | .add _ _ _ _, .readMap | .remove _ _ _ _, .readMap
  | .add _ _ _ _, .writeMap _ _ | .remove _ _ _ _, .writeMap _ _
  | .add _ _ _ _, .vringStateChange _ _ | .remove _ _ _ _, .vringStateChange _ _ =>
      .isTrue ⟨trivial, trivial⟩

instance (settings : Settings) (before : Daemon) (thread : Unit) (op : PairOp)
    (s : Daemon × PortRecord)
    : Decidable ((reversibleAdds settings before).call thread op s) :=
  .isFalse not_false

/-- Witness: a socket is refused for a VF, which a worker lets go. -/
theorem refused_vf_leaves_no_trace
    : ∃ config, Run (addSystem twoWorkers ⟨false, false⟩)
          (reversibleAdds twoWorkers (emptyDaemon twoWorkers))
          (adding twoWorkers ⟨false, false⟩ (emptyDaemon twoWorkers) noPorts
            (some "/tmp/virtio-forwarder0.sock".toList) ["0000:05:08.0".toList] none true) config
        ∧ (config.running ()).2.value? = some 5
        ∧ NoTrace (emptyDaemon twoWorkers) noPorts config.state := by
  obtain ⟨config, run, reached⟩ := Run.of_follow (addSystem twoWorkers ⟨false, false⟩)
    (reversibleAdds twoWorkers (emptyDaemon twoWorkers))
    (adding twoWorkers ⟨false, false⟩ (emptyDaemon twoWorkers) noPorts
      (some "/tmp/virtio-forwarder0.sock".toList) ["0000:05:08.0".toList] none true)
    (answered () ([-19] ++ List.replicate 10 0 ++ [1] ++ List.replicate 21 0 ++ [-1, 0, -1]
        ++ List.replicate 6 0)
      ++ .env (.vf2vm 0 ⟨0, [], fun _ => 0⟩) :: answered () (List.replicate 20 0))
    (fun c => (c.running ()).2.value? = some 5) (by decide +kernel)
  have value := of_decide_eq_true reached
  have atRest : (emptyDaemon twoWorkers).AtRest := fun _ => ⟨nofun, nofun⟩
  exact ⟨config, run, value, failed_add_leaves_no_trace atRest run
    (Prod.ext rfl (Prog.eq_ret_of_value? value)) (by decide)⟩

end VirtioForwarder
