import VirtioForwarder.Service.Idempotence

/-! The path and the device of REMOVE_SOCK requests. Each can be left out and is then taken from
the relay: the path may be missing there, and the name of the device is copied to a buffer of
the request.
-/

namespace VirtioForwarder

open CText Program

/-- `deregister_socket` is not called with a null path. -/
def SockInstr.Named (i : SockInstr) : Prop := i ≠ .vhost (.driverUnregister none)

instance : DecidablePred SockInstr.Named :=
  fun _ => inferInstanceAs (Decidable (_ ≠ _))

/-- The fault has nothing to do with a null path or with the buffer of a name. -/
def SockFault.Foreign (fault : SockFault) : Prop := fault ≠ .nullPath ∧ fault ≠ .nameBuffer

/-- The removal of a pair is neither about to deregister a null path, nor has it copied a name
to a buffer that is too small.
-/
def DaemonConfig.RemovesSafely (config : DaemonConfig) : Prop :=
  (∀ op next, config.running () ≠ (op, .instr (.vhost (.driverUnregister none)) next))
  ∧ ∀ op, config.running () ≠ (op, .fail .nameBuffer)

/-- The first relay that has a device of this name. -/
def Daemon.relayWithDevice (settings : Settings) (dev : List Char) (daemon : Daemon) : Option Nat :=
  (List.range settings.maxRelays).find? fun id => (daemon.world.relays id).dpdk.pciDbdf = dev

/-- A REMOVE_SOCK request without a path names no device of a relay without a socket. In one with
an empty name, the bytes of the name have room for the device of the relay with the socket.
-/
def PortControlRequest.NamesPair (settings : Settings) (pc : PortControlRequest)
    (daemon : Daemon) : Prop :=
  pc.op = .removeSock → validatePortControlRequest pc = true
  → (pc.vhostPath = none → pc.removedDevice ≠ []
      → ∀ id ∈ daemon.relayWithDevice settings pc.removedDevice,
          (daemon.relayIfnameMap id).isSome)
    ∧ (pc.pciAddrs.length ≠ 1 → ∀ name ∈ pc.name, cString name = []
      → ∀ path ∈ pc.vhostString, ∀ id ∈ relayOf settings daemon.relayIfnameMap path,
          (daemon.world.relays id).dpdk.pciDbdf.length ≤ name.length)

instance (settings : Settings) (pc : PortControlRequest) (daemon : Daemon)
    : Decidable (pc.NamesPair settings daemon) :=
  inferInstanceAs (Decidable (_ → _ → _ ∧ _))

/-- Any operations, with any answers, in which REMOVE_SOCK requests name a pair. -/
def namedRemovals (settings : Settings) : Policy Unit DaemonOp SockInstr Int Daemon where
  instr _ _ _ _ := True
  call _ op daemon :=
    match op with
    | .request pc => pc.NamesPair settings daemon
    | .control _ => True

-----------------------------------------------------------------------------------------
-- Programs that never deregister a null path
-----------------------------------------------------------------------------------------

/-- The program deregisters no null path, and its faults have other reasons. -/
abbrev NamingProg {α : Type} (p : SockProg α) : Prop := p.All SockInstr.Named SockFault.Foreign

section Naming

variable {settings : Settings} {conf : SocketConf} {id : Nat} {path : List Char}

theorem onRelay_naming {α : Type} (p : Control α) : NamingProg (onRelay id p) := by
  refine (onRelay_all id p).mono ?_ ?_
  · intro i control
    obtain ⟨access, rfl⟩ := control
    exact nofun
  · intro fault control
    obtain ⟨abort, rfl⟩ := control
    exact ⟨nofun, nofun⟩

theorem readMap_naming : NamingProg readMap := .perform nofun

theorem writeMap_naming {entry : Option (List Char)} : NamingProg (writeMap id entry) :=
  .perform nofun

theorem vhost_naming (call : VhostCall) (named : call ≠ .driverUnregister none)
    : NamingProg (vhost call) :=
  .perform fun same => named (SockInstr.vhost.inj same)

theorem getRelayForSock_naming : NamingProg (getRelayForSock settings (some path)) :=
  readMap_naming.bind fun _ => trivial

theorem clearStaleSocket_naming : NamingProg (clearStaleSocket conf path) := by
  unfold clearStaleSocket
  split
  · trivial
  · refine (vhost_naming (.stat path) nofun).bind fun found => ?_
    split
    · trivial
    · refine (vhost_naming (.isSocket path) nofun).bind fun socket => ?_
      split
      · trivial
      · exact (vhost_naming (.unlink path) nofun).bind fun _ => trivial

theorem registerRelaySocket_naming : NamingProg (registerRelaySocket conf path id) := by
  unfold registerRelaySocket
  refine clearStaleSocket_naming.bind fun usable => ?_
  split
  · trivial
  · refine readMap_naming.bind fun map => ?_
    split
    · trivial
    · refine (vhost_naming (.driverRegister path) nofun).bind fun registered => ?_
      split
      · trivial
      · refine (vhost_naming (.driverStart path) nofun).bind fun started => ?_
        split
        · trivial
        · refine writeMap_naming.bind fun _ => ?_
          split
          · refine (vhost_naming (.chown path) nofun).bind fun owner => ?_
            split <;> trivial
          · trivial

theorem deregisterSocket_naming : NamingProg (deregisterSocket settings (some path)) := by
  unfold deregisterSocket
  refine (vhost_naming (.driverUnregister (some path)) nofun).bind fun err => ?_
  refine getRelayForSock_naming.bind fun found => ?_
  cases found with
  | none => trivial
  | some id =>
      refine readMap_naming.bind fun map => ?_
      split
      · exact writeMap_naming.bind fun _ => trivial
      · trivial

theorem addPairDevice_naming {slaves : List (List Char)} {name : Option (List Char)}
    {conditional : Bool}
    : NamingProg (addPairDevice settings slaves name conditional id) := by
  unfold addPairDevice
  split
  · refine (onRelay_naming _).bind fun err => ?_
    split <;> trivial
  · refine (onRelay_naming _).bind fun err => ?_
    split <;> trivial
  · trivial

theorem virtioAddSockDevPair_naming {vhostPath : Option (List Char)} {slaves : List (List Char)}
    {name : Option (List Char)} {conditional : Bool}
    : NamingProg (virtioAddSockDevPair settings conf vhostPath slaves name conditional) := by
  cases vhostPath with
  | none => trivial
  | some path =>
      have port : NamingProg (portByName (pairDevice slaves name)) := by
        unfold portByName
        split
        · exact onRelay_naming _
        · trivial
      refine port.bind fun port => ?_
      split
      · trivial
      · refine getRelayForSock_naming.bind fun found => ?_
        split
        · trivial
        · refine Prog.All.bind (.perform nofun) fun found => ?_
          cases found with
          | none => trivial
          | some id =>
              refine addPairDevice_naming.bind fun err => ?_
              split
              · trivial
              · refine registerRelaySocket_naming.bind fun registered => ?_
                split
                · trivial
                · refine (onRelay_naming _).bind fun _ => ?_
                  exact deregisterSocket_naming.bind fun _ => trivial

theorem removeFoundPair_naming {dev : List Char} {conditional : Bool}
    : NamingProg (removeFoundPair settings id (some path) dev conditional) := by
  unfold removeFoundPair
  refine (onRelay_naming _).bind fun _ => ?_
  refine deregisterSocket_naming.bind fun err => ?_
  split
  · trivial
  · refine (onRelay_naming _).bind fun err => ?_
    split <;> trivial

theorem findPair_naming {vhostPath : Option (List Char)} {dev : List Char}
    : NamingProg (findPair settings vhostPath dev) := by
  cases vhostPath with
  | none => exact .perform nofun
  | some path => exact getRelayForSock_naming.bind fun _ => trivial

theorem virtioQueryPci_naming {vhostPath : Option (List Char)}
    : NamingProg (virtioQueryPci settings vhostPath) := by
  cases vhostPath with
  | none => trivial
  | some path =>
      refine getRelayForSock_naming.bind fun found => ?_
      cases found with
      | none => trivial
      | some id => exact (onRelay_naming _).bind fun _ => trivial

/-- Only REMOVE_SOCK requests can deregister a null path or copy a name. -/
theorem handlePortControlRequest_naming {pc : PortControlRequest} (other : pc.op ≠ .removeSock)
    : NamingProg (handlePortControlRequest settings conf pc) := by
  unfold handlePortControlRequest
  split
  · trivial
  · split
    · exact ⟨nofun, nofun⟩
    · split
      · unfold portControlHandleAdd
        split
        · trivial
        · exact (onRelay_naming _).bind fun _ => trivial
        · exact (onRelay_naming _).bind fun _ => trivial
      · exact (onRelay_naming _).bind fun _ => trivial
      · exact virtioAddSockDevPair_naming.bind fun _ => trivial
      · rename_i removeSock
        exact absurd removeSock other
      · exact virtioQueryPci_naming.bind fun _ => trivial
      · trivial

end Naming

-----------------------------------------------------------------------------------------
-- The removal of a pair
-----------------------------------------------------------------------------------------

/-- The contract of a request beside the workers that may only fail for other reasons. -/
abbrev namingContract (admits : SockInstr → Int → Daemon → Prop)
    : Contract SockInstr Int SockFault Daemon :=
  { sockContract admits with fault := SockFault.Foreign }

section Removing

variable {settings : Settings} {conf : SocketConf} {admits : SockInstr → Int → Daemon → Prop}
  {daemon : Daemon}

theorem NamingProg.safe {α : Type} {p : SockProg α} (all : NamingProg p)
    : wp sockAccesses (namingContract admits) p (fun _ _ => True) daemon :=
  all.wp (fun _ foreign => foreign) (fun _ _ _ _ held => held)
    (fun _ _ _ _ _ _ _ => ⟨trivial, trivial, trivial⟩) trivial

/-- The relay of a pair and its path, as they are in a state. -/
def Daemon.pairOf (settings : Settings) (vhostPath : Option (List Char)) (dev : List Char)
    (daemon : Daemon) : Option (Nat × Option (List Char)) :=
  match vhostPath with
  | some path => (relayOf settings daemon.relayIfnameMap path).map fun id => (id, some path)
  | none =>
      (daemon.relayWithDevice settings dev).map fun id => (id, daemon.relayIfnameMap id)

theorem Daemon.Tended.relayWithDevice {later : Daemon} (tended : daemon.Tended later)
    (settings : Settings) (dev : List Char)
    : later.relayWithDevice settings dev = daemon.relayWithDevice settings dev := by
  simp only [Daemon.relayWithDevice, (tended.relays _).pciDbdf]

/-- The workers change neither the path nor the device of a pair, so it is found as it was. -/
theorem findPair_tells {vhostPath : Option (List Char)} {dev : List Char}
    : wp sockAccesses (namingContract admits) (findPair settings vhostPath dev)
        (fun found d => daemon.Tended d ∧ found = daemon.pairOf settings vhostPath dev) daemon := by
  have kept : Kept daemon.Tended := fun _ _ later held => held.trans later
  have found : wp sockAccesses (sockContract admits) (findPair settings vhostPath dev)
      (fun found d => daemon.Tended d ∧ found = daemon.pairOf settings vhostPath dev) daemon := by
    cases vhostPath with
    | some path =>
        refine wp.bind (wp_readMap_bind kept (.refl daemon) fun d tended => ⟨tended, ?_⟩)
        rw [tended.map]
        rfl
    | none =>
        refine wp.perform kept.stable (.refl daemon) fun d _ _ tended _ =>
          ⟨trivial, trivial, tended, ?_⟩
        have same := tended.relayWithDevice settings dev
        simp only [Daemon.relayWithDevice] at same
        simp only [Daemon.pairOf, Daemon.relayWithDevice, tended.map, same]
  exact found.errors findPair_naming

/-- The name of the device of a relay is still the one that it was. -/
theorem look_device_tells {id : Nat}
    : wp sockAccesses (namingContract admits) (onRelay id (look id .device))
        (fun seen _ => seen.dpdk.pciDbdf = (daemon.world.relays id).dpdk.pciDbdf) daemon := by
  have looked : wp (accesses id) (soloContract (fun _ _ _ => True) fun _ => True)
      (look id .device)
      (fun seen _ => seen.dpdk.pciDbdf = (daemon.world.relays id).dpdk.pciDbdf) daemon.world :=
    wp_look (fun _ => trivial) (tending_pciDbdf (· = _)).stable rfl fun s _ here => here
  exact ((wp_onRelay looked).mono fun _ _ outcome => outcome.1).errors (onRelay_naming _)

/-- What a removal relies on: a relay that is found by its device has a path, and the name of the
device of a relay that is found by its path fits the buffer.
-/
structure Daemon.Removable (settings : Settings) (vhostPath : Option (List Char))
    (dev : List Char) (room : Nat) (daemon : Daemon) : Prop where
  path
    : vhostPath = none → dev ≠ []
      → ∀ id, daemon.relayWithDevice settings dev = some id → (daemon.relayIfnameMap id).isSome
  fits
    : ∀ path, vhostPath = some path → dev = []
      → ∀ id, relayOf settings daemon.relayIfnameMap path = some id
        → (daemon.world.relays id).dpdk.pciDbdf.length < room

theorem Daemon.Removable.pair {vhostPath : Option (List Char)} {dev : List Char} {room id : Nat}
    {entry : Option (List Char)} (h : daemon.Removable settings vhostPath dev room)
    (given : ¬ (vhostPath.isNone ∧ dev = []))
    (found : daemon.pairOf settings vhostPath dev = some (id, entry))
    : (∃ path, entry = some path)
      ∧ (dev = [] → (daemon.world.relays id).dpdk.pciDbdf.length < room) := by
  cases vhostPath with
  | some path =>
      obtain ⟨_, there, same⟩ := Option.map_eq_some_iff.mp found
      cases same
      exact ⟨⟨path, rfl⟩, fun absent => h.fits path rfl absent id there⟩
  | none =>
      obtain ⟨_, there, same⟩ := Option.map_eq_some_iff.mp found
      cases same
      have named : dev ≠ [] := fun absent => given ⟨rfl, absent⟩
      exact ⟨Option.isSome_iff_exists.mp (h.path rfl named id there),
        fun absent => absurd absent named⟩

theorem virtioRemoveSockDevPair_safe {vhostPath : Option (List Char)} {dev : List Char}
    {room : Nat} {conditional : Bool} (h : daemon.Removable settings vhostPath dev room)
    : wp sockAccesses (namingContract admits)
        ((virtioRemoveSockDevPair settings vhostPath dev room conditional).checked
          SockInstr.Named .nullPath) (fun _ _ => True) daemon := by
  unfold virtioRemoveSockDevPair
  split
  · trivial
  · rename_i given
    rw [Prog.checked_bind, findPair_naming.checked]
    refine wp.bind (findPair_tells.mono fun found d outcome => ?_)
    obtain ⟨tended, rfl⟩ := outcome
    cases found : daemon.pairOf settings vhostPath dev with
    | none => trivial
    | some pair =>
        obtain ⟨id, entry⟩ := pair
        obtain ⟨⟨path, rfl⟩, fits⟩ := h.pair given found
        dsimp only
        rw [Prog.checked_bind, (onRelay_naming _).checked]
        refine wp.bind (look_device_tells.mono fun seen _ same => ?_)
        rw [(tended.relays id).pciDbdf] at same
        split
        · trivial
        · split
          · rename_i small
            have room := fits small.1
            rw [same] at small
            exact absurd small.2 (not_le.mpr room)
          · rw [removeFoundPair_naming.checked]
            exact removeFoundPair_naming.safe

/-- In a sane state, a request that names a pair can be carried out. -/
theorem PortControlRequest.NamesPair.removable {pc : PortControlRequest}
    (h : pc.NamesPair settings daemon) (remove : pc.op = .removeSock)
    (valid : validatePortControlRequest pc = true) (sane : daemon.Sane)
    : daemon.Removable settings pc.vhostString pc.removedDevice pc.deviceRoom := by
  refine ⟨fun missing => (h remove valid).1 (Option.map_eq_none_iff.mp missing), ?_⟩
  intro path given absent id found
  have short := (sane.1 id).pciDbdf
  unfold PortControlRequest.deviceRoom
  split
  · exact Nat.lt_of_le_of_lt short (by decide)
  · rename_i several
    rw [PortControlRequest.removedDevice, if_neg several,
      PortControlRequest.nameString] at absent
    cases name : pc.name with
    | none => exact Nat.lt_of_le_of_lt short (by decide)
    | some text =>
        have empty : cString text = [] := by simpa [name] using absent
        have fits := (h remove valid).2 several text name empty path given id found
        exact Nat.lt_succ_of_le fits

/-- The operations are carried out without a null path or a copy that does not fit. -/
theorem DaemonOp.code_safe {op : DaemonOp} (sane : daemon.Sane)
    (called : (namedRemovals settings).call () op daemon)
    : wp sockAccesses (namingContract admits)
        ((op.code settings conf).checked SockInstr.Named .nullPath) (fun _ _ => True)
        daemon := by
  cases op with
  | control op =>
      have naming : NamingProg ((DaemonOp.control op).code settings conf) :=
        (onRelay_naming _).bind fun _ => trivial
      rw [naming.checked]
      exact naming.safe
  | request pc =>
      by_cases remove : pc.op = .removeSock
      · simp only [DaemonOp.code, handlePortControlRequest, remove]
        split
        · trivial
        · rename_i valid
          split
          · exact ⟨by decide, by decide⟩
          · unfold portControlHandleRemoveSocket
            rw [Prog.checked_bind]
            have pair := called.removable remove (by simpa using valid) sane
            exact wp.bind ((virtioRemoveSockDevPair_safe pair).mono fun _ _ _ => trivial)
      · have naming : NamingProg ((DaemonOp.request pc).code settings conf) :=
          handlePortControlRequest_naming remove
        rw [naming.checked]
        exact naming.safe

end Removing

-----------------------------------------------------------------------------------------
-- Whole histories
-----------------------------------------------------------------------------------------

/-- Every operation is safe and leaves the daemon sane. -/
def namingOutline (settings : Settings) (conf : SocketConf) (configured : settings.CpusConfigured)
    : Outline ((daemonSystem settings conf).checked SockInstr.Named .nullPath)
        (namedRemovals settings) where
  inv _ := True
  rely _ := Daemon.Tended
  guar _ _ _ := True
  done _ _ _ := Daemon.Sane
  fault := SockFault.Foreign
  refl _ := Daemon.Tended.refl
  trans _ _ _ _ := Daemon.Tended.trans
  stable _ _ _ _ _ later _ := kept_sane later
  others := Daemon.tended_alone
  env _ _ _ _ happened := ⟨trivial, fun _ => Daemon.tended_event happened⟩
  ops _ op s last value _ called sane := by
    have kept := (saneOutline settings conf configured).ops () op s last value trivial trivial sane
    exact kept.checked (DaemonOp.code_safe sane called)

/-- **Removals**: while REMOVE_SOCK requests name a pair, no removal deregisters a null path or
copies the name of a device to a buffer that is too small, whatever is requested otherwise.
-/
theorem removals_safe_of_named_pairs {settings : Settings} {conf : SocketConf}
    (configured : settings.CpusConfigured) {parts : Option SocketNameParts} {useJumbo : Bool}
    {initialized : Nat → Bool} {config : DaemonConfig}
    (run : Run (daemonSystem settings conf) (namedRemovals settings)
      (freshDaemon settings parts useJumbo initialized) config)
    : config.RemovesSafely := by
  have never : ¬ (namingOutline settings conf configured).fault .nullPath :=
    fun foreign => foreign.1 rfl
  have first : (namingOutline settings conf configured).Good
      ((freshDaemon settings parts useJumbo initialized).checked SockInstr.Named .nullPath) :=
    ⟨trivial, fun _ => freshDaemon_sane settings parts useJumbo initialized⟩
  have good := run.good_checked never first
  constructor
  · intro op next running
    exact good.passes never running rfl
  · intro op failed
    have same : (config.checked SockInstr.Named .nullPath).running () = (op, .fail .nameBuffer) := by
      simp only [Config.checked, failed, Prog.checked]
    exact (good.failed same).2 rfl

instance (settings : Settings) (op : DaemonOp) (i : SockInstr) (answer : Int) (daemon : Daemon)
    : Decidable ((namedRemovals settings).instr op i answer daemon) :=
  .isTrue trivial

instance (settings : Settings) (thread : Unit) (op : DaemonOp) (daemon : Daemon)
    : Decidable ((namedRemovals settings).call thread op daemon) :=
  match op with
  | .request pc => inferInstanceAs (Decidable (pc.NamesPair settings daemon))
  | .control _ => .isTrue trivial

/-- The path of the only socket. -/
def onlyPath : List Char := "/tmp/virtio-forwarder0.sock".toList

/-- Witness: a VF is added with a socket, and the pair is removed by the address of the VF. -/
theorem pair_removed_by_address
    : ∃ config : DaemonConfig,
        Run (daemonSystem twoWorkers ⟨false, false⟩) (namedRemovals twoWorkers)
          (freshDaemon twoWorkers none false fun _ => true) config
        ∧ (config.running ()).2.next? = some (.vhost (.driverUnregister (some onlyPath)))
        ∧ config.RemovesSafely := by
  obtain ⟨config, run, reached⟩ := Run.of_follow (daemonSystem twoWorkers ⟨false, false⟩)
    (namedRemovals twoWorkers) (freshDaemon twoWorkers none false fun _ => true)
    (.call () (.request (singleVf .addSock (some onlyPath)))
      :: answered () ([-1] ++ List.replicate 10 0 ++ [1] ++ List.replicate 21 0 ++ [-1, 0, 0, 0, 0])
      ++ .call () (.request (singleVf .removeSock none)) :: answered () [0, 0, 0])
    (fun c => (c.running ()).2.next? = some (.vhost (.driverUnregister (some onlyPath))))
    (by decide +kernel)
  exact ⟨config, run, of_decide_eq_true reached,
    removals_safe_of_named_pairs (fun _ => Or.inl rfl) run⟩

instance (op : DaemonOp) (i : SockInstr) (answer : Int) (daemon : Daemon)
    : Decidable (anyRequests.instr op i answer daemon) :=
  .isTrue trivial

instance (thread : Unit) (op : DaemonOp) (daemon : Daemon)
    : Decidable (anyRequests.call thread op daemon) :=
  .isTrue trivial

/-- A VF that was added without a socket is named in a removal without a path. -/
theorem removal_of_vf_without_socket
    : ¬ ∀ (settings : Settings) (conf : SocketConf) (parts : Option SocketNameParts)
        (useJumbo : Bool) (initialized : Nat → Bool) (config : DaemonConfig),
        settings.CpusConfigured
        → Run (daemonSystem settings conf) anyRequests
            (freshDaemon settings parts useJumbo initialized) config
        → config.RemovesSafely := by
  intro claim
  obtain ⟨config, run, reached⟩ := Run.of_follow (daemonSystem twoWorkers ⟨false, false⟩)
    anyRequests (freshDaemon twoWorkers none false fun _ => true)
    (.call () (.request (singleVf .add none))
      :: answered () (List.replicate 8 0 ++ 1 :: List.replicate 21 0)
      ++ .call () (.request (singleVf .removeSock none)) :: answered () [0, 0, 0])
    (fun c => (c.running ()).2.next? = some (.vhost (.driverUnregister none)))
    (by decide +kernel)
  obtain ⟨next, running⟩ := Prog.eq_instr_of_next? (of_decide_eq_true reached)
  have safe := claim twoWorkers ⟨false, false⟩ none false (fun _ => true) config
    (fun _ => Or.inl rfl) run
  exact safe.1 _ next (Prod.ext rfl running)

end VirtioForwarder
