import VirtioForwarder.Control.RoundTrip
import VirtioForwarder.Service.PortControl
import VirtioForwarder.Sockets.DefaultSockets

/-! Which conditional requests can be repeated: handled again after it was answered with OK,
the request is answered with OK and changes nothing.
-/

namespace VirtioForwarder

open Program

-----------------------------------------------------------------------------------------
-- The system
-----------------------------------------------------------------------------------------

/-- What the daemon is asked to do: a request to the port control service, or a control
operation of another source.
-/
inductive DaemonOp
  | request (pc : PortControlRequest)
  | control (op : Op)
  deriving DecidableEq, Repr

/-- The program of an operation; the response of other sources does not matter. -/
def DaemonOp.code (settings : Settings) (conf : SocketConf)
    : DaemonOp → SockProg PortControlResponse
  | .request pc => handlePortControlRequest settings conf pc
  | .control op => do
      let _ ← onRelay op.relay (op.code settings)
      return .initial

/-- The operations with the workers as their environment. -/
def daemonSystem (settings : Settings) (conf : SocketConf)
    : System DaemonOp SockInstr Int Daemon SockFault Daemon Event PortControlResponse where
  exec _ := SockInstr.exec
  obs daemon := daemon
  env := Daemon.event settings
  code := DaemonOp.code settings conf

/-- A configuration of the daemon with one thread of operations. -/
abbrev DaemonConfig :=
  Config Unit DaemonOp SockInstr Int Daemon SockFault Daemon PortControlResponse

/-- The daemon after its start, with the default sockets or, in dynamic-socket mode, without. -/
def freshDaemon (settings : Settings) (parts : Option SocketNameParts) (useJumbo : Bool)
    (initialized : Nat → Bool) : DaemonConfig :=
  .idle ⟨World.initial settings useJumbo initialized, startSockets settings parts⟩
    (.control (.removeVirtio 0)) .initial

/-- Operations one after another, with any answers. -/
def anyRequests : Policy Unit DaemonOp SockInstr Int Daemon where
  instr _ _ _ _ := True
  call _ _ _ := True

/-- A single operation, with any answers. -/
def oneRequest : Policy Unit DaemonOp SockInstr Int Daemon where
  instr _ _ _ _ := True
  call _ _ _ := False

/-- A request begins to be handled. -/
def handled (settings : Settings) (conf : SocketConf) (daemon : Daemon) (pc : PortControlRequest)
    : DaemonConfig :=
  ⟨daemon, fun _ => (.request pc, handlePortControlRequest settings conf pc)⟩

/-- What the workers alone make of the daemon. -/
def Daemon.Workers (settings : Settings) : Daemon → Daemon → Prop :=
  Relation.ReflTransGen fun before after => ∃ event, before.event settings event = some after

theorem Daemon.Workers.tended {settings : Settings} {before after : Daemon}
    (h : before.Workers settings after)
    : before.Tended after := by
  induction h with
  | refl => exact .refl before
  | tail _ step ih =>
      obtain ⟨event, happened⟩ := step
      exact ih.trans (Daemon.tended_event happened)

/-- Handled in this state, the request is answered with OK, and only the workers change the
daemon meanwhile.
-/
def Daemon.Repeats (settings : Settings) (conf : SocketConf) (pc : PortControlRequest)
    (daemon : Daemon) : Prop :=
  ∀ again, Run (daemonSystem settings conf) oneRequest (handled settings conf daemon pc) again
    → (∀ op error, again.running () ≠ (op, .fail error))
      ∧ ∀ op response,
          again.running () = (op, .ret response)
          → response.status = .ok ∧ daemon.Workers settings again.state

-----------------------------------------------------------------------------------------
-- Tidy relays at the level of the daemon
-----------------------------------------------------------------------------------------

section Outcomes

variable {settings : Settings} {conf : SocketConf} {admits : SockInstr → Int → Daemon → Prop}
  {daemon : Daemon} {m : Nat → Option (List Char)} {id : Nat}

theorem tending_world_tidy : TendingWorld World.Tidy :=
  fun _ _ tended tidy id => tending_tidy (tended id) (tidy id)

/-- A control program that keeps its relay tidy keeps all relays tidy and all paths. -/
theorem wp_onRelay_tidy {α : Type} {p : Control α} (post : α → Relay → Prop)
    (h : daemon.relayIfnameMap = m ∧ daemon.world.Tidy)
    (here : wp (accesses id) (soloContract (fun _ _ _ => True) fun _ => True) p
      (fun a s => (s.relays id).Tidy ∧ post a (s.relays id)) daemon.world)
    : wp sockAccesses (sockContract admits) (onRelay id p)
        (fun a d => (d.relayIfnameMap = m ∧ d.world.Tidy) ∧ post a (d.world.relays id))
        daemon := by
  refine (wp_onRelay here).mono fun a d outcome => ?_
  obtain ⟨⟨tidy, held⟩, map, others⟩ := outcome
  refine ⟨⟨map.trans h.1, fun i => ?_⟩, held⟩
  rcases eq_or_ne i id with rfl | away
  · exact tidy
  · exact tending_tidy (others i away) (h.2 i)

theorem wp_onRelay_tidy_only {α : Type} {p : Control α}
    (h : daemon.relayIfnameMap = m ∧ daemon.world.Tidy)
    (here : wp (accesses id) (soloContract (fun _ _ _ => True) fun _ => True) p
      (fun _ s => (s.relays id).Tidy) daemon.world)
    : wp sockAccesses (sockContract admits) (onRelay id p)
        (fun _ d => d.relayIfnameMap = m ∧ d.world.Tidy) daemon :=
  (wp_onRelay_tidy (fun _ _ => True) h (here.mono fun _ _ tidy => ⟨tidy, trivial⟩)).mono
    fun _ _ outcome => outcome.1

theorem addPairDevice_tidy {slaves : List (List Char)} {name : Option (List Char)}
    {conditional : Bool} (h : daemon.relayIfnameMap = m ∧ daemon.world.Tidy)
    : wp sockAccesses (sockContract admits) (addPairDevice settings slaves name conditional id)
        (fun _ d => d.relayIfnameMap = m ∧ d.world.Tidy) daemon := by
  unfold addPairDevice
  split
  · refine wp.bind ((wp_onRelay_tidy_only h ((addVf2_tidy (h.2 id)).mono
      fun _ _ tidy => tidy.1)).mono fun err d held => ?_)
    split <;> exact held
  · refine wp.bind ((wp_onRelay_tidy_only h ((bondAdd_tidy (h.2 id)).mono
      fun _ _ tidy => tidy.1)).mono fun err d held => ?_)
    split <;> exact held
  · exact h

/-- A new pair registers a path that was not there. -/
theorem virtioAddSockDevPair_registers {vhostPath : Option (List Char)}
    {slaves : List (List Char)} {name : Option (List Char)} {conditional : Bool}
    (h : daemon.relayIfnameMap = m ∧ daemon.world.Tidy)
    : wp sockAccesses (sockContract admits)
        (virtioAddSockDevPair settings conf vhostPath slaves name conditional)
        (fun err d => d.world.Tidy ∧ (err = 0 → d.relayIfnameMap ≠ m)) daemon := by
  have fails {d : Daemon} {err : Int} (tidy : d.world.Tidy) (failed : err ≠ 0)
      : d.world.Tidy ∧ (err = 0 → d.relayIfnameMap ≠ m) :=
    ⟨tidy, fun ok => absurd ok failed⟩
  cases vhostPath with
  | none => exact fails h.2 (by decide)
  | some path =>
      refine wp.bind (portByName_tends.mono fun port d tended => ?_)
      have h := kept_map tending_world_tidy m tended h
      split
      · exact fails h.2 (by decide)
      · refine wp.bind ((getRelayForSock_finds tending_world_tidy h).mono fun found d outcome => ?_)
        obtain ⟨h, _⟩ := outcome
        split
        · exact fails h.2 (by decide)
        · refine wp.bind ((virtioGetFreeRelayId_free tending_world_tidy h).mono
            fun found d outcome => ?_)
          obtain ⟨h, free⟩ := outcome
          cases found with
          | none => exact fails h.2 (by decide)
          | some id =>
              obtain ⟨_, _, free⟩ := free id rfl
              refine wp.bind ((addPairDevice_tidy h).mono fun err d h => ?_)
              split
              · rename_i failed
                exact fails h.2 failed
              · refine wp.bind ((registerRelaySocket_registers tending_world_tidy h free).mono
                  fun err d outcome => ?_)
                obtain ⟨tidy, registered⟩ := outcome
                split
                · rename_i ok
                  rcases registered with ⟨_, map⟩ | ⟨failed, _⟩
                  · refine ⟨tidy, fun _ same => ?_⟩
                    have there := congrFun (map.symm.trans same) id
                    rw [Function.update_self, free] at there
                    cases there
                  · exact absurd ok failed
                · refine wp.bind ((wp_onRelay_tidy_only ⟨rfl, tidy⟩
                    (removeVf2_tidy (tidy id))).mono fun _ d h => ?_)
                  refine wp.bind ((deregisterSocket_frees tending_world_tidy h).mono
                    fun _ d outcome => ?_)
                  exact fails outcome.1 (by decide)

/-- A pair that was found is removed together with its path. -/
theorem removeFoundPair_frees {path : Option (List Char)} {dev : List Char} {conditional : Bool}
    (h : daemon.relayIfnameMap = m ∧ daemon.world.Tidy)
    : wp sockAccesses (sockContract admits) (removeFoundPair settings id path dev conditional)
        (fun err d => d.world.Tidy ∧ (err = 0 → d.relayIfnameMap ≠ m)) daemon := by
  have fails {d : Daemon} {err : Int} (tidy : d.world.Tidy) (failed : err ≠ 0)
      : d.world.Tidy ∧ (err = 0 → d.relayIfnameMap ≠ m) :=
    ⟨tidy, fun ok => absurd ok failed⟩
  refine wp.bind ((wp_onRelay_tidy_only h (removeVirtio_tidy (h.2 id))).mono fun _ d h => ?_)
  cases path with
  | none =>
      refine wp.bind ((deregisterSocket_null tending_world_tidy h).mono fun err d outcome => ?_)
      obtain ⟨rfl, _, tidy⟩ := outcome
      exact fails tidy (by decide)
  | some path =>
      refine wp.bind ((deregisterSocket_frees tending_world_tidy h).mono fun err d outcome => ?_)
      obtain ⟨tidy, ⟨_, rfl, _⟩ | ⟨found, there, map, _⟩⟩ := outcome
      · exact fails tidy (by decide)
      · split
        · exact fails tidy (by decide)
        · refine wp.bind ((wp_onRelay_tidy_only ⟨map, tidy⟩
            (removeVf2_tidy (tidy id))).mono fun err d h => ?_)
          split
          · exact fails h.2 (by decide)
          · refine ⟨h.2, fun _ same => ?_⟩
            have gone := congrFun (h.1.symm.trans same) found
            rw [Function.update_self, (relayOf_eq_some there).2] at gone
            cases gone

/-- The removal of a pair frees a path that was there. -/
theorem virtioRemoveSockDevPair_frees {vhostPath : Option (List Char)} {dev : List Char}
    {room : Nat} {conditional : Bool} (h : daemon.relayIfnameMap = m ∧ daemon.world.Tidy)
    : wp sockAccesses (sockContract admits)
        (virtioRemoveSockDevPair settings vhostPath dev room conditional)
        (fun err d => d.world.Tidy ∧ (err = 0 → d.relayIfnameMap ≠ m)) daemon := by
  have fails {d : Daemon} {err : Int} (tidy : d.world.Tidy) (failed : err ≠ 0)
      : d.world.Tidy ∧ (err = 0 → d.relayIfnameMap ≠ m) :=
    ⟨tidy, fun ok => absurd ok failed⟩
  unfold virtioRemoveSockDevPair
  split
  · exact fails h.2 (by decide)
  · refine wp.bind ((findPair_finds tending_world_tidy h).mono fun found d outcome => ?_)
    obtain ⟨h, _⟩ := outcome
    cases found with
    | none => exact fails h.2 (by decide)
    | some pair =>
        obtain ⟨id, path⟩ := pair
        have looking : (look id .device).All Instr.SparesDevice fun _ => True := .perform trivial
        refine wp.bind ((wp_onRelay_tidy_only h (wp_tend looking tending_tidy (h.2 id))).mono
          fun seen d h => ?_)
        dsimp only
        split
        · exact fails h.2 (by decide)
        · split
          · trivial
          · exact removeFoundPair_frees h

/-- The device that an ADD request attaches. -/
def PortControlRequest.addedDevice (pc : PortControlRequest) : List Char :=
  (pairDevice pc.dbdfAddrs pc.nameString).getD []

/-- What a request that is answered with OK has done, by its operation. -/
def PortControlRequest.Done (settings : Settings) (pc : PortControlRequest)
    (m : Nat → Option (List Char)) (daemon : Daemon) : Prop :=
  match pc.op with
  | .add =>
      pc.relay < settings.maxRelays ∧ (daemon.world.relays pc.relay).Active
      ∧ (daemon.world.relays pc.relay).dpdk.pciDbdf = storedDbdf pc.addedDevice
  | .remove => pc.relay < settings.maxRelays ∧ ¬ (daemon.world.relays pc.relay).Active
  | .addSock | .removeSock => daemon.relayIfnameMap ≠ m
  | .queryPci | .other _ => True

theorem setErrorCode_ok {response : PortControlResponse} {source : String} {code : Int}
    (before : response.status = .error)
    : (setErrorCode response source code).status = .ok ↔ code = 0 := by
  unfold setErrorCode
  split
  · rename_i ok
    exact ⟨fun _ => ok, fun _ => rfl⟩
  · rename_i failed
    refine ⟨fun ok => ?_, fun ok => absurd ok failed⟩
    rw [before] at ok
    cases ok

theorem portControlHandleAdd_done {pc : PortControlRequest}
    (h : daemon.relayIfnameMap = m ∧ daemon.world.Tidy)
    : wp sockAccesses (sockContract admits) (portControlHandleAdd settings pc)
        (fun response d => d.world.Tidy
          ∧ (response.status = .ok → pc.relay < settings.maxRelays
            ∧ (d.world.relays pc.relay).Active
            ∧ (d.world.relays pc.relay).dpdk.pciDbdf = storedDbdf pc.addedDevice)) daemon := by
  -- both kinds of devices are attached to a relay of the table
  have attach {p : Control Int} {dev : List Char} {source : String}
      (device : dev = pc.addedDevice)
      (below : p.Returns fun err => err = 0 → pc.relay < settings.maxRelays)
      (here : wp (accesses pc.relay) (soloContract (fun _ _ _ => True) fun _ => True) p
        (fun err s => (s.relays pc.relay).Tidy
          ∧ (err = 0 → (s.relays pc.relay).Active
            ∧ (s.relays pc.relay).dpdk.pciDbdf = storedDbdf dev)) daemon.world)
      : wp sockAccesses (sockContract admits)
          (do return setErrorCode .initial source (← onRelay pc.relay p))
          (fun response d => d.world.Tidy
            ∧ (response.status = .ok → pc.relay < settings.maxRelays
              ∧ (d.world.relays pc.relay).Active
              ∧ (d.world.relays pc.relay).dpdk.pciDbdf = storedDbdf pc.addedDevice)) daemon := by
    subst device
    refine wp.bind ((wp_onRelay_tidy (fun err relay => (err = 0 → pc.relay < settings.maxRelays)
      ∧ (err = 0 → relay.Active ∧ relay.dpdk.pciDbdf = storedDbdf pc.addedDevice)) h
      ((here.returns below).mono fun err s outcome =>
        ⟨outcome.2.1, outcome.1, outcome.2.2⟩)).mono fun code d outcome => ?_)
    obtain ⟨⟨_, tidy⟩, below, attached⟩ := outcome
    refine ⟨tidy, fun ok => ?_⟩
    have zero := (setErrorCode_ok rfl).mp ok
    exact ⟨below zero, attached zero⟩
  unfold portControlHandleAdd
  split
  · exact ⟨h.2, nofun⟩
  · rename_i dbdf single
    refine attach ?_ ?_ (addVf2_tidy (h.2 _))
    · simp only [PortControlRequest.addedDevice, single, pairDevice, Option.getD_some]
    · unfold addVf2
      split
      · exact fun ok => absurd ok (by decide)
      · exact .of_forall (fun _ _ => by omega) _
  · rename_i slaves several single
    refine attach ?_ ?_ (bondAdd_tidy (h.2 _))
    · unfold PortControlRequest.addedDevice pairDevice
      split
      · rename_i dbdf same
        exact absurd same (single dbdf)
      · rfl
    · unfold bondAdd
      split
      · exact fun ok => absurd ok (by decide)
      · exact .of_forall (fun _ _ => by omega) _

theorem virtioQueryPci_tidy {vhostPath : Option (List Char)}
    (h : daemon.relayIfnameMap = m ∧ daemon.world.Tidy)
    : wp sockAccesses (sockContract admits) (virtioQueryPci settings vhostPath)
        (fun _ d => d.world.Tidy) daemon := by
  cases vhostPath with
  | none => exact h.2
  | some path =>
      refine wp.bind ((getRelayForSock_finds tending_world_tidy h).mono fun found d outcome => ?_)
      obtain ⟨h, _⟩ := outcome
      cases found with
      | none => exact h.2
      | some id =>
          have looking : (look id .device).All Instr.SparesDevice fun _ => True := .perform trivial
          exact wp.bind ((wp_onRelay_tidy_only h (wp_tend looking tending_tidy (h.2 id))).mono
            fun _ _ held => held.2)

/-- What handling a request does. -/
theorem handlePortControlRequest_done {pc : PortControlRequest}
    (h : daemon.relayIfnameMap = m ∧ daemon.world.Tidy)
    : wp sockAccesses (sockContract admits) (handlePortControlRequest settings conf pc)
        (fun response d => d.world.Tidy
          ∧ (response.status = .ok
            → (validatePortControlRequest pc = true ∧ pc.pciAddrs.length ≤ maxNumBondSlaves)
              ∧ pc.Done settings m d)) daemon := by
  unfold handlePortControlRequest
  split
  · exact ⟨h.2, nofun⟩
  · rename_i valid
    split
    · trivial
    · rename_i room
      have checked : validatePortControlRequest pc = true
          ∧ pc.pciAddrs.length ≤ maxNumBondSlaves := ⟨by simpa using valid, not_lt.mp room⟩
      have pair {p : SockProg Int} {source : String}
          (changes : wp sockAccesses (sockContract admits) p
            (fun err d => d.world.Tidy ∧ (err = 0 → d.relayIfnameMap ≠ m)) daemon)
          : wp sockAccesses (sockContract admits) (do return setErrorCode .initial source (← p))
              (fun response d => d.world.Tidy
                ∧ (response.status = .ok → d.relayIfnameMap ≠ m)) daemon :=
        wp.bind (changes.mono fun _ _ outcome =>
          ⟨outcome.1, fun ok => outcome.2 ((setErrorCode_ok rfl).mp ok)⟩)
      split
      · rename_i op
        refine (portControlHandleAdd_done h).mono fun response d outcome => ⟨outcome.1, fun ok => ?_⟩
        simp only [PortControlRequest.Done, op]
        exact ⟨checked, outcome.2 ok⟩
      · rename_i op
        refine wp.bind ((wp_onRelay_tidy (fun err relay =>
          err = 0 → pc.relay < settings.maxRelays ∧ ¬ relay.Active) h
          (removeVf2_gone (h.2 _))).mono fun code d outcome => ?_)
        refine ⟨outcome.1.2, fun ok => ?_⟩
        simp only [PortControlRequest.Done, op]
        exact ⟨checked, outcome.2 ((setErrorCode_ok rfl).mp ok)⟩
      · rename_i op
        refine (pair (virtioAddSockDevPair_registers h)).mono fun response d outcome =>
          ⟨outcome.1, fun ok => ?_⟩
        simp only [PortControlRequest.Done, op]
        exact ⟨checked, outcome.2 ok⟩
      · rename_i op
        refine (pair (virtioRemoveSockDevPair_frees h)).mono fun response d outcome =>
          ⟨outcome.1, fun ok => ?_⟩
        simp only [PortControlRequest.Done, op]
        exact ⟨checked, outcome.2 ok⟩
      · rename_i op
        refine wp.bind ((virtioQueryPci_tidy h).mono fun result d tidy => ?_)
        refine ⟨tidy, fun _ => ?_⟩
        simp only [PortControlRequest.Done, op]
        exact ⟨checked, trivial⟩
      · exact ⟨h.2, nofun⟩

end Outcomes

-----------------------------------------------------------------------------------------
-- Histories
-----------------------------------------------------------------------------------------

/-- The relays know their numbers. -/
def Daemon.Numbered (daemon : Daemon) : Prop := ∀ id, (daemon.world.relays id).id = id

theorem Write.id_apply (write : Write) (relay : Relay) : (write.apply relay).id = relay.id := by
  cases write <;> rfl

theorem World.id_modifyRelay {world : World} {target : Nat} {f : Relay → Relay}
    (same : ∀ relay, (f relay).id = relay.id) (id : Nat)
    : ((world.modifyRelay target f).relays id).id = (world.relays id).id := by
  rcases eq_or_ne id target with rfl | away
  · rw [World.relays_modifyRelay_self, same]
  · rw [World.relays_modifyRelay_of_ne world f away]

/-- No access changes the number of a relay. -/
theorem SockInstr.numbered (instr : SockInstr) (answer : Int) {daemon : Daemon}
    (h : daemon.Numbered)
    : (instr.exec answer daemon).Numbered := by
  intro id
  refine (?_ : _ = (daemon.world.relays id).id).trans (h id)
  cases instr with
  | control target access =>
      cases access with
      | write assignment => exact World.id_modifyRelay (Write.id_apply assignment) id
      | call request =>
          change ((request.apply answer daemon.world).relays id).id = _
          rw [DriverCall.relays_apply]
      | read | flagWorker | logTimeout => rfl
  | vringStateChange target change =>
      refine @World.id_modifyRelay daemon.world target
        (fun relay => VirtioForwarder.vringStateChange relay change.queueId change.enable)
        (fun relay => ?_) id
      unfold VirtioForwarder.vringStateChange RelayVirtio.deriveQueues
      rfl
  | readMap | writeMap | vhost => rfl

/-- Between operations the relays are tidy and know their numbers. -/
def Daemon.Sane (daemon : Daemon) : Prop := daemon.world.Tidy ∧ daemon.Numbered

theorem kept_numbered : Kept Daemon.Numbered :=
  fun _ _ tended h id => (tended.relays id).id.trans (h id)

theorem kept_sane : Kept Daemon.Sane :=
  fun _ _ tended h => ⟨tending_world_tidy tended.relays h.1, kept_numbered tended h.2⟩

/-- Every operation leaves the daemon sane. -/
def saneOutline (settings : Settings) (conf : SocketConf) (configured : settings.CpusConfigured)
    : Outline (daemonSystem settings conf) anyRequests where
  inv _ := True
  rely _ := Daemon.Tended
  guar _ _ _ := True
  done _ _ _ := Daemon.Sane
  fault _ := True
  refl _ := Daemon.Tended.refl
  trans _ _ _ _ := Daemon.Tended.trans
  stable _ _ _ _ _ later _ := kept_sane later
  others := Daemon.tended_alone
  env _ _ _ _ happened := ⟨trivial, fun _ => Daemon.tended_event happened⟩
  ops _ op s _ _ _ _ sane := by
    have tidy : wp sockAccesses (sockContract (anyRequests.instr op)) (op.code settings conf)
        (fun _ d => d.world.Tidy) s := by
      cases op with
      | request pc =>
          exact (handlePortControlRequest_done ⟨rfl, sane.1⟩).mono fun _ _ outcome => outcome.1
      | control op =>
          exact wp.bind ((wp_onRelay_tidy_only ⟨rfl, sane.1⟩
            (op.code_tidy configured (sane.1 op.relay))).mono fun _ _ held => held.2)
    exact tidy.frame kept_numbered.stable (fun i answer s => i.numbered answer) sane.2

theorem freshDaemon_sane (settings : Settings) (parts : Option SocketNameParts) (useJumbo : Bool)
    (initialized : Nat → Bool)
    : (freshDaemon settings parts useJumbo initialized).state.Sane := by
  refine ⟨fun id => ⟨Nat.zero_le _, fun active => ?_⟩, fun id => rfl⟩
  rcases active with ready | added
  · cases ready
  · cases added

theorem sane_of_requests {settings : Settings} {conf : SocketConf}
    (configured : settings.CpusConfigured) {parts : Option SocketNameParts} {useJumbo : Bool}
    {initialized : Nat → Bool} {config : DaemonConfig}
    (history : Run (daemonSystem settings conf) anyRequests
      (freshDaemon settings parts useJumbo initialized) config)
    {op : DaemonOp} {response : PortControlResponse}
    (idle : config.running () = (op, .ret response))
    : config.state.Sane := by
  have first : (saneOutline settings conf configured).Good
      (freshDaemon settings parts useJumbo initialized) :=
    ⟨trivial, fun _ => freshDaemon_sane settings parts useJumbo initialized⟩
  exact (history.good first).returned idle

-----------------------------------------------------------------------------------------
-- The second time
-----------------------------------------------------------------------------------------

section Again

variable {settings : Settings} {conf : SocketConf} {admits : SockInstr → Int → Daemon → Prop}
  {daemon : Daemon} {world : World} {id : Nat}

/-- The contract of a control program that changes nothing. -/
abbrev watchContract : Contract Instr Int Abort World :=
  ⟨fun _ => True, fun s s' => ∀ id, (s.relays id).Tended (s'.relays id), fun s s' => s' = s,
    fun _ _ _ => True, fun _ => False⟩

/-- A control program that changes nothing leaves the daemon to the workers. -/
theorem wp_onRelay_watch {α : Type} {p : Control α} {post : α → Prop}
    (h : wp (accesses id) watchContract p (fun a _ => post a) daemon.world)
    : wp sockAccesses
        ⟨fun _ => True, Daemon.Workers settings, fun _ _ => True, admits, fun _ => False⟩
        (onRelay id p) (fun a d => post a ∧ daemon.Workers settings d) daemon := by
  induction p generalizing daemon with
  | ret a => exact ⟨h, .refl⟩
  | fail e => exact h
  | instr i next ih =>
      intro middle later _ answer _
      obtain ⟨_, same, rest⟩ := h middle.world later.tended.relays trivial answer trivial
      have unchanged : SockInstr.exec (.control id i) answer middle = middle := by
        change { middle with world := i.exec id answer middle.world } = middle
        rw [show i.exec id answer middle.world = middle.world from same]
      refine ⟨trivial, trivial, ?_⟩
      change wp _ _ _ _ (SockInstr.exec (.control id i) answer middle)
      rw [unchanged]
      rw [show (accesses id).exec i answer middle.world = middle.world from same] at rest
      exact (ih answer middle.world rest).mono fun a d outcome =>
        ⟨outcome.1, later.trans outcome.2⟩

theorem beholding_watch : Beholding watchContract :=
  ⟨fun _ => rfl, fun _ _ later => later⟩

/-- A conditional add of the device that is attached is answered with 0. -/
theorem addVf2_again {dbdf : List Char} (below : id < settings.maxRelays)
    (active : (world.relays id).Active) (name : (world.relays id).dpdk.pciDbdf = dbdf)
    (number : (world.relays id).id = id)
    : wp (accesses id) watchContract (addVf2 settings dbdf id true) (fun err _ => err = 0)
        world := by
  have known : Tending fun relay =>
      (relay.Active ∧ relay.dpdk.pciDbdf = dbdf) ∧ relay.id = id :=
    (tending_active.and (tending_pciDbdf (· = dbdf))).and fun _ _ tended h => tended.id.trans h
  unfold addVf2
  rw [if_neg (not_le.mpr below)]
  refine wp_behold_bind beholding_watch known ⟨⟨active, name⟩, number⟩ fun s held => ?_
  have used : (s.relays id).dpdk.state ≠ .uninit := by
    intro uninit
    exact DpdkState.Leaving.inactive (Or.inr (Or.inr uninit)) held.1.1
  rw [if_pos used]
  refine wp.bind (wp.bind ((vfActive_beholds beholding_watch known held).mono
    fun found s told => ?_))
  obtain ⟨held, found⟩ := told
  rw [found.mpr held.1.1]
  refine wp_behold_bind beholding_watch known held fun s held => ?_
  simp only [held.2, held.1.2, and_self, decide_true]
  rfl

/-- A conditional removal without a device is answered with 0. -/
theorem removeVf2_again {dbdf : List Char} (below : id < settings.maxRelays)
    (inactive : ¬ (world.relays id).Active)
    : wp (accesses id) watchContract (removeVf2 settings dbdf id true) (fun err _ => err = 0)
        world := by
  unfold removeVf2
  rw [if_neg (not_le.mpr below)]
  refine wp.bind ((vfActive_beholds beholding_watch tending_inactive inactive).mono
    fun found s told => ?_)
  obtain ⟨inactive, found⟩ := told
  rw [if_neg fun there => inactive (found.mp there)]
  rfl

/-- An add to a relay with a device succeeds only under the name of that device. -/
theorem addVf2_taken {dbdf name : List Char} {conditional : Bool}
    (active : (world.relays id).Active) (stored : (world.relays id).dpdk.pciDbdf = name)
    : wp (accesses id) (soloContract (fun _ _ _ => True) fun _ => True)
        (addVf2 settings dbdf id conditional) (fun err _ => err = 0 → name = dbdf) world := by
  have known : Tending fun relay => relay.Active ∧ relay.dpdk.pciDbdf = name :=
    tending_active.and (tending_pciDbdf (· = name))
  unfold addVf2
  split
  · exact fun ok => absurd ok (by decide)
  · refine wp_see_bind known ⟨active, stored⟩ fun s held => ?_
    have used : (s.relays id).dpdk.state ≠ .uninit := by
      intro uninit
      exact DpdkState.Leaving.inactive (Or.inr (Or.inr uninit)) held.1
    rw [if_pos used]
    split
    · exact fun ok => absurd ok (by decide)
    · refine wp.bind ((conditionalAddOk_tells known held).mono fun found s told => ?_)
      obtain ⟨held, found⟩ := told
      split
      · rename_i there
        exact fun _ => held.2.symm.trans (found there).2
      · exact fun ok => absurd ok (by decide)

/-- A bond is never added to a relay with a device. -/
theorem bondAdd_taken {slaves : List (List Char)} {name : List Char}
    (active : (world.relays id).Active)
    : wp (accesses id) (soloContract (fun _ _ _ => True) fun _ => True)
        (bondAdd settings slaves name id) (fun err _ => err ≠ 0) world := by
  unfold bondAdd
  split
  · exact (by decide : (1 : Int) ≠ 0)
  · refine wp_see_bind tending_active active fun s active => ?_
    have used : (s.relays id).dpdk.state ≠ .uninit := by
      intro uninit
      exact DpdkState.Leaving.inactive (Or.inr (Or.inr uninit)) active
    rw [if_pos used]
    exact (by decide : (8 : Int) ≠ 0)

/-- An ADD request for a relay with its device is answered with OK only if it names a single VF
whose name was stored in full.
-/
theorem portControlHandleAdd_taken {pc : PortControlRequest}
    (active : (daemon.world.relays pc.relay).Active)
    (stored : (daemon.world.relays pc.relay).dpdk.pciDbdf = storedDbdf pc.addedDevice)
    : wp sockAccesses (sockContract admits) (portControlHandleAdd settings pc)
        (fun response _ => response.status = .ok
          → ∃ address, pc.pciAddrs = [address] ∧ (pciAddressToStr address).length ≤ 19)
        daemon := by
  unfold portControlHandleAdd
  split
  · exact nofun
  · rename_i dbdf single
    refine wp.bind ((wp_onRelay (addVf2_taken active stored)).mono fun code d outcome ok => ?_)
    have same := outcome.1 ((setErrorCode_ok rfl).mp ok)
    obtain ⟨address, addresses, rfl⟩ := List.map_eq_singleton_iff.mp single
    refine ⟨address, addresses, ?_⟩
    have short := storedDbdf_length pc.addedDevice
    rwa [same] at short
  · refine wp.bind ((wp_onRelay (bondAdd_taken active)).mono fun code d outcome ok => ?_)
    exact absurd ((setErrorCode_ok rfl).mp ok) outcome.1

/-- The contract of a request beside the workers, which must come to an answer. -/
abbrev answerContract (settings : Settings) (admits : SockInstr → Int → Daemon → Prop)
    : Contract SockInstr Int SockFault Daemon :=
  ⟨fun _ => True, Daemon.Workers settings, fun _ _ => True, admits, fun _ => False⟩

/-- A control program that changes nothing and returns 0 makes a response of OK. -/
theorem wp_response_watch {p : Control Int} {source : String}
    (h : wp (accesses id) watchContract p (fun err _ => err = 0) daemon.world)
    : wp sockAccesses (answerContract settings admits)
        (do return setErrorCode .initial source (← onRelay id p))
        (fun response d => response.status = .ok ∧ daemon.Workers settings d) daemon :=
  wp.bind ((wp_onRelay_watch h).mono fun _ _ outcome =>
    ⟨(setErrorCode_ok rfl).mpr outcome.1, outcome.2⟩)

/-- A conditional REMOVE request is answered with OK while there is no device. -/
theorem portControlHandleRemove_again {pc : PortControlRequest}
    (conditional : pc.isConditional = true) (below : pc.relay < settings.maxRelays)
    (inactive : ¬ (daemon.world.relays pc.relay).Active)
    : wp sockAccesses (answerContract settings admits) (portControlHandleRemove settings pc)
        (fun response d => response.status = .ok ∧ daemon.Workers settings d) daemon := by
  unfold portControlHandleRemove
  rw [conditional]
  exact wp_response_watch (removeVf2_again below inactive)

/-- A conditional ADD request for a single VF is answered with OK while this VF is attached
under its full name.
-/
theorem portControlHandleAdd_again {pc : PortControlRequest} {address : RequestPciAddress}
    (conditional : pc.isConditional = true) (single : pc.pciAddrs = [address])
    (short : (pciAddressToStr address).length ≤ 19) (below : pc.relay < settings.maxRelays)
    (active : (daemon.world.relays pc.relay).Active)
    (stored : (daemon.world.relays pc.relay).dpdk.pciDbdf = storedDbdf pc.addedDevice)
    (number : (daemon.world.relays pc.relay).id = pc.relay)
    : wp sockAccesses (answerContract settings admits) (portControlHandleAdd settings pc)
        (fun response d => response.status = .ok ∧ daemon.Workers settings d) daemon := by
  have addresses : pc.dbdfAddrs = [pciAddressToStr address] := by
    simp only [PortControlRequest.dbdfAddrs, single, List.map_cons, List.map_nil]
  have full : (daemon.world.relays pc.relay).dpdk.pciDbdf = pciAddressToStr address := by
    rw [stored, PortControlRequest.addedDevice, addresses]
    exact List.take_of_length_le short
  unfold portControlHandleAdd
  rw [addresses, conditional]
  exact wp_response_watch (addVf2_again below active full number)

end Again

-----------------------------------------------------------------------------------------
-- Requests that can be repeated
-----------------------------------------------------------------------------------------

section Repeated

variable {settings : Settings} {conf : SocketConf} {daemon : Daemon} {pc : PortControlRequest}

/-- A request that is answered with OK beside the workers can be repeated. -/
theorem Daemon.repeats_of_wp
    (h : wp sockAccesses (answerContract settings (oneRequest.instr (.request pc)))
      (handlePortControlRequest settings conf pc)
      (fun response d => response.status = .ok ∧ daemon.Workers settings d) daemon)
    : daemon.Repeats settings conf pc := by
  intro again run
  have outcome := Run.solo (daemonSystem settings conf) (Daemon.Workers settings) (fun _ => False)
    (fun _ _ _ called => called) (fun _ => .refl) (fun _ _ _ first rest => first.trans rest)
    (fun event s s' happened => .single ⟨event, happened⟩)
    (fun response s s' later held => ⟨held.1, held.2.trans later⟩) h run
  exact ⟨fun op error failed => outcome.2 op error failed,
    fun op response returned => outcome.1 op response returned⟩

/-- A request that can be repeated has a run that answers with OK. -/
theorem Daemon.Repeats.answered (h : daemon.Repeats settings conf pc)
    : ∃ again response,
        Run (daemonSystem settings conf) oneRequest (handled settings conf daemon pc) again
        ∧ again.running () = (.request pc, .ret response) ∧ response.status = .ok
        ∧ daemon.Workers settings again.state := by
  obtain ⟨again, run, ended⟩ := Run.finishes (daemonSystem settings conf)
    oneRequest (fun _ _ _ _ => trivial) (.request pc)
    (handlePortControlRequest settings conf pc) daemon
  rcases ended with ⟨response, returned⟩ | ⟨error, failed⟩
  · obtain ⟨ok, workers⟩ := (h again run).2 _ response returned
    exact ⟨again, response, run, returned, ok, workers⟩
  · exact absurd failed ((h again run).1 _ error)

/-- What a request that is proved beside the workers has done when it was answered. -/
theorem response_of_wp {post : PortControlResponse → Daemon → Prop}
    (h : wp sockAccesses (sockContract (oneRequest.instr (.request pc)))
      (handlePortControlRequest settings conf pc) post daemon)
    (kept : ∀ response, Kept (post response)) {config : DaemonConfig}
    (run : Run (daemonSystem settings conf) oneRequest (handled settings conf daemon pc) config)
    {op : DaemonOp} {response : PortControlResponse}
    (returned : config.running () = (op, .ret response))
    : post response config.state :=
  (Run.solo (daemonSystem settings conf) Daemon.Tended (fun _ => True)
    (fun _ _ _ called => called) .refl (fun _ _ _ => Daemon.Tended.trans)
    (fun _ _ _ happened => Daemon.tended_event happened)
    (fun response _ _ later held => kept response later held) h run).1 op response returned

theorem kept_done {m : Nat → Option (List Char)} : Kept (pc.Done settings m) := by
  intro before after tended h
  unfold PortControlRequest.Done at *
  split at h
  · exact ⟨h.1, tending_active (tended.relays pc.relay) h.2.1,
      tending_pciDbdf (· = storedDbdf pc.addedDevice) (tended.relays pc.relay) h.2.2⟩
  · exact ⟨h.1, tending_inactive (tended.relays pc.relay) h.2⟩
  · rw [tended.map]
    exact h
  · rw [tended.map]
    exact h
  · trivial
  · trivial

/-- What is known after a request was answered with OK. -/
structure PortControlRequest.Handled (settings : Settings) (pc : PortControlRequest)
    (m : Nat → Option (List Char)) (daemon : Daemon) : Prop where
  sane : daemon.Sane
  valid : validatePortControlRequest pc = true
  room : pc.pciAddrs.length ≤ maxNumBondSlaves
  done : pc.Done settings m daemon

theorem handled_of_run (sane : daemon.Sane) {config : DaemonConfig}
    (run : Run (daemonSystem settings conf) oneRequest (handled settings conf daemon pc) config)
    {op : DaemonOp} {response : PortControlResponse}
    (returned : config.running () = (op, .ret response)) (ok : response.status = .ok)
    : pc.Handled settings daemon.relayIfnameMap config.state := by
  have handling : wp sockAccesses (sockContract (oneRequest.instr (.request pc)))
      (handlePortControlRequest settings conf pc) _ daemon :=
    handlePortControlRequest_done ⟨rfl, sane.1⟩
  have spec := handling.frame kept_numbered.stable (fun i answer s => i.numbered answer) sane.2
  have outcome := response_of_wp spec (fun response before after tended held =>
    ⟨⟨tending_world_tidy tended.relays held.1.1, fun ok =>
      ⟨(held.1.2 ok).1, kept_done tended (held.1.2 ok).2⟩⟩, kept_numbered tended held.2⟩)
    run returned
  obtain ⟨⟨tidy, done⟩, numbered⟩ := outcome
  exact ⟨⟨tidy, numbered⟩, (done ok).1.1, (done ok).1.2, (done ok).2⟩

end Repeated

/-- **Repeated requests**: in every state that requests and other operations can lead to, a
conditional request that was answered with OK can be repeated if and only if it removes a VF
or a bond, or adds a single VF whose address has at most 19 characters.
-/
theorem conditional_request_repeats_iff {settings : Settings} {conf : SocketConf}
    (configured : settings.CpusConfigured) {parts : Option SocketNameParts} {useJumbo : Bool}
    {initialized : Nat → Bool} {rest : DaemonConfig}
    (history : Run (daemonSystem settings conf) anyRequests
      (freshDaemon settings parts useJumbo initialized) rest)
    {op : DaemonOp} {last : PortControlResponse} (idle : rest.running () = (op, .ret last))
    {pc : PortControlRequest}
    (kind : pc.op = .add ∨ pc.op = .remove ∨ pc.op = .addSock ∨ pc.op = .removeSock)
    (conditional : pc.conditional ≠ some false) {first : DaemonConfig}
    (run : Run (daemonSystem settings conf) oneRequest (handled settings conf rest.state pc) first)
    {response : PortControlResponse}
    (answered : first.running () = (.request pc, .ret response)) (ok : response.status = .ok)
    : first.state.Repeats settings conf pc
      ↔ pc.op = .remove
        ∨ pc.op = .add
          ∧ ∃ address, pc.pciAddrs = [address] ∧ (pciAddressToStr address).length ≤ 19 := by
  have once := handled_of_run (sane_of_requests configured history idle) run answered ok
  have asked : pc.isConditional = true := by
    unfold PortControlRequest.isConditional
    rcases wanted : pc.conditional with _ | flag
    · rfl
    · cases flag with
      | true => rfl
      | false => exact absurd wanted conditional
  have done := once.done
  constructor
  · intro repeats
    obtain ⟨again, response, rerun, returned, ok, workers⟩ := repeats.answered
    have twice := handled_of_run once.sane rerun returned ok
    have map := workers.tended.map
    have done' := twice.done
    rcases kind with add | remove | addSock | removeSock
    · refine Or.inr ⟨add, ?_⟩
      simp only [PortControlRequest.Done, add] at done
      have taken : wp sockAccesses (sockContract (oneRequest.instr (.request pc)))
          (handlePortControlRequest settings conf pc)
          (fun response _ => response.status = .ok
            → ∃ address, pc.pciAddrs = [address] ∧ (pciAddressToStr address).length ≤ 19)
          first.state := by
        simp only [handlePortControlRequest, once.valid, once.room.not_gt, add]
        exact portControlHandleAdd_taken done.2.1 done.2.2
      exact response_of_wp taken (fun _ _ _ _ held => held) rerun returned ok
    · exact Or.inl remove
    · simp only [PortControlRequest.Done, addSock] at done'
      exact absurd map done'
    · simp only [PortControlRequest.Done, removeSock] at done'
      exact absurd map done'
  · intro single
    apply Daemon.repeats_of_wp
    rcases single with remove | ⟨add, address, addresses, short⟩
    · simp only [PortControlRequest.Done, remove] at done
      simp only [handlePortControlRequest, once.valid, once.room.not_gt, remove]
      exact portControlHandleRemove_again asked done.1 done.2
    · simp only [PortControlRequest.Done, add] at done
      simp only [handlePortControlRequest, once.valid, once.room.not_gt, add]
      exact portControlHandleAdd_again asked addresses short done.1 done.2.1 done.2.2
        (once.sane.2 pc.relay)

instance (op : DaemonOp) (i : SockInstr) (answer : Int) (daemon : Daemon)
    : Decidable (oneRequest.instr op i answer daemon) :=
  .isTrue trivial

instance (thread : Unit) (op : DaemonOp) (daemon : Daemon)
    : Decidable (oneRequest.call thread op daemon) :=
  .isFalse id

/-- A request for one VF on relay 0. -/
def singleVf (op : PortControlOp) (vhostPath : Option (List Char)) : PortControlRequest :=
  ⟨op, [⟨0, 5, 8, 0⟩], some 0, none, none, vhostPath⟩

/-- The default sockets in `/tmp`. -/
def tmpSockets : SocketNameParts := ⟨"/tmp/virtio-forwarder".toList, ".sock".toList⟩

/-- Witness: a VF is added after a start with default sockets. -/
theorem added_vf_can_be_added_again
    : ∃ first : DaemonConfig,
        Run (daemonSystem twoWorkers ⟨false, false⟩) oneRequest
          (handled twoWorkers ⟨false, false⟩
            (freshDaemon twoWorkers (some tmpSockets) false fun _ => true).state
            (singleVf .add none)) first
        ∧ first.running () = (.request (singleVf .add none), .ret ⟨.ok, none, none, none⟩)
        ∧ (first.state.world.relays 0).Active
        ∧ first.state.Repeats twoWorkers ⟨false, false⟩ (singleVf .add none) := by
  obtain ⟨first, run, reached⟩ := Run.of_follow (daemonSystem twoWorkers ⟨false, false⟩) oneRequest
    (handled twoWorkers ⟨false, false⟩
      (freshDaemon twoWorkers (some tmpSockets) false fun _ => true).state (singleVf .add none))
    (answered () (List.replicate 8 0 ++ 1 :: List.replicate 21 0))
    (fun c => (c.running ()).1 = .request (singleVf .add none)
      && (c.running ()).2.value? = some ⟨.ok, none, none, none⟩
      && (c.state.world.relays 0).Active)
    (by decide +kernel)
  simp only [Bool.and_eq_true, decide_eq_true_eq] at reached
  obtain ⟨⟨request, returned⟩, active⟩ := reached
  have ended : first.running ()
      = (.request (singleVf .add none), .ret ⟨.ok, none, none, none⟩) :=
    Prod.ext request (Prog.eq_ret_of_value? returned)
  refine ⟨first, run, ended, active, ?_⟩
  refine (conditional_request_repeats_iff (fun _ => Or.inl rfl)
    (.start : Run (daemonSystem twoWorkers ⟨false, false⟩) anyRequests
      (freshDaemon twoWorkers (some tmpSockets) false fun _ => true) _) rfl (Or.inl rfl)
    (by decide) run ended rfl).mpr ?_
  exact Or.inr ⟨rfl, ⟨0, 5, 8, 0⟩, rfl, by decide⟩

/-- The second time, ADD_SOCK finds the device it has added and is refused with `EEXIST`. -/
theorem add_sock_refused_the_second_time
    : ¬ ∀ (settings : Settings) (conf : SocketConf) (parts : Option SocketNameParts)
        (useJumbo : Bool) (initialized : Nat → Bool) (rest first : DaemonConfig) (op : DaemonOp)
        (last response : PortControlResponse) (pc : PortControlRequest),
        settings.CpusConfigured
        → Run (daemonSystem settings conf) anyRequests
            (freshDaemon settings parts useJumbo initialized) rest
        → rest.running () = (op, .ret last)
        → (pc.op = .add ∨ pc.op = .remove ∨ pc.op = .addSock ∨ pc.op = .removeSock)
        → pc.conditional ≠ some false
        → Run (daemonSystem settings conf) oneRequest (handled settings conf rest.state pc) first
        → first.running () = (.request pc, .ret response)
        → response.status = .ok
        → first.state.Repeats settings conf pc := by
  intro claim
  let pc := singleVf .addSock (some "/tmp/virtio-forwarder0.sock".toList)
  obtain ⟨first, run, reached⟩ := Run.of_follow (daemonSystem twoWorkers ⟨false, false⟩) oneRequest
    (handled twoWorkers ⟨false, false⟩ (freshDaemon twoWorkers none false fun _ => true).state pc)
    (answered () ([-1] ++ List.replicate 10 0 ++ [1] ++ List.replicate 21 0 ++ [-1, 0, 0, 0, 0]))
    (fun c => (c.running ()).1 = .request pc
      && (c.running ()).2.value? = some ⟨.ok, none, none, none⟩)
    (by decide +kernel)
  simp only [Bool.and_eq_true, decide_eq_true_eq] at reached
  have repeats := claim twoWorkers ⟨false, false⟩ none false (fun _ => true)
    (freshDaemon twoWorkers none false fun _ => true) first _ _ _ pc (fun _ => Or.inl rfl) .start rfl
    (Or.inr (Or.inr (Or.inl rfl))) (by decide) run
    (Prod.ext reached.1 (Prog.eq_ret_of_value? reached.2)) rfl
  obtain ⟨again, rerun, refused⟩ := Run.of_follow (daemonSystem twoWorkers ⟨false, false⟩)
    oneRequest (handled twoWorkers ⟨false, false⟩ first.state pc) (answered () [0])
    (fun c => (c.running ()).2.value?
      = some ⟨.error, some (-17), some "virtio_add_sock_dev_pair()", none⟩)
    (by rfl)
  have answer := (repeats again rerun).2 _ _
    (Prod.ext rfl (Prog.eq_ret_of_value? (decide_eq_true_eq.mp refused)))
  cases answer.1

end VirtioForwarder
