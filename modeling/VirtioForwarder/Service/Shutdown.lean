import VirtioForwarder.Service.SocketRemoval

/-! Stopping the daemon: `virtio_vhostuser_stop` detaches the devices of all relays and gives up
all sockets, in whatever state requests have left them.
-/

namespace VirtioForwarder

open Program

-----------------------------------------------------------------------------------------
-- The code
-----------------------------------------------------------------------------------------

/-- `virtio_forwarder_remove_vf`. -/
def removeVf (settings : Settings) (dbdf : List Char) (id : Nat) : Control Int :=
  removeVf2 settings dbdf id false

/-- One round of `virtio_forwarders_remove_all`. -/
def removeForwarder (settings : Settings) (id : Nat) : Control Unit := do
  let _ ← removeVirtio settings id
  if ← vfActive id then
    let _ ← removeVf settings (← look id .device).dpdk.pciDbdf id

/-- `virtio_forwarders_remove_all`. -/
def virtioForwardersRemoveAll (settings : Settings) : SockProg Unit :=
  .forRange (fun id => onRelay id (removeForwarder settings id)) settings.maxRelays

/-- One round of the loop of `virtio_vhostuser_stop`. -/
def deregisterRelay (settings : Settings) (id : Nat) : SockProg Unit := do
  match (← readMap) id with
  | none => return
  | some path =>
      let _ ← deregisterSocket settings (some path)

/-- `virtio_vhostuser_stop`, until it waits for the workers. -/
def virtioVhostuserStop (settings : Settings) : SockProg Unit := do
  virtioForwardersRemoveAll settings
  .forRange (deregisterRelay settings) settings.maxRelays

/-- The paths that the vhost library has been told to unregister. -/
def recordUnregistered (_ : Unit) (i : SockInstr) (_ : Int) (_ : Daemon)
    (paths : List (List Char))
    : List (List Char) :=
  match i with
  | .vhost (.driverUnregister path) => paths ++ path.toList
  | _ => paths

/-- The stop with the workers as its environment. -/
def stopSystem (settings : Settings)
    : System Unit SockInstr Int Daemon SockFault (Daemon × List (List Char)) Event Unit :=
  System.recorded
    ⟨fun _ => SockInstr.exec, fun daemon => daemon, Daemon.event settings,
      fun _ => virtioVhostuserStop settings⟩
    recordUnregistered

/-- The stop begins. -/
def stopping (settings : Settings) (daemon : Daemon)
    : Config Unit Unit SockInstr Int Daemon SockFault (Daemon × List (List Char)) Unit :=
  ⟨(daemon, []), fun _ => ((), virtioVhostuserStop settings)⟩

-----------------------------------------------------------------------------------------
-- Devices
-----------------------------------------------------------------------------------------

section Devices

variable {settings : Settings} {id : Nat} {world : World} {daemon : Daemon}

/-- A device that was there is gone, entirely so unless something failed. -/
structure Relay.Vacated (before : Relay) (failing : Prop) (after : Relay) : Prop where
  inactive : ¬ after.Active
  restored : before.Active → ¬ failing → after.Restored

theorem tending_vacated (before : Relay) (failing : Prop) : Tending (before.Vacated failing) :=
  fun _ _ tended h => ⟨tending_inactive tended h.inactive, fun active fine =>
    tending_restored tended (h.restored active fine)⟩

/-- One round vacates its relay. -/
theorem removeForwarder_vacates {admits : Instr → Int → World → Prop}
    (below : id < settings.maxRelays) (tidy : (world.relays id).Tidy)
    : wp (accesses id) (soloContract admits fun _ => True) (removeForwarder settings id)
        (fun _ s => (world.relays id).Vacated (Failing admits) (s.relays id)) world := by
  by_cases active : (world.relays id).Active
  · have known : Tending fun relay => relay.Tidy ∧ relay.Active := tending_tidy.and tending_active
    refine wp.bind ((removeVirtio_keeps known (fun relay held _ => ?_) ⟨tidy, active⟩).mono
      fun _ s held => ?_)
    · exact ⟨⟨held.1.pciDbdf, fun _ => held.1.cpu held.2⟩, Or.inr rfl⟩
    · refine wp.bind ((vfActive_tells known held).mono fun found s told => ?_)
      obtain ⟨held, found⟩ := told
      rw [if_pos (found.mpr held.2)]
      refine wp_see_bind known held fun s held => ?_
      refine wp.bind ((removeVf2_detaches below held.1 held.2 rfl).mono fun err s outcome => ?_)
      obtain ⟨inactive, _, restored, failing⟩ := outcome
      refine ⟨inactive, fun _ fine => restored ?_⟩
      by_contra failed
      exact fine (failing failed)
  · have known := tending_inactive
    refine wp.bind ((removeVirtio_keeps known (fun relay held ready => ?_) active).mono
      fun _ s held => ?_)
    · exact absurd (Or.inl ready) held
    · refine wp.bind ((vfActive_tells known held).mono fun found s told => ?_)
      obtain ⟨held, found⟩ := told
      rw [if_neg fun there => held (found.mp there)]
      exact ⟨held, fun there => absurd there active⟩

end Devices

-----------------------------------------------------------------------------------------
-- All relays
-----------------------------------------------------------------------------------------

section Stop

variable {settings : Settings} {id : Nat} {admits : SockInstr → Int → Daemon → Prop}
  {before daemon : Daemon} {m : Nat → Option (List Char)} {failing : Prop} {α : Type}

/-- A driver call fails, or a wait gives up. -/
def Stumbling {σ : Type} (admits : SockInstr → Int → σ → Prop) : Prop :=
  ∃ id i answer s, admits (.control id i) answer s ∧ i.Fails answer

/-- The relays before number `n` are vacated, the others as they were. -/
structure World.VacatedBelow (before : World) (failing : Prop) (n : Nat) (world : World) : Prop where
  done : ∀ i < n, (before.relays i).Vacated failing (world.relays i)
  ahead : ∀ i, n ≤ i → (before.relays i).Tended (world.relays i)

theorem tending_vacatedBelow (before : World) (failing : Prop) (n : Nat)
    : TendingWorld (before.VacatedBelow failing n) :=
  fun _ _ tended h => ⟨fun i below => tending_vacated _ _ (tended i) (h.done i below),
    fun i above => (h.ahead i above).trans (tended i)⟩

theorem failing_control (h : Failing fun i answer (_ : World) =>
      ∃ d, admits (.control id i) answer d)
    : Stumbling admits := by
  obtain ⟨i, answer, _, ⟨d, admitted⟩, fails⟩ := h
  exact ⟨id, i, answer, d, admitted, fails⟩

/-- All devices are removed; the sockets stay. -/
theorem virtioForwardersRemoveAll_vacates (tidy : before.world.Tidy)
    : wp sockAccesses (sockContract admits) (virtioForwardersRemoveAll settings)
        (fun _ d => d.relayIfnameMap = before.relayIfnameMap
          ∧ before.world.VacatedBelow (Stumbling admits) settings.maxRelays d.world) before := by
  refine wp.forRange (fun n (d : Daemon) => d.relayIfnameMap = before.relayIfnameMap
      ∧ before.world.VacatedBelow (Stumbling admits) n d.world)
    (fun id below d held => ?_) ⟨rfl, nofun, fun i _ => .refl _⟩
  obtain ⟨map, held⟩ := held
  have tended := held.ahead id le_rfl
  refine (wp_onRelay_admitted (removeForwarder_vacates below
    (tending_tidy tended (tidy id)))).mono fun _ after outcome => ?_
  obtain ⟨here, beside⟩ := outcome
  refine ⟨beside.map.trans map, fun i reached => ?_, fun i above => ?_⟩
  · rcases eq_or_ne i id with rfl | other
    · refine ⟨here.inactive, fun active fine => ?_⟩
      exact here.restored (tending_active tended active) fun failed => fine (failing_control failed)
    · exact tending_vacated _ _ (beside.relays i other) (held.done i (by omega))
  · exact (held.ahead i (by omega)).trans (beside.relays i (by omega))

/-- How the accesses of the stop run, with the record. -/
abbrev stopAccesses : Machine SockInstr Int Daemon (Daemon × List (List Char)) :=
  sockAccesses.recorded (recordUnregistered ())

/-- The answers that are admitted with some record. -/
abbrev stopAdmits (admits : SockInstr → Int → Daemon × List (List Char) → Prop)
    : SockInstr → Int → Daemon → Prop :=
  fun i answer d => ∃ paths, admits i answer (d, paths)

/-- The contract of the stop beside the workers, which do not touch the record. -/
abbrev stopContract (admits : SockInstr → Int → Daemon × List (List Char) → Prop)
    : Contract SockInstr Int SockFault (Daemon × List (List Char)) :=
  (sockContract (stopAdmits admits)).recorded admits

end Stop

section Sockets

variable {settings : Settings} {id : Nat}
  {admits : SockInstr → Int → Daemon × List (List Char) → Prop}
  {daemon : Daemon} {m : Nat → Option (List Char)} {V : World → Prop} {path : List Char}
  {state : Daemon × List (List Char)} {α : Type}

/-- Accesses that the record does not depend on. -/
abbrev SockInstr.Unrecorded (i : SockInstr) : Prop :=
  ∀ answer daemon paths, recordUnregistered () i answer daemon paths = paths

/-- What is proved of the daemon holds beside the record. -/
theorem wp_stop {p : SockProg α} {post : α → Daemon → Prop}
    (h : wp sockAccesses (sockContract (stopAdmits admits)) p post state.1)
    : wp stopAccesses (stopContract admits) p (fun a s => post a s.1) state :=
  h.recorded fun _ _ s admitted => ⟨s.2, admitted⟩

theorem wp_stop_unrecorded {p : SockProg α} {post : α → Daemon → Prop}
    (h : wp sockAccesses (sockContract (stopAdmits admits)) p post state.1)
    (all : p.All SockInstr.Unrecorded fun _ => True)
    : wp stopAccesses (stopContract admits) p (fun a s => post a s.1 ∧ s.2 = state.2) state :=
  h.recorded_kept (fun _ _ s admitted => ⟨s.2, admitted⟩) all

/-- The vhost library is told once to unregister the path. -/
theorem deregisterSocket_tells
    : wp stopAccesses (stopContract admits) (deregisterSocket settings (some path))
        (fun _ s => s.2 = state.2 ++ [path]) state := by
  have kept (record : List (List Char)) : (stopContract admits).Stable fun s => s.2 = record :=
    fun _ _ later _ held => later.2.trans held
  refine wp.bind (wp.perform (kept state.2) rfl fun s err _ held _ => ⟨trivial, trivial, ?_⟩)
  have told : (stopAccesses.exec (.vhost (.driverUnregister (some path))) err s).2
      = state.2 ++ [path] :=
    congrArg (· ++ [path]) held
  have looking : (getRelayForSock settings (some path)).All SockInstr.Unrecorded fun _ => True :=
    ⟨fun _ _ _ => rfl, fun _ _ => trivial⟩
  refine Prog.All.wp (P := SockInstr.Unrecorded) (E := fun _ => True) ?_ (fun _ _ => trivial)
    (kept _) (fun i silent s answer _ held _ => ⟨trivial, trivial, (silent answer s.1 s.2).trans held⟩)
    told
  refine looking.bind fun found => ?_
  split
  · trivial
  · refine .bind ⟨fun _ _ _ => rfl, fun _ _ => trivial⟩ fun there => ?_
    split
    · exact .bind ⟨fun _ _ _ => rfl, fun _ _ => trivial⟩ fun _ => trivial
    · trivial

/-- The first relay with a path is found for it. -/
theorem relayOf_first (below : id < settings.maxRelays) (there : m id = some path)
    (first : ∀ i < id, m i ≠ some path)
    : relayOf settings m path = some id := by
  refine List.find?_range_eq_some.mpr ⟨decide_eq_true there, List.mem_range.mpr below, ?_⟩
  exact fun i lower => by simpa using first i lower

/-- The map without the paths below `n`. -/
def freedBelow (m : Nat → Option (List Char)) (n i : Nat) : Option (List Char) :=
  if i < n then none else m i

theorem freedBelow_succ (m : Nat → Option (List Char)) (n : Nat)
    : freedBelow m (n + 1) = Function.update (freedBelow m n) n none := by
  funext i
  rcases eq_or_ne i n with rfl | other
  · simp [freedBelow]
  · simp only [freedBelow, Function.update_of_ne other]
    have same : i < n + 1 ↔ i < n := by omega
    simp only [same]

/-- The sockets of the relays below `n` are given up, and the vhost library knows. -/
structure FreedBelow (m : Nat → Option (List Char)) (V : World → Prop) (n : Nat)
    (s : Daemon × List (List Char))
    : Prop where
  map : s.1.relayIfnameMap = freedBelow m n
  world : V s.1.world
  told : s.2 = (List.range n).filterMap m

theorem deregisterRelay_frees (tending : TendingWorld V) (below : id < settings.maxRelays)
    {s : Daemon × List (List Char)} (h : FreedBelow m V id s)
    : wp stopAccesses (stopContract admits) (deregisterRelay settings id)
        (fun _ s => FreedBelow m V (id + 1) s) s := by
  have stable : (stopContract admits).Stable (FreedBelow m V id) :=
    fun _ _ later _ held => ⟨later.1.map.trans held.map, tending later.1.relays held.world,
      later.2.trans held.told⟩
  refine wp.bind (wp.perform stable h fun s answer _ held _ => ⟨trivial, trivial, ?_⟩)
  have here : s.1.relayIfnameMap id = m id := by
    rw [held.map, freedBelow, if_neg (lt_irrefl id)]
  have next : (List.range (id + 1)).filterMap m = (List.range id).filterMap m ++ (m id).toList := by
    rw [List.range_succ, List.filterMap_append, List.filterMap_cons]
    cases m id <;> rfl
  change wp _ _ (match s.1.relayIfnameMap id with | none => _ | some path => _) _ s
  rw [here]
  cases entry : m id with
  | none =>
      refine ⟨held.map.trans ?_, held.world, ?_⟩
      · rw [freedBelow_succ]
        exact (Function.update_eq_self_iff.mpr (by rw [← held.map, here, entry])).symm
      · rw [next, entry, held.told]
        exact (List.append_nil _).symm
  | some path =>
      have there : s.1.relayIfnameMap id = some path := here.trans entry
      have first : relayOf settings s.1.relayIfnameMap path = some id := by
        refine relayOf_first below there fun i lower => ?_
        rw [held.map, freedBelow, if_pos lower]
        exact nofun
      refine wp.bind (((wp_stop (deregisterSocket_frees tending ⟨rfl, held.world⟩)).and
        deregisterSocket_tells).mono fun _ s' outcome => ?_)
      obtain ⟨⟨world, found⟩, told⟩ := outcome
      rw [first] at found
      obtain ⟨absent, _⟩ | ⟨_, same, map, _⟩ := found
      · cases absent
      · cases same
        refine ⟨map.trans ?_, world, ?_⟩
        · rw [freedBelow_succ, held.map]
        · rw [next, entry, told, held.told]
          rfl

/-- After the stop all relays are without sockets, and all of them are vacated. -/
structure Daemon.Stopped (settings : Settings) (before : Daemon) (failing : Prop)
    (after : Daemon × List (List Char))
    : Prop where
  noSocket : ∀ id < settings.maxRelays, after.1.relayIfnameMap id = none
  unregistered : after.2 = (List.range settings.maxRelays).filterMap before.relayIfnameMap
  vacated
    : ∀ id < settings.maxRelays,
        (before.world.relays id).Vacated failing (after.1.world.relays id)

/-- The stop keeps what its loops have achieved. -/
theorem virtioVhostuserStop_stops (tidy : daemon.world.Tidy)
    : wp stopAccesses (stopContract admits) (virtioVhostuserStop settings)
        (fun _ s => daemon.Stopped settings (Stumbling (stopAdmits admits)) s) (daemon, []) := by
  have silent : (virtioForwardersRemoveAll settings).All SockInstr.Unrecorded fun _ => True := by
    refine .forRange (fun id => (onRelay_all id _).mono ?_ fun _ _ => trivial) _
    rintro _ ⟨access, rfl⟩ _ _ _
    rfl
  refine wp.bind ((wp_stop_unrecorded (virtioForwardersRemoveAll_vacates tidy) silent).mono
    fun _ s outcome => ?_)
  obtain ⟨⟨map, vacated⟩, empty⟩ := outcome
  have tending := tending_vacatedBelow daemon.world (Stumbling (stopAdmits admits))
    settings.maxRelays
  refine (wp.forRange (FreedBelow daemon.relayIfnameMap _) (fun id below s held =>
    deregisterRelay_frees tending below held) ⟨map, vacated, empty⟩).mono fun _ s freed => ?_
  refine ⟨fun id below => ?_, freed.told, freed.world.done⟩
  rw [freed.map, freedBelow, if_pos below]

theorem kept_stopped {before : Daemon} {failing : Prop} {s s' : Daemon × List (List Char)}
    (tended : s.1.Tended s'.1) (same : s'.2 = s.2) (h : before.Stopped settings failing s)
    : before.Stopped settings failing s' := by
  refine ⟨fun id below => ?_, same.trans h.unregistered, fun id below => ?_⟩
  · rw [tended.map]
    exact h.noSocket id below
  · exact tending_vacated _ _ (tended.relays id) (h.vacated id below)

end Sockets

/-- **Stopping the daemon**: in every state that requests and other operations can lead to, a
stop that returns leaves no socket and no device in use, has told the vhost library once of every
path that was registered, in the order of the relays, and has restored every relay that had a
device unless a driver call failed or a wait gave up.
-/
theorem stop_leaves_nothing {settings : Settings} {conf : SocketConf}
    (configured : settings.CpusConfigured) {parts : Option SocketNameParts} {useJumbo : Bool}
    {initialized : Nat → Bool} {rest : DaemonConfig}
    (history : Run (daemonSystem settings conf) anyRequests
      (freshDaemon settings parts useJumbo initialized) rest)
    {op : DaemonOp} {last : PortControlResponse} (idle : rest.running () = (op, .ret last))
    {policy : Policy Unit Unit SockInstr Int (Daemon × List (List Char))}
    (single : ∀ thread op s, ¬ policy.call thread op s)
    {final : Config Unit Unit SockInstr Int Daemon SockFault (Daemon × List (List Char)) Unit}
    (run : Run (stopSystem settings) policy (stopping settings rest.state) final) {op' : Unit}
    (returned : final.running () = (op', .ret ()))
    : rest.state.Stopped settings (Stumbling (policy.instr ())) final.state := by
  have sane := sane_of_requests configured history idle
  have spec : wp stopAccesses (stopContract (policy.instr ())) (virtioVhostuserStop settings)
      (fun _ s => rest.state.Stopped settings (Stumbling (stopAdmits (policy.instr ()))) s)
      (rest.state, []) :=
    virtioVhostuserStop_stops sane.1
  have stopped := (Run.solo (stopSystem settings)
    (fun s s' => s.1.Tended s'.1 ∧ s'.2 = s.2) (fun _ => True) single
    (fun s => ⟨.refl s.1, rfl⟩) (fun _ _ _ hl hr => ⟨hl.1.trans hr.1, hr.2.trans hl.2⟩)
    (fun event s s' happened => ?_) (fun _ _ _ later held => kept_stopped later.1 later.2 held)
    spec run).1 op' () returned
  · refine ⟨stopped.noSocket, stopped.unregistered, fun id below => ?_⟩
    refine ⟨(stopped.vacated id below).inactive, fun active fine => ?_⟩
    refine (stopped.vacated id below).restored active fun failed => fine ?_
    obtain ⟨id, i, answer, d, ⟨paths, admitted⟩, fails⟩ := failed
    exact ⟨id, i, answer, (d, paths), admitted, fails⟩
  · obtain ⟨state, stepped, rfl⟩ := Option.map_eq_some_iff.mp happened
    exact ⟨Daemon.tended_event stepped, rfl⟩

/-- A stop in which nothing fails. -/
def smoothStop : Policy Unit Unit SockInstr Int (Daemon × List (List Char)) where
  instr _ i answer _ :=
    match i with
    | .control _ access => ¬ access.Fails answer
    | _ => True
  call _ _ _ := False

theorem smoothStop_fine : ¬ Stumbling (smoothStop.instr ()) :=
  fun ⟨_, _, _, _, admitted, fails⟩ => admitted fails

instance (call : DriverCall) (answer : Int) : Decidable (call.Succeeds answer) :=
  match call with
  | .nextMatchingDev _ | .bondCreate _ _ | .bondSlavesGet _ =>
      inferInstanceAs (Decidable (0 ≤ answer))
  | .poolCreate _ _ => inferInstanceAs (Decidable (answer ≠ 0))
  | .bondSlave _ _ | .portByName _ | .uninitializedPort | .vringNum _ | .guestNumaNode _
  | .poolFree _ => .isTrue trivial
  | .devProbe _ | .devInfoGet _ | .devConfigure _ | .devSetMtu _ | .txQueueSetup _ _
  | .rxQueueSetup _ _ _ | .promiscuousEnable _ | .devStart _ | .devStop _ | .devClose _
  | .devRemove _ | .bondFree _ | .bondSlaveAdd _ _ | .bondSlaveRemove _ _ =>
      inferInstanceAs (Decidable (answer = 0))

instance (op : Unit) (i : SockInstr) (answer : Int) (s : Daemon × List (List Char))
    : Decidable (smoothStop.instr op i answer s) :=
  match i with
  | .control _ (.call request) => inferInstanceAs (Decidable (¬ ¬ request.Succeeds answer))
  | .control _ .logTimeout => .isFalse fun fine => fine trivial
  | .control _ (.read _) | .control _ (.write _) | .control _ (.flagWorker _) => .isTrue id
  | .readMap | .writeMap _ _ | .vringStateChange _ _ | .vhost _ => .isTrue trivial

instance (thread op : Unit) (s : Daemon × List (List Char))
    : Decidable (smoothStop.call thread op s) :=
  .isFalse id

/-- A request for a pair of the first socket and one VF. -/
def firstPair : PortControlRequest :=
  singleVf .addSock (some "/tmp/virtio-forwarder0.sock".toList)

/-- Witness: a pair has been added when the stop begins. -/
theorem stop_leaves_nothing_after_add_sock
    : ∃ (rest : DaemonConfig) (final : Config Unit Unit SockInstr Int Daemon SockFault
        (Daemon × List (List Char)) Unit),
        Run (daemonSystem twoWorkers ⟨false, false⟩) anyRequests
          (freshDaemon twoWorkers none false fun _ => true) rest
        ∧ rest.running () = (.request firstPair, .ret ⟨.ok, none, none, none⟩)
        ∧ rest.state.relayIfnameMap 0 = some "/tmp/virtio-forwarder0.sock".toList
        ∧ (rest.state.world.relays 0).Active
        ∧ Run (stopSystem twoWorkers) smoothStop (stopping twoWorkers rest.state) final
        ∧ final.running () = ((), .ret ())
        ∧ final.state.1.relayIfnameMap 0 = none
        ∧ (final.state.1.world.relays 0).Restored
        ∧ final.state.2 = ["/tmp/virtio-forwarder0.sock".toList] := by
  let answers : List (Choice Unit Unit Int Event) := answered () (List.replicate 10 0)
    ++ .env (.vm2vf 0 ⟨[], 0⟩) :: .env (.vf2vm 0 ⟨0, [], fun _ => 0⟩)
    :: answered () (List.replicate 23 0)
  obtain ⟨rest, history, reached⟩ := Run.of_follow (daemonSystem twoWorkers ⟨false, false⟩)
    anyRequests (freshDaemon twoWorkers none false fun _ => true)
    (.call () (.request firstPair)
      :: answered () ([-1] ++ List.replicate 10 0 ++ [1] ++ List.replicate 21 0 ++ [-1, 0, 0, 0, 0]))
    (fun c => (c.running ()).1 = .request firstPair
      && (c.running ()).2.value? = some ⟨.ok, none, none, none⟩
      && c.state.relayIfnameMap 0 = some "/tmp/virtio-forwarder0.sock".toList
      && (c.state.world.relays 0).Active
      && ((stopSystem twoWorkers).follow smoothStop (stopping twoWorkers c.state) answers).any
        fun last => (last.running ()).2.value? = some ())
    (by decide +kernel)
  simp only [Bool.and_eq_true, decide_eq_true_eq] at reached
  obtain ⟨⟨⟨⟨request, answered⟩, registered⟩, active⟩, stops⟩ := reached
  have idle : rest.running () = (.request firstPair, .ret ⟨.ok, none, none, none⟩) :=
    Prod.ext request (Prog.eq_ret_of_value? answered)
  obtain ⟨final, run, finished⟩ := Run.of_follow _ _ _ _ _ stops
  rw [decide_eq_true_eq] at finished
  have returned : final.running () = ((), .ret ()) :=
    Prod.ext rfl (Prog.eq_ret_of_value? finished)
  have stopped := stop_leaves_nothing (fun _ => Or.inl rfl) history idle
    (fun _ _ _ called => called) run returned
  refine ⟨rest, final, history, idle, registered, active, run, returned,
    stopped.noSocket 0 Nat.one_pos, ?_, ?_⟩
  · exact (stopped.vacated 0 Nat.one_pos).restored active smoothStop_fine
  · rw [stopped.unregistered]
    change [0].filterMap rest.state.relayIfnameMap = _
    rw [List.filterMap_cons, registered]
    rfl

end VirtioForwarder
