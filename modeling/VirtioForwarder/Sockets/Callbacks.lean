import VirtioForwarder.Sockets.Pairing

/-! The callbacks of the vhost library beside the registration of their socket: a callback that
looks for its relay before the registration has entered the path is lost.
-/

namespace VirtioForwarder

open Program

/-- The callbacks of `virtio_vhostuser_ops` that concern a relay. Of the new features only
`RTE_VHOST_NEED_LOG` matters.
-/
inductive Callback
  | newDevice (vid : Int)
  | destroyDevice
  | vringStateChanged (change : VringChange)
  | featuresChanged (needLog : Bool)
  deriving DecidableEq, Repr

/-- The relay that a callback is applied to, if it finds one, and the return value. -/
structure CallbackOutcome where
  relay : Option Nat
  code : Int
  deriving DecidableEq, Repr

/-- `rte_vhost_get_ifname` into a buffer of 128 bytes. -/
def ifname (path : List Char) : List Char := path.take 127

/-- What a callback does to the relay that it has found. -/
def Callback.apply (settings : Settings) (id : Nat) : Callback → SockProg Int
  | .newDevice vid => do
      if (← onRelay id (addVirtio settings vid id)) = 0 then return 0
      return -1
  | .destroyDevice => do
      let _ ← onRelay id (removeVirtio settings id)
      return 0
  | .vringStateChanged change => .perform (.vringStateChange id change) fun _ _ => 0
  | .featuresChanged needLog => do
      if needLog then
        onRelay id (assign (.lmPending true))
        return 0
      return 0

/-- `virtio_vhostuser_new_device_cb`, `_destroy_device_cb`, `_vring_state_change_cb` and
`_features_changed_cb` for a device on `path`.
-/
def Callback.code (settings : Settings) (path : List Char) (callback : Callback)
    : SockProg CallbackOutcome := do
  match ← getRelayForSock settings (some (ifname path)) with
  | none => return ⟨none, -1⟩
  | some id => return ⟨some id, ← callback.apply settings id⟩

-----------------------------------------------------------------------------------------
-- The system
-----------------------------------------------------------------------------------------

/-- The port control thread and the vhost thread. -/
inductive SocketThread
  | port
  | vhost
  deriving DecidableEq, Repr

/-- The registration of a socket, or a callback for it. -/
inductive SocketOp
  | register
  | notify (callback : Callback)
  deriving DecidableEq, Repr

/-- The steps of the registration that the callbacks depend on: the start of the driver and the
entry in `relay_ifname_map`.
-/
inductive RegistrationStep
  | started
  | entered
  deriving DecidableEq, Repr

/-- The registration makes such a step. -/
def SockInstr.step : SockInstr → Option RegistrationStep
  | .vhost (.driverStart _) => some .started
  | .writeMap _ _ => some .entered
  | _ => none

/-- An access of a callback, with the daemon before it and after it. -/
structure CallbackAccess where
  access : SockInstr
  before : Daemon
  after : Daemon

/-- The steps of the registration so far, and the accesses of the callback since its lookup. -/
structure SocketRecord where
  steps : List RegistrationStep
  accesses : List CallbackAccess

/-- An access is recorded. -/
def SocketOp.update (op : SocketOp) (i : SockInstr) (answer : Int) (daemon : Daemon)
    (record : SocketRecord)
    : SocketRecord :=
  match op with
  | .register => { record with steps := record.steps ++ i.step.toList }
  | .notify _ =>
      { record with
        accesses :=
          if i = .readMap then []
          else record.accesses ++ [⟨i, daemon, i.exec answer daemon⟩] }

/-- `path` is registered for relay `id` while the vhost library calls back. -/
def SocketOp.code (settings : Settings) (conf : SocketConf) (path : List Char) (id : Nat)
    : SocketOp → SockProg CallbackOutcome
  | .register => do return ⟨some id, ← registerRelaySocket conf path id⟩
  | .notify callback => callback.code settings path

/-- The two threads with the workers as their environment and the record. -/
def socketSystem (settings : Settings) (conf : SocketConf) (path : List Char) (id : Nat)
    : System SocketOp SockInstr Int Daemon SockFault (Daemon × SocketRecord) Event
        CallbackOutcome :=
  System.recorded {
    exec := fun _ => SockInstr.exec
    obs := fun daemon => daemon
    env := Daemon.event settings
    code := SocketOp.code settings conf path id } SocketOp.update

/-- A configuration of the two threads. -/
abbrev SocketConfig :=
  Config SocketThread SocketOp SockInstr Int Daemon SockFault (Daemon × SocketRecord)
    CallbackOutcome

/-- The registration begins, and no callback has come yet. -/
def registering (settings : Settings) (conf : SocketConf) (path : List Char) (id : Nat)
    (daemon : Daemon)
    : SocketConfig where
  state := (daemon, ⟨[], []⟩)
  running
    | .port => (.register, SocketOp.code settings conf path id .register)
    | .vhost => (.register, .ret ⟨some id, 0⟩)

/-- Callbacks come at any time after the driver was started. -/
def anyLookups : Policy SocketThread SocketOp SockInstr Int (Daemon × SocketRecord) where
  instr _ _ _ _ := True
  call thread op s :=
    thread = .vhost ∧ (∃ callback, op = .notify callback) ∧ .started ∈ s.2.steps

/-- Callbacks that look for their relay after the path was entered. -/
def lateLookups : Policy SocketThread SocketOp SockInstr Int (Daemon × SocketRecord) where
  instr op i _ s := (∃ callback, op = .notify callback) → i = .readMap → .entered ∈ s.2.steps
  call := anyLookups.call

-----------------------------------------------------------------------------------------
-- What it means that a callback is applied
-----------------------------------------------------------------------------------------

/-- The callback has found relay `id` and made exactly these accesses: a guest has been added to
the relay or removed from it by the function for it from its beginning to its end, the ring has
been enabled or disabled, or the live migration has been noted.
-/
def Callback.AppliedTo (settings : Settings) (id : Nat) (callback : Callback)
    (outcome : CallbackOutcome) (accesses : List CallbackAccess)
    : Prop :=
  outcome.relay = some id
  ∧ match callback with
    | .newDevice vid =>
        ∃ err,
          (onRelay id (addVirtio settings vid id)).Executes (accesses.map (·.access)) err
          ∧ outcome.code = if err = 0 then 0 else -1
    | .destroyDevice =>
        ∃ err,
          (onRelay id (removeVirtio settings id)).Executes (accesses.map (·.access)) err
          ∧ outcome.code = 0
    | .vringStateChanged change =>
        ∃ before after,
          accesses = [⟨.vringStateChange id change, before, after⟩]
          ∧ after.world.relays id
            = vringStateChange (before.world.relays id) change.queueId change.enable
          ∧ outcome.code = 0
    | .featuresChanged true =>
        ∃ before after,
          accesses = [⟨.control id (.write (.lmPending true)), before, after⟩]
          ∧ (after.world.relays id).vio.lmPending = true
          ∧ outcome.code = 0
    | .featuresChanged false => accesses = [] ∧ outcome.code = 0

-----------------------------------------------------------------------------------------
-- The path of the relay
-----------------------------------------------------------------------------------------

/-- Only relay `id` has the path, and it has it once the path was entered. -/
structure PathOf (path : List Char) (id : Nat) (s : Daemon × SocketRecord) : Prop where
  only : ∀ j, s.1.relayIfnameMap j = some path → j = id
  entered : .entered ∈ s.2.steps → s.1.relayIfnameMap id = some path

section Rules

variable {settings : Settings} {conf : SocketConf} {path : List Char} {id : Nat}

/-- The lookup finds the only relay that has the path. -/
theorem find_relay_of_path {map : Nat → Option (List Char)} (below : id < settings.maxRelays)
    (only : ∀ j, map j = some path → j = id) (there : map id = some path)
    : ((List.range settings.maxRelays).find? fun j => map j = some path) = some id := by
  rw [List.find?_range_eq_some]
  refine ⟨by simpa using there, List.mem_range.mpr below, fun j before => ?_⟩
  simp only [Bool.not_eq_true', decide_eq_false_iff_not]
  intro same
  exact absurd (only j same) (Nat.ne_of_lt before)

/-- What the accesses of the two threads leave of the map. -/
def SockInstr.KeepsPath (path : List Char) (id : Nat) (i : SockInstr) : Prop :=
  ∀ j entry, i = .writeMap j entry → j = id ∧ entry = some path

/-- An access of either thread keeps the path of the relay. -/
theorem PathOf.exec {op : SocketOp} {i : SockInstr} {answer : Int}
    {s : Daemon × SocketRecord} (h : PathOf path id s) (keeps : i.KeepsPath path id)
    : PathOf path id ((socketSystem settings conf path id).exec op i answer s) := by
  cases i with
  | writeMap j entry =>
      obtain ⟨rfl, rfl⟩ := keeps j entry rfl
      refine ⟨fun other same => ?_, fun _ => Function.update_self ..⟩
      by_contra away
      rw [show ((socketSystem settings conf path j).exec op (.writeMap j (some path)) answer
        s).1.relayIfnameMap other = s.1.relayIfnameMap other from Function.update_of_ne away ..]
        at same
      exact away (h.only other same)
  | control target access | readMap | vringStateChange target change =>
      refine ⟨h.only, fun entered => h.entered ?_⟩
      cases op with
      | register =>
          simpa [socketSystem, System.recorded, SocketOp.update, SockInstr.step] using entered
      | notify callback => exact entered
  | vhost call =>
      refine ⟨h.only, fun entered => h.entered ?_⟩
      cases op with
      | register =>
          rcases List.mem_append.mp entered with old | new
          · exact old
          · cases call <;> simp [SockInstr.step] at new
      | notify callback => exact entered

theorem PathOf.event {event : Event} {s s' : Daemon × SocketRecord}
    (h : PathOf path id s)
    (happened : (socketSystem settings conf path id).env event s = some s')
    : PathOf path id s' ∧ s'.2 = s.2 := by
  obtain ⟨daemon, stepped, rfl⟩ := Option.map_eq_some_iff.mp happened
  have map := (Daemon.tended_event stepped).map
  refine ⟨⟨fun j same => ?_, fun entered => ?_⟩, rfl⟩
  · exact h.only j (map ▸ same)
  · exact (congrFun map id).trans (h.entered entered)

/-- The registration enters nothing but the path of the relay. -/
theorem registerRelaySocket_keepsPath
    : (registerRelaySocket conf path id).All (SockInstr.KeepsPath path id) fun _ => True := by
  have calls (call : VhostCall) : (VirtioForwarder.vhost call).All (SockInstr.KeepsPath path id)
      fun _ => True := .perform nofun
  have cleared : (clearStaleSocket conf path).All (SockInstr.KeepsPath path id)
      fun _ => True := by
    unfold clearStaleSocket
    split
    · trivial
    · refine (calls _).bind fun found => ?_
      split
      · trivial
      · refine (calls _).bind fun socket => ?_
        split
        · trivial
        · exact (calls _).bind fun _ => trivial
  have entering : (writeMap id (some path)).All (SockInstr.KeepsPath path id) fun _ => True := by
    refine .perform fun j entry same => ?_
    cases same
    exact ⟨rfl, rfl⟩
  unfold registerRelaySocket
  refine cleared.bind fun usable => ?_
  split
  · trivial
  · refine Prog.All.bind (.perform nofun) fun map => ?_
    split
    · trivial
    · refine (calls _).bind fun registered => ?_
      split
      · trivial
      · refine (calls _).bind fun started => ?_
        split
        · trivial
        · refine entering.bind fun _ => ?_
          split
          · refine (calls _).bind fun owner => ?_
            split <;> trivial
          · trivial

/-- The accesses that a callback makes once it has found its relay. -/
def SockInstr.Applies (i : SockInstr) : Prop := ∀ j entry, i ≠ .writeMap j entry ∧ i ≠ .readMap

theorem SockInstr.Applies.keepsPath {i : SockInstr} (h : i.Applies) : i.KeepsPath path id :=
  fun j entry same => absurd same (h j entry).1

theorem onRelay_applies {α : Type} (target : Nat) (p : Control α)
    : (onRelay target p).All SockInstr.Applies fun _ => True := by
  refine (onRelay_all target p).mono ?_ fun _ _ => trivial
  rintro _ ⟨access, rfl⟩
  exact fun _ _ => ⟨nofun, nofun⟩

end Rules

-----------------------------------------------------------------------------------------
-- Runs
-----------------------------------------------------------------------------------------

section Late

variable {settings : Settings} {conf : SocketConf} {path : List Char} {id : Nat}

/-- What each thread may change of the record, and leaves of it: steps are only added, by the
registration, and the accesses are those of the callback.
-/
def RecordStep (thread : SocketThread) (s s' : Daemon × SocketRecord) : Prop :=
  s.2.steps ⊆ s'.2.steps ∧ (thread = .port → s'.2.accesses = s.2.accesses)

/-- The other thread. -/
def SocketThread.other : SocketThread → SocketThread
  | .port => .vhost
  | .vhost => .port

theorem RecordStep.refl (thread : SocketThread) (s : Daemon × SocketRecord)
    : RecordStep thread s s :=
  ⟨List.Subset.refl _, fun _ => rfl⟩

theorem RecordStep.trans {thread : SocketThread} {s s' s'' : Daemon × SocketRecord}
    (first : RecordStep thread s s') (rest : RecordStep thread s' s'')
    : RecordStep thread s s'' :=
  ⟨List.Subset.trans first.1 rest.1, fun port => (rest.2 port).trans (first.2 port)⟩

/-- The contract of a thread: the path of the relay is kept, and no step is forgotten. -/
abbrev pathContract (path : List Char) (id : Nat) (thread : SocketThread) (op : SocketOp)
    : Contract SockInstr Int SockFault (Daemon × SocketRecord) :=
  ⟨PathOf path id, RecordStep thread.other, RecordStep thread, lateLookups.instr op, fun _ => True⟩

/-- How the accesses of an operation run. -/
abbrev socketAccesses (settings : Settings) (conf : SocketConf) (path : List Char) (id : Nat)
    (op : SocketOp)
    : Machine SockInstr Int Daemon (Daemon × SocketRecord) :=
  ⟨(socketSystem settings conf path id).exec op, (socketSystem settings conf path id).obs⟩

/-- The registration keeps its contract. -/
theorem register_wp (s : Daemon × SocketRecord)
    : wp (socketAccesses settings conf path id .register) (pathContract path id .port .register)
        (registerRelaySocket conf path id) (fun _ _ => True) s := by
  refine registerRelaySocket_keepsPath.wp (fun _ _ => trivial) (fun _ _ _ _ _ => trivial) ?_ trivial
  intro i keeps s answer h _ _
  exact ⟨h.exec keeps, ⟨List.subset_append_left .., fun _ => rfl⟩, trivial⟩

/-- What a callback does to a relay is recorded access by access. -/
theorem applies_wp {α : Type} {callback : Callback} {p : SockProg α}
    (all : p.All SockInstr.Applies fun _ => True) (s : Daemon × SocketRecord)
    : wp (socketAccesses settings conf path id (.notify callback))
        (pathContract path id .vhost (.notify callback)) p
        (fun a s' => ∃ is,
          s'.2.accesses.map (·.access) = s.2.accesses.map (·.access) ++ is ∧ p.Executes is a)
        s := by
  let log (s : Daemon × SocketRecord) : List SockInstr := s.2.accesses.map (·.access)
  refine all.wp_executes log (fun _ _ => trivial) (fun _ _ later => ?_)
    (fun i applies s answer h _ => ?_)
  · exact congrArg (List.map (·.access)) (later.2 rfl)
  · have other : i ≠ .readMap := (applies 0 none).2
    refine ⟨h.exec applies.keepsPath, ⟨List.Subset.refl _, fun port => by cases port⟩, ?_⟩
    simp [log, socketSystem, System.recorded, SocketOp.update, other]

/-- A single access of a callback is recorded with the daemon around it. -/
theorem access_wp {α : Type} {callback : Callback} {i : SockInstr} {value : Int → Daemon → α}
    (applies : i.Applies) {s : Daemon × SocketRecord} (first : s.2.accesses = [])
    : wp (socketAccesses settings conf path id (.notify callback))
        (pathContract path id .vhost (.notify callback)) (Prog.perform i value)
        (fun a s' => ∃ before answer,
          a = value answer before ∧ s'.2.accesses = [⟨i, before, i.exec answer before⟩])
        s := by
  intro s' later h answer _
  have other : i ≠ .readMap := (applies 0 none).2
  have none : s'.2.accesses = [] := (later.2 rfl).trans first
  refine ⟨h.exec applies.keepsPath, ⟨List.Subset.refl _, fun port => by cases port⟩, s'.1, answer,
    rfl, ?_⟩
  simp [socketSystem, System.recorded, SocketOp.update, other, none]

/-- A callback that has found its relay is applied to it. -/
theorem callback_applies (callback : Callback) {s : Daemon × SocketRecord}
    (first : s.2.accesses = [])
    : wp (socketAccesses settings conf path id (.notify callback))
        (pathContract path id .vhost (.notify callback)) (callback.apply settings id)
        (fun code s' => callback.AppliedTo settings id ⟨some id, code⟩ s'.2.accesses) s := by
  have whole {err : Int} {p : Control Int} {s' : Daemon × SocketRecord}
      (executed : ∃ is, s'.2.accesses.map (·.access) = s.2.accesses.map (·.access) ++ is
        ∧ (onRelay id p).Executes is err)
      : (onRelay id p).Executes (s'.2.accesses.map (·.access)) err := by
    obtain ⟨is, same, executed⟩ := executed
    rw [first, List.map_nil, List.nil_append] at same
    rwa [same]
  cases callback with
  | newDevice vid =>
      refine wp.bind ((applies_wp (onRelay_applies id _) s).mono fun err s' executed => ?_)
      split
      · rename_i zero
        exact ⟨rfl, err, whole executed, (if_pos zero).symm⟩
      · rename_i failed
        exact ⟨rfl, err, whole executed, (if_neg failed).symm⟩
  | destroyDevice =>
      refine wp.bind ((applies_wp (onRelay_applies id _) s).mono fun err s' executed => ?_)
      exact ⟨rfl, err, whole executed, rfl⟩
  | vringStateChanged change =>
      refine (access_wp (i := .vringStateChange id change) (fun _ _ => ⟨nofun, nofun⟩) first).mono
        fun _ s' recorded => ?_
      obtain ⟨before, answer, rfl, recorded⟩ := recorded
      refine ⟨rfl, before, _, recorded, ?_, rfl⟩
      simp [SockInstr.exec]
  | featuresChanged needLog =>
      cases needLog with
      | true =>
          refine wp.bind ((access_wp (i := .control id (.write (.lmPending true)))
            (fun _ _ => ⟨nofun, nofun⟩) first).mono fun _ s' recorded => ?_)
          obtain ⟨before, answer, _, recorded⟩ := recorded
          refine ⟨rfl, before, _, recorded, ?_, rfl⟩
          simp [SockInstr.exec, Instr.exec, Write.apply]
      | false => exact ⟨rfl, first, rfl⟩

/-- A callback that looks for its relay after the path was entered finds it. -/
theorem callback_finds_relay (below : id < settings.maxRelays) (short : path.length ≤ 127)
    (callback : Callback) (s : Daemon × SocketRecord)
    : wp (socketAccesses settings conf path id (.notify callback))
        (pathContract path id .vhost (.notify callback)) (callback.code settings path)
        (fun outcome s' => callback.AppliedTo settings id outcome s'.2.accesses) s := by
  have name : ifname path = path := List.take_of_length_le short
  have lookup : wp (socketAccesses settings conf path id (.notify callback))
      (pathContract path id .vhost (.notify callback)) (getRelayForSock settings (some path))
      (fun found s' => found = some id ∧ s'.2.accesses = []) s := by
    intro s' _ h answer late
    have there := h.entered (late ⟨callback, rfl⟩ rfl)
    exact ⟨h.exec nofun, ⟨List.Subset.refl _, fun port => by cases port⟩,
      find_relay_of_path below h.only there, rfl⟩
  unfold Callback.code
  rw [name]
  refine wp.bind (lookup.mono fun found s' looked => ?_)
  obtain ⟨rfl, fresh⟩ := looked
  exact wp.bind ((callback_applies callback fresh).mono fun _ _ applied => applied)

/-- The proof outline of the two threads. -/
def lateOutline (settings : Settings) (conf : SocketConf) (path : List Char) (id : Nat)
    (below : id < settings.maxRelays) (short : path.length ≤ 127)
    : Outline (socketSystem settings conf path id) lateLookups where
  inv := PathOf path id
  rely thread := RecordStep thread.other
  guar := RecordStep
  done
    | .port, _ => fun _ _ => True
    | .vhost, .register => fun _ _ => True
    | .vhost, .notify callback => fun outcome s =>
        callback.AppliedTo settings id outcome s.2.accesses
  fault _ := True
  refl _ := RecordStep.refl _
  trans _ _ _ _ := RecordStep.trans
  stable thread op _ s s' later _ held := by
    cases thread with
    | port => trivial
    | vhost =>
        cases op with
        | register => trivial
        | notify callback =>
            dsimp only at held ⊢
            rwa [later.2 rfl]
  others thread thread' different _ _ kept := by
    cases thread <;> cases thread' <;> first | exact absurd rfl different | exact kept
  env event s s' h happened := by
    obtain ⟨later, same⟩ := h.event happened
    exact ⟨later, fun _ => ⟨same ▸ List.Subset.refl _, fun _ => same ▸ rfl⟩⟩
  ops thread op s _ _ _ called _ := by
    obtain ⟨rfl, ⟨callback, rfl⟩, _⟩ := called
    exact callback_finds_relay below short callback s

/-- **Callbacks during the registration**: in every run of a registration and of callbacks for
its path, in which every callback looks for its relay after the path was entered, each callback
finds the relay that is registered and is applied to it. The path fits into the buffers of the
callbacks and was not registered before.
-/
theorem callbacks_applied_in_late_runs (below : id < settings.maxRelays)
    (short : path.length ≤ 127) {daemon : Daemon}
    (unused : ∀ j, daemon.relayIfnameMap j ≠ some path) {config : SocketConfig}
    (run : Run (socketSystem settings conf path id) lateLookups
      (registering settings conf path id daemon) config)
    {callback : Callback} {outcome : CallbackOutcome}
    (returned : config.running .vhost = (.notify callback, .ret outcome))
    : callback.AppliedTo settings id outcome config.state.2.accesses := by
  have first : (lateOutline settings conf path id below short).Good
      (registering settings conf path id daemon) := by
    refine ⟨⟨fun j same => absurd same (unused j), nofun⟩, fun thread => ?_⟩
    cases thread with
    | port => exact wp.bind ((register_wp _).mono fun _ _ _ => trivial)
    | vhost => trivial
  exact (run.good first).returned returned

end Late

instance (s : Daemon × SocketRecord) (thread : SocketThread) (op : SocketOp)
    : Decidable (anyLookups.call thread op s) :=
  match op with
  | .register => .isFalse fun ⟨_, ⟨_, same⟩, _⟩ => SocketOp.noConfusion same
  | .notify callback =>
      decidable_of_iff (thread = .vhost ∧ .started ∈ s.2.steps)
        ⟨fun h => ⟨h.1, ⟨callback, rfl⟩, h.2⟩, fun h => ⟨h.1, h.2.2⟩⟩

instance (op : SocketOp) (i : SockInstr) (answer : Int) (s : Daemon × SocketRecord)
    : Decidable (anyLookups.instr op i answer s) :=
  .isTrue trivial

instance (s : Daemon × SocketRecord) (thread : SocketThread) (op : SocketOp)
    : Decidable (lateLookups.call thread op s) :=
  inferInstanceAs (Decidable (anyLookups.call thread op s))

instance (op : SocketOp) (i : SockInstr) (answer : Int) (s : Daemon × SocketRecord)
    : Decidable (lateLookups.instr op i answer s) :=
  match op with
  | .register => .isTrue fun ⟨_, same⟩ => SocketOp.noConfusion same
  | .notify callback =>
      decidable_of_iff (i = .readMap → .entered ∈ s.2.steps)
        ⟨fun h _ => h, fun h => h ⟨callback, rfl⟩⟩

/-- A server registers a socket; every call succeeds up to the start of the driver. -/
def startDriver : List (Choice SocketThread SocketOp Int Event) :=
  answered .port [-1, 0, 0, 0]

/-- The guest enables the first ring. -/
def enableRing : List (Choice SocketThread SocketOp Int Event) :=
  .call .vhost (.notify (.vringStateChanged ⟨0, true⟩)) :: answered .vhost [0, 0]

/-- Witness: the ring is enabled after the path was entered. -/
theorem ring_enabled_after_registration
    : ∃ (config : SocketConfig) (outcome : CallbackOutcome),
        Run (socketSystem twoWorkers ⟨false, false⟩ "/tmp/virtio-forwarder0.sock".toList 0)
          lateLookups
          (registering twoWorkers ⟨false, false⟩ "/tmp/virtio-forwarder0.sock".toList 0
            (Daemon.unused twoWorkers))
          config
        ∧ config.running .vhost = (.notify (.vringStateChanged ⟨0, true⟩), .ret outcome)
        ∧ (config.state.1.world.relays 0).vio.rxQBitmap = 1
        ∧ Callback.AppliedTo twoWorkers 0 (.vringStateChanged ⟨0, true⟩) outcome
            config.state.2.accesses := by
  obtain ⟨config, run, reached⟩ := Run.of_follow (socketSystem twoWorkers ⟨false, false⟩
      "/tmp/virtio-forwarder0.sock".toList 0)
    lateLookups
    (registering twoWorkers ⟨false, false⟩ "/tmp/virtio-forwarder0.sock".toList 0
      (Daemon.unused twoWorkers))
    (startDriver ++ answered .port [0] ++ enableRing)
    (fun c => (c.running .vhost).1 = .notify (.vringStateChanged ⟨0, true⟩)
      && (c.running .vhost).2.value? = some ⟨some 0, 0⟩
      && (c.state.1.world.relays 0).vio.rxQBitmap = 1)
    (by decide +kernel)
  simp only [Bool.and_eq_true, decide_eq_true_eq] at reached
  obtain ⟨⟨op, value⟩, enabled⟩ := reached
  have returned : config.running .vhost = (.notify (.vringStateChanged ⟨0, true⟩),
      .ret ⟨some 0, 0⟩) := Prod.ext op (Prog.eq_ret_of_value? value)
  exact ⟨config, ⟨some 0, 0⟩, run, returned, enabled,
    callbacks_applied_in_late_runs (by decide) (by decide) (by simp [Daemon.unused]) run returned⟩

/-- A callback between the start of the driver and the entry of the path is lost, and the ring
stays disabled for the forwarder.
-/
theorem ring_lost_before_path_entered
    : ¬ ∀ (settings : Settings) (conf : SocketConf) (path : List Char) (id : Nat)
        (daemon : Daemon) (config : SocketConfig) (callback : Callback)
        (outcome : CallbackOutcome),
        id < settings.maxRelays
        → (∀ j, daemon.relayIfnameMap j ≠ some path)
        → Run (socketSystem settings conf path id) anyLookups
            (registering settings conf path id daemon) config
        → config.running .vhost = (.notify callback, .ret outcome)
        → callback.AppliedTo settings id outcome config.state.2.accesses := by
  intro claim
  let path := "/tmp/virtio-forwarder0.sock".toList
  obtain ⟨config, run, reached⟩ := Run.of_follow (socketSystem twoWorkers ⟨false, false⟩ path 0)
    anyLookups
    (registering twoWorkers ⟨false, false⟩ path 0 (Daemon.unused twoWorkers))
    (startDriver ++ .call .vhost (.notify (.vringStateChanged ⟨0, true⟩))
      :: answered .vhost [0])
    (fun c => (c.running .vhost).1 = .notify (.vringStateChanged ⟨0, true⟩)
      && (c.running .vhost).2.value? = some ⟨none, -1⟩)
    (by decide +kernel)
  simp only [Bool.and_eq_true, decide_eq_true_eq] at reached
  have found := claim twoWorkers ⟨false, false⟩ path 0 _ config _ ⟨none, -1⟩ (by decide)
    (by simp [Daemon.unused]) run (Prod.ext reached.1 (Prog.eq_ret_of_value? reached.2))
  cases found.1

end VirtioForwarder
