import VirtioForwarder.Control.Frame

/-! A VF is attached by the port control thread while the vhost thread connects the guest.
Each side reads the state of the other one and publishes its own without a common lock. The
accesses that decide who starts the port are recorded in the order in which they happen.
-/

namespace VirtioForwarder

open Program

/-- The accesses that decide who starts the port: `configure_dev_with_virtio` reads
`vio.state` and writes `dpdk.state`; `virtio_forwarder_add_virtio` writes `vio.state` and
reads `dpdk.state`, at the end and when it moves the pool.
-/
inductive Access
  | vfReadsVio
  | vfPublishes
  | virtioPublishes
  | virtioReadsVf
  deriving DecidableEq, Repr

/-- The record of an access, if it is one of these. -/
def Access.of : Op → Instr → Option Access
  | .addVf2 _ _ _, .read .vioState => some .vfReadsVio
  | .addVf2 _ _ _, .write (.dpdkState _) => some .vfPublishes
  | .addVirtio _ _, .write (.vioState _) => some .virtioPublishes
  | .addVirtio _ _, .read .dpdkState => some .virtioReadsVf
  | _, _ => none

/-- The control system with the order of these accesses. -/
def connectSystem (settings : Settings)
    : System Op Instr Int World Abort (World × List Access) Event Int :=
  (controlSystem settings).traced Access.of

/-- A driver call that succeeds. -/
def DriverCall.succeeds (settings : Settings) (answer : Int) : DriverCall → Bool
  | .nextMatchingDev _ => 0 ≤ answer && answer < settings.maxRelays
  | .poolCreate _ _ => answer ≠ 0
  | .bondCreate _ _ | .bondSlavesGet _ | .bondSlave _ _ | .vringNum _ | .guestNumaNode _ =>
      0 ≤ answer
  | .uninitializedPort => true
  | _ => answer = 0

/-- The two threads of a connection. -/
inductive ConnectThread
  | port
  | vhost
  deriving DecidableEq, Repr

/-- All driver calls succeed, and the threads make no further calls. -/
def connecting (settings : Settings) : Policy ConnectThread Op Instr Int (World × List Access) where
  instr _ i answer _ := ∀ call, i = .call call → call.succeeds settings answer
  call _ _ _ := False

/-- One call of each operation, at its beginning. -/
def connectStart (settings : Settings) (world : World) (vf virtio : Op)
    : Config ConnectThread Op Instr Int World Abort (World × List Access) Int where
  state := (world, [])
  running
    | .port => (vf, vf.code settings)
    | .vhost => (virtio, virtio.code settings)

/-- Each side has read the state of the other one before that was published. -/
def Crossed (order : List Access) : Prop :=
  [.vfReadsVio, .virtioPublishes].Sublist order
  ∧ [.virtioPublishes, .virtioReadsVf, .vfPublishes].Sublist order

/-- The relay is connected and its port started. -/
def World.Started (world : World) (w : Nat) : Prop :=
  (world.relays w).vio.state = .ready
  ∧ (world.relays w).dpdk.state = .ready
  ∧ world.started (world.relays w).dpdk.dpdkPort = true

/-- What the order of the accesses says about the relay. -/
structure ConnectInv (w : Nat) (s : World × List Access) : Prop where
  vio
    : (s.1.relays w).vio.state = if .virtioPublishes ∈ s.2 then .ready else .uninit
  unpublished : .vfPublishes ∉ s.2 → (s.1.relays w).dpdk.state = .uninit
  published
    : .vfPublishes ∈ s.2
      → (s.1.relays w).dpdk.state = .added ∨ (s.1.relays w).dpdk.state = .ready
  added
    : (s.1.relays w).dpdk.state = .added
      → .vfReadsVio ∈ s.2
        ∧ (.virtioPublishes ∈ s.2 → [.vfReadsVio, .virtioPublishes].Sublist s.2)
  ready
    : (s.1.relays w).dpdk.state = .ready
      → .virtioPublishes ∈ s.2
        ∧ s.1.started (s.1.relays w).dpdk.dpdkPort = true
        ∧ ¬ Crossed s.2

/-- What the port control thread may assume: `add_virtio` publishes once, leaves the port
number alone, and stops no port after it has published.
-/
structure PortRely (w : Nat) (before after : World × List Access) : Prop where
  dpdkPort : (after.1.relays w).dpdk.dpdkPort = (before.1.relays w).dpdk.dpdkPort
  started
    : .virtioPublishes ∈ before.2
      → ∀ port, before.1.started port = true → after.1.started port = true
  order
    : ∃ latest, after.2 = before.2 ++ latest
      ∧ (∀ access ∈ latest, access = .virtioPublishes ∨ access = .virtioReadsVf)
      ∧ (.virtioPublishes ∈ before.2 → .virtioPublishes ∉ latest)

/-- What the vhost thread may assume: `add_vf2` publishes once, and touches neither the
state nor the port after that.
-/
structure VhostRely (w : Nat) (before after : World × List Access) : Prop where
  published
    : .vfPublishes ∈ before.2
      → after.2 = before.2
        ∧ (after.1.relays w).dpdk.dpdkPort = (before.1.relays w).dpdk.dpdkPort
        ∧ after.1.started = before.1.started
  order
    : ∃ latest, after.2 = before.2 ++ latest
      ∧ (∀ access ∈ latest, access = .vfReadsVio ∨ access = .vfPublishes)
      ∧ ((after.1.relays w).dpdk.state = (before.1.relays w).dpdk.state
        ∨ .vfPublishes ∈ latest)

theorem PortRely.refl (w : Nat) (s : World × List Access) : PortRely w s s :=
  ⟨rfl, fun _ _ => id, [], (List.append_nil _).symm, by simp, by simp⟩

theorem PortRely.trans {w : Nat} {first middle last : World × List Access}
    (hl : PortRely w first middle) (hr : PortRely w middle last)
    : PortRely w first last := by
  obtain ⟨latest, ordered, ofVirtio, once⟩ := hl.order
  obtain ⟨latest', ordered', ofVirtio', once'⟩ := hr.order
  refine ⟨hr.dpdkPort.trans hl.dpdkPort, fun published port h => ?_, latest ++ latest', ?_, ?_, ?_⟩
  · exact hr.started (by simp [ordered, published]) port (hl.started published port h)
  · rw [ordered', ordered, List.append_assoc]
  · intro access h
    exact (List.mem_append.mp h).elim (ofVirtio access) (ofVirtio' access)
  · intro published h
    rcases List.mem_append.mp h with h | h
    · exact once published h
    · exact once' (by simp [ordered, published]) h

theorem VhostRely.refl (w : Nat) (s : World × List Access) : VhostRely w s s :=
  ⟨fun _ => ⟨rfl, rfl, rfl⟩, [], (List.append_nil _).symm, by simp, Or.inl rfl⟩

theorem VhostRely.trans {w : Nat} {first middle last : World × List Access}
    (hl : VhostRely w first middle) (hr : VhostRely w middle last)
    : VhostRely w first last := by
  obtain ⟨latest, ordered, ofVf, changed⟩ := hl.order
  obtain ⟨latest', ordered', ofVf', changed'⟩ := hr.order
  refine ⟨fun published => ?_, latest ++ latest', ?_, ?_, ?_⟩
  · obtain ⟨same, port, started⟩ := hl.published published
    obtain ⟨same', port', started'⟩ := hr.published (same ▸ published)
    exact ⟨same'.trans same, port'.trans port, started'.trans started⟩
  · rw [ordered', ordered, List.append_assoc]
  · intro access h
    exact (List.mem_append.mp h).elim (ofVf access) (ofVf' access)
  · rcases changed' with same | new
    · rcases changed with same' | new
      · exact Or.inl (same.trans same')
      · exact Or.inr (List.mem_append_left _ new)
    · exact Or.inr (List.mem_append_right _ new)

/-- The states and the port of the relay are the same. -/
structure Relay.SameStates (before after : Relay) : Prop where
  vioState : after.vio.state = before.vio.state
  dpdkState : after.dpdk.state = before.dpdk.state
  dpdkPort : after.dpdk.dpdkPort = before.dpdk.dpdkPort

section Steps

variable {w : Nat} {s s' : World × List Access}

/-- A step that changes neither the order, the states nor the ports keeps everything. -/
theorem ConnectInv.of_same (inv : ConnectInv w s) (order : s'.2 = s.2)
    (same : (s.1.relays w).SameStates (s'.1.relays w)) (started : s'.1.started = s.1.started)
    : ConnectInv w s' ∧ PortRely w s s' ∧ VhostRely w s s' := by
  refine ⟨⟨?_, ?_, ?_, ?_, ?_⟩, ?_, ?_⟩
  · rw [same.vioState, order]
    exact inv.vio
  · rw [same.dpdkState, order]
    exact inv.unpublished
  · rw [same.dpdkState, order]
    exact inv.published
  · rw [same.dpdkState, order]
    exact inv.added
  · rw [same.dpdkState, same.dpdkPort, started, order]
    exact inv.ready
  · refine ⟨same.dpdkPort, fun _ _ => started ▸ id, [], ?_, by simp, by simp⟩
    rw [order, List.append_nil]
  · refine ⟨fun _ => ⟨order, same.dpdkPort, started⟩, [], ?_, by simp, Or.inl same.dpdkState⟩
    rw [order, List.append_nil]

/-- Before the VF is published the port control thread may start and stop ports. -/
theorem ConnectInv.of_unpublished (inv : ConnectInv w s) (fresh : .vfPublishes ∉ s.2)
    (world : World) (latest : List Access) (ofVf : ∀ access ∈ latest, access = .vfReadsVio)
    (vio : (world.relays w).vio.state = (s.1.relays w).vio.state)
    (dpdk : (world.relays w).dpdk.state = (s.1.relays w).dpdk.state)
    : ConnectInv w (world, s.2 ++ latest) ∧ VhostRely w s (world, s.2 ++ latest) := by
  have there {access : Access} (h : access ≠ .vfReadsVio)
      : access ∈ s.2 ++ latest ↔ access ∈ s.2 := by
    rw [List.mem_append, or_iff_left]
    exact fun new => h (ofVf access new)
  have uninit : (world.relays w).dpdk.state = .uninit := dpdk.trans (inv.unpublished fresh)
  refine ⟨⟨?_, fun _ => uninit, ?_, by simp [uninit], by simp [uninit]⟩, ?_⟩
  · simp only [vio, there (by decide : Access.virtioPublishes ≠ .vfReadsVio)]
    exact inv.vio
  · intro published
    exact absurd ((there (by decide)).mp published) fresh
  · exact ⟨fun published => absurd published fresh, latest, rfl,
      fun access h => Or.inl (ofVf access h), Or.inl dpdk⟩

/-- Before the guest is published the vhost thread may start and stop ports. -/
theorem ConnectInv.of_unconnected (inv : ConnectInv w s) (fresh : .virtioPublishes ∉ s.2)
    (world : World) (latest : List Access)
    (ofVirtio : ∀ access ∈ latest, access = .virtioReadsVf)
    (same : (s.1.relays w).SameStates (world.relays w))
    : ConnectInv w (world, s.2 ++ latest) ∧ PortRely w s (world, s.2 ++ latest) := by
  have there {access : Access} (h : access ≠ .virtioReadsVf)
      : access ∈ s.2 ++ latest ↔ access ∈ s.2 := by
    rw [List.mem_append, or_iff_left]
    exact fun new => h (ofVirtio access new)
  have fresh' : .virtioPublishes ∉ s.2 ++ latest := fun h => fresh ((there (by decide)).mp h)
  refine ⟨⟨?_, ?_, ?_, ?_, ?_⟩, ?_⟩
  · rw [same.vioState, inv.vio, if_neg fresh, if_neg fresh']
  · rw [there (by decide), same.dpdkState]
    exact inv.unpublished
  · rw [there (by decide), same.dpdkState]
    exact inv.published
  · intro added
    rw [same.dpdkState] at added
    exact ⟨(there (by decide)).mpr (inv.added added).1, fun h => absurd h fresh'⟩
  · intro ready
    rw [same.dpdkState] at ready
    exact absurd (inv.ready ready).1 fresh
  · exact ⟨same.dpdkPort, fun h => absurd h fresh, latest, rfl,
      fun access h => Or.inr (ofVirtio access h), fun h => absurd h fresh⟩

end Steps

theorem Instr.Steady.sameStates {instr : Instr} (h : instr.Steady) (id : Nat) (answer : Int)
    (world : World)
    : (world.relays id).SameStates ((instr.exec id answer world).relays id) := by
  cases instr with
  | write assignment =>
      change (world.relays id).SameStates ((world.modifyRelay id _).relays id)
      rw [World.relays_modifyRelay_self]
      cases assignment with
      | vioState | dpdkState | vio2vfCpu | vf2vioCpu | dpdkPort => exact h.elim
      | _ => exact ⟨rfl, rfl, rfl⟩
  | call request =>
      change (world.relays id).SameStates ((request.apply answer world).relays id)
      rw [DriverCall.relays_apply]
      exact ⟨rfl, rfl, rfl⟩
  | read | flagWorker | logTimeout => exact ⟨rfl, rfl, rfl⟩

theorem Access.of_quiet (op : Op) {instr : Instr} (h : instr.Quiet) : Access.of op instr = none := by
  cases instr with
  | read field =>
      cases field with
      | vioState => exact absurd rfl h.1
      | dpdkState => exact absurd rfl h.2
      | _ => cases op <;> rfl
  | write assignment =>
      cases assignment with
      | vioState | dpdkState => exact h.elim
      | _ => cases op <;> rfl
  | _ => cases op <;> rfl

theorem Access.of_steady (virtionet : Int) (w : Nat) {instr : Instr} (h : instr.Steady)
    : ∀ access ∈ (Access.of (.addVirtio virtionet w) instr).toList, access = .virtioReadsVf := by
  cases instr with
  | read field => cases field <;> simp [Access.of]
  | write assignment =>
      cases assignment with
      | vioState | dpdkState => exact h.elim
      | _ => simp [Access.of]
  | _ => simp [Access.of]

/-- Nothing that the other thread looks at has changed. -/
structure Unnoticed (w : Nat) (before after : World × List Access) : Prop where
  order : after.2 = before.2
  states : (before.1.relays w).SameStates (after.1.relays w)
  started : after.1.started = before.1.started

/-- Accesses to a relay that the other thread does not look at. -/
def Instr.Private : Instr → Prop
  | .read field => field ≠ .vioState ∧ field ≠ .dpdkState
  | .write (.vioState _) | .write (.dpdkState _) | .write (.dpdkPort _) | .call _ => False
  | _ => True

/-- How the recorded accesses of an operation on relay `w` run. -/
abbrev recordedAccesses (w : Nat) (op : Op) : Machine Instr Int World (World × List Access) :=
  ⟨fun i answer s => (i.exec w answer s.1, s.2 ++ (Access.of op i).toList), fun s => s.1⟩

theorem Instr.Private.unnoticed {instr : Instr} (h : instr.Private) (w : Nat) (op : Op)
    (answer : Int) (s : World × List Access)
    : Unnoticed w s ((recordedAccesses w op).exec instr answer s) := by
  cases instr with
  | read field =>
      refine ⟨?_, ⟨rfl, rfl, rfl⟩, rfl⟩
      have unrecorded : Access.of op (.read field) = none := Access.of_quiet op h
      simp only [unrecorded, Option.toList_none, List.append_nil]
  | write assignment =>
      refine ⟨?_, ?_, rfl⟩
      · cases assignment with
        | vioState | dpdkState | dpdkPort => exact h.elim
        | _ => cases op <;> simp [Access.of]
      · change (s.1.relays w).SameStates ((s.1.modifyRelay w _).relays w)
        rw [World.relays_modifyRelay_self]
        cases assignment with
        | vioState | dpdkState | dpdkPort => exact h.elim
        | _ => exact ⟨rfl, rfl, rfl⟩
  | flagWorker cpu => exact ⟨by cases op <;> simp [Access.of], ⟨rfl, rfl, rfl⟩, rfl⟩
  | call request => exact h.elim
  | logTimeout => exact ⟨by cases op <;> simp [Access.of], ⟨rfl, rfl, rfl⟩, rfl⟩

theorem Instr.Assigning.isPrivate {instr : Instr} (h : instr.Assigning) : instr.Private := by
  cases instr with
  | read field => exact h
  | write assignment =>
      cases assignment with
      | vio2vfCpu | vf2vioCpu => trivial
      | _ => exact h.elim
  | flagWorker cpu => trivial
  | call | logTimeout => exact h.elim

/-- What a thread may assume. -/
def ConnectThread.rely (w : Nat)
    : ConnectThread → World × List Access → World × List Access → Prop
  | .port => PortRely w
  | .vhost => VhostRely w

/-- The other thread. -/
def ConnectThread.other : ConnectThread → ConnectThread
  | .port => .vhost
  | .vhost => .port

/-- The contract of a thread of the connection. -/
def ConnectThread.contract (settings : Settings) (w : Nat) (thread : ConnectThread) (op : Op)
    : Contract Instr Int Abort (World × List Access) where
  inv := ConnectInv w
  rely := thread.rely w
  guar := thread.other.rely w
  admits := (connecting settings).instr op
  fault _ := True

section Programs

variable {settings : Settings} {w : Nat} {thread : ConnectThread} {op : Op} {α : Type}
  {s : World × List Access}

theorem ConnectInv.of_unnoticed {s' : World × List Access} (inv : ConnectInv w s)
    (same : Unnoticed w s s') (thread : ConnectThread)
    : ConnectInv w s' ∧ thread.rely w s s' := by
  obtain ⟨inv', port, vhost⟩ := inv.of_same same.order same.states same.started
  refine ⟨inv', ?_⟩
  cases thread with
  | port => exact port
  | vhost => exact vhost

theorem AssigningProg.isPrivate {p : Control α} (h : AssigningProg p)
    : p.All Instr.Private fun _ => True :=
  h.mono (fun _ => Instr.Assigning.isPrivate) fun _ _ => trivial

/-- Private accesses keep what depends on the states, the ports and the order. -/
theorem wp_private {assertion : World × List Access → Prop} {p : Control α}
    (hidden : p.All Instr.Private fun _ => True)
    (stable : (thread.contract settings w op).Stable assertion)
    (same : ∀ s s', Unnoticed w s s' → assertion s → assertion s') (h : assertion s)
    : wp (recordedAccesses w op) (thread.contract settings w op) p (fun _ => assertion) s := by
  refine hidden.wp (fun _ _ => trivial) stable (fun i hi s answer inv held _ => ?_) h
  have unnoticed := hi.unnoticed w op answer s
  obtain ⟨inv', guar⟩ := ConnectInv.of_unnoticed inv unnoticed thread.other
  exact ⟨inv', guar, same _ _ unnoticed held⟩

/-- Reading anything but a state shows the relay as it is. -/
theorem wp_read {assertion : World × List Access → Prop} {field : Field}
    {post : Relay → World × List Access → Prop}
    (hidden : field ≠ .vioState ∧ field ≠ .dpdkState)
    (stable : (thread.contract settings w op).Stable assertion) (h : assertion s)
    (next : ∀ s, assertion s → post (s.1.relays w) s)
    : wp (recordedAccesses w op) (thread.contract settings w op) (look w field) post s := by
  refine wp.perform stable h fun s answer inv held _ => ?_
  have unchanged : (recordedAccesses w op).exec (.read field) answer s = s := by
    have unrecorded : Access.of op (.read field) = none := Access.of_quiet op hidden
    refine Prod.ext rfl ?_
    simp only [unrecorded, Option.toList_none, List.append_nil]
  rw [unchanged]
  refine ⟨inv, ?_, next s held⟩
  exact (ConnectInv.of_unnoticed inv ⟨rfl, ⟨rfl, rfl, rfl⟩, rfl⟩ thread.other).2

theorem wp_private_bind {β : Type} {assertion : World × List Access → Prop} {p : Control α}
    {next : α → Control β} {post : β → World × List Access → Prop}
    (hidden : p.All Instr.Private fun _ => True)
    (stable : (thread.contract settings w op).Stable assertion)
    (same : ∀ s s', Unnoticed w s s' → assertion s → assertion s') (h : assertion s)
    (rest : ∀ a s, assertion s
      → wp (recordedAccesses w op) (thread.contract settings w op) (next a) post s)
    : wp (recordedAccesses w op) (thread.contract settings w op) (p >>= next) post s :=
  wp.bind ((wp_private hidden stable same h).mono rest)

end Programs

end VirtioForwarder
