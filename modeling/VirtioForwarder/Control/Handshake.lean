import VirtioForwarder.Control.Frame

/-! The removal of a VF by the port control thread and of the guest by the vhost thread, at
any time and against each other. Each removal is passed on by the workers in two phases, so
the worker whose turn it is must still be assigned to the relay.
-/

namespace VirtioForwarder

open Program

/-- The worker that has to make the next transition of a removal is assigned. -/
structure Relay.Assigned (relay : Relay) : Prop where
  vio2vf
    : relay.vio.state = .removing1 ∨ relay.dpdk.state = .removing2
      → relay.vio.vio2vfCpu ≠ -1
  vf2vio
    : relay.vio.state = .removing2 ∨ relay.dpdk.state = .removing1
      → relay.dpdk.vf2vioCpu ≠ -1

/-- In addition, a connected guest has a worker. -/
structure Relay.Removable (relay : Relay) : Prop extends relay.Assigned where
  ready : relay.vio.state = .ready → relay.vio.vio2vfCpu ≠ -1

/-- The two threads that remove devices. -/
inductive RemovalThread
  | port
  | vhost
  deriving DecidableEq, Repr

/-- The port control thread removes the VF of relay `w`, the vhost thread its guest. -/
def RemovalThread.mayCall (w : Nat) : RemovalThread → Op → Bool
  | .port, .removeVf2 _ id _ => id = w
  | .vhost, .removeVirtio id => id = w
  | _, _ => false

/-- Removals without further conditions. -/
def removals (w : Nat) : Policy RemovalThread Op Instr Int World where
  instr _ _ _ _ := True
  call thread op _ := thread.mayCall w op

/-- Removals that unassign a worker only when no transition of the other removal, or of an
abandoned one of its own, waits for it.
-/
def orderlyRemovals (w : Nat) : Policy RemovalThread Op Instr Int World where
  instr _ i _ world :=
    (i = .write (.vio2vfCpu (-1))
      → (world.relays w).vio.state ≠ .removing1 ∧ (world.relays w).dpdk.state ≠ .removing2)
    ∧ (i = .write (.vf2vioCpu (-1)) → (world.relays w).vio.state ≠ .removing2)
  call thread op _ := thread.mayCall w op

/-- What a thread may assume of the other one and of the workers: only the port control
thread assigns the VF worker and starts a VF removal, only the vhost thread connects or
disconnects the guest.
-/
def RemovalThread.rely : RemovalThread → Relay → Relay → Prop
  | .port, before, after =>
      after.dpdk.vf2vioCpu = before.dpdk.vf2vioCpu
      ∧ (before.dpdk.state ≠ .removing1 → after.dpdk.state ≠ .removing1)
  | .vhost, before, after => after.vio.state = .ready ↔ before.vio.state = .ready

/-- The other thread. -/
def RemovalThread.other : RemovalThread → RemovalThread
  | .port => .vhost
  | .vhost => .port

theorem RemovalThread.rely_refl (thread : RemovalThread) (relay : Relay)
    : thread.rely relay relay := by
  cases thread with
  | port => exact ⟨rfl, id⟩
  | vhost => exact Iff.rfl

theorem RemovalThread.rely_trans (thread : RemovalThread) {first middle last : Relay}
    (hl : thread.rely first middle) (hr : thread.rely middle last)
    : thread.rely first last := by
  cases thread with
  | port => exact ⟨hr.1.trans hl.1, fun h => hr.2 (hl.2 h)⟩
  | vhost => exact hr.trans hl

theorem RemovalThread.rely_of_sameControl (thread : RemovalThread) {before after : Relay}
    (h : before.SameControl after)
    : thread.rely before after := by
  cases thread with
  | port => exact ⟨h.vf2vioCpu, by rw [h.dpdkState]; exact id⟩
  | vhost => exact by rw [RemovalThread.rely, h.vioState]

theorem RemovalThread.rely_of_served (thread : RemovalThread) {before after : Relay}
    (h : before.Served after)
    : thread.rely before after := by
  cases thread with
  | port =>
      refine ⟨h.vf2vioCpu, fun away => ?_⟩
      rcases h.dpdkState with same | ⟨_, later | later⟩
      · rwa [same]
      · simp [later]
      · simp [later]
  | vhost =>
      rcases h.vioState with same | ⟨leaving, later⟩
      · rw [RemovalThread.rely, same]
      · rcases leaving with leaving | leaving <;> rcases later with later | later
          <;> simp [RemovalThread.rely, leaving, later]

theorem Relay.Removable.of_sameControl {before after : Relay} (h : before.Removable)
    (same : before.SameControl after)
    : after.Removable where
  vio2vf := by
    rw [same.vioState, same.dpdkState, same.vio2vfCpu]
    exact h.vio2vf
  vf2vio := by
    rw [same.vioState, same.dpdkState, same.vf2vioCpu]
    exact h.vf2vio
  ready := by
    rw [same.vioState, same.vio2vfCpu]
    exact h.ready

/-- The workers keep the assignment: a removal enters its second phase only if the worker
of that phase is assigned.
-/
theorem Relay.Removable.of_vm2vf {before after : Relay} (h : before.Removable)
    (effect : VmToVfEffect before after)
    : after.Removable := by
  have served := effect.served
  have vio := effect.vioState
  have dpdk := effect.dpdkState
  simp only [VioState.released] at vio
  refine ⟨⟨?_, ?_⟩, ?_⟩
  · rw [served.vio2vfCpu]
    rintro (leaving | leaving)
    · refine h.vio2vf (Or.inl ?_)
      grind
    · refine h.vio2vf (Or.inr ?_)
      grind
  · rw [served.vf2vioCpu]
    rintro (leaving | leaving)
    · have := h.vf2vio
      grind
    · refine h.vf2vio (Or.inr ?_)
      grind
  · rw [served.vio2vfCpu]
    intro connected
    exact h.ready (by grind)

theorem Relay.Removable.of_vf2vm {before after : Relay} (h : before.Removable)
    (effect : VfToVmEffect before after)
    : after.Removable := by
  have served := effect.served
  have vio := effect.vioState
  have dpdk := effect.dpdkState
  simp only [DpdkState.released] at dpdk
  refine ⟨⟨?_, ?_⟩, ?_⟩
  · rw [served.vio2vfCpu]
    rintro (leaving | leaving)
    · refine h.vio2vf (Or.inl ?_)
      grind
    · have := h.vio2vf
      grind
  · rw [served.vf2vioCpu]
    rintro (leaving | leaving)
    · refine h.vf2vio (Or.inl ?_)
      grind
    · refine h.vf2vio (Or.inr ?_)
      grind
  · rw [served.vio2vfCpu]
    intro connected
    exact h.ready (by grind)

/-- Every event keeps the assignment of relay `w`. -/
theorem Event.removable {settings : Settings} {event : Event} {world after : World} {w : Nat}
    (h : (world.relays w).Removable) (happened : event.apply settings world = some after)
    : (after.relays w).Removable := by
  rcases Event.apply_cases happened with
    ⟨target, relay, rfl, effect⟩ | ⟨cpu, rfl⟩ | ⟨target, f, rfl, same, _⟩
  · rcases eq_or_ne w target with rfl | other
    · rw [World.relays_modifyRelay_self]
      exact effect.elim h.of_vm2vf h.of_vf2vm
    · rwa [World.relays_modifyRelay_of_ne world _ other]
  · exact h
  · rcases eq_or_ne w target with rfl | other
    · rw [World.relays_modifyRelay_self]
      exact h.of_sameControl same
    · rwa [World.relays_modifyRelay_of_ne world _ other]

/-- The contract of a removal thread on relay `w`. -/
def RemovalThread.contract (w : Nat) (thread : RemovalThread) (op : Op)
    : Contract Instr Int Abort World where
  inv world := (world.relays w).Removable
  rely before after := thread.rely (before.relays w) (after.relays w)
  guar before after := thread.other.rely (before.relays w) (after.relays w)
  admits := (orderlyRemovals w).instr op
  fault _ := True

section Programs

variable {w : Nat} {thread : RemovalThread} {op : Op} {world : World} {α : Type}

/-- Plain accesses keep whatever is known of the states and CPUs. -/
theorem PlainProg.wp_removal {p : Control α} (plain : PlainProg p) (known : Relay → Prop)
    (stable : (thread.contract w op).Stable fun s => known (s.relays w))
    (same : ∀ before after, before.SameControl after → known before → known after)
    (h : known (world.relays w))
    : wp (accesses w) (thread.contract w op) p (fun _ s => known (s.relays w)) world := by
  refine plain.wp (fun _ _ => trivial) stable (fun i hi s answer inv held _ => ?_) h
  have unchanged := hi.sameControl w answer s w
  exact ⟨inv.of_sameControl unchanged, thread.other.rely_of_sameControl unchanged,
    same _ _ unchanged held⟩

theorem PlainProg.wp_removal_true {p : Control α} (plain : PlainProg p)
    : wp (accesses w) (thread.contract w op) p (fun _ _ => True) world :=
  plain.wp_removal (fun _ => True) (fun _ _ _ _ => id) (fun _ _ _ => id) trivial

theorem wp_plain_bind {β : Type} {p : Control α} {next : α → Control β}
    {post : β → World → Prop} (plain : PlainProg p)
    (rest : ∀ a s, wp (accesses w) (thread.contract w op) (next a) post s)
    : wp (accesses w) (thread.contract w op) (p >>= next) post world :=
  wp.bind (plain.wp_removal_true.mono fun a s _ => rest a s)

theorem contract_guar_refl (s : World) : (thread.contract w op).guar s s :=
  thread.other.rely_refl _

theorem wp_assign_removal {write : Write} {post : Unit → World → Prop} (known : Relay → Prop)
    (stable : (thread.contract w op).Stable fun s => known (s.relays w))
    (h : known (world.relays w))
    (step : ∀ s, (s.relays w).Removable → known (s.relays w)
      → (orderlyRemovals w).instr op (.write write) 0 s
      → (write.apply (s.relays w)).Removable
        ∧ thread.other.rely (s.relays w) (write.apply (s.relays w))
        ∧ ∀ s', s'.relays w = write.apply (s.relays w) → post () s')
    : wp (accesses w) (thread.contract w op) (assign write) post world := by
  refine wp_assign stable h fun s _ inv held orderly => ?_
  obtain ⟨removable, rely, next⟩ := step s inv held orderly
  have written := World.relays_modifyRelay_self s w write.apply
  refine ⟨?_, ?_, next _ written⟩
  · change ((s.modifyRelay w _).relays w).Removable
    rwa [written]
  · change thread.other.rely _ ((s.modifyRelay w _).relays w)
    rwa [written]

/-- No VF removal is in its first phase. -/
def Relay.NotReleasing (relay : Relay) : Prop :=
  relay.dpdk.state ≠ .removing1

theorem notReleasing_stable
    : (RemovalThread.port.contract w op).Stable fun s => (s.relays w).NotReleasing :=
  fun _ _ later _ => later.2

/-- A VF is only active while no removal of it is in its first phase. -/
theorem vfActive_wp
    : wp (accesses w) (RemovalThread.port.contract w op) (vfActive w)
        (fun active s => active = true → (s.relays w).NotReleasing) world := by
  refine wp.bind (wp_look_only contract_guar_refl fun s _ => ?_)
  split
  · rename_i ready
    exact fun _ => by simp [Relay.NotReleasing, ready]
  · refine wp.bind (wp_look_only contract_guar_refl fun s _ added => ?_)
    have added := of_decide_eq_true added
    simp [Relay.NotReleasing, added]

/-- `stop_vm2vf_thread` starts a removal only on a relay with a VF worker; it succeeds only
when no removal is left in its first phase.
-/
theorem stopVm2vfThread_wp (h : (world.relays w).NotReleasing)
    : wp (accesses w) (RemovalThread.port.contract w op) (stopVm2vfThread w)
        (fun err s => err = 0 → (s.relays w).NotReleasing) world := by
  refine wp.bind (wp_look contract_guar_refl notReleasing_stable h fun s _ released => ?_)
  split
  · exact fun _ => released
  · rename_i assigned
    refine wp.bind (wp_assign_removal (fun relay => relay.dpdk.vf2vioCpu ≠ -1)
      (fun _ _ later _ held unassigned => held (later.1 ▸ unassigned)) (by omega)
      fun s inv assigned _ => ?_)
    refine ⟨⟨⟨?_, fun _ => assigned⟩, inv.ready⟩, Iff.rfl, fun s' _ => ?_⟩
    · rintro (waiting | waiting)
      · exact inv.vio2vf (Or.inl waiting)
      · cases waiting
    · refine wp_plain_bind (waitReleased_observing ..).plain fun _ s => ?_
      refine wp.bind (wp_look_only contract_guar_refl fun s _ => ?_)
      split
      · rename_i released
        exact fun _ => by simp [Relay.NotReleasing, released]
      · refine wp_plain_bind (.perform trivial) fun _ s => ?_
        exact fun failed => absurd failed (by decide)

/-- `detach_device` unassigns the worker while no transition of either removal waits for it. -/
theorem detachDevice_wp (h : (world.relays w).NotReleasing)
    : wp (accesses w) (RemovalThread.port.contract w op) (detachDevice w)
        (fun _ _ => True) world := by
  refine wp.bind (wp_look contract_guar_refl notReleasing_stable h fun s _ released => ?_)
  refine wp.bind ((stopVm2vfThread_wp released).mono fun err s stopped => ?_)
  split
  · trivial
  · rename_i ok
    refine wp.bind (wp_look contract_guar_refl notReleasing_stable (stopped (not_not.mp ok))
      fun s _ released => ?_)
    refine wp.bind (wp_assign_removal _ notReleasing_stable released
      fun s inv released orderly => ?_)
    refine ⟨⟨⟨inv.vio2vf, ?_⟩, inv.ready⟩, Iff.rfl, fun s' _ => ?_⟩
    · rintro (waiting | waiting)
      · exact absurd waiting (orderly.2 rfl)
      · exact absurd waiting released
    · refine PlainProg.wp_removal_true (.bind (flagWorker_inert _).plain fun _ => ?_)
      refine .bind (releaseDevice_sure ..).inert.plain fun err => ?_
      split
      · trivial
      · exact .bind (assign_plain trivial) fun _ => .bind (assign_plain trivial) fun _ =>
          .bind (assign_plain trivial) fun _ => .bind (assign_plain trivial) fun _ =>
          .bind (freePoolUnlessConnected_repooling w).plain fun _ => trivial

theorem removeVf2_wp (settings : Settings) (dbdf : List Char) (conditional : Bool)
    : wp (accesses w) (RemovalThread.port.contract w op)
        (removeVf2 settings dbdf w conditional) (fun _ _ => True) world := by
  unfold removeVf2
  split
  · trivial
  · refine wp.bind (vfActive_wp.mono fun active s inactive => ?_)
    split
    · rename_i isActive
      refine wp.bind (wp_look contract_guar_refl notReleasing_stable (inactive isActive)
        fun s _ released => ?_)
      split
      · exact detachDevice_wp released
      · trivial
    · split <;> trivial

/-- The guest is not connected. -/
def Relay.NotConnected (relay : Relay) : Prop :=
  relay.vio.state ≠ .ready

theorem notConnected_stable
    : (RemovalThread.vhost.contract w op).Stable fun s => (s.relays w).NotConnected :=
  fun _ _ later _ held connected => held (later.mp connected)

theorem stopVfOrFreePool_wp
    : wp (accesses w) (RemovalThread.vhost.contract w op) (stopVfOrFreePool w)
        (fun _ _ => True) world := by
  refine wp.bind (wp_look_only contract_guar_refl fun s _ => ?_)
  split
  · refine wp.bind (wp_look_only contract_guar_refl fun s _ => ?_)
    refine wp_plain_bind (drive_pooling _).quiet.plain fun _ s => ?_
    refine wp.bind (wp_assign_removal (fun _ => True) (fun _ _ _ _ => id) trivial
      fun s inv _ _ => ?_)
    refine ⟨⟨⟨?_, ?_⟩, inv.ready⟩, ⟨rfl, fun _ added => nomatch added⟩, fun s' _ => ?_⟩
    · rintro (waiting | waiting)
      · exact inv.vio2vf (Or.inl waiting)
      · cases waiting
    · rintro (waiting | waiting)
      · exact inv.vf2vio (Or.inl waiting)
      · cases waiting
    · exact PlainProg.wp_removal_true (.bind (look_observing ..).plain fun _ => (flagWorker_inert _).plain)
  · exact PlainProg.wp_removal_true (.bind (look_observing ..).plain fun _ =>
      .bind (drive_pooling _).quiet.plain fun _ => assign_plain trivial)

/-- `virtio_forwarder_remove_virtio` goes on after a timeout, so only the condition of the
policy keeps it from unassigning the worker too early.
-/
theorem removeVirtio_wp (settings : Settings)
    : wp (accesses w) (RemovalThread.vhost.contract w op) (removeVirtio settings w)
        (fun _ _ => True) world := by
  unfold removeVirtio
  split
  · trivial
  · refine wp.bind (wp_look_only contract_guar_refl fun s _ => ?_)
    split
    · trivial
    · rename_i connected
      refine wp.bind (wp_assign_removal (fun relay => relay.vio.state = .ready)
        (fun _ _ later _ => later.mpr) (not_not.mp connected) fun s inv connected _ => ?_)
      refine ⟨⟨⟨fun _ => inv.ready connected, ?_⟩, nofun⟩, ⟨rfl, id⟩, fun s' written => ?_⟩
      · rintro (waiting | waiting)
        · cases waiting
        · exact inv.vf2vio (Or.inr waiting)
      · have waited : PlainProg (waitVirtioReleased w) := by
          refine .bind (waitReleased_observing ..).plain fun polls => ?_
          dsimp only
          split
          · exact .perform trivial
          · trivial
        have leaving : (s'.relays w).NotConnected := by
          rw [Relay.NotConnected, written]
          exact nofun
        have same (before after : Relay) (h : before.SameControl after)
            : before.NotConnected → after.NotConnected := by
          rw [Relay.NotConnected, Relay.NotConnected, h.vioState]
          exact id
        refine wp.bind ((waited.wp_removal Relay.NotConnected notConnected_stable same
          leaving).mono fun _ s leaving => ?_)
        refine wp.bind (wp_look contract_guar_refl notConnected_stable leaving
          fun s _ leaving => ?_)
        refine wp.bind (wp_assign_removal _ notConnected_stable leaving
          fun s inv leaving orderly => ?_)
        obtain ⟨notWaiting, notWaiting'⟩ := orderly.1 rfl
        refine ⟨⟨⟨?_, inv.vf2vio⟩, fun connected => absurd connected leaving⟩, ⟨rfl, id⟩,
          fun s' _ => ?_⟩
        · rintro (waiting | waiting)
          · exact absurd waiting notWaiting
          · exact absurd waiting notWaiting'
        · refine wp_plain_bind (assign_plain trivial) fun _ s => ?_
          refine wp_plain_bind (assign_plain trivial) fun _ s => ?_
          refine wp_plain_bind (flagWorker_inert _).plain fun _ s => ?_
          exact wp.bind (stopVfOrFreePool_wp.mono fun _ _ _ => trivial)

end Programs

/-- Both threads and the workers keep the assignment. -/
def removalOutline (settings : Settings) (w : Nat)
    : Outline (controlSystem settings) (orderlyRemovals w) where
  inv world := (world.relays w).Removable
  rely thread before after := thread.rely (before.relays w) (after.relays w)
  guar thread before after := thread.other.rely (before.relays w) (after.relays w)
  done _ _ _ _ := True
  fault _ := True
  refl thread _ := thread.rely_refl _
  trans thread _ _ _ := thread.rely_trans
  stable _ _ _ _ _ _ _ _ := trivial
  others thread thread' h _ _ guaranteed := by
    cases thread <;> cases thread' <;> first | exact absurd rfl h | exact guaranteed
  env _ _ _ inv happened :=
    ⟨Event.removable inv happened, fun thread => thread.rely_of_served (Event.served happened w)⟩
  ops thread op s _ _ _ mayCall _ := by
    cases thread with
    | port =>
        cases op with
        | removeVf2 dbdf id conditional =>
            cases of_decide_eq_true mayCall
            exact removeVf2_wp settings dbdf conditional
        | _ => cases mayCall
    | vhost =>
        cases op with
        | removeVirtio id =>
            cases of_decide_eq_true mayCall
            exact removeVirtio_wp settings
        | _ => cases mayCall

/-- No removal gets stuck: if the workers are unassigned only when no transition waits for
them, then in every interleaving of the removals with the workers, whether or not the waits
give up, the worker that has to make the next transition is assigned.
-/
theorem removals_assigned_of_orderly_removals (settings : Settings) (w : Nat) {world : World}
    (start : (world.relays w).Removable) {config : Config _ Op _ _ _ _ World Int}
    (run : Run (controlSystem settings) (orderlyRemovals w)
      (.idle world (.removeVirtio w) 0) config)
    : (config.state.relays w).Assigned :=
  (run.good (o := removalOutline settings w) ⟨start, fun _ => trivial⟩).1.toAssigned

/-- A guest with one queue pair on CPU 0 connected with a VF on CPU 1. -/
def connectedWorld : World :=
  (World.initial twoWorkers false fun _ => true).modifyRelay 0 fun relay =>
    { relay with
      vio := { relay.vio with
        vio2vfCpu := 0, state := .ready, maxQueuePairs := 1, txQBitmap := 1, rxQBitmap := 1 }
      dpdk := { relay.dpdk with vf2vioCpu := 1, state := .ready } }

theorem connectedWorld_removable : (connectedWorld.relays 0).Removable :=
  ⟨⟨by decide, by decide⟩, by decide⟩

instance (w : Nat) (op : Op) (i : Instr) (answer : Int) (world : World)
    : Decidable ((orderlyRemovals w).instr op i answer world) :=
  inferInstanceAs (Decidable (_ ∧ _))

instance (w : Nat) (thread : RemovalThread) (op : Op) (world : World)
    : Decidable ((orderlyRemovals w).call thread op world) :=
  inferInstanceAs (Decidable (_ = true))

instance (w : Nat) (op : Op) (i : Instr) (answer : Int) (world : World)
    : Decidable ((removals w).instr op i answer world) :=
  .isTrue trivial

instance (w : Nat) (thread : RemovalThread) (op : Op) (world : World)
    : Decidable ((removals w).call thread op world) :=
  inferInstanceAs (Decidable (_ = true))

/-- The VF is removed up to the write of `DPDK_REMOVING1`, and the VF-to-VM worker has
passed the removal on.
-/
def halfRemovedVf : List (Choice RemovalThread Op Int Event) :=
  .call .port (.removeVf2 [] 0 false)
    :: List.replicate 5 (.instr .port 0)
    ++ [.env (.vf2vm 0 ⟨0, [], fun _ => 0⟩)]

/-- The guest is removed up to the write of `VIRTIO_REMOVING1`. -/
def leavingGuest : List (Choice RemovalThread Op Int Event) :=
  .call .vhost (.removeVirtio 0) :: List.replicate 2 (.instr .vhost 0)

/-- Witness: the VF is removed and its worker unassigned before the guest is removed. -/
theorem removals_assigned_one_after_the_other
    : ∃ config : Config RemovalThread Op _ _ _ _ World Int,
        Run (controlSystem twoWorkers) (orderlyRemovals 0)
          (.idle connectedWorld (.removeVirtio 0) 0) config
        ∧ (config.state.relays 0).vio.state = .removing1
        ∧ (config.state.relays 0).dpdk.vf2vioCpu = -1
        ∧ (config.state.relays 0).Assigned := by
  obtain ⟨config, run, reached⟩ := Run.of_follow (controlSystem twoWorkers)
    (orderlyRemovals 0) (.idle connectedWorld (.removeVirtio 0) 0)
    (halfRemovedVf ++ .env (.vm2vf 0 ⟨[], 0⟩)
      :: List.replicate 4 (.instr .port 0) ++ leavingGuest)
    (fun c => (c.state.relays 0).vio.state = .removing1
      ∧ (c.state.relays 0).dpdk.vf2vioCpu = -1)
    (by decide +kernel)
  obtain ⟨leaving, unassigned⟩ := of_decide_eq_true reached
  exact ⟨config, run, leaving, unassigned,
    removals_assigned_of_orderly_removals twoWorkers 0 connectedWorld_removable run⟩

/-- The two removals overlap: the VM-to-VF worker passes the removal of the guest on to the
VF-to-VM worker and releases the VF in the same iteration, and the port control thread, which
has waited for the VF only, unassigns the VF-to-VM worker.
-/
theorem removals_stuck_after_overlap
    : ¬ ∀ (settings : Settings) (w : Nat) (world : World)
        (config : Config RemovalThread Op _ _ _ _ World Int),
        (world.relays w).Removable
        → Run (controlSystem settings) (removals w) (.idle world (.removeVirtio w) 0) config
        → (config.state.relays w).Assigned := by
  intro claim
  obtain ⟨config, run, reached⟩ := Run.of_follow (controlSystem twoWorkers)
    (removals 0) (.idle connectedWorld (.removeVirtio 0) 0)
    (halfRemovedVf ++ leavingGuest ++ .env (.vm2vf 0 ⟨[], 0⟩)
      :: List.replicate 4 (.instr .port 0))
    (fun c => (c.state.relays 0).vio.state = .removing2
      ∧ (c.state.relays 0).dpdk.vf2vioCpu = -1)
    (by decide +kernel)
  obtain ⟨waiting, unassigned⟩ := of_decide_eq_true reached
  have assigned := claim twoWorkers 0 connectedWorld config connectedWorld_removable run
  exact assigned.vf2vio (Or.inl waiting) unassigned

end VirtioForwarder
