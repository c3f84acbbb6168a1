import VirtioForwarder.Control.Lifecycle.Guest

/-! The control operations keep the relays settled, each from its first to its last access.
-/

namespace VirtioForwarder

open Program

theorem settled_persistent {settings : Settings} {strict : Prop}
    : Persistent settings (World.Settled settings strict) :=
  fun _ _ calm h id => settledAt_persistent calm (h id)

/-- One control thread without timeouts. With `strict`, a start that fails in `add_virtio`
has to find the worker of the VF flagged or serving the relay already.
-/
def lifecycleOutline (settings : Settings) (policy : Policy Unit Op Instr Int World)
    (strict : Prop) (noTimeout : ∀ op answer world, ¬ policy.instr op .logTimeout answer world)
    (starts : strict → ∀ virtionet id port answer world,
      policy.instr (.addVirtio virtionet id) (.call (.devStart port)) answer world
      → answer = 0 ∨ world.Watched id (world.relays id).dpdk.vf2vioCpu)
    : Outline (controlSystem settings) policy where
  inv world := ∀ id, (world.relays id).Sound
  rely _ := World.Calm settings
  guar _ _ _ := True
  done _ _ _ := World.Settled settings strict
  fault := Abort.OfWorker
  refl _ := World.Calm.refl settings
  trans _ _ _ _ := World.Calm.trans
  stable _ _ _ _ _ calm _ := settled_persistent calm
  others _ _ different := absurd rfl different
  env _ _ _ inv happened := ⟨Event.sound inv happened, fun _ => Event.calm happened⟩
  ops _ op s _ _ _ _ settled := by
    cases op with
    | addVf2 => exact addVf2_wp settled
    | bondAdd => exact bondAdd_wp settled
    | removeVf2 => exact removeVf2_wp_alone noTimeout settled
    | addVirtio virtionet id =>
        exact addVirtio_wp_alone (fun hs => starts hs virtionet id) settled
    | removeVirtio => exact removeVirtio_wp_alone noTimeout settled
    | migrateRelayCpus => exact migrateRelayCpus_wp settled

theorem idleDaemon_good (settings : Settings) (useJumbo : Bool) (initialized : Nat → Bool)
    {policy : Policy Unit Op Instr Int World} {strict : Prop} {noTimeout starts}
    : (lifecycleOutline settings policy strict noTimeout starts).Good
        (idleDaemon settings useJumbo initialized) :=
  ⟨fun _ => ⟨fun _ => ⟨rfl, rfl⟩, fun used => absurd rfl used, fun used => absurd rfl used⟩,
    fun _ _ => ⟨nofun, fun _ _ used => absurd rfl used, fun _ _ used => absurd rfl used⟩⟩

/-- Runs in which no wait gives up. -/
def noTimeouts : Policy Unit Op Instr Int World where
  instr _ i _ _ := i ≠ .logTimeout
  call _ _ _ := True

/-- The lifecycle of the relays, with control operations that run one at a time, any answers
of the drivers and workers that go on all the time: between operations a ready VF has a
connected guest; at every moment the packet caches of a relay with a missing side are empty;
and `migrate_mempool` never fails one of its assertions.
-/
theorem lifecycle_without_timeouts (settings : Settings) (useJumbo : Bool)
    (initialized : Nat → Bool) {config : Config Unit Op Instr Int World Abort World Int}
    (run : Run (controlSystem settings) noTimeouts (idleDaemon settings useJumbo initialized)
      config)
    : (∀ op value, config.running () = (op, .ret value)
        → ∀ w, (config.state.relays w).dpdk.state = .ready
          → (config.state.relays w).vio.state = .ready)
      ∧ (∀ w,
        (config.state.relays w).vio.state = .uninit ∨ (config.state.relays w).dpdk.state = .uninit
        → (config.state.relays w).vio.txPkts.avail = 0
          ∧ (config.state.relays w).dpdk.rxPkts.avail = 0)
      ∧ ∀ op, config.running () ≠ (op, .fail .assertNotReady)
        ∧ config.running () ≠ (op, .fail .assertNoRxPkts) := by
  have good := run.good (o := lifecycleOutline settings noTimeouts False
    (fun _ _ _ logged => logged rfl) False.elim) (idleDaemon_good ..)
  refine ⟨fun op value returned w ready => ?_, fun w missing => ?_, fun op => ⟨?_, ?_⟩⟩
  · exact ((good.returned returned w).ready ready).1
  · exact (good.1 w).caches (missing.imp_right Or.inl)
  · exact fun failed => good.failed failed
  · exact fun failed => good.failed failed

instance (op : Op) (i : Instr) (answer : Int) (world : World)
    : Decidable (noTimeouts.instr op i answer world) :=
  inferInstanceAs (Decidable (i ≠ .logTimeout))

instance (thread : Unit) (op : Op) (world : World)
    : Decidable (noTimeouts.call thread op world) :=
  .isTrue trivial

/-- Witness: a guest connects and enables its queue pair, a VF is attached and started, and a
packet of the guest waits for the VF.
-/
theorem lifecycle_with_waiting_packet
    : ∃ config : Config Unit Op Instr Int World Abort World Int,
        Run (controlSystem twoWorkers) noTimeouts (idleDaemon twoWorkers false fun _ => true)
          config
        ∧ config.running () = (.addVf2 [] 0 false, .ret 0)
        ∧ (config.state.relays 0).vio.txPkts.avail = 1
        ∧ (config.state.relays 0).dpdk.state = .ready
        ∧ (config.state.relays 0).vio.state = .ready := by
  obtain ⟨config, run, reached⟩ := Run.of_follow (controlSystem twoWorkers) noTimeouts
    (idleDaemon twoWorkers false fun _ => true)
    (.call () (.addVirtio 7 0)
      :: answered () ([0, 0, 0, 2, 0, 0, 0, 1] ++ List.replicate 10 0)
      ++ .call () (.addVf2 [] 0 false) :: answered () (List.replicate 27 0)
      ++ [.env (.vringStateChange 0 ⟨0, true⟩), .env (.vringStateChange 0 ⟨1, true⟩),
        .env (.vm2vf 0 ⟨[⟨1, 64, 0, .driver 0⟩], 0⟩)])
    (fun c => (c.running ()).1 = .addVf2 [] 0 false && (c.running ()).2.value? = some 0
      && (c.state.relays 0).vio.txPkts.avail = 1 && (c.state.relays 0).dpdk.state = .ready)
    (by decide +kernel)
  simp only [Bool.and_eq_true, decide_eq_true_eq] at reached
  obtain ⟨⟨⟨op, returned⟩, buffered⟩, ready⟩ := reached
  have idle : config.running () = (.addVf2 [] 0 false, .ret 0) :=
    Prod.ext op (Prog.eq_ret_of_value? returned)
  have lifecycle := lifecycle_without_timeouts twoWorkers false (fun _ => true) run
  exact ⟨config, run, idle, buffered, ready, lifecycle.1 _ _ idle 0 ready⟩

end VirtioForwarder
