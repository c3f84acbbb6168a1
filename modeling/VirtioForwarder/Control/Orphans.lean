import VirtioForwarder.Control.Lifecycle.Runs

/-! No direction of a relay is left to a worker that neither serves the relay nor is flagged
to look for it, as long as `add_virtio` does not fail to start a VF on another worker.
-/

namespace VirtioForwarder

open Program

/-- The access with which `add_virtio` starts a VF. -/
def Op.startsVf : Op → Instr → Bool
  | .addVirtio _ _, .call (.devStart _) => true
  | _, _ => false

/-- Runs without timeouts in which a start of `add_virtio` that fails finds the worker of the
VF flagged or serving the relay.
-/
def watchedStarts : Policy Unit Op Instr Int World where
  instr op i answer world :=
    i ≠ .logTimeout
    ∧ (op.startsVf i = true
      → answer = 0 ∨ world.Watched op.relay (world.relays op.relay).dpdk.vf2vioCpu)
  call _ _ _ := True

/-- No relay direction is orphaned: with control operations that run one at a time, in any
order and on any relays, any answers of the drivers, and updates of the workers at any time,
after each operation both directions of every relay that are in use have a worker that serves
the relay or is flagged.
-/
theorem directions_watched_of_watched_starts (settings : Settings) (useJumbo : Bool)
    (initialized : Nat → Bool) {config : Config Unit Op Instr Int World Abort World Int}
    (run : Run (controlSystem settings) watchedStarts
      (idleDaemon settings useJumbo initialized) config)
    {op : Op} {value : Int} (returned : config.running () = (op, .ret value))
    {w : Nat} (below : w < settings.maxRelays)
    : config.state.VfWatched w ∧ config.state.VioWatched w := by
  have good := run.good (o := lifecycleOutline settings watchedStarts True
    (fun _ _ _ admitted => admitted.1 rfl)
    fun _ _ _ _ _ _ admitted => admitted.2 rfl) (idleDaemon_good ..)
  have settled := good.returned returned w
  exact ⟨settled.vf trivial below, settled.vio trivial below⟩

instance (world : World) (id : Nat) (cpu : Int) : Decidable (world.Watched id cpu) :=
  inferInstanceAs (Decidable (_ ∧ (_ ∨ _)))

instance (op : Op) (i : Instr) (answer : Int) (world : World)
    : Decidable (watchedStarts.instr op i answer world) :=
  inferInstanceAs (Decidable (_ ∧ (_ → _ ∨ _)))

instance (thread : Unit) (op : Op) (world : World)
    : Decidable (watchedStarts.call thread op world) :=
  .isTrue trivial

/-- One relay and two workers, with CPU 1 configured for the guest and CPU 0 for the VF. -/
def pinnedWorkers : Settings :=
  { twoWorkers with relayCpus := fun _ => ⟨1, 0⟩ }

/-- A VF is attached and moved to CPU 1; then the worker of CPU 0 looks for its relays. -/
def movedVf : List (Choice Unit Op Int Event) :=
  .call () (.addVf2 [] 0 false) :: answered () (List.replicate 8 0 ++ 1 :: List.replicate 19 0)
  ++ .call () (.migrateRelayCpus 0 1 1) :: answered () (List.replicate 9 0)
  ++ [.env (.updateThread 0)]

/-- A guest connects whose memory may be on any node, up to the start of the VF. -/
def guestConnects : List (Choice Unit Op Int Event) :=
  .call () (.addVirtio 7 0) :: answered () ([0, 0, 0, 2, 0, -1] ++ List.replicate 10 0)

/-- Witness: the VF is started on its configured CPU. -/
theorem directions_watched_after_start
    : ∃ config : Config Unit Op Instr Int World Abort World Int,
        Run (controlSystem pinnedWorkers) watchedStarts
          (idleDaemon pinnedWorkers false fun _ => true) config
        ∧ (config.state.relays 0).dpdk.state = .ready
        ∧ (config.state.relays 0).dpdk.vf2vioCpu = 0
        ∧ config.state.VfWatched 0 ∧ config.state.VioWatched 0 := by
  obtain ⟨config, run, reached⟩ := Run.of_follow (controlSystem pinnedWorkers) watchedStarts
    (idleDaemon pinnedWorkers false fun _ => true)
    (movedVf ++ guestConnects ++ answered () (List.replicate 5 0))
    (fun c => (c.running ()).2.value? = some 0
      && (c.state.relays 0).dpdk.state = .ready && (c.state.relays 0).dpdk.vf2vioCpu = 0)
    (by decide +kernel)
  simp only [Bool.and_eq_true, decide_eq_true_eq] at reached
  obtain ⟨⟨returned, ready⟩, cpu⟩ := reached
  have watched := directions_watched_of_watched_starts pinnedWorkers false (fun _ => true) run
    (Prod.ext rfl (Prog.eq_ret_of_value? returned)) (by decide : 0 < 1)
  exact ⟨config, run, ready, cpu, watched⟩

/-- The same run, but the VF cannot be started: `add_virtio` has put it back on CPU 0 without
flagging the worker there, which does not serve the relay any more.
-/
theorem direction_orphaned_after_failed_start
    : ¬ ∀ (settings : Settings) (useJumbo : Bool) (initialized : Nat → Bool)
        (config : Config Unit Op Instr Int World Abort World Int) (op : Op) (value : Int)
        (w : Nat),
        Run (controlSystem settings) noTimeouts (idleDaemon settings useJumbo initialized) config
        → config.running () = (op, .ret value)
        → w < settings.maxRelays
        → config.state.VfWatched w ∧ config.state.VioWatched w := by
  intro claim
  obtain ⟨config, run, reached⟩ := Run.of_follow (controlSystem pinnedWorkers) noTimeouts
    (idleDaemon pinnedWorkers false fun _ => true) (movedVf ++ guestConnects ++ answered () [-1])
    (fun c => (c.running ()).2.value? = some 0
      && (c.state.relays 0).dpdk.state = .added
      && !decide (c.state.Watched 0 (c.state.relays 0).dpdk.vf2vioCpu))
    (by decide +kernel)
  simp only [Bool.and_eq_true, decide_eq_true_eq, Bool.not_eq_true', decide_eq_false_iff_not]
    at reached
  obtain ⟨⟨returned, added⟩, orphaned⟩ := reached
  have watched := claim pinnedWorkers false (fun _ => true) config _ 0 0 run
    (Prod.ext rfl (Prog.eq_ret_of_value? returned)) (by decide)
  exact orphaned (watched.1 (by simp [added]))

end VirtioForwarder
