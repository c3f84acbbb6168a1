import VirtioForwarder.Control.Handshake
import VirtioForwarder.Control.Migration.Removal

/-! The migration beside a removal, and the runs of both. The migration leaves its windows as
they were and finds a worker wherever it flags one.
-/

namespace VirtioForwarder

open Program

/-- The contract of the migration. -/
abbrev schedulerContract (w : Nat) (op : Op) : Contract Instr Int Abort (World × Windows) where
  inv s := ∀ side, (viewsOf w s side).Staffed
  rely s s' := ∀ side, (viewsOf w s side).Spared (viewsOf w s' side)
  guar s s' := ∀ side, (viewsOf w s side).Moved (viewsOf w s' side)
  admits := orderlyMigrations.instr op
  fault _ := False

/-- The CPU that a side is moved to. -/
def Side.newCpu (newVirtio2vfCpu newVf2virtioCpu : Int) : Side → Int
  | .guest => newVirtio2vfCpu
  | .vf => newVf2virtioCpu

/-- No window is open. -/
def noWindows : Windows := fun _ => .closed

section Rules

variable {settings : Settings} {w : Nat} {op : Op} {s : World × Windows} {windows : Windows}
  {newVirtio2vfCpu newVf2virtioCpu : Int} {β : Type} {post : β → World × Windows → Prop}

theorem windows_stable {s s' : World × Windows}
    (spared : ∀ side, (viewsOf w s side).Spared (viewsOf w s' side)) (h : s.2 = windows)
    : s'.2 = windows := by
  funext side
  rw [← h]
  exact (spared side).window

/-- The migration reads the relay; a window opens only on a side that is in use. -/
theorem wp_scheduler_look {field : Field} {next : Relay → Control β} (h : s.2 = windows)
    (opens : ∀ world side,
      (watchMigration op (.read field) world windows side).Open
      → (windows side).Open ∨ side.Used (world.relays w))
    (rest : ∀ world s', (∀ side, (viewsOf w (world, windows) side).Staffed)
      → s'.2 = watchMigration op (.read field) world windows
      → wp (windowAccesses settings op) (schedulerContract w op) (next (world.relays w)) post s')
    : wp (windowAccesses settings op) (schedulerContract w op) (look w field >>= next) post s := by
  rintro ⟨world, others⟩ spared staffed answer _
  obtain rfl : others = windows := windows_stable spared h
  refine ⟨fun side busy => ?_, fun side => ⟨Iff.rfl, id, fun unused closed => ⟨rfl, ?_⟩⟩,
    rest world _ staffed rfl⟩
  · apply staffed side
    rcases busy with used | opened
    · exact Or.inl used
    · exact (opens world side opened).symm
  · intro opened
    exact (opens world side opened).elim closed unused

theorem wp_scheduler_flag {cpu : Int} (index : CpuIndex cpu) (h : s.2 = windows)
    : wp (windowAccesses settings op) (schedulerContract w op) (flagWorker cpu)
        (fun _ s => s.2 = windows) s := by
  have kept (world : World) (windows : Windows)
      : watchMigration op (.flagWorker cpu.toNat) world windows = windows := by
    cases op <;> rfl
  unfold flagWorker
  rw [if_pos (show 0 ≤ cpu ∧ cpu < maxCpus from index)]
  rintro ⟨world, others⟩ spared staffed answer _
  have same : viewsOf w ((migrationSystem settings).exec op (.flagWorker cpu.toNat) answer
      (world, others)) = viewsOf w (world, others) :=
    viewsOf_of_sameControl (s := (world, others)) ⟨rfl, rfl, rfl, rfl, rfl, rfl⟩ (kept ..)
  refine ⟨fun side => ?_, fun side => ?_, ?_⟩
  · change (viewsOf w ((migrationSystem settings).exec op _ answer (world, others)) side).Staffed
    rw [same]
    exact staffed side
  · rw [same]
    exact .refl _
  · exact (kept world others).trans (windows_stable spared h)

/-- The migration writes the new CPU of a side while its window is open, which closes it. -/
theorem wp_scheduler_move {side : Side} {next : Unit → Control β} {newCpu : Int}
    (migration : op = .migrateRelayCpus w newVirtio2vfCpu newVf2virtioCpu) (h : s.2 = windows)
    (opened : (windows side).Open) (index : CpuIndex newCpu)
    (rest : ∀ s', s'.2 = Function.update windows side .closed
      → wp (windowAccesses settings op) (schedulerContract w op) (next ()) post s')
    : wp (windowAccesses settings op) (schedulerContract w op)
        (assign (side.setCpu newCpu) >>= next) post s := by
  rintro ⟨world, others⟩ spared staffed answer _
  obtain rfl : others = windows := windows_stable spared h
  have exec : (migrationSystem settings).exec op (.write (side.setCpu newCpu)) answer
      (world, others)
      = (world.modifyRelay w (side.setCpu newCpu).apply, Function.update others side .closed) := by
    subst migration
    cases side <;> rfl
  have written : viewsOf w (world.modifyRelay w (side.setCpu newCpu).apply,
        Function.update others side .closed)
      = Function.update (viewsOf w (world, others)) side
          ⟨(viewsOf w (world, others) side).used, newCpu, .closed⟩ := by
    funext other
    simp only [viewsOf, World.relays_modifyRelay_self]
    cases side <;> cases other <;> rfl
  refine ⟨?_, ?_, ?_⟩
  · change ∀ other, (viewsOf w ((migrationSystem settings).exec op _ answer _) other).Staffed
    rw [exec, written,
      Function.forall_update_iff (viewsOf w (world, others)) fun _ view => view.Staffed]
    exact ⟨fun _ => index, fun other _ => staffed other⟩
  · change ∀ other, (viewsOf w (world, others) other).Moved
      (viewsOf w ((migrationSystem settings).exec op _ answer _) other)
    rw [exec, written, Function.forall_update_iff (viewsOf w (world, others))
      fun other view => (viewsOf w (world, others) other).Moved view]
    exact ⟨⟨Iff.rfl, fun _ => index, fun _ closed => absurd opened closed⟩, fun other _ => .refl _⟩
  · change wp _ _ _ _ ((migrationSystem settings).exec op _ answer _)
    rw [exec]
    exact rest _ rfl

end Rules

-----------------------------------------------------------------------------------------
-- The migration
-----------------------------------------------------------------------------------------

section Migration

variable {settings : Settings} {w : Nat} {s : World × Windows} {windows : Windows}
  {newVirtio2vfCpu newVf2virtioCpu : Int}

theorem watch_cpuField (side : Side) (world : World) (windows : Windows)
    : watchMigration (.migrateRelayCpus w newVirtio2vfCpu newVf2virtioCpu) (.read side.cpuField)
        world windows
      = Function.update windows side ((windows side).compare
          (side.cpu (world.relays w) = side.newCpu newVirtio2vfCpu newVf2virtioCpu)) := by
  cases side <;> rfl

/-- The part of a move behind the test that the side is in use. -/
def Side.moveFrom (side : Side) (w : Nat) (newCpu : Int) : Control Unit := do
  if side.cpu (← look w side.cpuField) = newCpu then return
  let oldCpu := side.cpu (← look w side.cpuField)
  assign (side.setCpu newCpu)
  flagWorker oldCpu
  flagWorker newCpu

/-- A move that has seen its side in use closes the window, with the new CPU or without. -/
theorem moveFrom_closes (side : Side)
    (index : CpuIndex (side.newCpu newVirtio2vfCpu newVf2virtioCpu)) (h : s.2 = windows)
    (checked : windows side = .checked)
    : wp (windowAccesses settings (.migrateRelayCpus w newVirtio2vfCpu newVf2virtioCpu))
        (schedulerContract w (.migrateRelayCpus w newVirtio2vfCpu newVf2virtioCpu))
        (side.moveFrom w (side.newCpu newVirtio2vfCpu newVf2virtioCpu))
        (fun _ s => s.2 = Function.update windows side .closed) s := by
  have opens (windows : Windows) (opened : (windows side).Open) (world : World) (other : Side)
      (h : (watchMigration (.migrateRelayCpus w newVirtio2vfCpu newVf2virtioCpu)
        (.read side.cpuField) world windows other).Open)
      : (windows other).Open ∨ other.Used (world.relays w) := by
    rcases eq_or_ne other side with rfl | away
    · exact Or.inl opened
    · rw [watch_cpuField, Function.update_of_ne away] at h
      exact Or.inl h
  have seen : (windows side).Open := by
    rw [checked]
    trivial
  unfold Side.moveFrom
  refine wp_scheduler_look h (opens windows seen) fun world s _ h => ?_
  rw [watch_cpuField, checked] at h
  split
  · rename_i same
    simp only [Window.compare, same, decide_true, if_true] at h
    exact h
  · rename_i different
    simp only [Window.compare, different, decide_false, Bool.false_eq_true, if_false] at h
    have moving : (Function.update windows side Window.moving side).Open := by
      rw [Function.update_self]
      trivial
    refine wp_scheduler_look h (opens _ moving) fun world s staffed h => ?_
    have old : CpuIndex (side.cpu (world.relays w)) := staffed side (Or.inr moving)
    rw [watch_cpuField, Function.update_self, Function.update_idem] at h
    refine wp_scheduler_move rfl h moving index fun s closed => ?_
    rw [Function.update_idem] at closed
    refine wp.bind ((wp_scheduler_flag old closed).mono fun _ s closed => ?_)
    exact wp_scheduler_flag index closed

/-- The new CPU is looked up, which opens no window. -/
theorem wp_lookWorker_bind {cpu : Int} {next : Worker → Control Unit}
    {post : Unit → World × Windows → Prop} (index : CpuIndex cpu) (h : s.2 = windows)
    (rest : ∀ worker s', s'.2 = windows
      → wp (windowAccesses settings (.migrateRelayCpus w newVirtio2vfCpu newVf2virtioCpu))
          (schedulerContract w (.migrateRelayCpus w newVirtio2vfCpu newVf2virtioCpu))
          (next worker) post s')
    : wp (windowAccesses settings (.migrateRelayCpus w newVirtio2vfCpu newVf2virtioCpu))
        (schedulerContract w (.migrateRelayCpus w newVirtio2vfCpu newVf2virtioCpu))
        (lookWorker cpu >>= next) post s := by
  unfold lookWorker
  rw [if_pos (show 0 ≤ cpu ∧ cpu < maxCpus from index)]
  intro s' spared staffed answer _
  exact ⟨staffed, fun side => .refl _, rest _ s' (windows_stable spared h)⟩

/-- Closing a window that has been opened gets back to no windows. -/
theorem noWindows_of_update {side : Side} {window : Window}
    : Function.update (Function.update noWindows side window) side .closed = noWindows := by
  rw [Function.update_idem]
  exact Function.update_eq_self ..

/-- The move of the guest leaves no window open. -/
theorem moveVirtio2vf_closes (index : CpuIndex newVirtio2vfCpu) (h : s.2 = noWindows)
    : wp (windowAccesses settings (.migrateRelayCpus w newVirtio2vfCpu newVf2virtioCpu))
        (schedulerContract w (.migrateRelayCpus w newVirtio2vfCpu newVf2virtioCpu))
        (moveVirtio2vf w newVirtio2vfCpu) (fun _ s => s.2 = noWindows) s := by
  refine wp_lookWorker_bind index h fun worker s h => ?_
  split
  · exact h
  · refine wp_scheduler_look h (fun world side opened => ?_) fun world s _ h => ?_
    · cases side with
      | guest =>
          by_cases ready : (world.relays w).vio.state = .ready
          · exact Or.inr ready
          · simp [watchMigration, ready, Window.Open] at opened
      | vf => exact opened.elim
    · split
      · rename_i missing
        simp only [watchMigration, missing, if_false] at h
        exact h.trans (Function.update_eq_self ..)
      · rename_i ready
        have seen : (world.relays w).vio.state = .ready := not_not.mp ready
        simp only [watchMigration, seen, if_true] at h
        refine (moveFrom_closes .guest index h (Function.update_self ..)).mono
          fun _ s closed => ?_
        exact closed.trans noWindows_of_update

/-- The two looks at the VF open its window if it is in use. -/
theorem vfInitialized_opens (h : s.2 = noWindows)
    : wp (windowAccesses settings (.migrateRelayCpus w newVirtio2vfCpu newVf2virtioCpu))
        (schedulerContract w (.migrateRelayCpus w newVirtio2vfCpu newVf2virtioCpu))
        (vfInitialized w)
        (fun used s => s.2 = if used then Function.update noWindows .vf .checked else noWindows)
        s := by
  unfold vfInitialized
  refine wp_scheduler_look h (fun world side opened => ?_) fun world s _ h => ?_
  · cases side with
    | guest => exact opened.elim
    | vf =>
        by_cases added : (world.relays w).dpdk.state = .added
        · exact Or.inr (Or.inr added)
        · simp [watchMigration, noWindows, Window.askVf, added, Window.Open] at opened
  · split
    · rename_i added
      simp only [watchMigration, noWindows, Window.askVf, added, if_true] at h
      exact h
    · rename_i other
      simp only [watchMigration, Window.askVf, noWindows, other, if_false] at h
      refine wp_scheduler_look h (fun world side opened => ?_) fun world s _ h => ?_
      · cases side with
        | guest => exact opened.elim
        | vf =>
            by_cases ready : (world.relays w).dpdk.state = .ready
            · exact Or.inr (Or.inl ready)
            · simp [watchMigration, Window.askVf, ready, Window.Open] at opened
      · simp only [watchMigration, Function.update_self, Function.update_idem, Window.askVf] at h
        by_cases ready : (world.relays w).dpdk.state = .ready
        · simp only [ready, if_true, decide_true] at h ⊢
          exact h
        · simp only [ready, if_false, decide_false] at h ⊢
          exact h.trans (Function.update_eq_self ..)

/-- The move of the VF leaves no window open. -/
theorem moveVf2virtio_closes (index : CpuIndex newVf2virtioCpu) (h : s.2 = noWindows)
    : wp (windowAccesses settings (.migrateRelayCpus w newVirtio2vfCpu newVf2virtioCpu))
        (schedulerContract w (.migrateRelayCpus w newVirtio2vfCpu newVf2virtioCpu))
        (moveVf2virtio w newVf2virtioCpu) (fun _ s => s.2 = noWindows) s := by
  refine wp_lookWorker_bind index h fun worker s h => ?_
  split
  · exact h
  · refine wp.bind ((vfInitialized_opens h).mono fun used s h => ?_)
    cases used with
    | false => exact h
    | true =>
        rw [if_pos rfl] at h
        refine (moveFrom_closes .vf index h (Function.update_self ..)).mono fun _ s closed => ?_
        exact closed.trans noWindows_of_update

theorem migrateRelayCpus_closes (guest : CpuIndex newVirtio2vfCpu) (vf : CpuIndex newVf2virtioCpu)
    (h : s.2 = noWindows)
    : wp (windowAccesses settings (.migrateRelayCpus w newVirtio2vfCpu newVf2virtioCpu))
        (schedulerContract w (.migrateRelayCpus w newVirtio2vfCpu newVf2virtioCpu))
        (migrateRelayCpus settings w newVirtio2vfCpu newVf2virtioCpu)
        (fun _ s => s.2 = noWindows) s := by
  unfold migrateRelayCpus
  dsimp only
  generalize (if settings.workerCoreBitmap = 0 then (1 : BitVec 64) else 0) = notBitmap
  split
  · exact h
  · refine wp.bind ((moveVirtio2vf_closes guest h).mono fun _ s h => ?_)
    exact wp.bind ((moveVf2virtio_closes vf h).mono fun _ s h => h)

end Migration

-----------------------------------------------------------------------------------------
-- Both threads
-----------------------------------------------------------------------------------------

/-- Between operations, exactly the sides in use have a worker. -/
structure Relay.Staffed (relay : Relay) : Prop where
  used : ∀ side : Side, side.Used relay → CpuIndex (side.cpu relay)
  unused : ∀ side : Side, ¬ side.Used relay → side.cpu relay = -1

/-- The proof outline of the migration and the removal. -/
def migrationOutline (settings : Settings) (w : Nat)
    : Outline (migrationSystem settings) orderlyMigrations where
  inv s := ∀ side, (viewsOf w s side).Staffed
  rely
    | .scheduler => fun s s' => ∀ side, (viewsOf w s side).Spared (viewsOf w s' side)
    | .remover => fun s s' => ∀ side, (viewsOf w s side).Moved (viewsOf w s' side)
  guar
    | .scheduler => fun s s' => ∀ side, (viewsOf w s side).Moved (viewsOf w s' side)
    | .remover => fun s s' => ∀ side, (viewsOf w s side).Spared (viewsOf w s' side)
  done
    | .scheduler => fun _ _ _ => True
    | .remover => fun _ _ s => (viewsOf w s).Cleared
  fault _ := False
  refl thread _ := by
    cases thread with
    | scheduler => exact fun _ => .refl _
    | remover => exact fun _ => .refl _
  trans thread _ _ _ := by
    cases thread with
    | scheduler => exact fun first rest side => (first side).trans (rest side)
    | remover => exact fun first rest side => (first side).trans (rest side)
  stable thread _ _ _ _ := by
    cases thread with
    | scheduler => exact fun _ _ _ => trivial
    | remover => exact fun moved _ cleared => movedStable_cleared moved cleared
  others thread thread' different _ _ guaranteed := by
    cases thread <;> cases thread' <;> first | exact absurd rfl different | exact guaranteed
  env _ _ _ staffed happened := by
    have same := viewsOf_of_event (w := w) happened
    refine ⟨fun side => ?_, fun thread => ?_⟩
    · rw [same]
      exact staffed side
    · cases thread with
      | scheduler =>
          intro side
          rw [same]
          exact .refl _
      | remover =>
          intro side
          rw [same]
          exact .refl _
  ops _ _ _ _ _ _ called _ := called.elim

/-- A migration and a removal of the same relay, in every interleaving in which the removal
takes away the worker of a side only while the window of the migration is not open there:
`worker_threads` is only indexed with CPUs, and once both have returned, a side that is
uninitialized has no worker.
-/
theorem migration_and_removal_in_orderly_runs {settings : Settings} {w : Nat} {world : World}
    (staffed : (world.relays w).Staffed) {newVirtio2vfCpu newVf2virtioCpu : Int}
    (guest : CpuIndex newVirtio2vfCpu) (vf : CpuIndex newVf2virtioCpu) {removal : Op}
    (removes : removal.Removes w) {config : MigrationConfig}
    (run : Run (migrationSystem settings) orderlyMigrations
      (migrating settings w newVirtio2vfCpu newVf2virtioCpu removal world) config)
    : (∀ thread op error, config.running thread ≠ (op, .fail error))
      ∧ ∀ op op' value value',
          config.running .scheduler = (op, .ret value)
          → config.running .remover = (op', .ret value')
          → ((config.state.1.relays w).vio.state = .uninit
              → (config.state.1.relays w).vio.vio2vfCpu = -1)
            ∧ ((config.state.1.relays w).dpdk.state = .uninit
              → (config.state.1.relays w).dpdk.vf2vioCpu = -1) := by
  have cleared : (viewsOf w (world, noWindows)).Cleared := fun side unused =>
    ⟨staffed.unused side unused, id⟩
  have first : (migrationOutline settings w).Good
      (migrating settings w newVirtio2vfCpu newVf2virtioCpu removal world) := by
    refine ⟨fun side busy => ?_, fun thread => ?_⟩
    · exact staffed.used side (busy.elim id False.elim)
    · cases thread with
      | scheduler => exact (migrateRelayCpus_closes guest vf rfl).mono fun _ _ _ => trivial
      | remover =>
          cases removal with
          | removeVirtio id =>
              cases removes
              exact removeVirtio_cleared (.removeVirtio w) rfl cleared
          | removeVf2 dbdf id conditional =>
              cases removes
              exact removeVf2_cleared (.removeVf2 dbdf w conditional) rfl nofun cleared
          | addVf2 | bondAdd | addVirtio | migrateRelayCpus => exact removes.elim
  have good := run.good first
  refine ⟨fun thread op error failed => good.failed failed, fun op op' value value' _ returned => ?_⟩
  have done : (viewsOf w config.state).Cleared := good.returned returned
  constructor
  · intro uninit
    exact (done .guest (by simp [viewsOf, Side.Used, uninit])).1
  · intro uninit
    exact (done .vf (by simp [viewsOf, Side.Used, Relay.Active, uninit])).1

instance (op : Op) (i : Instr) (answer : Int) (s : World × Windows)
    : Decidable (answeredRemovals.instr op i answer s) :=
  match op with
  | .removeVirtio id => .isTrue fun _ => ⟨id, rfl⟩
  | .addVf2 _ _ _ | .bondAdd _ _ _ | .removeVf2 _ _ _ | .addVirtio _ _
  | .migrateRelayCpus _ _ _ =>
      decidable_of_iff (i ≠ .logTimeout)
        ⟨fun h timeout => absurd timeout h, fun h timeout => nomatch (h timeout).choose_spec⟩

instance (thread : MigrationThread) (op : Op) (s : World × Windows)
    : Decidable (answeredRemovals.call thread op s) :=
  .isFalse id

instance (op : Op) (i : Instr) (answer : Int) (s : World × Windows)
    : Decidable (orderlyMigrations.instr op i answer s) :=
  decidable_of_iff
    (answeredRemovals.instr op i answer s
      ∧ (i = .write (.vio2vfCpu (-1)) → ¬ (s.2 .guest).Open)
      ∧ (i = .write (.vf2vioCpu (-1)) → ¬ (s.2 .vf).Open))
    ⟨fun h => ⟨h.1, fun side => match side with | .guest => h.2.1 | .vf => h.2.2⟩,
      fun h => ⟨h.1, h.2 .guest, h.2 .vf⟩⟩

instance (thread : MigrationThread) (op : Op) (s : World × Windows)
    : Decidable (orderlyMigrations.call thread op s) :=
  .isFalse id

theorem connectedWorld_staffed : (connectedWorld.relays 0).Staffed := by
  constructor
  · intro side used
    cases side <;> exact ⟨by decide, by decide⟩
  · intro side unused
    cases side with
    | guest => exact absurd rfl unused
    | vf => exact absurd (Or.inl rfl) unused

/-- The removal of the guest has begun and is answered by the workers, and its CPU is cleared. -/
def clearGuest : List (Choice MigrationThread Op Int Event) :=
  [.env (.vm2vf 0 ⟨[], 0⟩), .env (.vf2vm 0 ⟨0, [], fun _ => 0⟩)] ++ answered .remover [0, 0, 0]

/-- Witness: the guest is moved while its removal has begun, and cleared afterwards. -/
theorem guest_moved_before_cleared
    : ∃ config : MigrationConfig,
        Run (migrationSystem twoWorkers) orderlyMigrations
          (migrating twoWorkers 0 1 0 (.removeVirtio 0) connectedWorld) config
        ∧ config.running .scheduler = (.migrateRelayCpus 0 1 0, .ret 0)
        ∧ config.running .remover = (.removeVirtio 0, .ret 0)
        ∧ (config.state.1.relays 0).vio.state = .uninit
        ∧ (config.state.1.relays 0).vio.vio2vfCpu = -1 := by
  obtain ⟨config, run, reached⟩ := Run.of_follow (migrationSystem twoWorkers) orderlyMigrations
    (migrating twoWorkers 0 1 0 (.removeVirtio 0) connectedWorld)
    (answered .scheduler [0, 0] ++ answered .remover [0, 0]
      ++ answered .scheduler (List.replicate 13 0) ++ clearGuest
      ++ answered .remover (List.replicate 9 0))
    (fun c => (c.running .scheduler).1 = .migrateRelayCpus 0 1 0
      && (c.running .scheduler).2.value? = some 0
      && (c.running .remover).1 = .removeVirtio 0 && (c.running .remover).2.value? = some 0
      && (c.state.1.relays 0).vio.state = .uninit)
    (by decide +kernel)
  simp only [Bool.and_eq_true, decide_eq_true_eq] at reached
  obtain ⟨⟨⟨⟨move, moved⟩, removal⟩, removed⟩, uninit⟩ := reached
  have scheduler : config.running .scheduler = (.migrateRelayCpus 0 1 0, .ret 0) :=
    Prod.ext move (Prog.eq_ret_of_value? moved)
  have remover : config.running .remover = (.removeVirtio 0, .ret 0) :=
    Prod.ext removal (Prog.eq_ret_of_value? removed)
  have removes : (Op.removeVirtio 0).Removes 0 := rfl
  have outcome := migration_and_removal_in_orderly_runs connectedWorld_staffed
    ⟨by decide, by decide⟩ ⟨by decide, by decide⟩ removes run
  have cleared := (outcome.2 _ _ _ _ scheduler remover).1 uninit
  exact ⟨config, run, scheduler, remover, uninit, cleared⟩

/-- A guest that is cleared after the migration has seen it connected: the migration takes -1 for
the old CPU and flags a worker that does not exist.
-/
theorem migration_indexes_cleared_cpu
    : ¬ ∀ (settings : Settings) (w : Nat) (world : World) (newVirtio2vfCpu newVf2virtioCpu : Int)
        (removal : Op) (config : MigrationConfig),
        (world.relays w).Staffed
        → CpuIndex newVirtio2vfCpu
        → CpuIndex newVf2virtioCpu
        → removal.Removes w
        → Run (migrationSystem settings) answeredRemovals
            (migrating settings w newVirtio2vfCpu newVf2virtioCpu removal world) config
        → (∀ thread op error, config.running thread ≠ (op, .fail error))
          ∧ ∀ op op' value value',
              config.running .scheduler = (op, .ret value)
              → config.running .remover = (op', .ret value')
              → ((config.state.1.relays w).vio.state = .uninit
                  → (config.state.1.relays w).vio.vio2vfCpu = -1)
                ∧ ((config.state.1.relays w).dpdk.state = .uninit
                  → (config.state.1.relays w).dpdk.vf2vioCpu = -1) := by
  intro claim
  obtain ⟨config, run, reached⟩ := Run.of_follow (migrationSystem twoWorkers) answeredRemovals
    (migrating twoWorkers 0 1 0 (.removeVirtio 0) connectedWorld)
    (answered .scheduler [0, 0] ++ answered .remover [0, 0] ++ clearGuest
      ++ answered .scheduler [0, 0, 0])
    (fun c => match (c.running .scheduler).2 with
      | .fail .workerIndex => true
      | _ => false)
    (by decide +kernel)
  have never := (claim twoWorkers 0 connectedWorld 1 0 (.removeVirtio 0) config
    connectedWorld_staffed ⟨by decide, by decide⟩ ⟨by decide, by decide⟩ rfl run).1
  split at reached
  · rename_i failed
    exact never .scheduler _ _ (Prod.ext rfl failed)
  · cases reached

end VirtioForwarder
