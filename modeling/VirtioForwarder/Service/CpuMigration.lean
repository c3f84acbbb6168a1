import VirtioForwarder.Service.CoreSched

/-! CPU migrations: what `migrate_relay_cpus` makes of the relays and the workers if nothing
happens beside it, and exactly when that is what its test of the CPUs is for; then the status
that is reported for an update of several relays.
-/

namespace VirtioForwarder

open Program

/-- What `migrate_relay_cpus` comes to if nothing happens beside it. It calls no driver; `stray`
is what stands in memory behind the workers, where a CPU outside of 0..63 is looked up.
-/
def migration (settings : Settings) (stray : Int) (world : World) (id : Nat)
    (newVirtio2vfCpu newVf2virtioCpu : Int)
    : Except Abort Int × World :=
  (migrateRelayCpus settings id newVirtio2vfCpu newVf2virtioCpu).alone (accesses id)
    (fun _ => stray) world

/-- The number of a CPU in `worker_core_bitmap`. -/
def Settings.HasWorker (settings : Settings) (cpu : Int) : Prop :=
  0 ≤ cpu ∧ settings.workerCoreBitmap.getLsbD cpu.toNat = true

instance (settings : Settings) (cpu : Int) : Decidable (settings.HasWorker cpu) :=
  inferInstanceAs (Decidable (_ ∧ _))

/-- The guest's side is connected, and on another CPU. -/
def Relay.MovesVirtio2vf (relay : Relay) (newCpu : Int) : Prop :=
  relay.vio.state = .ready ∧ relay.vio.vio2vfCpu ≠ newCpu

/-- The VF's side is in use, and on another CPU. -/
def Relay.MovesVf2virtio (relay : Relay) (newCpu : Int) : Prop :=
  relay.Active ∧ relay.dpdk.vf2vioCpu ≠ newCpu

instance (relay : Relay) (newCpu : Int) : Decidable (relay.MovesVirtio2vf newCpu) :=
  inferInstanceAs (Decidable (_ ∧ _))

instance (relay : Relay) (newCpu : Int) : Decidable (relay.MovesVf2virtio newCpu) :=
  inferInstanceAs (Decidable (_ ∧ _))

/-- The world after a migration: the sides in use are on their new CPUs, and the workers that a
side has left or come to are told.
-/
def World.migrated (world : World) (id : Nat) (newVirtio2vfCpu newVf2virtioCpu : Int) : World :=
  let relay := world.relays id
  { world with
    relays := Function.update world.relays id
      { relay with
        vio := { relay.vio with
          vio2vfCpu :=
            if relay.vio.state = .ready then newVirtio2vfCpu else relay.vio.vio2vfCpu }
        dpdk := { relay.dpdk with
          vf2vioCpu := if relay.Active then newVf2virtioCpu else relay.dpdk.vf2vioCpu } }
    workers := fun cpu =>
      { world.workers cpu with
        needUpdate := (world.workers cpu).needUpdate
          || decide (relay.MovesVirtio2vf newVirtio2vfCpu
            ∧ (cpu = relay.vio.vio2vfCpu ∨ cpu = newVirtio2vfCpu))
          || decide (relay.MovesVf2virtio newVf2virtioCpu
            ∧ (cpu = relay.dpdk.vf2vioCpu ∨ cpu = newVf2virtioCpu)) } }

/-- CPUs without a worker are refused and nothing changes; other CPUs are taken over. -/
def MigratesOrRefuses (settings : Settings) (stray : Int) (world : World) (id : Nat)
    (newVirtio2vfCpu newVf2virtioCpu : Int)
    : Prop :=
  if settings.HasWorker newVirtio2vfCpu ∧ settings.HasWorker newVf2virtioCpu then
    migration settings stray world id newVirtio2vfCpu newVf2virtioCpu
      = (.ok 0, world.migrated id newVirtio2vfCpu newVf2virtioCpu)
  else
    ∃ code ≠ 0,
      migration settings stray world id newVirtio2vfCpu newVf2virtioCpu = (.ok code, world)

/-- A side that moves comes from a CPU of the table to a worker that runs. -/
def World.CanMove (world : World) (id : Nat) (newVirtio2vfCpu newVf2virtioCpu : Int) : Prop :=
  ((world.relays id).MovesVirtio2vf newVirtio2vfCpu
    → (world.workers newVirtio2vfCpu.toNat).initialized = true
      ∧ CpuIndex (world.relays id).vio.vio2vfCpu)
  ∧ ((world.relays id).MovesVf2virtio newVf2virtioCpu
    → (world.workers newVf2virtioCpu.toNat).initialized = true
      ∧ CpuIndex (world.relays id).dpdk.vf2vioCpu)

section Sides

variable {settings : Settings} {stray : Int} {world : World} {id : Nat} {newCpu oldCpu : Int}
  {write : Write}

theorem Settings.HasWorker.index (h : settings.HasWorker newCpu) : CpuIndex newCpu := by
  obtain ⟨positive, bit⟩ := h
  have below := BitVec.lt_of_getLsbD bit
  exact ⟨positive, by unfold maxCpus; omega⟩

/-- `need_update` of a worker. -/
def World.flag (world : World) (cpu : Int) : World :=
  { world with
    workers := Function.update world.workers cpu.toNat
      { world.workers cpu.toNat with needUpdate := true } }

theorem World.workers_flag {flagged : Int} (inside : CpuIndex flagged) (cpu : Nat)
    : (world.flag flagged).workers cpu
      = { world.workers cpu with
          needUpdate := (world.workers cpu).needUpdate || decide ((cpu : Int) = flagged) } := by
  have here : (cpu : Int) = flagged ↔ cpu = flagged.toNat := by
    have := inside.1
    omega
  unfold World.flag
  simp only [here]
  rcases eq_or_ne cpu flagged.toNat with rfl | away
  · simp
  · simp [away]

/-- The end of both parts of `migrate_relay_cpus`. -/
def moveSide (write : Write) (oldCpu newCpu : Int) : Control Unit := do
  assign write
  flagWorker oldCpu
  flagWorker newCpu

/-- A side is moved by an assignment, and both workers are told. -/
theorem moveSide_alone (old : CpuIndex oldCpu) (new : CpuIndex newCpu)
    : (moveSide write oldCpu newCpu).alone (accesses id) (fun _ => stray) world
      = (.ok (), ((world.modifyRelay id write.apply).flag oldCpu).flag newCpu) := by
  unfold moveSide flagWorker
  rw [if_pos (show 0 ≤ oldCpu ∧ oldCpu < maxCpus from old),
    if_pos (show 0 ≤ newCpu ∧ newCpu < maxCpus from new)]
  rfl

/-- A side that is on no CPU of the table cannot be moved. -/
theorem index_of_moveSide {after : World}
    (done : (moveSide write oldCpu newCpu).alone (accesses id) (fun _ => stray) world
      = (.ok (), after))
    : CpuIndex oldCpu := by
  by_contra old
  unfold moveSide flagWorker at done
  rw [if_neg (show ¬ (0 ≤ oldCpu ∧ oldCpu < maxCpus) from old)] at done
  cases done

theorem look_bind_alone {α : Type} {field : Field} {next : Relay → Control α}
    : (look id field >>= next).alone (accesses id) (fun _ => stray) world
      = (next (world.relays id)).alone (accesses id) (fun _ => stray) world :=
  rfl

/-- Both parts of `migrate_relay_cpus` look at the new worker first. -/
theorem lookWorker_bind_alone {α : Type} {next : Worker → Control α} (inside : CpuIndex newCpu)
    : (lookWorker newCpu >>= next).alone (accesses id) (fun _ => stray) world
      = (next (world.workers newCpu.toNat)).alone (accesses id) (fun _ => stray) world := by
  unfold lookWorker
  rw [if_pos (show 0 ≤ newCpu ∧ newCpu < maxCpus from inside)]
  rfl

/-- The guest's side moves if it has to and the new worker runs, and else stays. -/
theorem moveVirtio2vf_alone (inside : CpuIndex newCpu)
    : (moveVirtio2vf id newCpu).alone (accesses id) (fun _ => stray) world
      = if (world.relays id).MovesVirtio2vf newCpu
            ∧ (world.workers newCpu.toNat).initialized = true then
          (moveSide (.vio2vfCpu newCpu) (world.relays id).vio.vio2vfCpu newCpu).alone
            (accesses id) (fun _ => stray) world
        else (.ok (), world) := by
  unfold moveVirtio2vf
  rw [lookWorker_bind_alone inside]
  cases running : (world.workers newCpu.toNat).initialized with
  | false =>
      rw [if_pos (by decide), if_neg (by simp)]
      rfl
  | true =>
      rw [if_neg (by decide), look_bind_alone]
      split
      · rename_i away
        rw [if_neg fun h => away h.1.1]
        rfl
      · rename_i ready
        rw [look_bind_alone]
        split
        · rename_i same
          rw [if_neg fun h => h.1.2 same]
          rfl
        · rename_i other
          rw [if_pos ⟨⟨not_not.mp ready, other⟩, rfl⟩]
          rfl

theorem vfInitialized_bind_alone {α : Type} {next : Bool → Control α}
    : (vfInitialized id >>= next).alone (accesses id) (fun _ => stray) world
      = (next (decide (world.relays id).Active)).alone (accesses id) (fun _ => stray) world := by
  apply Prog.alone_bind
  unfold vfInitialized Relay.Active
  rw [look_bind_alone]
  split
  · rename_i added
    simp [added, Prog.alone, pure]
  · rename_i other
    rw [look_bind_alone]
    simp [other, Prog.alone, pure]

/-- The same for the VF's side. -/
theorem moveVf2virtio_alone (inside : CpuIndex newCpu)
    : (moveVf2virtio id newCpu).alone (accesses id) (fun _ => stray) world
      = if (world.relays id).MovesVf2virtio newCpu
            ∧ (world.workers newCpu.toNat).initialized = true then
          (moveSide (.vf2vioCpu newCpu) (world.relays id).dpdk.vf2vioCpu newCpu).alone
            (accesses id) (fun _ => stray) world
        else (.ok (), world) := by
  unfold moveVf2virtio
  rw [lookWorker_bind_alone inside]
  cases running : (world.workers newCpu.toNat).initialized with
  | false =>
      rw [if_pos (by decide), if_neg (by simp)]
      rfl
  | true =>
      rw [if_neg (by decide), vfInitialized_bind_alone]
      split
      · rename_i away
        rw [if_neg fun h => by simp [h.1.1] at away]
        rfl
      · rename_i active
        rw [look_bind_alone]
        split
        · rename_i same
          rw [if_neg fun h => h.1.2 same]
          rfl
        · rename_i other
          rw [if_pos ⟨⟨by simpa using active, other⟩, rfl⟩]
          rfl

end Sides

section Migrations

variable {settings : Settings} {stray : Int} {world : World} {id : Nat}
  {newVirtio2vfCpu newVf2virtioCpu : Int}

/-- The world after one side has been moved, if it had to. -/
def World.sideMoved (world : World) (id : Nat) (write : Write) (moves : Bool) (oldCpu newCpu : Int)
    : World :=
  if moves then ((world.modifyRelay id write.apply).flag oldCpu).flag newCpu else world

theorem World.sideMoved_eq {write : Write} {moves : Bool} {oldCpu newCpu : Int}
    (old : moves = true → CpuIndex oldCpu) (new : CpuIndex newCpu)
    : world.sideMoved id write moves oldCpu newCpu
      = { world with
          relays := Function.update world.relays id
            (if moves then write.apply (world.relays id) else world.relays id)
          workers := fun cpu =>
            { world.workers cpu with
              needUpdate := (world.workers cpu).needUpdate
                || (moves && decide ((cpu : Int) = oldCpu ∨ (cpu : Int) = newCpu)) } } := by
  cases moves with
  | false => simp [World.sideMoved]
  | true =>
      have told (cpu : Nat) : ((world.flag oldCpu).flag newCpu).workers cpu = _ :=
        World.workers_flag new cpu
      simp only [World.workers_flag (old rfl)] at told
      unfold World.sideMoved
      rw [if_pos rfl]
      change ({ world with
        relays := Function.update world.relays id (write.apply (world.relays id))
        workers := ((world.flag oldCpu).flag newCpu).workers } : World) = _
      rw [funext told]
      simp [Bool.or_assoc]

theorem Relay.moved_virtio2vf {relay : Relay} {newCpu : Int}
    : (if decide (relay.MovesVirtio2vf newCpu) = true then (Write.vio2vfCpu newCpu).apply relay
        else relay)
      = { relay with
          vio := { relay.vio with
            vio2vfCpu := if relay.vio.state = .ready then newCpu else relay.vio.vio2vfCpu } } := by
  by_cases ready : relay.vio.state = .ready
  · by_cases same : relay.vio.vio2vfCpu = newCpu
    · subst same
      rw [if_neg (by simp [Relay.MovesVirtio2vf]), if_pos ready]
    · simp [Relay.MovesVirtio2vf, Write.apply, ready, same]
  · simp [Relay.MovesVirtio2vf, ready]

theorem Relay.moved_vf2virtio (relay : Relay) {moved : Relay} {newCpu : Int}
    (device : moved.dpdk = relay.dpdk)
    : (if decide (relay.MovesVf2virtio newCpu) = true then (Write.vf2vioCpu newCpu).apply moved
        else moved)
      = { moved with
          dpdk := { relay.dpdk with
            vf2vioCpu := if relay.Active then newCpu else relay.dpdk.vf2vioCpu } } := by
  by_cases active : relay.Active
  · by_cases same : relay.dpdk.vf2vioCpu = newCpu
    · subst same
      simp [Relay.MovesVf2virtio, active, ← device]
    · simp [Relay.MovesVf2virtio, Write.apply, active, same, device]
  · simp [Relay.MovesVf2virtio, active, ← device]

/-- Both sides moved one after the other make the migration. -/
theorem World.migrated_eq (can : world.CanMove id newVirtio2vfCpu newVf2virtioCpu)
    (virtio2vf : CpuIndex newVirtio2vfCpu) (vf2virtio : CpuIndex newVf2virtioCpu)
    : (world.sideMoved id (.vio2vfCpu newVirtio2vfCpu)
          (decide ((world.relays id).MovesVirtio2vf newVirtio2vfCpu))
          (world.relays id).vio.vio2vfCpu newVirtio2vfCpu).sideMoved id
        (.vf2vioCpu newVf2virtioCpu) (decide ((world.relays id).MovesVf2virtio newVf2virtioCpu))
        (world.relays id).dpdk.vf2vioCpu newVf2virtioCpu
      = world.migrated id newVirtio2vfCpu newVf2virtioCpu := by
  obtain ⟨canVirtio2vf, canVf2virtio⟩ := can
  rw [World.sideMoved_eq (fun moves => (canVf2virtio (of_decide_eq_true moves)).2) vf2virtio,
    World.sideMoved_eq (fun moves => (canVirtio2vf (of_decide_eq_true moves)).2) virtio2vf]
  unfold World.migrated
  simp only [Function.update_self, Function.update_idem, World.mk.injEq, and_true]
  constructor
  · rw [Relay.moved_virtio2vf]
    exact congrArg (Function.update world.relays id) (Relay.moved_vf2virtio _ rfl)
  · funext cpu
    simp [Bool.or_assoc]

/-- A side that can move is moved if it has to. -/
theorem moveVirtio2vf_sideMoved (inside : CpuIndex newVirtio2vfCpu)
    (can : (world.relays id).MovesVirtio2vf newVirtio2vfCpu
      → (world.workers newVirtio2vfCpu.toNat).initialized = true
        ∧ CpuIndex (world.relays id).vio.vio2vfCpu)
    : (moveVirtio2vf id newVirtio2vfCpu).alone (accesses id) (fun _ => stray) world
      = (.ok (), world.sideMoved id (.vio2vfCpu newVirtio2vfCpu)
          (decide ((world.relays id).MovesVirtio2vf newVirtio2vfCpu))
          (world.relays id).vio.vio2vfCpu newVirtio2vfCpu) := by
  rw [moveVirtio2vf_alone inside]
  by_cases moves : (world.relays id).MovesVirtio2vf newVirtio2vfCpu
  · obtain ⟨running, old⟩ := can moves
    rw [if_pos ⟨moves, running⟩, moveSide_alone old inside, decide_eq_true moves]
    rfl
  · rw [if_neg fun h => moves h.1, decide_eq_false moves]
    rfl

theorem moveVf2virtio_sideMoved (inside : CpuIndex newVf2virtioCpu)
    (can : (world.relays id).MovesVf2virtio newVf2virtioCpu
      → (world.workers newVf2virtioCpu.toNat).initialized = true
        ∧ CpuIndex (world.relays id).dpdk.vf2vioCpu)
    : (moveVf2virtio id newVf2virtioCpu).alone (accesses id) (fun _ => stray) world
      = (.ok (), world.sideMoved id (.vf2vioCpu newVf2virtioCpu)
          (decide ((world.relays id).MovesVf2virtio newVf2virtioCpu))
          (world.relays id).dpdk.vf2vioCpu newVf2virtioCpu) := by
  rw [moveVf2virtio_alone inside]
  by_cases moves : (world.relays id).MovesVf2virtio newVf2virtioCpu
  · obtain ⟨running, old⟩ := can moves
    rw [if_pos ⟨moves, running⟩, moveSide_alone old inside, decide_eq_true moves]
    rfl
  · rw [if_neg fun h => moves h.1, decide_eq_false moves]
    rfl

theorem migration_refused (refused : refusesCpus settings newVirtio2vfCpu newVf2virtioCpu)
    : migration settings stray world id newVirtio2vfCpu newVf2virtioCpu = (.ok (-1), world) := by
  unfold migration
  rw [migrateRelayCpus_eq, if_pos refused]
  rfl

/-- What is not refused is not reported as an error. -/
theorem migration_accepted (accepted : ¬ refusesCpus settings newVirtio2vfCpu newVf2virtioCpu)
    {code : Int} {after : World}
    (h : migration settings stray world id newVirtio2vfCpu newVf2virtioCpu = (.ok code, after))
    : code = 0 := by
  have returned := migrateRelayCpus_returns.alone h
  rwa [if_neg accepted] at returned

theorem Settings.HasWorker.accepted (worker : settings.HasWorker newVirtio2vfCpu)
    : ¬ refusesCpus settings newVirtio2vfCpu newVf2virtioCpu := by
  rintro ⟨empty, _⟩
  have bit := worker.2
  simp [empty] at bit

theorem migration_eq (accepted : ¬ refusesCpus settings newVirtio2vfCpu newVf2virtioCpu)
    : migration settings stray world id newVirtio2vfCpu newVf2virtioCpu
      = (do
          moveVirtio2vf id newVirtio2vfCpu
          moveVf2virtio id newVf2virtioCpu
          return 0 : Control Int).alone (accesses id) (fun _ => stray) world := by
  unfold migration
  rw [migrateRelayCpus_eq, if_neg accepted]

/-- What moving the guest's side leaves for the VF's side. -/
theorem World.dpdk_sideMoved {moves : Bool} {oldCpu newCpu : Int}
    : ((world.sideMoved id (.vio2vfCpu newVirtio2vfCpu) moves oldCpu newCpu).relays id).dpdk
      = (world.relays id).dpdk := by
  cases moves with
  | false => rfl
  | true => simp [World.sideMoved, World.flag, World.modifyRelay, Write.apply]

theorem World.initialized_sideMoved {write : Write} {moves : Bool} {oldCpu newCpu : Int} (cpu : Nat)
    : ((world.sideMoved id write moves oldCpu newCpu).workers cpu).initialized
      = (world.workers cpu).initialized := by
  cases moves with
  | false => rfl
  | true =>
      simp only [World.sideMoved, if_true, World.flag, Function.update_apply]
      split <;> split <;> simp_all [World.modifyRelay]

theorem Relay.movesVf2virtio_congr {relay moved : Relay} (device : moved.dpdk = relay.dpdk)
    {newCpu : Int}
    : moved.MovesVf2virtio newCpu ↔ relay.MovesVf2virtio newCpu := by
  unfold Relay.MovesVf2virtio Relay.Active
  rw [device]

/-- Both sides can move, so they are moved. -/
theorem migration_moves (accepted : ¬ refusesCpus settings newVirtio2vfCpu newVf2virtioCpu)
    (virtio2vf : CpuIndex newVirtio2vfCpu) (vf2virtio : CpuIndex newVf2virtioCpu)
    (can : world.CanMove id newVirtio2vfCpu newVf2virtioCpu)
    : migration settings stray world id newVirtio2vfCpu newVf2virtioCpu
      = (.ok 0, world.migrated id newVirtio2vfCpu newVf2virtioCpu) := by
  have first : (moveVirtio2vf id newVirtio2vfCpu).alone (accesses id) (fun _ => stray) world = _ :=
    moveVirtio2vf_sideMoved virtio2vf can.1
  have whole := World.migrated_eq can virtio2vf vf2virtio
  rw [migration_eq accepted, Prog.alone_bind first]
  -- the VF's side finds the world as before, but for what was moved
  generalize after : world.sideMoved id (.vio2vfCpu newVirtio2vfCpu)
    (decide ((world.relays id).MovesVirtio2vf newVirtio2vfCpu))
    (world.relays id).vio.vio2vfCpu newVirtio2vfCpu = middle
  have device : (middle.relays id).dpdk = (world.relays id).dpdk := after ▸ World.dpdk_sideMoved
  have running (cpu : Nat) : (middle.workers cpu).initialized = (world.workers cpu).initialized :=
    after ▸ World.initialized_sideMoved cpu
  have moves : (middle.relays id).MovesVf2virtio newVf2virtioCpu
      ↔ (world.relays id).MovesVf2virtio newVf2virtioCpu :=
    Relay.movesVf2virtio_congr device
  have second : (middle.relays id).MovesVf2virtio newVf2virtioCpu
      → (middle.workers newVf2virtioCpu.toNat).initialized = true
        ∧ CpuIndex (middle.relays id).dpdk.vf2vioCpu := by
    rw [moves, running, device]
    exact can.2
  rw [Prog.alone_bind (moveVf2virtio_sideMoved vf2virtio second)]
  rw [after] at whole
  simp only [moves, device]
  rw [whole]
  rfl

/-- Without workers that run, nothing is moved. -/
theorem migration_stays (accepted : ¬ refusesCpus settings newVirtio2vfCpu newVf2virtioCpu)
    (virtio2vf : CpuIndex newVirtio2vfCpu) (vf2virtio : CpuIndex newVf2virtioCpu)
    (stopped : (world.workers newVirtio2vfCpu.toNat).initialized = false)
    (stopped' : (world.workers newVf2virtioCpu.toNat).initialized = false)
    : migration settings stray world id newVirtio2vfCpu newVf2virtioCpu = (.ok 0, world) := by
  have first : (moveVirtio2vf id newVirtio2vfCpu).alone (accesses id) (fun _ => stray) world
      = (.ok (), world) := by
    rw [moveVirtio2vf_alone virtio2vf, if_neg (by simp [stopped])]
  have second : (moveVf2virtio id newVf2virtioCpu).alone (accesses id) (fun _ => stray) world
      = (.ok (), world) := by
    rw [moveVf2virtio_alone vf2virtio, if_neg (by simp [stopped'])]
  rw [migration_eq accepted, Prog.alone_bind first, Prog.alone_bind second]
  rfl

/-- A side that has come to its new CPU could move. -/
theorem moveVirtio2vf_came (inside : CpuIndex newVirtio2vfCpu) {after : World}
    (done : (moveVirtio2vf id newVirtio2vfCpu).alone (accesses id) (fun _ => stray) world
      = (.ok (), after))
    (came : (after.relays id).vio.vio2vfCpu = newVirtio2vfCpu)
    (moves : (world.relays id).MovesVirtio2vf newVirtio2vfCpu)
    : (world.workers newVirtio2vfCpu.toNat).initialized = true
      ∧ CpuIndex (world.relays id).vio.vio2vfCpu := by
  rw [moveVirtio2vf_alone inside] at done
  by_cases running : (world.workers newVirtio2vfCpu.toNat).initialized = true
  · rw [if_pos ⟨moves, running⟩] at done
    exact ⟨running, index_of_moveSide done⟩
  · rw [if_neg fun h => running h.2] at done
    cases done
    exact absurd came moves.2

theorem moveVf2virtio_came (inside : CpuIndex newVf2virtioCpu) {after : World}
    (done : (moveVf2virtio id newVf2virtioCpu).alone (accesses id) (fun _ => stray) world
      = (.ok (), after))
    (came : (after.relays id).dpdk.vf2vioCpu = newVf2virtioCpu)
    (moves : (world.relays id).MovesVf2virtio newVf2virtioCpu)
    : (world.workers newVf2virtioCpu.toNat).initialized = true
      ∧ CpuIndex (world.relays id).dpdk.vf2vioCpu := by
  rw [moveVf2virtio_alone inside] at done
  by_cases running : (world.workers newVf2virtioCpu.toNat).initialized = true
  · rw [if_pos ⟨moves, running⟩] at done
    exact ⟨running, index_of_moveSide done⟩
  · rw [if_neg fun h => running h.2] at done
    cases done
    exact absurd came moves.2

/-- Moving the VF's side leaves the guest's side alone. -/
theorem moveVf2virtio_vio (inside : CpuIndex newVf2virtioCpu) {after : World}
    (done : (moveVf2virtio id newVf2virtioCpu).alone (accesses id) (fun _ => stray) world
      = (.ok (), after))
    : (after.relays id).vio = (world.relays id).vio := by
  rw [moveVf2virtio_alone inside] at done
  split at done
  · rw [moveSide_alone (index_of_moveSide done) inside] at done
    cases done
    simp [World.flag, World.modifyRelay, Write.apply]
  · cases done
    rfl

/-- A migration that has done its part could do it. -/
theorem canMove_of_migrated (virtio2vf : settings.HasWorker newVirtio2vfCpu)
    (vf2virtio : settings.HasWorker newVf2virtioCpu)
    (done : migration settings stray world id newVirtio2vfCpu newVf2virtioCpu
      = (.ok 0, world.migrated id newVirtio2vfCpu newVf2virtioCpu))
    : world.CanMove id newVirtio2vfCpu newVf2virtioCpu := by
  have both := done
  rw [migration_eq virtio2vf.accepted] at both
  obtain ⟨_, middle, first, both⟩ := Prog.alone_of_bind both
  obtain ⟨_, final, second, ended⟩ := Prog.alone_of_bind both
  cases ended
  have guest : (world.relays id).MovesVirtio2vf newVirtio2vfCpu
      → (world.workers newVirtio2vfCpu.toNat).initialized = true
        ∧ CpuIndex (world.relays id).vio.vio2vfCpu := by
    intro moves
    refine moveVirtio2vf_came virtio2vf.index first ?_ moves
    rw [← moveVf2virtio_vio vf2virtio.index second]
    simp [World.migrated, moves.1]
  refine ⟨guest, fun moves => ?_⟩
  rw [moveVirtio2vf_sideMoved virtio2vf.index guest] at first
  cases first
  have came := moveVf2virtio_came vf2virtio.index second (by simp [World.migrated, moves.1])
    ((Relay.movesVf2virtio_congr World.dpdk_sideMoved).mpr moves)
  rwa [World.initialized_sideMoved, World.dpdk_sideMoved] at came

/-- Whatever the relay and the workers, `migrate_relay_cpus` refuses or takes over CPUs as it
should exactly if both have workers and the sides that move can do so, or if there is no worker
at all and a CPU shifts to bit 0.
-/
theorem migratesOrRefuses_iff (settings : Settings) (stray : Int) (world : World) (id : Nat)
    (newVirtio2vfCpu newVf2virtioCpu : Int)
    : MigratesOrRefuses settings stray world id newVirtio2vfCpu newVf2virtioCpu
      ↔ if settings.HasWorker newVirtio2vfCpu ∧ settings.HasWorker newVf2virtioCpu then
          world.CanMove id newVirtio2vfCpu newVf2virtioCpu
        else
          settings.workerCoreBitmap = 0
          ∧ (newVirtio2vfCpu % 64 = 0 ∨ newVf2virtioCpu % 64 = 0) := by
  unfold MigratesOrRefuses
  split
  · rename_i workers
    exact ⟨canMove_of_migrated workers.1 workers.2,
      migration_moves workers.1.accepted workers.1.index workers.2.index⟩
  · constructor
    · rintro ⟨code, failed, returned⟩
      by_contra accepted
      exact failed (migration_accepted accepted returned)
    · intro refused
      exact ⟨-1, by decide, migration_refused refused⟩

/-- CPU 5 has no worker, but a relay without guest and VF is "moved" there without an error. -/
theorem absent_worker_accepted
    : ¬ ∀ (settings : Settings) (stray : Int) (world : World) (id : Nat)
        (newVirtio2vfCpu newVf2virtioCpu : Int),
        MigratesOrRefuses settings stray world id newVirtio2vfCpu newVf2virtioCpu := by
  intro claim
  have wrong := claim twoWorkers 0 (World.initial twoWorkers false fun _ => true) 0 5 0
  rw [MigratesOrRefuses, if_neg (by decide)] at wrong
  obtain ⟨code, failed, returned⟩ := wrong
  have zero : code = 0 := migration_accepted (by decide) returned
  exact failed zero

end Migrations

-----------------------------------------------------------------------------------------
-- The status of an update
-----------------------------------------------------------------------------------------

/-- A handler that calls `migrate_relay_cpus` for entries; the answers are its return values. -/
abbrev MigrationCalls := Prog RelayCpuEntry Int Unit InputFault CoreSchedResponse

/-- The loop over `relay_cpu_map` with its calls left open. -/
def updateCalls (response : CoreSchedResponse) : List RelayCpuEntry → MigrationCalls
  | [] => return response
  | entry :: entries => do
      let code ← .perform entry fun code _ => code
      let response ← response.setErrorCode "migrate_relay_cpus()" code
      updateCalls response entries

/-- `handle_CoreSchedRequest` with its calls left open. -/
def handleCoreSchedCalls (settings : Settings) (pc : CoreSchedRequest) : MigrationCalls :=
  if !validateCoreSchedRequest settings pc then return .initial
  else
    match pc.op with
    | .update => updateCalls .initial pc.relayCpuMap
    | .getEalCores =>
        if ealCores settings = [] then
          CoreSchedResponse.initial.setErrorCode "worker core request" 1
        else return { CoreSchedResponse.initial with status := .ok, ealCores := ealCores settings }
    | .other _ => return .initial

/-- The call for an entry. -/
def migrateEntry (settings : Settings) (entry : RelayCpuEntry) : InputProg Int :=
  migrateRelayNumber settings entry.relayNumber.toInt entry.virtio2vfCpu.toInt
    entry.vf2virtioCpu.toInt

section Status

variable {settings : Settings}

theorem expand_setErrorCode {response : CoreSchedResponse} {source : String} {code : Int}
    {impl : RelayCpuEntry → InputProg Int} (next : CoreSchedResponse → MigrationCalls)
    : (response.setErrorCode source code >>= next).expand impl
      = response.setErrorCode source code >>= fun response => (next response).expand impl := by
  unfold CoreSchedResponse.setErrorCode
  split
  · rfl
  · split <;> rfl

/-- The loop makes its calls one after another, by induction on the entries. -/
theorem updateRelays_eq_expand (response : CoreSchedResponse) (entries : List RelayCpuEntry)
    : updateRelays settings response entries
      = (updateCalls response entries).expand (migrateEntry settings) := by
  induction entries generalizing response with
  | nil => rfl
  | cons entry entries ih =>
      simp only [updateRelays, ih]
      change _ = Prog.bind (migrateEntry settings entry) fun code =>
        (response.setErrorCode "migrate_relay_cpus()" code >>= fun response =>
          updateCalls response entries).expand (migrateEntry settings)
      simp only [expand_setErrorCode]
      rfl

/-- The handler of the service is the handler with its calls carried out. -/
theorem handleCoreSchedRequest_eq_expand (pc : CoreSchedRequest)
    : handleCoreSchedRequest settings pc
      = (handleCoreSchedCalls settings pc).expand (migrateEntry settings) := by
  unfold handleCoreSchedRequest handleCoreSchedCalls
  split
  · rfl
  · cases pc.op with
    | update => exact updateRelays_eq_expand .initial pc.relayCpuMap
    | getEalCores =>
        dsimp only
        split <;> rfl
    | other value => rfl

/-- The handler returns, with status OK and no error code if every entry returned 0, and else
with status ERROR and the code of an entry that failed.
-/
def ReportsEveryEntry (results : List Int) (handled : MigrationCalls) : Prop :=
  ∃ response,
    handled = .ret response
    ∧ ((∀ code ∈ results, code = 0) → response.status = .ok ∧ response.errorCode = none)
    ∧ (¬ (∀ code ∈ results, code = 0)
      → response.status = .error
        ∧ ∃ code ∈ results, code ≠ 0 ∧ response.errorCode = some code)

variable {response after : CoreSchedResponse} {entries : List RelayCpuEntry} {results : List Int}

/-- The response after an entry has failed. -/
def CoreSchedResponse.failed (response : CoreSchedResponse) (code : Int) : CoreSchedResponse :=
  { response with errorCode := some code, errorCodeSource := some "migrate_relay_cpus()" }

theorem updateCalls_fed_zero {entry : RelayCpuEntry}
    : (updateCalls response (entry :: entries)).fed (0 :: results)
      = (updateCalls { response with status := .ok } entries).fed results :=
  rfl

theorem updateCalls_fed_failed {entry : RelayCpuEntry} {code : Int} (failed : code ≠ 0)
    (before : response.status = .error)
    : (updateCalls response (entry :: entries)).fed (code :: results)
      = (updateCalls (response.failed code) entries).fed results := by
  change (response.setErrorCode "migrate_relay_cpus()" code >>= _).fed results = _
  rw [setErrorCode_failed _ failed before]
  rfl

theorem updateCalls_fed_asserts {entry : RelayCpuEntry} {code : Int} (failed : code ≠ 0)
    (before : response.status = .ok)
    : (updateCalls response (entry :: entries)).fed (code :: results) = .fail .assertion := by
  change (response.setErrorCode "migrate_relay_cpus()" code >>= _).fed results = _
  rw [setErrorCode_asserts _ failed before]
  cases results <;> rfl

/-- Entries that all return 0 only set the status, by induction on the entries. -/
theorem updateCalls_zeros (length : results.length = entries.length)
    (zeros : ∀ code ∈ results, code = 0)
    : (updateCalls response entries).fed results
      = .ret { response with status := if results = [] then response.status else .ok } := by
  induction entries generalizing results response with
  | nil =>
      cases List.length_eq_zero_iff.mp length
      rfl
  | cons entry entries ih =>
      obtain ⟨code, codes, rfl⟩ := List.exists_cons_of_length_eq_add_one length
      obtain ⟨rfl, others⟩ := List.forall_mem_cons.mp zeros
      rw [updateCalls_fed_zero, ih (Nat.succ.inj length) others]
      cases codes <;> rfl

/-- Entries that all fail leave the code of the last one, by induction on the entries. -/
theorem updateCalls_failures (length : results.length = entries.length)
    (failures : ∀ code ∈ results, code ≠ 0) (before : response.status = .error)
    : ∃ after,
        (updateCalls response entries).fed results = .ret after
        ∧ after.status = .error
        ∧ after.errorCode = (results.getLast?).or response.errorCode := by
  induction entries generalizing results response with
  | nil =>
      cases List.length_eq_zero_iff.mp length
      exact ⟨response, rfl, before, rfl⟩
  | cons entry entries ih =>
      obtain ⟨code, codes, rfl⟩ := List.exists_cons_of_length_eq_add_one length
      obtain ⟨failed, failures⟩ := List.forall_mem_cons.mp failures
      rw [updateCalls_fed_failed failed before]
      have still : (response.failed code).status = .error := before
      obtain ⟨after, returned, status, last⟩ := ih (Nat.succ.inj length) failures still
      refine ⟨after, returned, status, last.trans ?_⟩
      rw [List.getLast?_cons]
      cases codes.getLast? <;> rfl

/-- After a success, a return means that nothing has failed. -/
theorem updateCalls_after_ok (length : results.length = entries.length)
    (before : response.status = .ok)
    (returned : (updateCalls response entries).fed results = .ret after)
    : (∀ code ∈ results, code = 0) ∧ after.status = .ok := by
  induction entries generalizing results response with
  | nil =>
      cases List.length_eq_zero_iff.mp length
      cases returned
      exact ⟨nofun, before⟩
  | cons entry entries ih =>
      obtain ⟨code, codes, rfl⟩ := List.exists_cons_of_length_eq_add_one length
      by_cases zero : code = 0
      · subst zero
        rw [updateCalls_fed_zero] at returned
        obtain ⟨zeros, status⟩ := ih (Nat.succ.inj length) rfl returned
        exact ⟨List.forall_mem_cons.mpr ⟨rfl, zeros⟩, status⟩
      · rw [updateCalls_fed_asserts zero before] at returned
        cases returned

/-- A success is the last word about the status. -/
theorem updateCalls_ok_of_zero (length : results.length = entries.length)
    (before : response.status = .error)
    (returned : (updateCalls response entries).fed results = .ret after) (zero : 0 ∈ results)
    : after.status = .ok := by
  induction entries generalizing results response with
  | nil =>
      cases List.length_eq_zero_iff.mp length
      cases zero
  | cons entry entries ih =>
      obtain ⟨code, codes, rfl⟩ := List.exists_cons_of_length_eq_add_one length
      by_cases here : code = 0
      · subst here
        rw [updateCalls_fed_zero] at returned
        exact (updateCalls_after_ok (Nat.succ.inj length) rfl returned).2
      · rw [updateCalls_fed_failed here before] at returned
        have later : 0 ∈ codes := by
          rcases List.mem_cons.mp zero with same | later
          · exact absurd same.symm here
          · exact later
        have still : (response.failed code).status = .error := before
        exact ih (Nat.succ.inj length) still returned later

/-- Whatever `migrate_relay_cpus` returns for the entries of an update, the response tells it
exactly if there are entries and all of them fare alike.
-/
theorem update_reports_entries_iff {pc : CoreSchedRequest} (update : pc.op = .update)
    (valid : validateCoreSchedRequest settings pc = true)
    (length : results.length = pc.relayCpuMap.length)
    : ReportsEveryEntry results ((handleCoreSchedCalls settings pc).fed results)
      ↔ results ≠ []
        ∧ ((∀ code ∈ results, code = 0) ∨ ∀ code ∈ results, code ≠ 0) := by
  have loop : handleCoreSchedCalls settings pc = updateCalls .initial pc.relayCpuMap := by
    simp [handleCoreSchedCalls, valid, update]
  rw [loop]
  constructor
  · rintro ⟨response, returned, good, bad⟩
    constructor
    · rintro rfl
      rw [updateCalls_zeros length nofun] at returned
      cases returned
      exact absurd (good nofun).1 (by decide)
    · by_contra mixed
      rw [not_or] at mixed
      obtain ⟨failed, mixed⟩ := mixed
      push Not at mixed
      obtain ⟨code, member, rfl⟩ := mixed
      have ok := updateCalls_ok_of_zero length rfl returned member
      rw [(bad failed).1] at ok
      cases ok
  · rintro ⟨some, zeros | failures⟩
    · refine ⟨_, updateCalls_zeros length zeros, fun _ => ?_, fun failed => absurd zeros failed⟩
      rw [if_neg some]
      exact ⟨rfl, rfl⟩
    · have first : CoreSchedResponse.initial.status = .error := rfl
      obtain ⟨response, returned, status, last⟩ := updateCalls_failures length failures first
      have final := List.getLast?_eq_some_getLast some
      have member := List.getLast_mem some
      generalize results.getLast some = code at final member
      refine ⟨response, returned, fun zeros => ?_, fun _ => ⟨status, code, member, ?_⟩⟩
      · exact absurd (zeros code member) (failures code member)
      · rw [final, Option.some_or] at last
        exact ⟨failures code member, last⟩

/-- An update with three entries. -/
def threeUpdates : CoreSchedRequest := ⟨.update, [⟨0, 0, 1⟩, ⟨0, 1, 0⟩, ⟨0, 5, 1⟩]⟩

/-- Witness: three entries that all fail, with different codes, and three that all succeed. -/
theorem uniform_update_reported
    : ReportsEveryEntry [-1, -7, -2]
        ((handleCoreSchedCalls twoWorkers threeUpdates).fed [-1, -7, -2])
      ∧ ReportsEveryEntry [0, 0, 0]
        ((handleCoreSchedCalls twoWorkers threeUpdates).fed [0, 0, 0]) := by
  have valid : validateCoreSchedRequest twoWorkers threeUpdates = true := by decide
  constructor
  · exact (update_reports_entries_iff rfl valid rfl).mpr ⟨by decide, Or.inr (by decide)⟩
  · exact (update_reports_entries_iff rfl valid rfl).mpr ⟨by decide, Or.inl (by decide)⟩

/-- An entry fails and the next one succeeds: the response says OK. -/
theorem failure_before_success_lost
    : ¬ ∀ (settings : Settings) (pc : CoreSchedRequest) (results : List Int),
        pc.op = .update
        → validateCoreSchedRequest settings pc = true
        → results.length = pc.relayCpuMap.length
        → ReportsEveryEntry results ((handleCoreSchedCalls settings pc).fed results) := by
  intro claim
  obtain ⟨response, returned, _, bad⟩ := claim twoWorkers
    ⟨.update, [⟨0, 0, 0⟩, ⟨0, 1, 1⟩]⟩ [-1, 0] rfl (by decide) rfl
  have first : CoreSchedResponse.initial.status = .error := rfl
  have lost : response.status = .ok :=
    updateCalls_ok_of_zero rfl first returned (by decide)
  rw [(bad (by decide)).1] at lost
  cases lost

end Status

end VirtioForwarder
