import VirtioForwarder.Control.Attach

/-! A relay is moved to other CPUs by the core scheduler while another thread removes its guest
or its VF. For each side of the relay a window stands open from the moment at which the move
has seen the side in use until it has written the new CPU.
-/

namespace VirtioForwarder

open Program

/-- The sides of a relay, each with a worker. -/
inductive Side
  | guest
  | vf
  deriving DecidableEq, Repr

/-- The side is in use: the guest is `VIRTIO_READY`, the VF `DPDK_ADDED` or `DPDK_READY`. -/
def Side.Used : Side → Relay → Prop
  | .guest, relay => relay.vio.state = .ready
  | .vf, relay => relay.Active

/-- `vio2vf_cpu` or `vf2vio_cpu`. -/
def Side.cpu : Side → Relay → Int
  | .guest, relay => relay.vio.vio2vfCpu
  | .vf, relay => relay.dpdk.vf2vioCpu

/-- The read of the CPU of a side. -/
def Side.cpuField : Side → Field
  | .guest => .vio2vfCpu
  | .vf => .vf2vioCpu

/-- The assignment to the CPU of a side. -/
def Side.setCpu : Side → Int → Write
  | .guest => .vio2vfCpu
  | .vf => .vf2vioCpu

/-- How far a move of one side has come: not begun or over, one of the two states of a VF in use
excluded, the side seen in use, its CPU seen to be another one.
-/
inductive Window
  | closed
  | asked
  | checked
  | moving
  deriving DecidableEq, Repr

/-- The move will still write the CPU, or may. -/
def Window.Open : Window → Prop
  | .checked | .moving => True
  | .closed | .asked => False

instance (window : Window) : Decidable window.Open :=
  match window with
  | .checked | .moving => .isTrue trivial
  | .closed | .asked => .isFalse id

/-- The CPU is read, first to compare it and then to keep it. -/
def Window.compare (window : Window) (same : Bool) : Window :=
  match window with
  | .checked => if same then .closed else .moving
  | .closed | .asked | .moving => window

/-- The state of the VF is read, first for `DPDK_ADDED` and then for `DPDK_READY`. -/
def Window.askVf (window : Window) (state : DpdkState) : Window :=
  match window with
  | .asked => if state = .ready then .checked else .closed
  | .closed | .checked | .moving => if state = .added then .checked else .asked

/-- The windows of the two sides. -/
abbrev Windows := Side → Window

/-- What the accesses of a migration do to its windows. -/
def watchMigration (op : Op) (i : Instr) (world : World) (windows : Windows) : Windows :=
  match op, i with
  | .migrateRelayCpus id _ _, .read .vioState =>
      Function.update windows .guest
        (if (world.relays id).vio.state = .ready then .checked else .closed)
  | .migrateRelayCpus id _ _, .read .dpdkState =>
      Function.update windows .vf ((windows .vf).askVf (world.relays id).dpdk.state)
  | .migrateRelayCpus id newVirtio2vfCpu _, .read .vio2vfCpu =>
      Function.update windows .guest
        ((windows .guest).compare ((world.relays id).vio.vio2vfCpu = newVirtio2vfCpu))
  | .migrateRelayCpus id _ newVf2virtioCpu, .read .vf2vioCpu =>
      Function.update windows .vf
        ((windows .vf).compare ((world.relays id).dpdk.vf2vioCpu = newVf2virtioCpu))
  | .migrateRelayCpus _ _ _, .write (.vio2vfCpu _) => Function.update windows .guest .closed
  | .migrateRelayCpus _ _ _, .write (.vf2vioCpu _) => Function.update windows .vf .closed
  | _, _ => windows

/-- The control operations with the windows of the migration. -/
def migrationSystem (settings : Settings)
    : System Op Instr Int World Abort (World × Windows) Event Int :=
  (controlSystem settings).ghosted watchMigration

/-- The core scheduler thread and the thread of the removal. -/
inductive MigrationThread
  | scheduler
  | remover
  deriving DecidableEq, Repr

/-- A configuration of the two threads. -/
abbrev MigrationConfig :=
  Config MigrationThread Op Instr Int World Abort (World × Windows) Int

/-- A removal of the guest or of the VF of relay `w`. -/
def Op.Removes (w : Nat) : Op → Prop
  | .removeVirtio id | .removeVf2 _ id _ => id = w
  | .addVf2 _ _ _ | .bondAdd _ _ _ | .addVirtio _ _ | .migrateRelayCpus _ _ _ => False

/-- A migration and a removal begin. -/
def migrating (settings : Settings) (w : Nat) (newVirtio2vfCpu newVf2virtioCpu : Int)
    (removal : Op) (world : World)
    : MigrationConfig where
  state := (world, fun _ => .closed)
  running
    | .scheduler =>
        (.migrateRelayCpus w newVirtio2vfCpu newVf2virtioCpu,
          (Op.migrateRelayCpus w newVirtio2vfCpu newVf2virtioCpu).code settings)
    | .remover => (removal, removal.code settings)

/-- The workers answer: no removal of a VF gives up. `virtio_forwarder_remove_virtio` goes on in
any case.
-/
def answeredRemovals : Policy MigrationThread Op Instr Int (World × Windows) where
  instr op i _ _ := i = .logTimeout → ∃ id, op = .removeVirtio id
  call _ _ _ := False

/-- In addition, a removal clears the CPU of a side only while the window of the migration is
not open there.
-/
def orderlyMigrations : Policy MigrationThread Op Instr Int (World × Windows) where
  instr op i answer s :=
    answeredRemovals.instr op i answer s
    ∧ ∀ side : Side, i = .write (side.setCpu (-1)) → ¬ (s.2 side).Open
  call _ _ _ := False

-----------------------------------------------------------------------------------------
-- Views
-----------------------------------------------------------------------------------------

/-- What the two threads know of a side. -/
structure SideView where
  used : Prop
  cpu : Int
  window : Window

/-- The views of both sides. -/
abbrev Views := Side → SideView

/-- The sides of relay `w`. -/
def viewsOf (w : Nat) (s : World × Windows) : Views :=
  fun side => ⟨side.Used (s.1.relays w), side.cpu (s.1.relays w), s.2 side⟩

/-- A side that is in use or about to be moved has a worker. -/
def SideView.Staffed (view : SideView) : Prop :=
  view.used ∨ view.window.Open → CpuIndex view.cpu

/-- A side that is not in use has no worker and will get none. -/
def SideView.Cleared (view : SideView) : Prop :=
  ¬ view.used → view.cpu = -1 ∧ ¬ view.window.Open

/-- What the migration leaves of a side. -/
structure SideView.Moved (before after : SideView) : Prop where
  used : after.used ↔ before.used
  index : CpuIndex before.cpu → CpuIndex after.cpu
  unused : ¬ before.used → ¬ before.window.Open → after.cpu = before.cpu ∧ ¬ after.window.Open

/-- What the removal leaves of a side. -/
structure SideView.Spared (before after : SideView) : Prop where
  window : after.window = before.window
  cpu : before.window.Open → after.cpu = before.cpu

theorem SideView.Moved.refl (view : SideView) : view.Moved view :=
  ⟨Iff.rfl, id, fun _ closed => ⟨rfl, closed⟩⟩

theorem SideView.Moved.trans {first middle last : SideView} (hl : first.Moved middle)
    (hr : middle.Moved last)
    : first.Moved last := by
  refine ⟨hr.used.trans hl.used, fun index => hr.index (hl.index index), fun unused closed => ?_⟩
  obtain ⟨same, stillClosed⟩ := hl.unused unused closed
  obtain ⟨same', closed'⟩ := hr.unused (fun used => unused (hl.used.mp used)) stillClosed
  exact ⟨same'.trans same, closed'⟩

theorem SideView.Spared.refl (view : SideView) : view.Spared view := ⟨rfl, fun _ => rfl⟩

theorem SideView.Spared.trans {first middle last : SideView} (hl : first.Spared middle)
    (hr : middle.Spared last)
    : first.Spared last := by
  refine ⟨hr.window.trans hl.window, fun opened => ?_⟩
  exact (hr.cpu (by rwa [hl.window])).trans (hl.cpu opened)

theorem SideView.Moved.cleared {before after : SideView} (moved : before.Moved after)
    (h : before.Cleared)
    : after.Cleared := by
  intro unused
  have unused' : ¬ before.used := fun used => unused (moved.used.mpr used)
  obtain ⟨cpu, closed⟩ := h unused'
  obtain ⟨same, closed'⟩ := moved.unused unused' closed
  exact ⟨same.trans cpu, closed'⟩

/-- Accesses to other fields do not change the views. -/
theorem viewsOf_of_sameControl {w : Nat} {s s' : World × Windows}
    (same : (s.1.relays w).SameControl (s'.1.relays w)) (windows : s'.2 = s.2)
    : viewsOf w s' = viewsOf w s := by
  funext side
  cases side with
  | guest =>
      simp only [viewsOf, Side.Used, Side.cpu, same.vioState, same.vio2vfCpu, windows]
  | vf =>
      simp only [viewsOf, Side.Used, Side.cpu, Relay.Active, same.dpdkState, same.vf2vioCpu,
        windows]

/-- The workers do not change the views: a state in use is neither left nor entered by them. -/
theorem viewsOf_of_event {settings : Settings} {w : Nat} {event : Event} {s s' : World × Windows}
    (happened : (migrationSystem settings).env event s = some s')
    : viewsOf w s' = viewsOf w s := by
  obtain ⟨world, stepped, rfl⟩ := Option.map_eq_some_iff.mp happened
  have served := Event.served stepped w
  have guest : (world.relays w).vio.state = .ready ↔ (s.1.relays w).vio.state = .ready := by
    have := served.vioState
    grind
  have vf : (world.relays w).Active ↔ (s.1.relays w).Active := by
    have := served.dpdkState
    unfold Relay.Active
    grind
  funext side
  cases side with
  | guest => simp only [viewsOf, Side.Used, Side.cpu, guest, served.vio2vfCpu]
  | vf => simp only [viewsOf, Side.Used, Side.cpu, vf, served.vf2vioCpu]

end VirtioForwarder
