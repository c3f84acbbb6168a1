import VirtioForwarder.Library.Mutex
import VirtioForwarder.Relay.State

/-! The spinlocks of one relay and the blocks of code that access its packet caches.
Any number of threads run `relay_vm2vf_traffic`, `relay_vf2vm_traffic` and the pool swap of
`migrate_mempool`, one lock operation or block boundary at a time.
-/

namespace VirtioForwarder

open Mutex

/-- `vio.sl` and `dpdk.sl`. -/
inductive Lock
  | vio
  | dpdk
  deriving DecidableEq, Repr

/-- The code that a thread without a lock can start on the relay. -/
inductive Routine
  | vm2vf
  | vf2vm
  | migrate
  deriving DecidableEq, Repr

instance (p : Routine → Prop) [DecidablePred p] : Decidable (∀ routine, p routine) :=
  decidable_of_iff (p .vm2vf ∧ p .vf2vm ∧ p .migrate) {
    mp h routine := by
      cases routine
      exacts [h.1, h.2.1, h.2.2]
    mpr h := ⟨h .vm2vf, h .vf2vm, h .migrate⟩
  }

/-- Where a thread is in the code of the relay. -/
inductive Pc
  | idle
  -- `worker_func`, "Forward VM->VF", with `worker_remove_vf`
  | vm2vfTraffic
  | vm2vfHandshake
  | vm2vfAlone
  | vm2vfRemoval
  | removeVfSpin
  | removeVfRx
  | removeVfUnlock
  | removeVfTx
  | removeVfSignal
  | vm2vfUnlock
  -- `worker_func`, "Forward VF->VM", with `worker_remove_virtio`
  | vf2vmTraffic
  | vf2vmRemoval
  | removeVirtioRx
  | removeVirtioSpin
  | removeVirtioTx
  | removeVirtioUnlock
  | removeVirtioSignal
  | vf2vmHandshake
  | vf2vmAlone
  | vf2vmUnlock
  -- `migrate_mempool`, behind `alloc_mempool`
  | migrateAssertState
  | migrateAssert
  | migrateSpinVio
  | migrateSpinDpdk
  | migrateUnlockDpdk
  | migrateUnlockVio
  deriving DecidableEq, Repr

/-- Inside a block that reads or writes `rx_pkts`, `rx_pkts_avail` or `rx_pkts_used`; one of
them is the second assertion of `migrate_mempool`.
-/
def Pc.inRx : Pc → Bool
  | .vf2vmTraffic | .removeVfRx | .removeVirtioRx | .migrateAssert => true
  | _ => false

/-- Inside a block that reads or writes `tx_pkts`, `tx_pkts_avail` or `tx_pkts_used`. -/
def Pc.inTx : Pc → Bool
  | .vm2vfTraffic | .removeVfTx | .removeVirtioTx => true
  | _ => false

/-- The lock that the next operation of the thread releases. -/
def Pc.releases : Pc → Option Lock
  | .removeVfUnlock | .vf2vmUnlock | .migrateUnlockDpdk => some .dpdk
  | .vm2vfUnlock | .removeVirtioUnlock | .migrateUnlockVio => some .vio
  | _ => none

/-- The locks and states of one relay, and where each thread is. -/
structure LockState (ι : Type) where
  owners : Owners ι Lock
  pc : ι → Pc
  vioState : VioState
  dpdkState : DpdkState

variable {ι : Type}

/-- Nobody uses the relay. -/
def LockState.initial : LockState ι :=
  ⟨fun _ => none, fun _ => .idle, .uninit, .uninit⟩

section Steps

variable [DecidableEq ι]

/-- The thread goes on at `pc`. -/
def LockState.goto (s : LockState ι) (thread : ι) (pc : Pc) : LockState ι :=
  { s with pc := Function.update s.pc thread pc }

/-- `rte_spinlock_trylock`: go on at `taken` with the lock, or at `busy` without it. -/
def LockState.trylock (s : LockState ι) (thread : ι) (lock : Lock) (taken busy : Pc)
    : LockState ι :=
  match Mutex.tryLock s.owners lock thread with
  | (true, owners) => { s with owners := owners }.goto thread taken
  | (false, owners) => { s with owners := owners }.goto thread busy

/-- `rte_spinlock_unlock`. -/
def LockState.unlock (s : LockState ι) (thread : ι) (lock : Lock) (next : Pc) : LockState ι :=
  { s with owners := Mutex.unlock s.owners lock }.goto thread next

/-- The next step of a thread. A thread without a lock starts `routine`; `alone` is the
answer of the code's test whether the other direction has no CPU.
-/
def LockState.step (s : LockState ι) (thread : ι) (routine : Routine) (alone : Bool)
    : LockState ι :=
  match s.pc thread with
  | .idle =>
      match routine with
      | .vm2vf => s.trylock thread .vio .vm2vfTraffic .idle
      | .vf2vm => s.trylock thread .dpdk .vf2vmTraffic .idle
      | .migrate => s.goto thread .migrateAssertState
  -- `relay_vm2vf_traffic`: the virtio handshake, then a VF removal if it is due
  | .vm2vfTraffic => s.goto thread .vm2vfHandshake
  | .vm2vfHandshake =>
      if s.vioState = .removing1 then
        { s with vioState := .removing2 }.goto thread .vm2vfAlone
      else s.goto thread .vm2vfRemoval
  | .vm2vfAlone =>
      { s with vioState := if alone then .uninit else s.vioState }.goto thread .vm2vfRemoval
  | .vm2vfRemoval =>
      s.goto thread (if s.dpdkState = .removing2 then .removeVfSpin else .vm2vfUnlock)
  -- `while (rte_spinlock_trylock(&relay->dpdk.sl));` goes on as long as it takes the lock
  | .removeVfSpin => s.trylock thread .dpdk .removeVfSpin .removeVfRx
  | .removeVfRx => s.goto thread .removeVfUnlock
  | .removeVfUnlock => s.unlock thread .dpdk .removeVfTx
  | .removeVfTx => s.goto thread .removeVfSignal
  | .removeVfSignal => { s with dpdkState := .uninit }.goto thread .vm2vfUnlock
  | .vm2vfUnlock => s.unlock thread .vio .idle
  -- `relay_vf2vm_traffic`: a virtio removal if it is due, then the VF handshake
  | .vf2vmTraffic => s.goto thread .vf2vmRemoval
  | .vf2vmRemoval =>
      s.goto thread (if s.vioState = .removing2 then .removeVirtioRx else .vf2vmHandshake)
  | .removeVirtioRx => s.goto thread .removeVirtioSpin
  | .removeVirtioSpin => s.trylock thread .vio .removeVirtioSpin .removeVirtioTx
  | .removeVirtioTx => s.goto thread .removeVirtioUnlock
  | .removeVirtioUnlock => s.unlock thread .vio .removeVirtioSignal
  | .removeVirtioSignal => { s with vioState := .uninit }.goto thread .vf2vmHandshake
  | .vf2vmHandshake =>
      if s.dpdkState = .removing1 then
        { s with dpdkState := .removing2 }.goto thread .vf2vmAlone
      else s.goto thread .vf2vmUnlock
  | .vf2vmAlone =>
      { s with dpdkState := if alone then .uninit else s.dpdkState }.goto thread .vf2vmUnlock
  | .vf2vmUnlock => s.unlock thread .dpdk .idle
  -- the assertions of `migrate_mempool` read `dpdk.state` and `rx_pkts_avail` without a lock
  | .migrateAssertState => s.goto thread .migrateAssert
  | .migrateAssert => s.goto thread .migrateSpinVio
  | .migrateSpinVio => s.trylock thread .vio .migrateSpinDpdk .migrateSpinVio
  | .migrateSpinDpdk => s.trylock thread .dpdk .migrateUnlockDpdk .migrateSpinDpdk
  | .migrateUnlockDpdk => s.unlock thread .dpdk .migrateUnlockVio
  | .migrateUnlockVio => s.unlock thread .vio .idle

/-- Every interleaving of threads that start the routines allotted to them by `may`, with
the control threads' writes of the two states; only workers write `REMOVING2`. Each step of
a thread satisfies `allowed`.
-/
inductive LockRun (may : ι → Routine → Prop) (allowed : LockState ι → ι → Routine → Prop)
    : LockState ι → Prop
  | start : LockRun may allowed .initial
  | thread {s : LockState ι} (run : LockRun may allowed s) (thread : ι) (routine : Routine)
    (alone : Bool) (allotted : s.pc thread = .idle → may thread routine)
    (ok : allowed s thread routine)
    : LockRun may allowed (s.step thread routine alone)
  | control {s : LockState ι} (run : LockRun may allowed s) (vioState : VioState)
    (dpdkState : DpdkState) (vio : vioState = .removing2 → s.vioState = .removing2)
    (dpdk : dpdkState = .removing2 → s.dpdkState = .removing2)
    : LockRun may allowed { s with vioState := vioState, dpdkState := dpdkState }

end Steps

/-- At most one thread is inside a block that accesses a cache, and a thread that is about to
release a lock holds it.
-/
structure LockState.Exclusive (s : LockState ι) : Prop where
  rx
    : ∀ first second, (s.pc first).inRx = true → (s.pc second).inRx = true → first = second
  tx
    : ∀ first second, (s.pc first).inTx = true → (s.pc second).inTx = true → first = second
  release
    : ∀ thread lock, (s.pc thread).releases = some lock → s.owners lock = some thread

/-- A cleanup function that tries its lock finds it free, or in its own hands on the second
try.
-/
def CleanupFindsFreeLock (s : LockState ι) (thread : ι) : Prop :=
  (s.pc thread = .removeVfSpin → s.owners .dpdk = none ∨ s.owners .dpdk = some thread)
  ∧ (s.pc thread = .removeVirtioSpin → s.owners .vio = none ∨ s.owners .vio = some thread)

instance [DecidableEq ι] (s : LockState ι) (thread : ι)
    : Decidable (CleanupFindsFreeLock s thread) :=
  inferInstanceAs (Decidable (_ ∧ _))

/-- The next step takes the thread into a block of the RX cache, other than the assertion. -/
def LockState.EntersRx (s : LockState ι) (thread : ι) (routine : Routine) : Prop :=
  s.pc thread = .idle ∧ routine = .vf2vm ∧ s.owners .dpdk = none
  ∨ s.pc thread = .vf2vmRemoval ∧ s.vioState = .removing2
  ∨ s.pc thread = .removeVfSpin ∧ s.owners .dpdk ≠ none

/-- A thread that comes to the assertion finds no thread in a block of the RX cache, and a
thread that enters such a block finds none at the assertion.
-/
def AssertionUndisturbed (s : LockState ι) (thread : ι) (routine : Routine) : Prop :=
  (s.pc thread = .migrateAssertState → ∀ other, (s.pc other).inRx = false)
  ∧ (s.EntersRx thread routine → ∀ other, s.pc other ≠ .migrateAssert)

/-- The condition on a step: the cleanup functions find their lock free, and the assertion is
evaluated apart from the blocks of the RX cache.
-/
def Undisturbed (s : LockState ι) (thread : ι) (routine : Routine) : Prop :=
  CleanupFindsFreeLock s thread ∧ AssertionUndisturbed s thread routine

instance [DecidableEq ι] (s : LockState ι) (thread : ι) (routine : Routine)
    : Decidable (s.EntersRx thread routine) :=
  inferInstanceAs (Decidable (_ ∨ _ ∨ _))

instance (s : LockState Routine) (thread routine : Routine)
    : Decidable (Undisturbed s thread routine) :=
  inferInstanceAs (Decidable (_ ∧ (_ → _) ∧ (_ → _)))

/-- The locks that a thread holds at each place, the spinning places aside. -/
def Pc.needs (pc : Pc) (lock : Lock) : Bool :=
  match pc with
  | .idle | .migrateAssertState | .migrateAssert | .migrateSpinVio => false
  | .vm2vfTraffic | .vm2vfHandshake | .vm2vfAlone | .vm2vfRemoval | .removeVfSpin
  | .removeVfTx | .removeVfSignal | .vm2vfUnlock | .migrateSpinDpdk | .migrateUnlockVio =>
      lock = .vio
  | .vf2vmTraffic | .vf2vmRemoval | .removeVirtioRx | .removeVirtioSpin
  | .removeVirtioSignal | .vf2vmHandshake | .vf2vmAlone | .vf2vmUnlock =>
      lock = .dpdk
  | .removeVfRx | .removeVfUnlock | .removeVirtioTx | .removeVirtioUnlock
  | .migrateUnlockDpdk => true

/-- Every thread holds the locks that its place relies on. -/
def LockState.Disciplined (s : LockState ι) : Prop :=
  Respected s.owners fun thread lock => (s.pc thread).needs lock = true

theorem Pc.needs_of_inRx {pc : Pc} (h : pc.inRx = true)
    : pc = .migrateAssert ∨ pc.needs .dpdk = true := by
  cases pc <;> first | exact Or.inl rfl | exact Or.inr rfl | cases h

theorem Pc.needs_of_inTx {pc : Pc} (h : pc.inTx = true) : pc.needs .vio = true := by
  cases pc <;> first | rfl | cases h

theorem Pc.needs_of_releases {pc : Pc} {lock : Lock} (h : pc.releases = some lock)
    : pc.needs lock = true := by
  cases pc <;> cases h <;> rfl

/-- A thread at the assertion is the only one in a block of the RX cache. -/
def LockState.AssertsAlone (s : LockState ι) : Prop :=
  ∀ thread other, s.pc thread = .migrateAssert → (s.pc other).inRx = true → other = thread

theorem LockState.Disciplined.release {s : LockState ι} (h : s.Disciplined) (thread : ι)
    (lock : Lock) (releases : (s.pc thread).releases = some lock)
    : s.owners lock = some thread :=
  h thread lock (Pc.needs_of_releases releases)

/-- The discipline implies exclusive access, because both caches have a lock, but for the
assertion, which has none.
-/
theorem LockState.Disciplined.exclusive {s : LockState ι} (h : s.Disciplined)
    (alone : s.AssertsAlone)
    : s.Exclusive where
  rx first second hl hr := by
    rcases Pc.needs_of_inRx hl with asserts | needsFirst
    · exact (alone first second asserts hr).symm
    · rcases Pc.needs_of_inRx hr with asserts | needsSecond
      · exact alone second first asserts hl
      · exact h.unique needsFirst needsSecond
  tx _ _ first second := h.unique (Pc.needs_of_inTx first) (Pc.needs_of_inTx second)
  release := h.release

/-- The two states do not matter for the discipline. -/
theorem LockState.Disciplined.setStates {s : LockState ι} (h : s.Disciplined) (vioState : VioState)
    (dpdkState : DpdkState)
    : ({ s with vioState := vioState, dpdkState := dpdkState } : LockState ι).Disciplined :=
  h

section Discipline

variable [DecidableEq ι] {s : LockState ι} {thread : ι} {pc : Pc}

/-- After a jump every other thread relies on the same locks. -/
theorem needs_goto {next : Pc} {t : ι} {lock : Lock}
    (need : ((s.goto thread next).pc t).needs lock = true)
    : t = thread ∧ next.needs lock = true ∨ t ≠ thread ∧ (s.pc t).needs lock = true := by
  by_cases same : t = thread
  · subst same
    simp only [LockState.goto, Function.update_self] at need
    exact Or.inl ⟨rfl, need⟩
  · simp only [LockState.goto, Function.update_of_ne same] at need
    exact Or.inr ⟨same, need⟩

/-- A jump to a place that relies on no further lock keeps the discipline. -/
theorem LockState.Disciplined.goto (h : s.Disciplined) (here : s.pc thread = pc) {next : Pc}
    (fewer : ∀ lock, next.needs lock = true → pc.needs lock = true)
    : (s.goto thread next).Disciplined := by
  refine Respected.mono h fun t lock need => Or.inl ?_
  rcases needs_goto need with ⟨rfl, needed⟩ | ⟨_, needed⟩
  · rw [here]
    exact fewer lock needed
  · exact needed

/-- Trying a lock keeps the discipline if the place reached with the lock relies on it at
most, and the place reached without it relies on locks that the thread holds anyway.
-/
theorem LockState.Disciplined.trylock (h : s.Disciplined) (here : s.pc thread = pc)
    {lock : Lock} {taken busy : Pc}
    (fewer : ∀ l, taken.needs l = true → pc.needs l = true ∨ l = lock)
    (failed : ∀ holder, s.owners lock = some holder
      → ∀ l, busy.needs l = true → pc.needs l = true ∨ s.owners l = some thread)
    : (s.trylock thread lock taken busy).Disciplined := by
  unfold LockState.trylock
  cases held : s.owners lock with
  | none =>
      rw [tryLock_free thread held]
      refine Respected.take h held fun t l need => ?_
      rcases needs_goto need with ⟨rfl, needed⟩ | ⟨_, needed⟩
      · rw [here]
        exact (fewer l needed).imp_right fun same => ⟨rfl, same⟩
      · exact Or.inl needed
  | some holder =>
      rw [tryLock_taken thread held]
      refine Respected.mono h fun t l need => ?_
      rcases needs_goto need with ⟨rfl, needed⟩ | ⟨_, needed⟩
      · rw [here]
        exact failed holder held l needed
      · exact Or.inl needed

/-- Releasing a lock that the thread relies on keeps the discipline. -/
theorem LockState.Disciplined.unlock (h : s.Disciplined) (here : s.pc thread = pc)
    {lock : Lock} {next : Pc} (relied : pc.needs lock = true)
    (fewer : ∀ l, next.needs l = true → pc.needs l = true ∧ l ≠ lock)
    : (s.unlock thread lock next).Disciplined := by
  refine Respected.release h (here ▸ relied : (s.pc thread).needs lock = true) fun t l need => ?_
  rcases needs_goto need with ⟨rfl, needed⟩ | ⟨other, needed⟩
  · rw [here]
    exact ⟨(fewer l needed).1, fun _ => (fewer l needed).2⟩
  · exact ⟨needed, fun same => absurd same other⟩

/-- Every step keeps the discipline, if a cleanup function that tries its lock does not find
it in the hands of another thread: the loop then ends because the thread itself holds it.
-/
theorem LockState.Disciplined.step (h : s.Disciplined) (free : CleanupFindsFreeLock s thread)
    (routine : Routine) (alone : Bool)
    : (s.step thread routine alone).Disciplined := by
  unfold LockState.step
  cases here : s.pc thread with
  | idle =>
      cases routine with
      | vm2vf => exact h.trylock here (by rintro ⟨⟩ <;> decide) fun _ _ _ => Or.inl
      | vf2vm => exact h.trylock here (by rintro ⟨⟩ <;> decide) fun _ _ _ => Or.inl
      | migrate => exact h.goto here fun _ => id
  | vm2vfTraffic => exact h.goto here fun _ => id
  | vm2vfHandshake =>
      dsimp only
      split
      · exact (h.setStates _ _).goto here fun _ => id
      · exact h.goto here fun _ => id
  | vm2vfAlone => exact (h.setStates _ _).goto here fun _ => id
  | vm2vfRemoval =>
      dsimp only
      split
      · exact h.goto here fun _ => id
      · exact h.goto here fun _ => id
  | removeVfSpin =>
      refine h.trylock here (by rintro ⟨⟩ <;> decide) fun holder held l _ => ?_
      cases l with
      | vio => exact Or.inl rfl
      | dpdk => exact Or.inr ((free.1 here).resolve_left (by simp [held]))
  | removeVfRx => exact h.goto here fun _ => id
  | removeVfUnlock => exact h.unlock here rfl (by rintro ⟨⟩ <;> decide)
  | removeVfTx => exact h.goto here fun _ => id
  | removeVfSignal => exact (h.setStates _ _).goto here fun _ => id
  | vm2vfUnlock => exact h.unlock here rfl (by rintro ⟨⟩ <;> decide)
  | vf2vmTraffic => exact h.goto here fun _ => id
  | vf2vmRemoval =>
      dsimp only
      split
      · exact h.goto here fun _ => id
      · exact h.goto here fun _ => id
  | removeVirtioRx => exact h.goto here fun _ => id
  | removeVirtioSpin =>
      refine h.trylock here (by rintro ⟨⟩ <;> decide) fun holder held l _ => ?_
      cases l with
      | vio => exact Or.inr ((free.2 here).resolve_left (by simp [held]))
      | dpdk => exact Or.inl rfl
  | removeVirtioTx => exact h.goto here fun _ => id
  | removeVirtioUnlock => exact h.unlock here rfl (by rintro ⟨⟩ <;> decide)
  | removeVirtioSignal => exact (h.setStates _ _).goto here fun _ => id
  | vf2vmHandshake =>
      dsimp only
      split
      · exact (h.setStates _ _).goto here fun _ => id
      · exact h.goto here fun _ => id
  | vf2vmAlone => exact (h.setStates _ _).goto here fun _ => id
  | vf2vmUnlock => exact h.unlock here rfl (by rintro ⟨⟩ <;> decide)
  | migrateAssertState => exact h.goto here fun _ => id
  | migrateAssert => exact h.goto here fun _ => id
  | migrateSpinVio => exact h.trylock here (by rintro ⟨⟩ <;> decide) fun _ _ _ => Or.inl
  | migrateSpinDpdk => exact h.trylock here (by rintro ⟨⟩ <;> decide) fun _ _ _ => Or.inl
  | migrateUnlockDpdk => exact h.unlock here rfl (by rintro ⟨⟩ <;> decide)
  | migrateUnlockVio => exact h.unlock here rfl (by rintro ⟨⟩ <;> decide)

end Discipline

section Assertion

variable [DecidableEq ι] {s : LockState ι} {thread : ι}

theorem LockState.goto_pc (s : LockState ι) (next : Pc) : (s.goto thread next).pc thread = next := by
  simp only [LockState.goto, Function.update_self]

theorem LockState.trylock_pc (lock : Lock) (taken busy : Pc)
    : (s.trylock thread lock taken busy).pc thread
      = if s.owners lock = none then taken else busy := by
  unfold LockState.trylock
  cases held : s.owners lock with
  | none =>
      rw [tryLock_free thread held]
      exact LockState.goto_pc _ taken
  | some holder =>
      rw [tryLock_taken thread held]
      exact LockState.goto_pc _ busy

/-- A step leaves the other threads where they are. -/
theorem LockState.step_pc_of_ne {other : ι} (different : other ≠ thread) (routine : Routine)
    (alone : Bool)
    : (s.step thread routine alone).pc other = s.pc other := by
  have jump (s : LockState ι) (next : Pc) : (s.goto thread next).pc other = s.pc other :=
    Function.update_of_ne different _ _
  have attempt (lock : Lock) (taken busy : Pc)
      : (s.trylock thread lock taken busy).pc other = s.pc other := by
    unfold LockState.trylock
    split <;> exact jump _ _
  unfold LockState.step
  cases s.pc thread with
  | idle => cases routine <;> first | exact attempt _ _ _ | exact jump _ _
  | vm2vfHandshake | vf2vmHandshake =>
      dsimp only
      split <;> exact jump _ _
  | removeVfSpin | removeVirtioSpin | migrateSpinVio | migrateSpinDpdk => exact attempt _ _ _
  | _ => exact jump _ _

/-- The ways into a block of the RX cache, by cases on the place. -/
theorem LockState.step_inRx {routine : Routine} {alone : Bool}
    (inside : ((s.step thread routine alone).pc thread).inRx = true)
    : s.EntersRx thread routine ∧ (s.step thread routine alone).pc thread ≠ .migrateAssert
      ∨ s.pc thread = .migrateAssertState := by
  unfold LockState.step at inside ⊢
  unfold LockState.EntersRx
  cases here : s.pc thread with
  | idle =>
      cases routine with
      | vm2vf =>
          simp only [here, LockState.trylock_pc] at inside
          split at inside <;> cases inside
      | vf2vm =>
          simp only [here, LockState.trylock_pc] at inside
          split at inside
          · rename_i free
            exact Or.inl ⟨Or.inl ⟨rfl, rfl, free⟩, by simp [LockState.trylock_pc, free]⟩
          · cases inside
      | migrate =>
          simp only [here, LockState.goto_pc] at inside
          cases inside
  | removeVfSpin =>
      simp only [here, LockState.trylock_pc] at inside
      split at inside
      · cases inside
      · rename_i taken
        exact Or.inl ⟨Or.inr (Or.inr ⟨rfl, taken⟩), by simp [LockState.trylock_pc, taken]⟩
  | removeVirtioSpin | migrateSpinVio | migrateSpinDpdk =>
      simp only [here, LockState.trylock_pc] at inside
      split at inside <;> cases inside
  | vf2vmRemoval =>
      simp only [here, LockState.goto_pc] at inside
      split at inside
      · rename_i due
        exact Or.inl ⟨Or.inr (Or.inl ⟨rfl, due⟩), by simp [LockState.goto_pc, due]⟩
      · cases inside
  | vm2vfRemoval =>
      simp only [here, LockState.goto_pc] at inside
      split at inside <;> cases inside
  | vm2vfHandshake | vf2vmHandshake =>
      simp only [here] at inside
      split at inside <;>
        · rw [LockState.goto_pc] at inside
          cases inside
  | migrateAssertState => exact Or.inr rfl
  | _ =>
      simp only [here, LockState.goto_pc, LockState.unlock] at inside
      cases inside

/-- A step that is undisturbed leaves a thread at the assertion alone. -/
theorem LockState.AssertsAlone.step (h : s.AssertsAlone) {routine : Routine}
    (apart : AssertionUndisturbed s thread routine) (alone : Bool)
    : (s.step thread routine alone).AssertsAlone := by
  intro asserting other asserts inside
  by_cases mine : asserting = thread
  · subst mine
    by_contra different
    have entered : ((s.step asserting routine alone).pc asserting).inRx = true := by
      rw [asserts]
      rfl
    rw [LockState.step_pc_of_ne different] at inside
    rcases LockState.step_inRx entered with ⟨_, elsewhere⟩ | first
    · exact elsewhere asserts
    · rw [apart.1 first other] at inside
      cases inside
  · rw [LockState.step_pc_of_ne mine] at asserts
    by_cases same : other = thread
    · subst same
      rcases LockState.step_inRx inside with ⟨enters, _⟩ | first
      · exact absurd asserts (apart.2 enters asserting)
      · have outside := apart.1 first asserting
        rw [asserts] at outside
        cases outside
    · rw [LockState.step_pc_of_ne same] at inside
      exact h asserting other asserts inside

end Assertion

section Runs

variable [DecidableEq ι] {may : ι → Routine → Prop} {allowed : LockState ι → ι → Routine → Prop}
  {s : LockState ι}

/-- Every run whose cleanup functions find their lock free is disciplined, by induction. -/
theorem LockRun.disciplined (run : LockRun may allowed s)
    (free : ∀ s thread routine, allowed s thread routine → CleanupFindsFreeLock s thread)
    : s.Disciplined := by
  induction run with
  | start => exact fun _ _ need => nomatch need
  | thread _ thread routine alone _ ok ih => exact ih.step (free _ _ _ ok) routine alone
  | control _ vioState dpdkState _ _ ih => exact ih.setStates vioState dpdkState

theorem LockRun.assertsAlone (run : LockRun may Undisturbed s) : s.AssertsAlone := by
  induction run with
  | start => exact fun _ _ asserts => nomatch asserts
  | thread _ thread routine alone _ ok ih => exact ih.step ok.2 alone
  | control _ _ _ _ _ ih => exact ih

/-- Exclusive access to the packet caches, for any number of threads: in every run in which
the cleanup functions find their lock free and the assertion of `migrate_mempool` is evaluated
apart from the blocks of the RX cache, at most one thread is inside a block that accesses a
cache, and no thread releases a lock it does not hold.
-/
theorem caches_exclusive_if_cleanup_finds_free_lock
    (run : LockRun may Undisturbed s)
    : s.Exclusive :=
  (run.disciplined fun _ _ _ ok => ok.1).exclusive run.assertsAlone

/-- The given threads take one step each, in turn, in their own routine. -/
def LockState.follow (routine : ι → Routine) (s : LockState ι) : List ι → LockState ι
  | [] => s
  | thread :: threads => (s.step thread (routine thread) false).follow routine threads

/-- Each of these steps is allowed. -/
def LockState.FollowAllowed (allowed : LockState ι → ι → Routine → Prop) (routine : ι → Routine)
    (s : LockState ι) : List ι → Prop
  | [] => True
  | thread :: threads =>
      allowed s thread (routine thread)
      ∧ (s.step thread (routine thread) false).FollowAllowed allowed routine threads

instance LockState.decidableFollow [∀ s t r, Decidable (allowed s t r)] (routine : ι → Routine)
    (s : LockState ι)
    : (threads : List ι) → Decidable (s.FollowAllowed allowed routine threads)
  | [] => .isTrue trivial
  | thread :: threads =>
      have := decidableFollow routine (s.step thread (routine thread) false) threads
      inferInstanceAs (Decidable (_ ∧ _))

theorem LockRun.follow (run : LockRun may allowed s) (routine : ι → Routine)
    (threads : List ι) (allotted : ∀ thread, may thread (routine thread))
    (ok : s.FollowAllowed allowed routine threads)
    : LockRun may allowed (s.follow routine threads) := by
  induction threads generalizing s with
  | nil => exact run
  | cons thread threads ih =>
      exact ih (run.thread thread (routine thread) false (fun _ => allotted thread) ok.1) ok.2

end Runs

/-- One worker for each direction, a thread in `migrate_mempool`, and a VF that is to be removed:
the assertions are evaluated first, the VF-to-VM worker passes the removal on in its iteration
of six steps and leaves the relay, then the other worker reaches the cleanup of the RX cache.
-/
theorem caches_exclusive_in_undisturbed_removal
    : ∃ s : LockState Routine,
        LockRun (fun thread routine => thread = routine) Undisturbed s
        ∧ s.pc .vm2vf = .removeVfRx
        ∧ s.pc .migrate = .migrateSpinVio
        ∧ s.Exclusive := by
  have removal : LockRun (fun thread routine => thread = routine) Undisturbed _ :=
    LockRun.start.control .ready .removing1 (by decide) (by decide)
  have run := removal.follow id
    (List.replicate 3 .migrate ++ List.replicate 6 .vf2vm ++ List.replicate 6 .vm2vf)
    (fun _ => rfl) (by decide)
  exact ⟨_, run, by decide, by decide, caches_exclusive_if_cleanup_finds_free_lock run⟩

/-- The same removal, but the VF-to-VM worker has begun its next iteration: the other worker
tries the lock once, finds it taken, and enters the cleanup of the RX cache all the same.
-/
theorem caches_shared_in_disturbed_removal
    : ¬ ∀ s : LockState Routine,
        LockRun (fun thread routine => thread = routine) (fun _ _ _ => True) s
        → s.Exclusive := by
  intro claim
  have removal : LockRun (fun thread routine => thread = routine) (fun _ _ _ => True) _ :=
    LockRun.start.control .ready .removing1 (by decide) (by decide)
  have run := removal.follow id (List.replicate 7 .vf2vm ++ List.replicate 5 .vm2vf)
    (fun _ => rfl) (by decide)
  have same := (claim _ run).rx .vm2vf .vf2vm (by decide) (by decide)
  cases same

end VirtioForwarder
