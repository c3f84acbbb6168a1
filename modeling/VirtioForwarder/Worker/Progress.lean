import VirtioForwarder.Worker.Locks

/-! Progress under the spinlocks of one relay.
Whoever waits for a lock waits for a thread that goes on, no thread leaves with a lock, and a
worker comes to the end of its block after a bounded number of its own steps, whatever the
other threads do.
-/

namespace VirtioForwarder

open Mutex

variable {ι : Type}

/-- The locks that a thread can hold at each place: those that it relies on, and in the loop of
a cleanup function also the one that it tries.
-/
def Pc.mayHold (pc : Pc) (lock : Lock) : Bool :=
  pc.needs lock || decide (pc = .removeVfSpin ∨ pc = .removeVirtioSpin)

/-- Only a thread whose place is behind the lock operation holds a lock. -/
def LockState.Accountable (s : LockState ι) : Prop :=
  ∀ lock thread, s.owners lock = some thread → (s.pc thread).mayHold lock = true

/-- The thread tries a lock of `migrate_mempool` that is taken. -/
def LockState.Waits (s : LockState ι) (thread : ι) : Prop :=
  s.pc thread = .migrateSpinVio ∧ s.owners .vio ≠ none
  ∨ s.pc thread = .migrateSpinDpdk ∧ s.owners .dpdk ≠ none

instance [DecidableEq ι] (s : LockState ι) (thread : ι) : Decidable (s.Waits thread) :=
  inferInstanceAs (Decidable (_ ∨ _))

/-- The thread is not in `migrate_mempool`. -/
def Pc.ofWorker : Pc → Bool
  | .migrateAssertState | .migrateAssert | .migrateSpinVio | .migrateSpinDpdk
  | .migrateUnlockDpdk | .migrateUnlockVio => false
  | _ => true

section Steps

variable [DecidableEq ι]

/-- The steps that a worker has before it at most, with the locks that it holds; the second
round of a loop that takes its lock is the last one.
-/
def Pc.stepsLeft (holds : Lock → Bool) : Pc → Nat
  | .vm2vfTraffic | .vf2vmTraffic => 11
  | .vm2vfHandshake | .vf2vmRemoval => 10
  | .vm2vfAlone | .removeVirtioRx => 9
  | .vm2vfRemoval => 8
  | .removeVirtioSpin => if holds .vio then 7 else 8
  | .removeVfSpin => if holds .dpdk then 6 else 7
  | .removeVirtioTx => 6
  | .removeVfRx | .removeVirtioUnlock => 5
  | .removeVfUnlock | .removeVirtioSignal => 4
  | .removeVfTx | .vf2vmHandshake => 3
  | .removeVfSignal | .vf2vmAlone => 2
  | .vm2vfUnlock | .vf2vmUnlock => 1
  | _ => 0

def LockState.stepsLeft (s : LockState ι) (thread : ι) : Nat :=
  (s.pc thread).stepsLeft fun lock => decide (s.owners lock = some thread)

/-- The runs of `LockRun` with the number of own steps that `worker` has taken since it was last
without a block to run.
-/
inductive SinceIdle (may : ι → Routine → Prop) (allowed : LockState ι → ι → Routine → Prop)
    (worker : ι)
    : LockState ι → Nat → Prop
  | start : SinceIdle may allowed worker .initial 0
  | own {s : LockState ι} {count : Nat} (run : SinceIdle may allowed worker s count)
    (routine : Routine) (alone : Bool) (allotted : s.pc worker = .idle → may worker routine)
    (ok : allowed s worker routine)
    : SinceIdle may allowed worker (s.step worker routine alone)
        (if (s.step worker routine alone).pc worker = .idle then 0 else count + 1)
  | other {s : LockState ι} {count : Nat} (run : SinceIdle may allowed worker s count)
    (thread : ι) (different : thread ≠ worker) (routine : Routine) (alone : Bool)
    (allotted : s.pc thread = .idle → may thread routine) (ok : allowed s thread routine)
    : SinceIdle may allowed worker (s.step thread routine alone) count
  | control {s : LockState ι} {count : Nat} (run : SinceIdle may allowed worker s count)
    (vioState : VioState) (dpdkState : DpdkState)
    (vio : vioState = .removing2 → s.vioState = .removing2)
    (dpdk : dpdkState = .removing2 → s.dpdkState = .removing2)
    : SinceIdle may allowed worker { s with vioState := vioState, dpdkState := dpdkState } count

variable {may : ι → Routine → Prop} {allowed : LockState ι → ι → Routine → Prop} {worker : ι}
  {s : LockState ι} {thread : ι} {pc : Pc}

theorem SinceIdle.lockRun {count : Nat} (run : SinceIdle may allowed worker s count)
    : LockRun may allowed s := by
  induction run with
  | start => exact .start
  | own _ routine alone allotted ok ih => exact ih.thread worker routine alone allotted ok
  | other _ thread _ routine alone allotted ok ih => exact ih.thread thread routine alone allotted ok
  | control _ vioState dpdkState vio dpdk ih => exact ih.control vioState dpdkState vio dpdk

-----------------------------------------------------------------------------------------
-- No lock is lost
-----------------------------------------------------------------------------------------

/-- A jump of the thread, with the owners of the locks as given. -/
theorem LockState.Accountable.goto {s : LockState ι} (h : s.Accountable) {owners : Owners ι Lock}
    {next : Pc}
    (mine : ∀ lock, owners lock = some thread → next.mayHold lock = true)
    (others : ∀ lock t, t ≠ thread → owners lock = some t → s.owners lock = some t)
    : ({ s with owners := owners }.goto thread next).Accountable := by
  intro lock t held
  by_cases same : t = thread
  · subst same
    simpa only [LockState.goto, Function.update_self] using mine lock held
  · simp only [LockState.goto, Function.update_of_ne same]
    exact h lock t (others lock t same held)

theorem LockState.Accountable.jump (h : s.Accountable) (here : s.pc thread = pc) {next : Pc}
    (holds : ∀ lock, pc.mayHold lock = true → next.mayHold lock = true)
    : (s.goto thread next).Accountable :=
  h.goto (fun lock held => holds lock (here ▸ h lock thread held)) fun _ _ _ held => held

omit [DecidableEq ι] in
theorem LockState.Accountable.setStates (h : s.Accountable) (vioState : VioState)
    (dpdkState : DpdkState)
    : ({ s with vioState := vioState, dpdkState := dpdkState } : LockState ι).Accountable :=
  h

theorem LockState.Accountable.trylock (h : s.Accountable) (here : s.pc thread = pc) {lock : Lock}
    {taken busy : Pc} (takes : ∀ l, pc.mayHold l = true ∨ l = lock → taken.mayHold l = true)
    (fails : ∀ l, pc.mayHold l = true → busy.mayHold l = true)
    : (s.trylock thread lock taken busy).Accountable := by
  unfold LockState.trylock
  cases free : s.owners lock with
  | none =>
      rw [tryLock_free thread free]
      refine h.goto (fun l held => takes l ?_) fun l t different held => ?_
      · by_cases same : l = lock
        · exact Or.inr same
        · rw [Function.update_of_ne same] at held
          exact Or.inl (here ▸ h l thread held)
      · by_cases same : l = lock
        · subst same
          rw [Function.update_self] at held
          exact absurd (Option.some.inj held).symm different
        · rwa [Function.update_of_ne same] at held
  | some holder =>
      rw [tryLock_taken thread free]
      exact h.goto (fun l held => fails l (here ▸ h l thread held)) fun _ _ _ held => held

theorem LockState.Accountable.unlock (h : s.Accountable) (here : s.pc thread = pc) {lock : Lock}
    {next : Pc} (keeps : ∀ l, pc.mayHold l = true → l ≠ lock → next.mayHold l = true)
    : (s.unlock thread lock next).Accountable := by
  have kept (l : Lock) (t : ι) (held : Mutex.unlock s.owners lock l = some t)
      : l ≠ lock ∧ s.owners l = some t := by
    by_cases same : l = lock
    · subst same
      rw [Mutex.unlock, Function.update_self] at held
      cases held
    · rw [Mutex.unlock, Function.update_of_ne same] at held
      exact ⟨same, held⟩
  refine h.goto (fun l held => ?_) fun l t _ held => (kept l t held).2
  obtain ⟨other, held⟩ := kept l thread held
  exact keeps l (here ▸ h l thread held) other

/-- Every step keeps the accounts, by cases on the place. -/
theorem LockState.Accountable.step (h : s.Accountable) (routine : Routine) (alone : Bool)
    : (s.step thread routine alone).Accountable := by
  unfold LockState.step
  cases here : s.pc thread with
  | idle =>
      cases routine with
      | vm2vf => exact h.trylock here (by rintro ⟨⟩ <;> decide) (by rintro ⟨⟩ <;> decide)
      | vf2vm => exact h.trylock here (by rintro ⟨⟩ <;> decide) (by rintro ⟨⟩ <;> decide)
      | migrate => exact h.jump here (by rintro ⟨⟩ <;> decide)
  | vm2vfHandshake =>
      dsimp only
      split
      · exact (h.setStates _ _).jump here (by rintro ⟨⟩ <;> decide)
      · exact h.jump here (by rintro ⟨⟩ <;> decide)
  | vm2vfRemoval =>
      dsimp only
      split
      · exact h.jump here (by rintro ⟨⟩ <;> decide)
      · exact h.jump here (by rintro ⟨⟩ <;> decide)
  | vf2vmRemoval =>
      dsimp only
      split
      · exact h.jump here (by rintro ⟨⟩ <;> decide)
      · exact h.jump here (by rintro ⟨⟩ <;> decide)
  | vf2vmHandshake =>
      dsimp only
      split
      · exact (h.setStates _ _).jump here (by rintro ⟨⟩ <;> decide)
      · exact h.jump here (by rintro ⟨⟩ <;> decide)
  | vm2vfAlone => exact (h.setStates _ _).jump here (by rintro ⟨⟩ <;> decide)
  | vf2vmAlone => exact (h.setStates _ _).jump here (by rintro ⟨⟩ <;> decide)
  | removeVfSignal => exact (h.setStates _ _).jump here (by rintro ⟨⟩ <;> decide)
  | removeVirtioSignal => exact (h.setStates _ _).jump here (by rintro ⟨⟩ <;> decide)
  | removeVfSpin => exact h.trylock here (by rintro ⟨⟩ <;> decide) (by rintro ⟨⟩ <;> decide)
  | removeVirtioSpin => exact h.trylock here (by rintro ⟨⟩ <;> decide) (by rintro ⟨⟩ <;> decide)
  | migrateSpinVio => exact h.trylock here (by rintro ⟨⟩ <;> decide) (by rintro ⟨⟩ <;> decide)
  | migrateSpinDpdk => exact h.trylock here (by rintro ⟨⟩ <;> decide) (by rintro ⟨⟩ <;> decide)
  | removeVfUnlock => exact h.unlock here (by rintro ⟨⟩ <;> decide)
  | vm2vfUnlock => exact h.unlock here (by rintro ⟨⟩ <;> decide)
  | removeVirtioUnlock => exact h.unlock here (by rintro ⟨⟩ <;> decide)
  | vf2vmUnlock => exact h.unlock here (by rintro ⟨⟩ <;> decide)
  | migrateUnlockDpdk => exact h.unlock here (by rintro ⟨⟩ <;> decide)
  | migrateUnlockVio => exact h.unlock here (by rintro ⟨⟩ <;> decide)
  | _ => exact h.jump here (by rintro ⟨⟩ <;> decide)

theorem LockRun.accountable (run : LockRun may allowed s) : s.Accountable := by
  induction run with
  | start =>
      intro lock thread held
      cases held
  | thread _ thread routine alone _ _ ih => exact ih.step routine alone
  | control _ vioState dpdkState _ _ ih => exact ih.setStates vioState dpdkState

-----------------------------------------------------------------------------------------
-- Whoever waits, waits for a thread that goes on
-----------------------------------------------------------------------------------------

omit [DecidableEq ι] in
/-- A thread with a lock of `dpdk` does not wait, because `dpdk.sl` is the second lock of
`migrate_mempool`.
-/
theorem LockState.Accountable.dpdk_goes_on (h : s.Accountable)
    (held : s.owners .dpdk = some thread)
    : ¬ s.Waits thread := by
  have holds := h .dpdk thread held
  rintro (⟨here, _⟩ | ⟨here, _⟩)
  · rw [here] at holds
    exact absurd holds (by decide)
  · rw [here] at holds
    exact absurd holds (by decide)

/-- The holder of `vio.sl` goes on, or it waits for the holder of `dpdk.sl`, who does. -/
theorem LockState.Accountable.someone_goes_on (h : s.Accountable) (waits : s.Waits thread)
    : ∃ lock holder, s.owners lock = some holder ∧ ¬ s.Waits holder := by
  have first : ∃ lock holder, s.owners lock = some holder := by
    rcases waits with ⟨_, taken⟩ | ⟨_, taken⟩
    · exact ⟨.vio, Option.ne_none_iff_exists'.mp taken⟩
    · exact ⟨.dpdk, Option.ne_none_iff_exists'.mp taken⟩
  obtain ⟨lock, holder, held⟩ := first
  by_cases stuck : s.Waits holder
  · rcases stuck with ⟨here, _⟩ | ⟨_, taken⟩
    · have holds := h lock holder held
      rw [here] at holds
      cases lock <;> exact absurd holds (by decide)
    · obtain ⟨second, held⟩ := Option.ne_none_iff_exists'.mp taken
      exact ⟨.dpdk, second, held, h.dpdk_goes_on held⟩
  · exact ⟨lock, holder, held, stuck⟩

-----------------------------------------------------------------------------------------
-- What the steps of the others leave alone
-----------------------------------------------------------------------------------------

/-- `worker` is where it was, with the locks it had. -/
structure LockState.Spared (worker : ι) (s s' : LockState ι) : Prop where
  pc : s'.pc worker = s.pc worker
  owners : ∀ lock, s'.owners lock = some worker ↔ s.owners lock = some worker

theorem LockState.Spared.stepsLeft {s s' : LockState ι} (h : s.Spared worker s')
    : s'.stepsLeft worker = s.stepsLeft worker := by
  simp only [LockState.stepsLeft, h.pc, h.owners]

/-- A jump of another thread. -/
theorem LockState.spared_goto (different : thread ≠ worker) {owners : Owners ι Lock}
    (kept : ∀ lock, owners lock = some worker ↔ s.owners lock = some worker) (vioState : VioState)
    (dpdkState : DpdkState) (next : Pc)
    : s.Spared worker ((⟨owners, s.pc, vioState, dpdkState⟩ : LockState ι).goto thread next) where
  pc := Function.update_of_ne (Ne.symm different) _ _
  owners := kept

theorem LockState.spared_jump (different : thread ≠ worker) (vioState : VioState)
    (dpdkState : DpdkState) (next : Pc)
    : s.Spared worker
        (({ s with vioState := vioState, dpdkState := dpdkState } : LockState ι).goto thread next) :=
  LockState.spared_goto different (fun _ => Iff.rfl) vioState dpdkState next

/-- Another thread takes a lock only if nobody has it. -/
theorem LockState.spared_trylock (different : thread ≠ worker) (lock : Lock) (taken busy : Pc)
    : s.Spared worker (s.trylock thread lock taken busy) := by
  unfold LockState.trylock
  cases free : s.owners lock with
  | none =>
      rw [tryLock_free thread free]
      refine LockState.spared_goto different (fun l => ?_) _ _ _
      by_cases same : l = lock
      · subst same
        simp [free, different]
      · rw [Function.update_of_ne same]
  | some holder =>
      rw [tryLock_taken thread free]
      exact LockState.spared_goto different (fun _ => Iff.rfl) _ _ _

/-- Another thread releases only its own lock. -/
theorem LockState.spared_unlock (different : thread ≠ worker) {lock : Lock}
    (mine : s.owners lock = some thread) (next : Pc)
    : s.Spared worker (s.unlock thread lock next) := by
  refine LockState.spared_goto different (fun l => ?_) _ _ _
  by_cases same : l = lock
  · subst same
    simp [Mutex.unlock, mine, different]
  · rw [Mutex.unlock, Function.update_of_ne same]

/-- Under the discipline the steps of other threads spare the worker, by cases on the place. -/
theorem LockState.Disciplined.spares (h : s.Disciplined) (different : thread ≠ worker)
    (routine : Routine) (alone : Bool)
    : s.Spared worker (s.step thread routine alone) := by
  unfold LockState.step
  have mine (lock : Lock) (releases : (s.pc thread).releases = some lock)
      : s.owners lock = some thread :=
    h.release thread lock releases
  cases here : s.pc thread with
  | idle =>
      cases routine with
      | vm2vf => exact LockState.spared_trylock different _ _ _
      | vf2vm => exact LockState.spared_trylock different _ _ _
      | migrate => exact LockState.spared_jump different _ _ _
  | vm2vfHandshake =>
      dsimp only
      split
      · exact LockState.spared_jump different _ _ _
      · exact LockState.spared_jump different _ _ _
  | vf2vmHandshake =>
      dsimp only
      split
      · exact LockState.spared_jump different _ _ _
      · exact LockState.spared_jump different _ _ _
  | removeVfSpin => exact LockState.spared_trylock different _ _ _
  | removeVirtioSpin => exact LockState.spared_trylock different _ _ _
  | migrateSpinVio => exact LockState.spared_trylock different _ _ _
  | migrateSpinDpdk => exact LockState.spared_trylock different _ _ _
  | removeVfUnlock => exact LockState.spared_unlock different (mine .dpdk (by rw [here]; rfl)) _
  | vm2vfUnlock => exact LockState.spared_unlock different (mine .vio (by rw [here]; rfl)) _
  | removeVirtioUnlock => exact LockState.spared_unlock different (mine .vio (by rw [here]; rfl)) _
  | vf2vmUnlock => exact LockState.spared_unlock different (mine .dpdk (by rw [here]; rfl)) _
  | migrateUnlockDpdk => exact LockState.spared_unlock different (mine .dpdk (by rw [here]; rfl)) _
  | migrateUnlockVio => exact LockState.spared_unlock different (mine .vio (by rw [here]; rfl)) _
  | _ => exact LockState.spared_jump different _ _ _

-----------------------------------------------------------------------------------------
-- The worker's own steps
-----------------------------------------------------------------------------------------

theorem Pc.stepsLeft_le (pc : Pc) (holds : Lock → Bool) : pc.stepsLeft holds ≤ 11 := by
  cases pc <;> simp only [Pc.stepsLeft] <;> (try split) <;> decide

theorem Pc.stepsLeft_pos (pc : Pc) (holds : Lock → Bool) (ofWorker : pc.ofWorker = true)
    (busy : pc ≠ .idle)
    : 0 < pc.stepsLeft holds := by
  cases pc with
  | idle => exact absurd rfl busy
  | migrateAssertState | migrateAssert | migrateSpinVio | migrateSpinDpdk | migrateUnlockDpdk
  | migrateUnlockVio =>
      exact absurd ofWorker (by decide)
  | removeVfSpin | removeVirtioSpin =>
      simp only [Pc.stepsLeft]
      split <;> decide
  | _ => exact Nat.succ_pos _

theorem LockState.stepsLeft_goto (owners : Owners ι Lock) (pcs : ι → Pc) (vioState : VioState)
    (dpdkState : DpdkState) (next : Pc)
    : ((⟨owners, pcs, vioState, dpdkState⟩ : LockState ι).goto worker next).stepsLeft worker
      = next.stepsLeft fun lock => decide (owners lock = some worker) :=
  congrArg (Pc.stepsLeft _) (LockState.goto_pc _ next)

/-- A jump that shortens the way whatever the locks are. -/
theorem LockState.stepsLeft_jump (here : s.pc worker = pc) {next : Pc}
    (fewer : ∀ holds holds', next.stepsLeft holds' < pc.stepsLeft holds)
    (owners : Owners ι Lock) (vioState : VioState) (dpdkState : DpdkState)
    : ((⟨owners, s.pc, vioState, dpdkState⟩ : LockState ι).goto worker next).stepsLeft worker
      < s.stepsLeft worker := by
  rw [LockState.stepsLeft_goto, LockState.stepsLeft, here]
  exact fewer _ _

/-- The cleanup's loop takes its lock on the first round and leaves on the second. -/
theorem LockState.stepsLeft_spin (here : s.pc worker = pc) {lock : Lock} {next : Pc}
    (free : s.owners lock = none ∨ s.owners lock = some worker)
    (again : ∀ holds holds', holds lock = false → holds' lock = true
      → pc.stepsLeft holds' < pc.stepsLeft holds)
    (leaves : ∀ holds, next.stepsLeft holds < pc.stepsLeft holds)
    : (s.trylock worker lock pc next).stepsLeft worker < s.stepsLeft worker := by
  unfold LockState.trylock
  rcases free with free | mine
  · rw [tryLock_free worker free]
    dsimp only
    rw [LockState.stepsLeft_goto, LockState.stepsLeft, here]
    exact again _ _ (by simp [free]) (by simp)
  · rw [tryLock_taken worker mine]
    dsimp only
    rw [LockState.stepsLeft_goto, LockState.stepsLeft, here]
    exact leaves _

/-- Every step inside a worker's block shortens the way, by cases on the place. -/
theorem LockState.stepsLeft_step (free : CleanupFindsFreeLock s worker)
    (ofWorker : (s.pc worker).ofWorker = true) (busy : s.pc worker ≠ .idle) (routine : Routine)
    (alone : Bool)
    : (s.step worker routine alone).stepsLeft worker < s.stepsLeft worker := by
  unfold LockState.step
  cases here : s.pc worker with
  | idle => exact absurd here busy
  | migrateAssertState | migrateAssert | migrateSpinVio | migrateSpinDpdk | migrateUnlockDpdk
  | migrateUnlockVio =>
      rw [here] at ofWorker
      exact absurd ofWorker (by decide)
  | removeVfSpin =>
      refine LockState.stepsLeft_spin here (free.1 here) (fun _ _ without held => ?_) fun _ => ?_
      · simp [Pc.stepsLeft, without, held]
      · simp only [Pc.stepsLeft]
        split <;> decide
  | removeVirtioSpin =>
      refine LockState.stepsLeft_spin here (free.2 here) (fun _ _ without held => ?_) fun _ => ?_
      · simp [Pc.stepsLeft, without, held]
      · simp only [Pc.stepsLeft]
        split <;> decide
  | vm2vfRemoval =>
      dsimp only
      split
      · refine LockState.stepsLeft_jump here (fun _ _ => ?_) _ _ _
        simp only [Pc.stepsLeft]
        split <;> decide
      · exact LockState.stepsLeft_jump here (fun _ _ => by simp [Pc.stepsLeft]) _ _ _
  | vf2vmRemoval =>
      dsimp only
      split
      · exact LockState.stepsLeft_jump here (fun _ _ => by simp [Pc.stepsLeft]) _ _ _
      · exact LockState.stepsLeft_jump here (fun _ _ => by simp [Pc.stepsLeft]) _ _ _
  | removeVirtioRx =>
      refine LockState.stepsLeft_jump here (fun _ _ => ?_) _ _ _
      simp only [Pc.stepsLeft]
      split <;> decide
  | vm2vfHandshake =>
      dsimp only
      split
      · exact LockState.stepsLeft_jump here (fun _ _ => by simp [Pc.stepsLeft]) _ _ _
      · exact LockState.stepsLeft_jump here (fun _ _ => by simp [Pc.stepsLeft]) _ _ _
  | vf2vmHandshake =>
      dsimp only
      split
      · exact LockState.stepsLeft_jump here (fun _ _ => by simp [Pc.stepsLeft]) _ _ _
      · exact LockState.stepsLeft_jump here (fun _ _ => by simp [Pc.stepsLeft]) _ _ _
  | _ => exact LockState.stepsLeft_jump here (fun _ _ => by simp [Pc.stepsLeft]) _ _ _

theorem LockState.goto_ofWorker {s : LockState ι} {next : Pc} (ofWorker : next.ofWorker = true)
    : ((s.goto worker next).pc worker).ofWorker = true := by
  rw [LockState.goto_pc]
  exact ofWorker

theorem LockState.trylock_ofWorker {lock : Lock} {taken busy : Pc} (takes : taken.ofWorker = true)
    (fails : busy.ofWorker = true)
    : ((s.trylock worker lock taken busy).pc worker).ofWorker = true := by
  unfold LockState.trylock
  cases free : s.owners lock with
  | none =>
      rw [tryLock_free worker free]
      exact LockState.goto_ofWorker takes
  | some holder =>
      rw [tryLock_taken worker free]
      exact LockState.goto_ofWorker fails

/-- A worker that never starts `migrate_mempool` is never there, by cases on the place. -/
theorem LockState.step_ofWorker (ofWorker : (s.pc worker).ofWorker = true) {routine : Routine}
    (allotted : s.pc worker = .idle → routine ≠ .migrate) (alone : Bool)
    : ((s.step worker routine alone).pc worker).ofWorker = true := by
  unfold LockState.step
  cases here : s.pc worker with
  | idle =>
      cases routine with
      | vm2vf => exact LockState.trylock_ofWorker rfl rfl
      | vf2vm => exact LockState.trylock_ofWorker rfl rfl
      | migrate => exact absurd rfl (allotted here)
  | migrateAssertState | migrateAssert | migrateSpinVio | migrateSpinDpdk | migrateUnlockDpdk
  | migrateUnlockVio =>
      rw [here] at ofWorker
      exact absurd ofWorker (by decide)
  | removeVfSpin => exact LockState.trylock_ofWorker rfl rfl
  | removeVirtioSpin => exact LockState.trylock_ofWorker rfl rfl
  | vm2vfHandshake =>
      dsimp only
      split
      · exact LockState.goto_ofWorker rfl
      · exact LockState.goto_ofWorker rfl
  | vm2vfRemoval =>
      dsimp only
      split
      · exact LockState.goto_ofWorker rfl
      · exact LockState.goto_ofWorker rfl
  | vf2vmRemoval =>
      dsimp only
      split
      · exact LockState.goto_ofWorker rfl
      · exact LockState.goto_ofWorker rfl
  | vf2vmHandshake =>
      dsimp only
      split
      · exact LockState.goto_ofWorker rfl
      · exact LockState.goto_ofWorker rfl
  | _ => exact LockState.goto_ofWorker rfl

-----------------------------------------------------------------------------------------
-- Whole runs
-----------------------------------------------------------------------------------------

/-- The steps taken since the worker was idle and the steps before it are twelve at most: the
first step takes the lock, and each further step shortens the way.
-/
structure LockState.OnTheWay (worker : ι) (s : LockState ι) (count : Nat) : Prop where
  ofWorker : (s.pc worker).ofWorker = true
  rested : s.pc worker = .idle → count = 0
  bound : count + s.stepsLeft worker ≤ 12

theorem SinceIdle.onTheWay {count : Nat} (others : ¬ may worker .migrate)
    (run : SinceIdle may (fun s t _ => CleanupFindsFreeLock s t) worker s count)
    : s.OnTheWay worker count := by
  induction run with
  | start => exact ⟨rfl, fun _ => rfl, Nat.zero_le 12⟩
  | @own s count run routine alone allotted ok ih =>
      have ofWorker := LockState.step_ofWorker ih.ofWorker
        (fun idle same => others (same ▸ allotted idle)) alone
      refine ⟨ofWorker, fun idle => if_pos idle, ?_⟩
      by_cases idle : s.pc worker = .idle
      · -- the block starts here
        have rested := ih.rested idle
        have short : (s.step worker routine alone).stepsLeft worker ≤ 11 := Pc.stepsLeft_le _ _
        split <;> omega
      · have shorter := LockState.stepsLeft_step ok ih.ofWorker idle routine alone
        have before := ih.bound
        split <;> omega
  | other run thread different routine alone allotted ok ih =>
      have spared := (run.lockRun.disciplined fun _ _ _ ok => ok).spares different routine alone
      exact ⟨spared.pc ▸ ih.ofWorker, spared.pc ▸ ih.rested, spared.stepsLeft ▸ ih.bound⟩
  | control run vioState dpdkState vio dpdk ih => exact ⟨ih.ofWorker, ih.rested, ih.bound⟩

/-- Progress under the locks, in every run whose cleanup functions find their lock free: a
worker is never more than eleven own steps into its block, a thread without a block holds no
lock, and if a thread of `migrate_mempool` waits, then a thread that does not wait holds a lock.
-/
theorem relay_blocks_end {count : Nat} (others : ¬ may worker .migrate)
    (run : SinceIdle may (fun s t _ => CleanupFindsFreeLock s t) worker s count)
    : count ≤ 11
      ∧ (∀ lock t, s.owners lock = some t → s.pc t ≠ .idle)
      ∧ ∀ t, s.Waits t → ∃ lock holder, s.owners lock = some holder ∧ ¬ s.Waits holder := by
  have way := run.onTheWay others
  have accountable := run.lockRun.accountable
  refine ⟨?_, fun lock t held idle => ?_, fun t => accountable.someone_goes_on⟩
  · by_cases idle : s.pc worker = .idle
    · exact way.rested idle ▸ Nat.zero_le 11
    · have left : 0 < s.stepsLeft worker := Pc.stepsLeft_pos _ _ way.ofWorker idle
      have bound := way.bound
      omega
  · have holds := accountable lock t held
    rw [idle] at holds
    cases lock <;> exact absurd holds (by decide)

/-- The own steps of `worker` after the given threads have taken one step each. -/
def LockState.ownSteps (worker : ι) (routine : ι → Routine) (s : LockState ι) (count : Nat)
    : List ι → Nat
  | [] => count
  | thread :: threads =>
      let s' := s.step thread (routine thread) false
      s'.ownSteps worker routine
        (if thread = worker then if s'.pc worker = .idle then 0 else count + 1 else count) threads

theorem SinceIdle.follow {count : Nat} (run : SinceIdle may allowed worker s count)
    (routine : ι → Routine) (threads : List ι) (allotted : ∀ thread, may thread (routine thread))
    (ok : s.FollowAllowed allowed routine threads)
    : SinceIdle may allowed worker (s.follow routine threads)
        (s.ownSteps worker routine count threads) := by
  induction threads generalizing s count with
  | nil => exact run
  | cons thread threads ih =>
      by_cases same : thread = worker
      · subst same
        have next := ih (run.own (routine thread) false (fun _ => allotted thread) ok.1) ok.2
        simpa only [LockState.follow, LockState.ownSteps, ↓reduceIte] using next
      · have next := ih (run.other thread same (routine thread) false (fun _ => allotted thread) ok.1)
          ok.2
        simpa only [LockState.follow, LockState.ownSteps, if_neg same] using next

end Steps

/-- Both ends are to be removed. The VM-to-VF worker passes the removal of virtio on; the
VF-to-VM worker cleans up and passes the removal of the VF on, which is the longest way, and a
control thread has taken `vio.sl` and waits for the other lock at its end.
-/
theorem relay_blocks_end_in_double_removal
    : ∃ s : LockState Routine,
        SinceIdle (fun thread routine => thread = routine)
          (fun s t _ => CleanupFindsFreeLock s t) .vf2vm s 11
        ∧ s.Waits .migrate
        ∧ ∃ lock holder, s.owners lock = some holder ∧ ¬ s.Waits holder := by
  have removal
      : SinceIdle (fun thread routine => thread = routine)
          (fun s t _ => CleanupFindsFreeLock s t) .vf2vm _ 0 :=
    SinceIdle.start.control .removing1 .removing1 (by decide) (by decide)
  have run := removal.follow id
    (List.replicate 6 .vm2vf ++ List.replicate 11 .vf2vm ++ List.replicate 4 .migrate)
    (fun _ => rfl) (by decide)
  have waits := (relay_blocks_end (by decide) run).2.2 .migrate (by decide)
  exact ⟨_, run, by decide, waits⟩

end VirtioForwarder
