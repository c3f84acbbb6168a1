import Mathlib.Algebra.BigOperators.Group.Finset.Basic
import Mathlib.Algebra.Group.Action.Defs
import Mathlib.Algebra.Order.BigOperators.Group.Finset
import VirtioForwarder.Control.World
import VirtioForwarder.Library.Traces

/-! Starting and stopping the workers. `virtio_forwarders_initialize` launches `worker_func` on the
worker lcores without waiting for its first statements; `virtio_forwarders_shutdown` raises
`must_stop` of the workers that it finds running and waits for all of them.
-/

namespace VirtioForwarder

open Traces

/-- The flags of `worker_thread_t` by which a worker is stopped. -/
structure WorkerFlags where
  initialized : Bool
  running : Bool
  mustStop : Bool
  deriving DecidableEq, Repr

/-- The statement of `worker_func` that a worker executes next. The condition of the loop reads
`running` before `must_stop`; an iteration of the loop is one statement.
-/
inductive WorkerPc
  | setRunning
  | clearStop
  | testRunning
  | testStop
  | iterate
  | clearRunning
  | returned
  deriving DecidableEq, Repr

/-- Where the main thread is: `virtio_forwarders_shutdown` is not called yet, tests whether the
worker on a CPU is running, raises its `must_stop`, or waits for it.
-/
inductive MainPc
  | serving
  | testing (cpu : Nat)
  | raising (cpu : Nat)
  | waiting (cpu : Nat)
  | stopped
  deriving DecidableEq, Repr

/-- The lcores of the EAL apart from the main one, and `worker_core_bitmap`. -/
structure WorkerSetup where
  lcores : Nat → Bool
  workerCoreBitmap : Nat
  below : ∀ cpu, lcores cpu = true → cpu < maxCpus

/-- The flags of the workers, and where all threads are. -/
structure WorkersState where
  flags : Nat → WorkerFlags
  pc : Nat → WorkerPc
  main : MainPc

/-- A thread executes the statement where it is. -/
inductive WorkersAct
  | worker (cpu : Nat) (pc : WorkerPc)
  | main (pc : MainPc)
  deriving DecidableEq, Repr

/-- One statement of `worker_func`. -/
def workerFunc (flags : WorkerFlags) : WorkerPc → Option (WorkerFlags × WorkerPc)
  | .setRunning => some ({ flags with running := true }, .clearStop)
  | .clearStop => some ({ flags with mustStop := false }, .testRunning)
  | .testRunning => some (flags, if flags.running then .testStop else .clearRunning)
  | .testStop => some (flags, if flags.mustStop then .clearRunning else .iterate)
  | .iterate => some (flags, .testRunning)
  | .clearRunning => some ({ flags with running := false }, .returned)
  | .returned => none

/-- The loop over the CPUs goes on with the next one, or the main thread begins to wait. -/
def afterFlag (cpu : Nat) : MainPc :=
  if cpu + 1 < maxCpus then .testing (cpu + 1) else .waiting 0

/-- One statement of `virtio_forwarders_shutdown`, or its call. `rte_eal_wait_lcore` returns when
the worker has returned.
-/
def virtioForwardersShutdown (setup : WorkerSetup) (s : WorkersState)
    : MainPc → Option WorkersState
  | .serving => some { s with main := .testing 0 }
  | .testing cpu =>
      if setup.workerCoreBitmap.testBit cpu && (s.flags cpu).initialized && (s.flags cpu).running then
        some { s with main := .raising cpu }
      else some { s with main := afterFlag cpu }
  | .raising cpu =>
      some { s with
        flags := Function.update s.flags cpu { s.flags cpu with mustStop := true }
        main := afterFlag cpu }
  | .waiting cpu =>
      if setup.lcores cpu && s.pc cpu ≠ .returned then none
      else some { s with main := if cpu + 1 < maxCpus then .waiting (cpu + 1) else .stopped }
  | .stopped => none

/-- One statement of a thread that is there. -/
def WorkerSetup.step (setup : WorkerSetup) (s : WorkersState) : WorkersAct → Option WorkersState
  | .worker cpu pc =>
      if setup.lcores cpu = true ∧ s.pc cpu = pc then
        (workerFunc (s.flags cpu) pc).map fun next =>
          { s with
            flags := Function.update s.flags cpu next.1
            pc := Function.update s.pc cpu next.2 }
      else none
  | .main pc => if s.main = pc then virtioForwardersShutdown setup s pc else none

/-- The end of `rte_eal_mp_remote_launch`: no worker has executed a statement. -/
def WorkerSetup.launched (setup : WorkerSetup) : WorkersState where
  flags cpu := ⟨setup.lcores cpu, false, false⟩
  pc _ := .setRunning
  main := .serving

/-- `must_stop` is raised after the worker has cleared it at its start. -/
def Heeded (trace : List WorkersAct) (cpu : Nat) : Prop :=
  ∃ before after, trace = before ++ .main (.raising cpu) :: after
    ∧ .worker cpu .clearStop ∈ before

/-- All flags have been raised that will be raised. -/
def MainPc.past : MainPc → Bool
  | .waiting _ | .stopped => true
  | _ => false

-----------------------------------------------------------------------------------------
-- What the trace tells of a worker
-----------------------------------------------------------------------------------------

section Account

variable {setup : WorkerSetup} {s s' : WorkersState} {trace : List WorkersAct} {act : WorkersAct}
  {cpu : Nat}

theorem heeded_snoc
    : Heeded (trace ++ [act]) cpu
      ↔ Heeded trace cpu ∨ act = .main (.raising cpu) ∧ .worker cpu .clearStop ∈ trace := by
  constructor
  · rintro ⟨before, after, split, cleared⟩
    rcases List.eq_nil_or_concat after with rfl | ⟨after, last, rfl⟩
    · obtain ⟨same, last⟩ := List.append_inj' split rfl
      exact Or.inr ⟨by simpa using last, same ▸ cleared⟩
    · rw [List.concat_eq_append, ← List.cons_append, ← List.append_assoc] at split
      obtain ⟨same, _⟩ := List.append_inj' split rfl
      exact Or.inl ⟨before, after, same, cleared⟩
  · rintro (⟨before, after, rfl, cleared⟩ | ⟨rfl, cleared⟩)
    · exact ⟨before, after ++ [act], by simp, cleared⟩
    · exact ⟨trace, [], rfl, cleared⟩

theorem Heeded.cleared (h : Heeded trace cpu) : .worker cpu .clearStop ∈ trace := by
  obtain ⟨before, after, rfl, cleared⟩ := h
  exact List.mem_append_left _ cleared

/-- The worker has executed its first two statements. -/
def WorkerPc.started : WorkerPc → Bool
  | .setRunning | .clearStop => false
  | _ => true

/-- `running` is set. -/
def WorkerPc.runs : WorkerPc → Bool
  | .setRunning | .returned => false
  | _ => true

/-- The worker has left its loop. -/
def WorkerPc.left : WorkerPc → Bool
  | .clearRunning | .returned => true
  | _ => false

/-- What the trace tells of a worker. -/
structure WorkerAccount (trace : List WorkersAct) (flags : WorkerFlags) (pc : WorkerPc) (cpu : Nat)
    : Prop where
  cleared : .worker cpu .clearStop ∈ trace ↔ pc.started = true
  running : flags.running = pc.runs
  mustStop : pc.started = true → (flags.mustStop = true ↔ Heeded trace cpu)
  left : pc.left = true → Heeded trace cpu

/-- A statement that neither clears nor raises the flag. -/
theorem WorkerAccount.moved {flags flags' : WorkerFlags} {pc pc' : WorkerPc}
    (h : WorkerAccount trace flags pc cpu) (clears : act ≠ .worker cpu .clearStop)
    (raises : act ≠ .main (.raising cpu)) (started : pc'.started = pc.started)
    (running : flags'.running = pc'.runs) (mustStop : flags'.mustStop = flags.mustStop)
    (left : pc'.left = true → Heeded trace cpu)
    : WorkerAccount (trace ++ [act]) flags' pc' cpu := by
  have heeded : Heeded (trace ++ [act]) cpu ↔ Heeded trace cpu := by
    rw [heeded_snoc]
    exact or_iff_left fun last => raises last.1
  have cleared : WorkersAct.worker cpu .clearStop ∈ trace ++ [act]
      ↔ WorkersAct.worker cpu .clearStop ∈ trace := by
    rw [List.mem_append, List.mem_singleton]
    exact or_iff_left fun same => clears same.symm
  refine ⟨?_, running, fun begun => ?_, fun gone => heeded.mpr (left gone)⟩
  · rw [cleared, h.cleared, started]
  · rw [mustStop, heeded]
    exact h.mustStop (started ▸ begun)

/-- A worker's own statement, by cases on the statement. -/
theorem WorkerAccount.own {flags flags' : WorkerFlags} {pc pc' : WorkerPc}
    (h : WorkerAccount trace flags pc cpu) (executed : workerFunc flags pc = some (flags', pc'))
    : WorkerAccount (trace ++ [.worker cpu pc]) flags' pc' cpu := by
  cases pc with
  | setRunning =>
      cases executed
      exact h.moved nofun nofun rfl rfl rfl nofun
  | clearStop =>
      cases executed
      have before : ¬ Heeded trace cpu :=
        fun heard => absurd (h.cleared.mp heard.cleared) (by decide)
      refine ⟨by simp [WorkerPc.started], h.running, fun _ => ⟨nofun, fun heard => ?_⟩, nofun⟩
      rcases heeded_snoc.mp heard with earlier | ⟨same, _⟩
      · exact absurd earlier before
      · cases same
  | testRunning =>
      have goes : workerFunc flags .testRunning = some (flags, .testStop) := by
        rw [workerFunc, h.running]
        rfl
      cases goes.symm.trans executed
      exact h.moved nofun nofun rfl h.running rfl nofun
  | testStop =>
      rw [workerFunc] at executed
      cases stop : flags.mustStop with
      | true =>
          rw [stop] at executed
          cases executed
          exact h.moved nofun nofun rfl h.running rfl fun _ => (h.mustStop rfl).mp stop
      | false =>
          rw [stop] at executed
          cases executed
          exact h.moved nofun nofun rfl h.running rfl nofun
  | iterate =>
      cases executed
      exact h.moved nofun nofun rfl h.running rfl nofun
  | clearRunning =>
      cases executed
      exact h.moved nofun nofun rfl rfl rfl fun _ => h.left rfl
  | returned => cases executed

/-- The main thread raises the flag of the worker. -/
theorem WorkerAccount.raise {flags : WorkerFlags} {pc : WorkerPc} (h : WorkerAccount trace flags pc cpu)
    : WorkerAccount (trace ++ [.main (.raising cpu)]) { flags with mustStop := true } pc cpu := by
  refine ⟨by simpa using h.cleared, h.running, fun started => ⟨fun _ => ?_, fun _ => rfl⟩,
    fun gone => ?_⟩
  · exact heeded_snoc.mpr (Or.inr ⟨rfl, h.cleared.mpr started⟩)
  · exact heeded_snoc.mpr (Or.inl (h.left gone))

/-- The main thread has seen that the worker has returned. -/
def MainPc.awaited (cpu : Nat) : MainPc → Prop
  | .waiting current => cpu < current
  | .stopped => True
  | _ => False

/-- The invariant of a run. -/
structure WorkerSetup.Known (setup : WorkerSetup) (trace : List WorkersAct) (s : WorkersState)
    : Prop where
  accounted : ∀ cpu, setup.lcores cpu = true → WorkerAccount trace (s.flags cpu) (s.pc cpu) cpu
  returned : ∀ cpu, setup.lcores cpu = true → s.main.awaited cpu → s.pc cpu = .returned
  inRange : ∀ current, s.main = .waiting current → current < maxCpus

theorem WorkerSetup.known_launched (setup : WorkerSetup) : setup.Known [] setup.launched where
  accounted _ _ := ⟨⟨nofun, nofun⟩, rfl, nofun, nofun⟩
  returned _ _ awaited := awaited.elim
  inRange _ waiting := by cases waiting

/-- What a step of a worker does. -/
theorem WorkerSetup.step_worker {pc : WorkerPc} (h : setup.step s (.worker cpu pc) = some s')
    : setup.lcores cpu = true ∧ s.pc cpu = pc
      ∧ ∃ flags next, workerFunc (s.flags cpu) pc = some (flags, next)
        ∧ s' = ⟨Function.update s.flags cpu flags, Function.update s.pc cpu next, s.main⟩ := by
  rw [WorkerSetup.step] at h
  split at h
  · rename_i here
    obtain ⟨⟨flags, next⟩, executed, rfl⟩ := Option.map_eq_some_iff.mp h
    exact ⟨here.1, here.2, flags, next, executed, rfl⟩
  · cases h

theorem WorkerSetup.step_main {pc : MainPc} (h : setup.step s (.main pc) = some s')
    : s.main = pc ∧ virtioForwardersShutdown setup s pc = some s' := by
  rw [WorkerSetup.step] at h
  split at h
  · exact ⟨‹_›, h⟩
  · cases h

theorem WorkerSetup.Known.worker {pc : WorkerPc} (h : setup.Known trace s)
    (stepped : setup.step s (.worker cpu pc) = some s')
    : setup.Known (trace ++ [.worker cpu pc]) s' := by
  obtain ⟨lcore, rfl, flags, next, executed, rfl⟩ := WorkerSetup.step_worker stepped
  refine ⟨fun other there => ?_, fun other there awaited => ?_, h.inRange⟩
  · rcases eq_or_ne other cpu with rfl | different
    · simp only [Function.update_self]
      exact (h.accounted other there).own executed
    · simp only [Function.update_of_ne different]
      refine (h.accounted other there).moved ?_ nofun rfl (h.accounted other there).running rfl
        (h.accounted other there).left
      exact fun same => different (WorkersAct.worker.inj same).1.symm
  · have gone := h.returned other there awaited
    rcases eq_or_ne other cpu with rfl | different
    · rw [gone] at executed
      cases executed
    · simpa only [Function.update_of_ne different] using gone

/-- A step of the main thread that raises no flag. -/
theorem WorkerSetup.Known.main_moved {pc main : MainPc} (h : setup.Known trace s)
    (raises : ∀ cpu, pc ≠ .raising cpu)
    (returned : ∀ cpu, setup.lcores cpu = true → main.awaited cpu → s.pc cpu = .returned)
    (inRange : ∀ current, main = .waiting current → current < maxCpus)
    : setup.Known (trace ++ [.main pc]) { s with main := main } := by
  refine ⟨fun cpu there => ?_, returned, inRange⟩
  refine (h.accounted cpu there).moved nofun ?_ rfl (h.accounted cpu there).running rfl
    (h.accounted cpu there).left
  exact fun same => raises cpu (by cases same; rfl)

theorem not_awaited_afterFlag (cpu other : Nat) : ¬ (afterFlag cpu).awaited other := by
  unfold afterFlag
  split
  · exact id
  · exact Nat.not_lt_zero other

theorem afterFlag_inRange {current : Nat} (h : afterFlag cpu = .waiting current)
    : current < maxCpus := by
  unfold afterFlag at h
  split at h
  · cases h
  · cases h
    decide

theorem WorkerSetup.Known.main {pc : MainPc} (h : setup.Known trace s)
    (stepped : setup.step s (.main pc) = some s')
    : setup.Known (trace ++ [.main pc]) s' := by
  obtain ⟨here, executed⟩ := WorkerSetup.step_main stepped
  cases pc with
  | serving =>
      cases executed
      exact h.main_moved nofun (fun _ _ awaited => awaited.elim) nofun
  | testing cpu =>
      rw [virtioForwardersShutdown] at executed
      split at executed
      · cases executed
        exact h.main_moved nofun (fun _ _ awaited => awaited.elim) nofun
      · cases executed
        exact h.main_moved nofun (fun _ _ awaited => absurd awaited (not_awaited_afterFlag _ _))
          fun _ => afterFlag_inRange
  | raising cpu =>
      cases executed
      refine ⟨fun other there => ?_, fun _ _ awaited => absurd awaited (not_awaited_afterFlag _ _),
        fun _ => afterFlag_inRange⟩
      rcases eq_or_ne other cpu with rfl | different
      · simp only [Function.update_self]
        exact (h.accounted other there).raise
      · simp only [Function.update_of_ne different]
        refine (h.accounted other there).moved nofun ?_ rfl (h.accounted other there).running rfl
          (h.accounted other there).left
        exact fun same => different (by cases same; rfl)
  | waiting cpu =>
      rw [virtioForwardersShutdown] at executed
      split at executed
      · cases executed
      · rename_i gone
        cases executed
        have before (other : Nat) (there : setup.lcores other = true) (reached : other ≤ cpu)
            : s.pc other = .returned := by
          rcases Nat.lt_or_eq_of_le reached with earlier | rfl
          · exact h.returned other there (by rw [here]; exact earlier)
          · by_contra busy
            exact gone (by simp [there, busy])
        refine h.main_moved nofun (fun other there awaited => before other there ?_) ?_
        · have below := setup.below other there
          split at awaited
          · exact Nat.lt_succ_iff.mp awaited
          · omega
        · intro current next
          split at next
          · cases next
            assumption
          · cases next
  | stopped => cases executed

theorem WorkerSetup.Known.step (h : setup.Known trace s) (stepped : setup.step s act = some s')
    : setup.Known (trace ++ [act]) s' := by
  cases act with
  | worker cpu pc => exact h.worker stepped
  | main pc => exact h.main stepped

theorem WorkerSetup.known_run (reached : run setup.step setup.launched trace = some s)
    : setup.Known trace s :=
  run_induct setup.known_launched (fun _ _ _ _ known stepped => known.step stepped) reached

end Account

-----------------------------------------------------------------------------------------
-- The end of the main thread's wait
-----------------------------------------------------------------------------------------

section Wait

variable {setup : WorkerSetup} {s s' : WorkersState} {trace : List WorkersAct} {act : WorkersAct}
  {cpu : Nat}

/-- Once the main thread waits, no flag is raised any more. -/
theorem WorkerSetup.past_step (past : s.main.past = true) (stepped : setup.step s act = some s')
    : s'.main.past = true ∧ ∀ cpu, act ≠ .main (.raising cpu) := by
  cases act with
  | worker cpu pc =>
      obtain ⟨_, _, flags, next, _, rfl⟩ := WorkerSetup.step_worker stepped
      exact ⟨past, nofun⟩
  | main pc =>
      obtain ⟨rfl, executed⟩ := WorkerSetup.step_main stepped
      cases here : s.main with
      | waiting cpu =>
          rw [here, virtioForwardersShutdown] at executed
          split at executed
          · cases executed
          · cases executed
            refine ⟨?_, nofun⟩
            dsimp only
            split <;> rfl
      | stopped =>
          rw [here] at executed
          cases executed
      | serving | testing | raising =>
          rw [here] at past
          cases past

/-- The statements that a worker has before it at most, once its flag stays raised. -/
def WorkerPc.statementsLeft : WorkerPc → Nat
  | .iterate => 4
  | .testRunning => 3
  | .testStop => 2
  | .clearRunning => 1
  | _ => 0

/-- The workers for which the main thread has still to wait. -/
def MainPc.waitsLeft : MainPc → Nat
  | .waiting cpu => maxCpus - cpu
  | _ => 0

/-- The steps of all threads until the main thread has stopped, at most. -/
def WorkerSetup.stepsLeft (setup : WorkerSetup) (s : WorkersState) : Nat :=
  (∑ cpu ∈ Finset.range maxCpus, if setup.lcores cpu then (s.pc cpu).statementsLeft else 0)
    + s.main.waitsLeft

/-- The flags of all workers have been raised in time. -/
structure WorkerSetup.AllHeeded (setup : WorkerSetup) (s : WorkersState) : Prop where
  past : s.main.past = true
  heeded : ∃ trace, setup.Known trace s ∧ ∀ cpu, setup.lcores cpu = true → Heeded trace cpu

theorem heeded_append {rest : List WorkersAct} (h : Heeded trace cpu)
    : Heeded (trace ++ rest) cpu := by
  obtain ⟨before, after, rfl, cleared⟩ := h
  exact ⟨before, after ++ rest, by simp, cleared⟩

theorem WorkerSetup.AllHeeded.step (h : setup.AllHeeded s) (stepped : setup.step s act = some s')
    : setup.AllHeeded s' := by
  obtain ⟨past, trace, known, heeded⟩ := h
  exact ⟨(WorkerSetup.past_step past stepped).1, trace ++ [act], known.step stepped,
    fun cpu there => heeded_append (heeded cpu there)⟩

/-- A worker whose flag is raised comes nearer to its end with every statement. -/
theorem workerFunc_nearer {flags flags' : WorkerFlags} {pc pc' : WorkerPc}
    (stop : flags.mustStop = true) (started : pc.started = true)
    (executed : workerFunc flags pc = some (flags', pc'))
    : pc'.statementsLeft < pc.statementsLeft := by
  cases pc with
  | setRunning | clearStop => cases started
  | testRunning =>
      cases executed
      split <;> decide
  | testStop =>
      rw [workerFunc, stop] at executed
      cases executed
      decide
  | iterate | clearRunning =>
      cases executed
      decide
  | returned => cases executed

theorem MainPc.waitsLeft_next (below : cpu < maxCpus)
    : (if cpu + 1 < maxCpus then MainPc.waiting (cpu + 1) else .stopped).waitsLeft
      < (MainPc.waiting cpu).waitsLeft := by
  split
  · simp only [MainPc.waitsLeft]
    omega
  · simp only [MainPc.waitsLeft]
    omega

theorem WorkerSetup.AllHeeded.nearer (h : setup.AllHeeded s)
    (stepped : setup.step s act = some s')
    : setup.stepsLeft s' < setup.stepsLeft s := by
  obtain ⟨past, trace, known, heeded⟩ := h
  cases act with
  | worker cpu pc =>
      obtain ⟨lcore, rfl, flags, next, executed, rfl⟩ := WorkerSetup.step_worker stepped
      have account := known.accounted cpu lcore
      have started := account.cleared.mp (heeded cpu lcore).cleared
      have stop := (account.mustStop started).mpr (heeded cpu lcore)
      have nearer := workerFunc_nearer stop started executed
      refine Nat.add_lt_add_right (Finset.sum_lt_sum (fun other _ => ?_) ⟨cpu, ?_, ?_⟩) _
      · rcases eq_or_ne other cpu with rfl | different
        · simp only [lcore, if_true, Function.update_self]
          exact nearer.le
        · simp only [Function.update_of_ne different, le_refl]
      · exact Finset.mem_range.mpr (setup.below cpu lcore)
      · simpa only [lcore, if_true, Function.update_self] using nearer
  | main pc =>
      obtain ⟨rfl, executed⟩ := WorkerSetup.step_main stepped
      cases here : s.main with
      | waiting cpu =>
          rw [here, virtioForwardersShutdown] at executed
          split at executed
          · cases executed
          · cases executed
            refine Nat.add_lt_add_left ?_ _
            rw [here]
            exact MainPc.waitsLeft_next (known.inRange cpu here)
      | stopped =>
          rw [here] at executed
          cases executed
      | serving | testing | raising =>
          rw [here] at past
          cases past

/-- While the main thread waits, it or a worker for which it waits can go on. -/
theorem WorkerSetup.goes_on (past : s.main.past = true) (waits : s.main ≠ .stopped)
    : ∃ act s', setup.step s act = some s' := by
  cases here : s.main with
  | waiting cpu =>
      by_cases busy : setup.lcores cpu = true ∧ s.pc cpu ≠ .returned
      · refine ⟨.worker cpu (s.pc cpu), ?_⟩
        rw [WorkerSetup.step, if_pos ⟨busy.1, rfl⟩]
        cases there : s.pc cpu with
        | returned => exact absurd there busy.2
        | _ => exact ⟨_, rfl⟩
      · refine ⟨.main (.waiting cpu), ?_⟩
        rw [WorkerSetup.step, if_pos here, virtioForwardersShutdown, if_neg (by simpa using busy)]
        exact ⟨_, rfl⟩
  | stopped => exact absurd here waits
  | serving | testing | raising =>
      rw [here] at past
      cases past

/-- Without a further flag, a worker is heeded later only if it was before. -/
theorem WorkerSetup.heeded_later {more : List WorkersAct} (past : s.main.past = true)
    (reached : run setup.step s more = some s')
    : Heeded (trace ++ more) cpu → Heeded trace cpu := by
  have later : s'.main.past = true ∧ (Heeded (trace ++ more) cpu → Heeded trace cpu) := by
    refine run_induct (P := fun more s' => s'.main.past = true
      ∧ (Heeded (trace ++ more) cpu → Heeded trace cpu)) ⟨past, by simp⟩
      (fun more middle act after known stepped => ?_) reached
    obtain ⟨still, silent⟩ := WorkerSetup.past_step known.1 stepped
    refine ⟨still, fun heard => ?_⟩
    rw [← List.append_assoc] at heard
    rcases heeded_snoc.mp heard with earlier | ⟨raised, _⟩
    · exact known.2 earlier
    · exact absurd raised (silent cpu)
  exact later.2

/-- The steps after which the main thread has stopped. -/
def stopBound : Nat := 5 * maxCpus

theorem WorkerSetup.stepsLeft_le (setup : WorkerSetup) (s : WorkersState)
    : setup.stepsLeft s ≤ stopBound := by
  have worker (pc : WorkerPc) : pc.statementsLeft ≤ 4 := by cases pc <;> decide
  have each : ∀ cpu ∈ Finset.range maxCpus,
      (if setup.lcores cpu then (s.pc cpu).statementsLeft else 0) ≤ 4 := by
    intro cpu _
    split
    · exact worker _
    · exact Nat.zero_le 4
  have sum := Finset.sum_le_card_nsmul _ _ _ each
  rw [Finset.card_range, smul_eq_mul] at sum
  have waits : s.main.waitsLeft ≤ maxCpus := by
    cases s.main with
    | waiting cpu => exact Nat.sub_le _ _
    | _ => exact Nat.zero_le _
  unfold WorkerSetup.stepsLeft stopBound
  omega

end Wait

/-- **Stopping the workers**: when `virtio_forwarders_shutdown` has been through all CPUs, it comes
to its end if and only if it has raised `must_stop` of every worker lcore after the worker had
executed the first two statements of `worker_func`. Then the threads take a bounded number of
steps and always can take one until the main thread has stopped; otherwise the main thread waits
forever, whatever the threads do.
-/
theorem shutdown_ends_iff_heeded {setup : WorkerSetup} {trace : List WorkersAct}
    {s : WorkersState} (reached : run setup.step setup.launched trace = some s)
    (past : s.main.past = true)
    : ((∀ cpu, setup.lcores cpu = true → Heeded trace cpu)
        ∧ ∀ more s', run setup.step s more = some s'
          → more.length ≤ stopBound
            ∧ (s'.main = .stopped ∨ ∃ act s'', setup.step s' act = some s''))
      ∨ (∃ cpu, setup.lcores cpu = true ∧ ¬ Heeded trace cpu)
        ∧ ∀ more s', run setup.step s more = some s' → s'.main ≠ .stopped := by
  have known := WorkerSetup.known_run reached
  by_cases heeded : ∀ cpu, setup.lcores cpu = true → Heeded trace cpu
  · refine Or.inl ⟨heeded, fun more s' continued => ?_⟩
    have first : setup.AllHeeded s := ⟨past, trace, known, heeded⟩
    obtain ⟨later, bound⟩ := run_length_le first
      (fun _ _ _ known stepped => ⟨known.step stepped, known.nearer stepped⟩) continued
    refine ⟨?_, ?_⟩
    · have most := setup.stepsLeft_le s
      omega
    · by_cases stopped : s'.main = .stopped
      · exact Or.inl stopped
      · exact Or.inr (WorkerSetup.goes_on later.past stopped)
  · push Not at heeded
    obtain ⟨cpu, lcore, unheard⟩ := heeded
    refine Or.inr ⟨⟨cpu, lcore, unheard⟩, fun more s' continued stopped => ?_⟩
    have later : run setup.step setup.launched (trace ++ more) = some s' := by
      rw [run_append, reached]
      exact continued
    have known' := WorkerSetup.known_run later
    have returned := known'.returned cpu lcore (by rw [stopped]; trivial)
    have heard := (known'.accounted cpu lcore).left (by rw [returned]; rfl)
    exact unheard (WorkerSetup.heeded_later past continued heard)

/-- One worker, on CPU 1. -/
def oneLcore : WorkerSetup where
  lcores cpu := cpu = 1
  workerCoreBitmap := 2
  below cpu there := by
    cases of_decide_eq_true there
    decide

/-- Witness: the worker has only set `running` when its flag is raised, and clears it again. -/
theorem shutdown_waits_for_lost_stop
    : ∃ s, run oneLcore.step oneLcore.launched
          ([.worker 1 .setRunning, .main .serving, .main (.testing 0), .main (.testing 1),
            .main (.raising 1), .worker 1 .clearStop]
            ++ ((List.range maxCpus).drop 2).map fun cpu => .main (.testing cpu)) = some s
        ∧ ∀ more s', run oneLcore.step s more = some s' → s'.main ≠ .stopped := by
  let trace : List WorkersAct :=
    [.worker 1 .setRunning, .main .serving, .main (.testing 0), .main (.testing 1),
      .main (.raising 1), .worker 1 .clearStop]
      ++ ((List.range maxCpus).drop 2).map fun cpu => .main (.testing cpu)
  have ended : ((run oneLcore.step oneLcore.launched trace).any fun s =>
      s.main.past && (s.pc 1).started && !(s.flags 1).mustStop) = true := by
    decide +kernel
  obtain ⟨s, reached, found⟩ := (Option.any_eq_true _ _).mp ended
  simp only [Bool.and_eq_true, Bool.not_eq_true'] at found
  obtain ⟨⟨past, started⟩, cleared⟩ := found
  refine ⟨s, reached, ?_⟩
  rcases shutdown_ends_iff_heeded reached past with ⟨heeded, _⟩ | ⟨_, forever⟩
  · have account := (WorkerSetup.known_run reached).accounted 1 rfl
    have raised := (account.mustStop started).mpr (heeded 1 rfl)
    exact absurd (cleared.symm.trans raised) Bool.false_ne_true
  · exact forever

end VirtioForwarder
