import VirtioForwarder.Control.Attach
import VirtioForwarder.Inputs.Tables

/-! The core scheduler service of `zmq_core_sched.c`: a request moves relays to other CPUs, or
asks for the CPUs with workers.
-/

namespace VirtioForwarder

open Program

/-- `CoreSchedRequest.Op`; other numbers can be sent as well. -/
inductive CoreSchedOp
  | update
  | getEalCores
  | other (value : Int32)
  deriving DecidableEq, Repr

/-- `CoreSchedRequest.RelayCPU`. -/
structure RelayCpuEntry where
  relayNumber : Int32
  vf2virtioCpu : Int32
  virtio2vfCpu : Int32
  deriving DecidableEq, Repr

/-- `CoreSchedRequest`. -/
structure CoreSchedRequest where
  op : CoreSchedOp
  relayCpuMap : List RelayCpuEntry
  deriving DecidableEq, Repr

/-- `CoreSchedResponse.Status`. -/
inductive CoreSchedStatus
  | error
  | ok
  deriving DecidableEq, Repr

/-- `CoreSchedResponse`. -/
structure CoreSchedResponse where
  status : CoreSchedStatus
  errorCode : Option Int
  errorCodeSource : Option String
  ealCores : List Nat
  deriving DecidableEq, Repr

/-- The response that the handler starts from. -/
def CoreSchedResponse.initial : CoreSchedResponse := ⟨.error, none, none, []⟩

/-- `validate_CoreSchedRequest`. -/
def validateCoreSchedRequest (settings : Settings) (pc : CoreSchedRequest) : Bool :=
  pc.relayCpuMap.all fun entry => !(entry.relayNumber.toInt > settings.maxRelays)

/-- `handle_CoreSchedRequest_set_error_code`. -/
def CoreSchedResponse.setErrorCode {ι ω : Type} (response : CoreSchedResponse) (source : String)
    (code : Int)
    : Prog ι Int ω InputFault CoreSchedResponse :=
  if code = 0 then return { response with status := .ok }
  else if response.status = .error then
    return { response with errorCode := some code, errorCodeSource := some source }
  else .fail .assertion

/-- `migrate_relay_cpus` with the number of the relay as it comes from outside. -/
def migrateRelayNumber (settings : Settings) (number newVirtio2vfCpu newVf2virtioCpu : Int)
    : InputProg Int := do
  atEntry settings .virtioVfRelays number
  onDaemon (onRelay number.toNat
    (migrateRelayCpus settings number.toNat newVirtio2vfCpu newVf2virtioCpu))

/-- The loop over `relay_cpu_map`. -/
def updateRelays (settings : Settings) (response : CoreSchedResponse)
    : List RelayCpuEntry → InputProg CoreSchedResponse
  | [] => return response
  | entry :: entries => do
      let code ← migrateRelayNumber settings entry.relayNumber.toInt entry.virtio2vfCpu.toInt
        entry.vf2virtioCpu.toInt
      let response ← response.setErrorCode "migrate_relay_cpus()" code
      updateRelays settings response entries

/-- The bits of `worker_core_bitmap`, the lowest first. -/
def ealCores (settings : Settings) : List Nat :=
  Bits.setBits settings.workerCoreBitmap

/-- `handle_CoreSchedRequest` for a request that could be unpacked. -/
def handleCoreSchedRequest (settings : Settings) (pc : CoreSchedRequest)
    : InputProg CoreSchedResponse :=
  if !validateCoreSchedRequest settings pc then return .initial
  else
    match pc.op with
    | .update => updateRelays settings .initial pc.relayCpuMap
    | .getEalCores =>
        if ealCores settings = [] then
          CoreSchedResponse.initial.setErrorCode "worker core request" 1
        else return { CoreSchedResponse.initial with status := .ok, ealCores := ealCores settings }
    | .other _ => return .initial

-----------------------------------------------------------------------------------------
-- The entries that the loop comes to
-----------------------------------------------------------------------------------------

/-- `migrate_relay_cpus` refuses the CPUs: there is no worker at all, and a CPU is named that
shifts to bit 0.
-/
def refusesCpus (settings : Settings) (newVirtio2vfCpu newVf2virtioCpu : Int) : Prop :=
  settings.workerCoreBitmap = 0 ∧ (newVirtio2vfCpu % 64 = 0 ∨ newVf2virtioCpu % 64 = 0)

instance (settings : Settings) (newVirtio2vfCpu newVf2virtioCpu : Int)
    : Decidable (refusesCpus settings newVirtio2vfCpu newVf2virtioCpu) :=
  inferInstanceAs (Decidable (_ ∧ _))

/-- The entries that the loop comes to name relays of the table. It does not come to an entry
after one that is refused when another one was not.
-/
def relaysInTable (settings : Settings) : Bool → List RelayCpuEntry → Prop
  | _, [] => True
  | moved, entry :: entries =>
      (0 ≤ entry.relayNumber.toInt ∧ entry.relayNumber.toInt < settings.maxRelays)
      ∧ if refusesCpus settings entry.virtio2vfCpu.toInt entry.vf2virtioCpu.toInt then
          moved = false → relaysInTable settings false entries
        else relaysInTable settings true entries

section Migration

variable {settings : Settings} {id : Nat} {newVirtio2vfCpu newVf2virtioCpu : Int}

/-- A count shifts the one to bit 0 if it is a multiple of 64. -/
theorem getLsbD_shiftedOne_zero (count : Int)
    : (shiftedOne count).getLsbD 0 = decide (count % 64 = 0) := by
  have bounds : 0 ≤ count % 64 := Int.emod_nonneg count (by decide)
  rw [shiftedOne, BitVec.getLsbD_shiftLeft]
  rcases eq_or_ne (count % 64) 0 with zero | moved
  · simp [zero]
  · have positive : 0 < (count % 64).toNat := by omega
    simp [moved, positive]

theorem mask_refuses_iff
    : ((shiftedOne newVirtio2vfCpu ||| shiftedOne newVf2virtioCpu)
        &&& (if settings.workerCoreBitmap = 0 then 1 else 0) ≠ 0)
      ↔ refusesCpus settings newVirtio2vfCpu newVf2virtioCpu := by
  unfold refusesCpus
  by_cases empty : settings.workerCoreBitmap = 0
  · rw [if_pos empty]
    simp only [empty, true_and]
    constructor
    · intro differs
      by_contra none
      rw [not_or] at none
      apply differs
      apply BitVec.eq_of_getLsbD_eq
      intro i inside
      rcases Nat.eq_zero_or_pos i with rfl | positive
      · rw [BitVec.getLsbD_and, BitVec.getLsbD_or, getLsbD_shiftedOne_zero,
          getLsbD_shiftedOne_zero]
        simp [none]
      · simp [BitVec.getLsbD_one, positive.ne']
    · intro low same
      have bit := congrArg (BitVec.getLsbD · 0) same
      simp only [BitVec.getLsbD_and, BitVec.getLsbD_or, getLsbD_shiftedOne_zero] at bit
      rcases low with low | low
      · simp [low] at bit
      · simp [low] at bit
  · rw [if_neg empty]
    simp only [empty, false_and]
    simp

theorem migrateRelayCpus_eq
    : migrateRelayCpus settings id newVirtio2vfCpu newVf2virtioCpu
      = if refusesCpus settings newVirtio2vfCpu newVf2virtioCpu then pure (-1)
        else do
          moveVirtio2vf id newVirtio2vfCpu
          moveVf2virtio id newVf2virtioCpu
          return 0 := by
  unfold migrateRelayCpus
  exact if_congr mask_refuses_iff rfl rfl

theorem migrateRelayCpus_returns
    : (migrateRelayCpus settings id newVirtio2vfCpu newVf2virtioCpu).Returns fun code =>
        code = if refusesCpus settings newVirtio2vfCpu newVf2virtioCpu then -1 else 0 := by
  rw [migrateRelayCpus_eq]
  split
  · rfl
  · exact .bind fun _ => .bind fun _ => rfl

/-- A look at a worker can come to an end, whatever the CPU. -/
theorem lookWorker_steady {cpu : Int} {seen : World}
    : ∃ worker, (lookWorker cpu).steady 0 seen = .ok worker := by
  unfold lookWorker
  split <;> exact ⟨_, rfl⟩

/-- A migration can return from a relay that has neither a guest nor a VF. -/
theorem migrateRelayCpus_steady {world : World} (guest : (world.relays id).vio.state = .uninit)
    (vf : (world.relays id).dpdk.state = .uninit)
    : (migrateRelayCpus settings id newVirtio2vfCpu newVf2virtioCpu).steady 0 world
      = .ok (if refusesCpus settings newVirtio2vfCpu newVf2virtioCpu then -1 else 0) := by
  rw [migrateRelayCpus_eq]
  split
  · rfl
  · have first : (moveVirtio2vf id newVirtio2vfCpu).steady 0 world = .ok () := by
      obtain ⟨worker, looked⟩ : ∃ worker, (lookWorker newVirtio2vfCpu).steady 0 world = .ok worker :=
        lookWorker_steady
      unfold moveVirtio2vf
      rw [Prog.steady_bind looked]
      split
      · rfl
      · simp [look, Prog.perform, bind, Prog.bind, Prog.steady, guest]
    have second : (moveVf2virtio id newVf2virtioCpu).steady 0 world = .ok () := by
      obtain ⟨worker, looked⟩ : ∃ worker, (lookWorker newVf2virtioCpu).steady 0 world = .ok worker :=
        lookWorker_steady
      unfold moveVf2virtio
      rw [Prog.steady_bind looked]
      split
      · rfl
      · simp [vfInitialized, look, Prog.perform, bind, Prog.bind, Prog.steady, vf, pure]
    rw [Prog.steady_bind first, Prog.steady_bind second]
    rfl

end Migration

section Updates

variable {settings : Settings}

/-- The number of a relay is looked up first, then nothing else is outside the tables. -/
theorem migrateRelayNumber_all {number newVirtio2vfCpu newVf2virtioCpu : Int}
    : (migrateRelayNumber settings number newVirtio2vfCpu newVf2virtioCpu).All
        (InputInstr.InTables settings) (fun _ => True)
      ↔ 0 ≤ number ∧ number < settings.maxRelays := by
  constructor
  · intro all
    exact all_atEntry.mp all.of_bind
  · intro inside
    exact (all_atEntry.mpr inside).bind fun _ => all_onDaemon (all_onRelay (by omega) _)

theorem migrateRelayNumber_returns {number newVirtio2vfCpu newVf2virtioCpu : Int}
    : (migrateRelayNumber settings number newVirtio2vfCpu newVf2virtioCpu).Returns fun code =>
        code = if refusesCpus settings newVirtio2vfCpu newVf2virtioCpu then -1 else 0 :=
  .bind fun _ => .embed (.embed migrateRelayCpus_returns)

theorem migrateRelayNumber_steady {number newVirtio2vfCpu newVf2virtioCpu : Int}
    (inside : 0 ≤ number ∧ number < settings.maxRelays)
    : (migrateRelayNumber settings number newVirtio2vfCpu newVf2virtioCpu).steady 0
        (.unused settings)
      = .ok (if refusesCpus settings newVirtio2vfCpu newVf2virtioCpu then -1 else 0) := by
  unfold migrateRelayNumber
  rw [Prog.steady_bind (steady_atEntry 0 (.unused settings) inside)]
  apply Prog.steady_embed
  apply Prog.steady_embed
  exact migrateRelayCpus_steady rfl rfl

theorem setErrorCode_zero {ι ω : Type} (response : CoreSchedResponse) (source : String)
    : (response.setErrorCode source 0 : Prog ι Int ω InputFault _)
      = pure { response with status := .ok } :=
  if_pos rfl

theorem setErrorCode_failed {ι ω : Type} {response : CoreSchedResponse} (source : String)
    {code : Int} (failed : code ≠ 0) (before : response.status = .error)
    : (response.setErrorCode source code : Prog ι Int ω InputFault _)
      = pure { response with errorCode := some code, errorCodeSource := some source } := by
  unfold CoreSchedResponse.setErrorCode
  rw [if_neg failed, if_pos before]

theorem setErrorCode_asserts {ι ω : Type} {response : CoreSchedResponse} (source : String)
    {code : Int} (failed : code ≠ 0) (before : response.status = .ok)
    : (response.setErrorCode source code : Prog ι Int ω InputFault _) = .fail .assertion := by
  unfold CoreSchedResponse.setErrorCode
  rw [if_neg failed, if_neg (by simp [before])]

/-- The loop stays inside the tables if and only if the entries it comes to do, by induction
on the entries.
-/
theorem updateRelays_all (response : CoreSchedResponse) (entries : List RelayCpuEntry)
    : (updateRelays settings response entries).All (InputInstr.InTables settings) (fun _ => True)
      ↔ relaysInTable settings (response.status = .ok) entries := by
  induction entries generalizing response with
  | nil => exact ⟨fun _ => trivial, fun _ => trivial⟩
  | cons entry entries ih =>
      simp only [updateRelays, relaysInTable]
      constructor
      · intro all
        have inside := migrateRelayNumber_all.mp all.of_bind
        refine ⟨inside, ?_⟩
        split
        · rename_i refused
          intro first
          have before : response.status = .error := by
            cases status : response.status with
            | error => rfl
            | ok => simp [status] at first
          have rest := all.of_bind_steady (migrateRelayNumber_steady inside)
          rw [if_pos refused, setErrorCode_failed _ (by decide) before] at rest
          have later := (ih _).mp rest
          simpa [before] using later
        · rename_i accepted
          have rest := all.of_bind_steady (migrateRelayNumber_steady inside)
          rw [if_neg accepted, setErrorCode_zero] at rest
          have later := (ih _).mp rest
          simpa using later
      · rintro ⟨inside, later⟩
        refine (migrateRelayNumber_all.mpr inside).bind_returns migrateRelayNumber_returns
          fun code returned => ?_
        subst returned
        split at later
        · rename_i refused
          rw [if_pos refused]
          cases before : response.status with
          | error =>
              rw [setErrorCode_failed _ (by decide) before]
              refine (ih _).mpr ?_
              simpa [before] using later
          | ok =>
              rw [setErrorCode_asserts _ (by decide) before]
              trivial
        · rename_i accepted
          rw [if_neg accepted, setErrorCode_zero]
          refine (ih _).mpr ?_
          simpa using later

end Updates

end VirtioForwarder
