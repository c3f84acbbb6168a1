import VirtioForwarder.Inputs.CommandLine
import VirtioForwarder.Library.Python
import VirtioForwarder.Service.CpuMigration

/-! Pins of relays to CPUs, which the daemon reads from its option `--virtio-cpu` when it starts,
and `virtioforwarder_core_pinner.py` from an option of the same name at run time; exactly which
pins mean the same to both.
-/

namespace VirtioForwarder

open Program CText

/-- How the pinner ends without a request: a usage message after a `ValueError` of `int`, an
`IndexError` that nobody handles, or a number that does not fit its field of the message.
-/
inductive PinnerError
  | usage
  | indexError
  | fieldRange
  deriving DecidableEq, Repr

/-- `int(text)` in the pinner. -/
def pinnerInt (text : List Char) : Except PinnerError Int :=
  match Python.int text with
  | some value => .ok value
  | none => .error .usage

/-- An element of a list. -/
def pinnerIndex (items : List (List Char)) (index : Nat) : Except PinnerError (List Char) :=
  match items[index]? with
  | some item => .ok item
  | none => .error .indexError

/-- Assign a number to a field of type `int32`. -/
def pinnerField (value : Int) : Except PinnerError Int32 :=
  if -2147483648 ≤ value ∧ value ≤ 2147483647 then .ok (.ofInt value) else .error .fieldRange

/-- The body of the loop over `args.virtio_cpu` in the `main` of the pinner. -/
def pinMapping (mapping : List Char) : Except PinnerError RelayCpuEntry := do
  let nRelay ← pinnerInt (← pinnerIndex (mapping.splitOn ':') 0)
  let virtio2vf ← pinnerInt (← pinnerIndex ((← pinnerIndex (mapping.splitOn ':') 1).splitOn ',') 0)
  let vf2virtio ← pinnerInt (← pinnerIndex ((← pinnerIndex (mapping.splitOn ':') 1).splitOn ',') 1)
  return {
    relayNumber := ← pinnerField nRelay
    virtio2vfCpu := ← pinnerField virtio2vf
    vf2virtioCpu := ← pinnerField vf2virtio
  }

/-- The request that the pinner sends for its options, if there are any. -/
def pinRequest (mappings : List (List Char)) : Except PinnerError (Option CoreSchedRequest) := do
  let relayMappings ← mappings.mapM pinMapping
  if relayMappings = [] then return none
  return some ⟨.update, relayMappings⟩

/-- How the accesses of a handler run. -/
def inputAccesses : Machine InputInstr Int Daemon Daemon where
  exec
    | .entry _ _, _, daemon => daemon
    | .daemon access, answer, daemon => access.exec answer daemon
  obs daemon := daemon

-----------------------------------------------------------------------------------------
-- Pins
-----------------------------------------------------------------------------------------

/-- `<relay>:<cpu1>` or `<relay>:<cpu1>,<cpu2>` with decimal numbers. -/
structure Pin where
  relay : Digits
  cpu1 : Digits
  cpu2 : Option Digits

/-- The text of a pin. -/
def Pin.text (pin : Pin) : List Char :=
  pin.relay.chars ++ ':' :: (pin.cpu1.chars
    ++ match pin.cpu2 with
      | none => []
      | some cpu2 => ',' :: cpu2.chars)

/-- The numbers of relays and CPUs that exist. -/
structure Pin.InRange (settings : Settings) (pin : Pin) : Prop where
  relay : pin.relay.value < settings.maxRelays
  cpu1 : pin.cpu1.value < maxCpus
  cpu2 : ∀ cpu2 ∈ pin.cpu2, cpu2.value < maxCpus

/-- A guest is connected, a VF is in use, and both sides are on CPUs of the table. -/
structure Relay.FullyActive (relay : Relay) : Prop where
  guest : relay.vio.state = .ready
  vf : relay.Active
  virtio2vf : CpuIndex relay.vio.vio2vfCpu
  vf2virtio : CpuIndex relay.dpdk.vf2vioCpu

/-- The option stores for a pin what the pinner sends and the daemon then applies. -/
def Pin.MeansTheSame (settings : Settings) (daemon : Daemon) (pin : Pin) : Prop :=
  ∃ assignment entry response after,
    cmdlineSetVfCpu settings pin.text = .ok assignment
    ∧ pinRequest [pin.text] = .ok (some ⟨.update, [entry]⟩)
    ∧ entry.relayNumber.toInt = assignment.virtio
    ∧ entry.virtio2vfCpu.toInt = assignment.vio2vfCpu
    ∧ entry.vf2virtioCpu.toInt = assignment.vf2vioCpu
    ∧ (handleCoreSchedRequest settings ⟨.update, [entry]⟩).alone inputAccesses (fun _ => 0) daemon
      = (.ok response, after)
    ∧ (after.world.relays assignment.virtio).vio.vio2vfCpu = assignment.vio2vfCpu
    ∧ (after.world.relays assignment.virtio).dpdk.vf2vioCpu = assignment.vf2vioCpu

/-- `migrate_relay_cpus` takes a relay to the CPU, or the relay is there already. -/
def World.Reaches (settings : Settings) (world : World) (id cpu : Nat) : Prop :=
  (world.workers cpu).initialized = true ∧ ¬ refusesCpus settings cpu cpu
  ∨ (world.relays id).vio.vio2vfCpu = cpu ∧ (world.relays id).dpdk.vf2vioCpu = cpu

section Pins

variable {settings : Settings} {daemon : Daemon} {pin : Pin}

/-- The option takes the first CPU for the direction to the guest. -/
theorem Pin.stored (inRange : pin.InRange settings)
    : cmdlineSetVfCpu settings pin.text
      = .ok ⟨pin.relay.value, pin.cpu1.value,
          (pin.cpu2.map Digits.value).getD pin.cpu1.value⟩ := by
  obtain ⟨relay, cpu1, cpu2⟩ := pin
  obtain ⟨relayBelow, cpu1Below, cpu2Below⟩ := inRange
  have fit := settings.relaysFit
  unfold maxCpus at cpu1Below cpu2Below
  dsimp only at relayBelow cpu1Below cpu2Below
  have scanned : scanCpuSpecifier (Pin.text ⟨relay, cpu1, cpu2⟩)
      = some ⟨relay.value, cpu1.value, (cpu2.map Digits.value).getD cpu1.value⟩ := by
    unfold scanCpuSpecifier Pin.text
    rw [scanUnsigned_digits relay (by omega) (by decide) (by simp)]
    cases cpu2 with
    | none =>
        have single : ',' ∉ relay.chars ++ ':' :: (cpu1.chars ++ []) := by
          simp [Digits.not_mem]
        simp only [Option.bind_eq_bind, Option.bind_some]
        rw [scanUnsigned_digits cpu1 (by omega) (by decide) (by simp)]
        simp only [Option.bind_some, if_neg single]
        rfl
    | some cpu2 =>
        have double : ',' ∈ relay.chars ++ ':' :: (cpu1.chars ++ ',' :: cpu2.chars) := by
          simp
        have small := cpu2Below cpu2 rfl
        have last : scanUnsigned 32 (cpu2.chars ++ []) = some (cpu2.value, []) :=
          scanUnsigned_digits cpu2 (by omega) (by decide) nofun
        rw [List.append_nil] at last
        simp only [Option.bind_eq_bind, Option.bind_some]
        rw [scanUnsigned_digits cpu1 (by omega) (by decide) (by simp)]
        simp only [Option.bind_some, if_pos double, last]
        rfl
  have second : (cpu2.map Digits.value).getD cpu1.value < 64 := by
    cases cpu2 with
    | none => exact cpu1Below
    | some cpu2 => exact cpu2Below cpu2 rfl
  simp only [cmdlineSetVfCpu, scanned]
  rw [if_neg (by omega), if_neg (by omega)]

/-- The pinner takes the first CPU for the direction from the guest, and needs both. -/
theorem Pin.mapped (inRange : pin.InRange settings)
    : pinMapping pin.text
      = match pin.cpu2 with
        | none => .error .indexError
        | some cpu2 =>
            .ok ⟨.ofInt pin.relay.value, .ofInt cpu2.value, .ofInt pin.cpu1.value⟩ := by
  obtain ⟨relay, cpu1, cpu2⟩ := pin
  obtain ⟨relayBelow, cpu1Below, cpu2Below⟩ := inRange
  have fit := settings.relaysFit
  unfold maxCpus at cpu1Below cpu2Below
  dsimp only at relayBelow cpu1Below cpu2Below
  have field {value : Nat} (small : value < 64) : pinnerField value = .ok (.ofInt value) :=
    if_pos ⟨by omega, by omega⟩
  unfold pinMapping Pin.text
  cases cpu2 with
  | none =>
      rw [List.append_nil, List.splitOn_append_cons_self_of_not_mem (Digits.not_mem rfl),
        List.splitOn_eq_singleton (Digits.not_mem rfl)]
      simp [pinnerIndex, pinnerInt, Python.int_digits, List.splitOn_eq_singleton,
        Digits.not_mem, bind, Except.bind]
  | some cpu2 =>
      have rest : ':' ∉ cpu1.chars ++ ',' :: cpu2.chars := by
        simp [Digits.not_mem]
      dsimp only
      rw [List.splitOn_append_cons_self_of_not_mem (Digits.not_mem rfl),
        List.splitOn_eq_singleton rest]
      simp [pinnerIndex, pinnerInt, Python.int_digits, List.splitOn_append_cons_self_of_not_mem,
        List.splitOn_eq_singleton, Digits.not_mem, bind, Except.bind, field cpu1Below,
        field (cpu2Below cpu2 rfl), field (relayBelow.trans_le fit), pure, Except.pure]

theorem Pin.requested (inRange : pin.InRange settings)
    : pinRequest [pin.text]
      = match pin.cpu2 with
        | none => .error .indexError
        | some cpu2 =>
            .ok (some ⟨.update,
              [⟨.ofInt pin.relay.value, .ofInt cpu2.value, .ofInt pin.cpu1.value⟩]⟩) := by
  simp only [pinRequest, List.mapM_cons, List.mapM_nil, Pin.mapped inRange]
  cases pin.cpu2 <;> rfl

theorem migrateRelayNumber_alone {id : Nat} {newVirtio2vfCpu newVf2virtioCpu code : Int}
    {world : World} (below : id < settings.maxRelays)
    (migrated : migration settings 0 daemon.world id newVirtio2vfCpu newVf2virtioCpu
      = (.ok code, world))
    : ∃ after,
        (migrateRelayNumber settings id newVirtio2vfCpu newVf2virtioCpu).alone inputAccesses
            (fun _ => 0) daemon
          = (.ok code, after)
        ∧ after.world = world := by
  unfold migration at migrated
  have entered : (atEntry settings .virtioVfRelays id).alone inputAccesses (fun _ => 0) daemon
      = (.ok (), daemon) := by
    change Prog.alone _ _ (if 0 ≤ (id : Int) ∧ (id : Int) < settings.maxRelays then _ else _) _ = _
    rw [if_pos (by omega)]
    rfl
  obtain ⟨after, inner, same⟩ : ∃ after,
      (onRelay id (migrateRelayCpus settings id newVirtio2vfCpu newVf2virtioCpu)).alone
          ⟨SockInstr.exec, fun d => d⟩ (fun _ => 0) daemon
        = (.ok code, after)
      ∧ after.world = world :=
    Prog.alone_embed _ (SockInstr.control id) Daemon.world (fun _ => rfl) (fun _ _ _ => rfl)
      (fun _ => rfl) migrated
  obtain ⟨after', outer, rfl⟩ : ∃ after',
      (onDaemon (onRelay id (migrateRelayCpus settings id newVirtio2vfCpu newVf2virtioCpu))).alone
          inputAccesses (fun _ => 0) daemon
        = (.ok code, after')
      ∧ after' = after := by
    refine Prog.alone_embed inputAccesses .daemon (fun d => d) ?_ ?_ ?_ inner <;> intros <;> rfl
  refine ⟨after', ?_, same⟩
  unfold migrateRelayNumber
  rw [Prog.alone_bind entered]
  exact outer

/-- A request for one relay of the table is carried out by one migration. -/
theorem handleCoreSchedRequest_single {entry : RelayCpuEntry} {code : Int} {world : World} {id : Nat}
    (number : entry.relayNumber.toInt = id) (below : id < settings.maxRelays)
    (migrated : migration settings 0 daemon.world id entry.virtio2vfCpu.toInt
      entry.vf2virtioCpu.toInt = (.ok code, world))
    : ∃ response after,
        (handleCoreSchedRequest settings ⟨.update, [entry]⟩).alone inputAccesses (fun _ => 0) daemon
          = (.ok response, after)
        ∧ after.world = world := by
  have valid : validateCoreSchedRequest settings ⟨.update, [entry]⟩ = true := by
    simp [validateCoreSchedRequest, number]
    omega
  obtain ⟨after, moved, same⟩ := migrateRelayNumber_alone below migrated
  obtain ⟨response, told⟩ : ∃ response,
      (CoreSchedResponse.initial.setErrorCode "migrate_relay_cpus()" code : InputProg _)
        = pure response := by
    by_cases zero : code = 0
    · exact ⟨_, zero ▸ setErrorCode_zero _ _⟩
    · exact ⟨_, setErrorCode_failed _ zero rfl⟩
  refine ⟨response, after, ?_, same⟩
  simp only [handleCoreSchedRequest, valid, Bool.not_true, Bool.false_eq_true, if_false,
    updateRelays, number]
  rw [Prog.alone_bind moved, told]
  rfl

/-- Where a relay in full use is after a migration of both sides to one CPU. -/
theorem migration_reaches_iff (settings : Settings) {world : World} {id cpu : Nat}
    (active : (world.relays id).FullyActive) (below : cpu < maxCpus)
    : ∃ code after,
        migration settings 0 world id cpu cpu = (.ok code, after)
        ∧ ((after.relays id).vio.vio2vfCpu = cpu ∧ (after.relays id).dpdk.vf2vioCpu = cpu
          ↔ world.Reaches settings id cpu) := by
  have index : CpuIndex cpu := ⟨by omega, by omega⟩
  unfold World.Reaches
  by_cases refused : refusesCpus settings cpu cpu
  · refine ⟨-1, world, migration_refused refused, ?_⟩
    simp [refused]
  · cases running : (world.workers cpu).initialized with
    | false =>
        refine ⟨0, world, migration_stays refused index index running running, ?_⟩
        simp
    | true =>
        have can : world.CanMove id cpu cpu :=
          ⟨fun _ => ⟨running, active.virtio2vf⟩, fun _ => ⟨running, active.vf2virtio⟩⟩
        refine ⟨0, _, migration_moves refused index index can, ?_⟩
        simp [World.migrated, active.guest, active.vf, refused]

/-- For every pin with numbers in range and every relay in full use, the option and the pinner
mean the same exactly if the pin names the same CPU twice and the relay gets there.
-/
theorem pin_means_the_same_iff (inRange : pin.InRange settings)
    (active : (daemon.world.relays pin.relay.value).FullyActive)
    : pin.MeansTheSame settings daemon
      ↔ ∃ cpu2,
          pin.cpu2 = some cpu2
          ∧ cpu2.value = pin.cpu1.value
          ∧ daemon.world.Reaches settings pin.relay.value pin.cpu1.value := by
  have fit := settings.relaysFit
  have relayBelow := inRange.relay
  have cpu1Below := inRange.cpu1
  have exact32 {value : Nat} (small : value < 64) : (Int32.ofInt value).toInt = value :=
    Int32.toInt_ofInt_of_le (by omega) (by omega)
  obtain ⟨code, world, migrated, reaches⟩ := migration_reaches_iff settings active cpu1Below
  unfold Pin.MeansTheSame
  rw [Pin.stored inRange, Pin.requested inRange]
  cases two : pin.cpu2 with
  | none =>
      constructor
      · rintro ⟨_, _, _, _, _, sent, _⟩
        cases sent
      · rintro ⟨_, absent, _⟩
        cases absent
  | some cpu2 =>
      have cpu2Below := inRange.cpu2 cpu2 two
      unfold maxCpus at cpu1Below cpu2Below
      have number := exact32 (relayBelow.trans_le fit)
      have carriedOut : ∃ response after,
          (handleCoreSchedRequest settings ⟨.update, [⟨.ofInt pin.relay.value,
              .ofInt pin.cpu1.value, .ofInt pin.cpu1.value⟩]⟩).alone inputAccesses (fun _ => 0)
              daemon
            = (.ok response, after)
          ∧ after.world = world :=
        handleCoreSchedRequest_single number relayBelow
          (by simpa only [exact32 cpu1Below] using migrated)
      constructor
      · rintro ⟨_, _, response, after, stored, sent, _, virtio2vf, vf2virtio, handled, first, second⟩
        cases stored
        cases sent
        simp only [exact32 cpu1Below, exact32 cpu2Below, Option.map_some, Option.getD_some]
          at virtio2vf vf2virtio first second
        have same : cpu2.value = pin.cpu1.value := by omega
        rw [same] at handled first
        obtain ⟨_, _, handled', rfl⟩ := carriedOut
        rw [handled] at handled'
        cases handled'
        exact ⟨cpu2, rfl, same, reaches.mp ⟨first, second⟩⟩
      · rintro ⟨other, this, same, reached⟩
        cases this
        obtain ⟨response, after, handled, rfl⟩ := carriedOut
        obtain ⟨first, second⟩ := reaches.mpr reached
        refine ⟨_, _, response, after, rfl, rfl, number, ?_, ?_, ?_, ?_, second⟩
        · rw [exact32 cpu1Below]
          simp [same]
        · rw [exact32 cpu2Below, same]
        · rw [same]
          exact handled
        · simpa [same] using first

end Pins

/-- A daemon whose first relay is in full use on CPU 0. -/
def busyDaemon : Daemon where
  world := (World.initial twoWorkers false fun _ => true).modifyRelay 0 fun relay =>
    { relay with
      vio := { relay.vio with state := .ready, vio2vfCpu := 0 }
      dpdk := { relay.dpdk with state := .ready, vf2vioCpu := 0 } }
  relayIfnameMap _ := none

theorem busyDaemon_active : (busyDaemon.world.relays 0).FullyActive :=
  ⟨rfl, Or.inl rfl, by unfold CpuIndex; decide, by unfold CpuIndex; decide⟩

/-- The number 0. -/
def digit0 : Digits := ⟨['0'], by decide, by simp⟩

/-- The number 1. -/
def digit1 : Digits := ⟨['1'], by decide, by simp⟩

/-- Witness: both sides of relay 0 are pinned to CPU 1. -/
theorem one_cpu_named_twice_means_the_same
    : Pin.text ⟨digit0, digit1, some digit1⟩ = "0:1,1".toList
      ∧ Pin.MeansTheSame twoWorkers busyDaemon ⟨digit0, digit1, some digit1⟩ := by
  refine ⟨by decide, (pin_means_the_same_iff ⟨by decide, by decide, ?_⟩ busyDaemon_active).mpr
    ⟨digit1, rfl, rfl, Or.inl ⟨rfl, ?_⟩⟩⟩
  · rintro _ ⟨⟩
    decide
  · rintro ⟨empty, _⟩
    exact absurd empty (by decide)

/-- With two CPUs, the directions are swapped. -/
theorem two_cpus_mean_the_opposite
    : ¬ ∀ (settings : Settings) (daemon : Daemon) (pin : Pin),
        pin.InRange settings
        → (daemon.world.relays pin.relay.value).FullyActive
        → pin.MeansTheSame settings daemon := by
  intro claim
  have inRange : Pin.InRange twoWorkers ⟨digit0, digit0, some digit1⟩ := by
    refine ⟨by decide, by decide, ?_⟩
    rintro _ ⟨⟩
    decide
  obtain ⟨assignment, entry, _, _, stored, sent, _, swapped, _⟩ :=
    claim twoWorkers busyDaemon ⟨digit0, digit0, some digit1⟩ inRange busyDaemon_active
  rw [Pin.stored inRange] at stored
  rw [Pin.requested inRange] at sent
  cases stored
  cases sent
  exact absurd swapped (by decide)

end VirtioForwarder
