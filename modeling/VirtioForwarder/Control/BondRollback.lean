import VirtioForwarder.Control.Frame

/-! What a bond that could not be added has cleaned up. `virtio_forwarder_bond_add` is followed
by a program that also notes what `init_vf` returned and which ports were passed to
`cleanup_eth_dev` on the error path.
-/

namespace VirtioForwarder

open Program

/-- A port that the error path passes to `cleanup_eth_dev`, and whether its entry of
`slave_port_ids` was assigned.
-/
structure CleanedPort where
  port : Nat
  assigned : Bool
  deriving DecidableEq, Repr

/-- The entry of `slave_port_ids`, as far as it was assigned. -/
def CleanedPort.entry (cleaned : CleanedPort) : Option Nat :=
  if cleaned.assigned then some cleaned.port else none

/-- What `init_vf` leaves behind: the port, or the error with the port if it was found. -/
abbrev InitResult := Except (Int × Option Nat) Nat

/-- The notes on a call of `virtio_forwarder_bond_add`: the results of `init_vf`, the ports that
were cleaned up, and whether the bond was created and freed.
-/
structure BondNotes where
  inits : List InitResult
  cleaned : List CleanedPort
  created : Bool
  freed : Bool
  deriving Repr

/-- What `init_vf` leaves in the entry of `slave_port_ids`. -/
def initEntry : InitResult → Option Nat
  | .ok port => some port
  | .error (_, port) => port

/-- `addSlaves` with the results of `init_vf`. -/
def addSlavesNoted (settings : Settings) (id bond : Nat) (inits : List InitResult)
    : List (List Char) → Control (Bool × List InitResult)
  | [] => return (true, inits)
  | slave :: slaves => do
      match ← initVf settings id slave with
      | .error failure => return (false, inits ++ [.error failure])
      | .ok port =>
          let _ ← drive (.bondSlaveAdd bond port)
          addSlavesNoted settings id bond (inits ++ [.ok port]) slaves

/-- `cleanupSlaves` with the ports that it cleans up. -/
def cleanupSlavesNoted : List (Option Nat) → Control (List CleanedPort)
  | [] => return []
  | some port :: ports => do
      let _ ← cleanupEthDev port
      let rest ← cleanupSlavesNoted ports
      return ⟨port, true⟩ :: rest
  | none :: ports => do
      let garbage ← drive .uninitializedPort
      let _ ← cleanupEthDev garbage.toNat
      let rest ← cleanupSlavesNoted ports
      return ⟨garbage.toNat, false⟩ :: rest

/-- `deconfigureBond` with the notes. -/
def deconfigureBondNoted (name : List Char) (ports : List (Option Nat))
    (inits : List InitResult) (rc : Int)
    : Control (Int × BondNotes) := do
  let cleaned ← cleanupSlavesNoted ports
  let _ ← drive (.bondFree name)
  return (rc, ⟨inits, cleaned, true, true⟩)

/-- `bondAdd` with the notes. -/
def bondAddNoted (settings : Settings) (slaves : List (List Char)) (name : List Char) (id : Nat)
    : Control (Int × BondNotes) := do
  if id ≥ settings.maxRelays then return (1, ⟨[], [], false, false⟩)
  if (← look id .dpdkState).dpdk.state ≠ .uninit then return (8, ⟨[], [], false, false⟩)
  let node := (← look id .mempoolSocketId).vio.mempoolSocketId
  let socketId := if node = socketIdAny then 0 else node
  let created ← drive (.bondCreate name socketId)
  if created < 0 then return (2, ⟨[], [], false, false⟩)
  let port := created.toNat % 2 ^ 16
  if ← slaveInUse slaves then deconfigureBondNoted name [] [] 3
  else
    let _ ← migrateMempool id socketId (bondPoolSize slaves.length)
    if (← devQueueConfigure id port true) ≠ 0 then deconfigureBondNoted name [] [] 4
    else
      let (added, inits) ← addSlavesNoted settings id port [] slaves
      let ports := inits.map initEntry
      let ports := ports ++ List.replicate (slaves.length - ports.length) none
      if !added then deconfigureBondNoted name ports inits 5
      else if (← configureDevWithVirtio settings id name port true slaves.length) ≠ 0 then
        deconfigureBondNoted name ports inits 6
      else return (0, ⟨inits, [], true, false⟩)

-----------------------------------------------------------------------------------------
-- The notes change nothing
-----------------------------------------------------------------------------------------

theorem addSlaves_eq_noted (settings : Settings) (id bond : Nat) (slaves : List (List Char))
    (inits : List InitResult)
    : addSlaves settings id bond (inits.map initEntry) slaves
      = do
          let (added, inits) ← addSlavesNoted settings id bond inits slaves
          return (added, inits.map initEntry) := by
  induction slaves generalizing inits with
  | nil => rfl
  | cons slave slaves ih =>
      simp only [addSlaves, addSlavesNoted, bind_assoc]
      refine congrArg (initVf settings id slave >>= ·) (funext fun result => ?_)
      cases result with
      | error failure =>
          obtain ⟨err, port⟩ := failure
          simp only [pure_bind, List.map_append, List.map_cons, List.map_nil, initEntry]
      | ok port =>
          have entries
              : inits.map initEntry ++ [some port]
                = (inits ++ [Except.ok port]).map initEntry := by
            simp only [List.map_append, List.map_cons, List.map_nil, initEntry]
          simp only [bind_assoc, entries, ih]

theorem cleanupSlaves_eq_noted (ports : List (Option Nat))
    : cleanupSlaves ports = do
        let _ ← cleanupSlavesNoted ports
        return () := by
  induction ports with
  | nil => rfl
  | cons entry ports ih =>
      cases entry with
      | some port => simp only [cleanupSlaves, cleanupSlavesNoted, ih, bind_assoc, pure_bind]
      | none => simp only [cleanupSlaves, cleanupSlavesNoted, ih, bind_assoc, pure_bind]

theorem deconfigureBond_eq_noted (name : List Char) (ports : List (Option Nat))
    (inits : List InitResult) (rc : Int)
    : deconfigureBond name ports rc = do
        let result ← deconfigureBondNoted name ports inits rc
        return result.1 := by
  simp only [deconfigureBond, deconfigureBondNoted, cleanupSlaves_eq_noted, bind_assoc, pure_bind]

/-- Without its notes, the program is that of `virtio_forwarder_bond_add`. -/
theorem bondAdd_eq_noted (settings : Settings) (slaves : List (List Char)) (name : List Char)
    (id : Nat)
    : bondAdd settings slaves name id = do
        let result ← bondAddNoted settings slaves name id
        return result.1 := by
  have noted (ports inits rc) := deconfigureBond_eq_noted name ports inits rc
  have slaved (port) := addSlaves_eq_noted settings id port slaves []
  unfold bondAdd bondAddNoted
  split
  · rfl
  · simp only [bind_assoc]
    refine bind_congr fun relay => ?_
    split
    · rfl
    · simp only [bind_assoc]
      refine bind_congr fun relay => bind_congr fun created => ?_
      split
      · rfl
      · simp only [bind_assoc]
        refine bind_congr fun used => ?_
        split
        · exact noted [] [] 3
        · simp only [bind_assoc]
          refine bind_congr fun migrated => bind_congr fun err => ?_
          split
          · exact noted [] [] 4
          · simp only [List.map_nil] at slaved
            simp only [slaved, bind_assoc, pure_bind, List.length_map]
            refine bind_congr fun result => ?_
            split
            · exact noted _ _ 5
            · simp only [bind_assoc]
              refine bind_congr fun err => ?_
              split
              · exact noted _ _ 6
              · rfl

-----------------------------------------------------------------------------------------
-- What is cleaned up
-----------------------------------------------------------------------------------------

/-- The error path has cleaned up the slave ports that the call has attached, each once, and
nothing else; a bond that was created is freed.
-/
structure BondNotes.Exact (settings : Settings) (notes : BondNotes) : Prop where
  assigned : ∀ cleaned ∈ notes.cleaned, cleaned.assigned
  once : (notes.cleaned.map CleanedPort.port).Nodup
  attached : ∀ port, port ∈ notes.cleaned.map CleanedPort.port
    ↔ .ok port ∈ notes.inits ∧ port < settings.maxRelays
  freed : notes.freed = notes.created

/-- No call of `init_vf` failed, and each found a port of its own. -/
def BondNotes.AllAttached (settings : Settings) (notes : BondNotes) : Prop :=
  ∃ ports : List Nat, notes.inits = ports.map .ok ∧ ports.Nodup
    ∧ ∀ port ∈ ports, port < settings.maxRelays

/-- The loop over the slaves ends with the last slave or with the first failure. -/
theorem addSlavesNoted_returns (settings : Settings) (id bond : Nat) (slaves : List (List Char))
    (inits : List InitResult)
    : (addSlavesNoted settings id bond inits slaves).Returns fun result =>
        ∃ ports : List Nat,
          result = (true, inits ++ ports.map .ok) ∧ ports.length = slaves.length
          ∨ ∃ failure, result = (false, inits ++ ports.map .ok ++ [.error failure]) := by
  induction slaves generalizing inits with
  | nil => exact ⟨[], Or.inl ⟨by simp, rfl⟩⟩
  | cons slave slaves ih =>
      refine .bind fun result => ?_
      cases result with
      | error failure => exact ⟨[], Or.inr ⟨failure, by simp⟩⟩
      | ok port =>
          refine .bind fun _ => (ih (inits ++ [.ok port])).mono fun result outcome => ?_
          obtain ⟨ports, ⟨rfl, length⟩ | ⟨failure, rfl⟩⟩ := outcome
          · exact ⟨port :: ports, Or.inl ⟨by simp, by simp [length]⟩⟩
          · exact ⟨port :: ports, Or.inr ⟨failure, by simp⟩⟩

/-- The loop of the error path goes through the whole array. -/
theorem cleanupSlavesNoted_returns (ports : List (Option Nat))
    : (cleanupSlavesNoted ports).Returns fun cleaned =>
        cleaned.map CleanedPort.entry = ports := by
  induction ports with
  | nil => rfl
  | cons entry ports ih =>
      cases entry with
      | some port =>
          refine .bind fun _ => ih.bind_returns fun rest entries => ?_
          exact congrArg (some port :: ·) entries
      | none =>
          refine .bind fun _ => .bind fun _ => ih.bind_returns fun rest entries => ?_
          exact congrArg (none :: ·) entries

theorem deconfigureBondNoted_returns (name : List Char) (ports : List (Option Nat))
    (inits : List InitResult) (rc : Int)
    : (deconfigureBondNoted name ports inits rc).Returns fun result =>
        ∃ cleaned : List CleanedPort, cleaned.map CleanedPort.entry = ports
          ∧ result = (rc, ⟨inits, cleaned, true, true⟩) := by
  refine (cleanupSlavesNoted_returns ports).bind_returns fun cleaned entries => ?_
  exact .bind fun _ => ⟨cleaned, entries, rfl⟩

theorem map_entry_of_assigned {cleaned : List CleanedPort}
    (assigned : ∀ entry ∈ cleaned, entry.assigned)
    : cleaned.map CleanedPort.entry = (cleaned.map CleanedPort.port).map some := by
  rw [List.map_map]
  refine List.map_congr_left fun entry mem => ?_
  simp [CleanedPort.entry, assigned entry mem]

theorem assigned_of_map_entry {cleaned : List CleanedPort} {ports : List Nat}
    (entries : cleaned.map CleanedPort.entry = ports.map some)
    : ∀ entry ∈ cleaned, entry.assigned := by
  intro entry mem
  have filled : entry.entry ∈ ports.map some := entries ▸ List.mem_map_of_mem mem
  obtain ⟨port, _, filled⟩ := List.mem_map.mp filled
  by_contra unassigned
  simp [CleanedPort.entry, unassigned] at filled

/-- If every slave was initialized, the error path cleans up their ports, and it is exact unless
two of them are the same or one is not a port.
-/
theorem exact_of_all_added {settings : Settings} {cleaned : List CleanedPort} {ports : List Nat}
    (entries : cleaned.map CleanedPort.entry = ports.map some)
    : (⟨ports.map .ok, cleaned, true, true⟩ : BondNotes).Exact settings
      ↔ (⟨ports.map .ok, cleaned, true, true⟩ : BondNotes).AllAttached settings := by
  have assigned := assigned_of_map_entry entries
  rw [map_entry_of_assigned assigned] at entries
  have same : cleaned.map CleanedPort.port = ports := (Option.some_injective _).list_map entries
  constructor
  · intro exact
    refine ⟨ports, rfl, same ▸ exact.once, fun port added => ?_⟩
    exact ((exact.attached port).mp (same ▸ added)).2
  · rintro ⟨others, inits, nodup, below⟩
    have others_eq : others = ports := by
      refine List.map_injective_iff.mpr (fun _ _ h => Except.ok.inj h) inits.symm
    subst others_eq
    refine ⟨assigned, same ▸ nodup, fun port => ?_, rfl⟩
    simp only [same, List.mem_map, Except.ok.injEq, exists_eq_right]
    exact ⟨fun added => ⟨added, below port added⟩, And.left⟩

/-- If a slave could not be initialized, its entry is cleaned up as well. -/
theorem not_exact_of_failure {settings : Settings} {cleaned : List CleanedPort} {ports : List Nat}
    {failure : Int × Option Nat} {missing : Nat}
    (entries : cleaned.map CleanedPort.entry
      = ports.map some ++ [initEntry (.error failure)] ++ List.replicate missing none)
    : ¬ (⟨ports.map .ok ++ [.error failure], cleaned, true, true⟩ : BondNotes).Exact settings := by
  intro exact
  obtain ⟨err, entry⟩ := failure
  rw [map_entry_of_assigned exact.assigned] at entries
  cases entry with
  | none =>
      have unassigned : none ∈ (cleaned.map CleanedPort.port).map some := by
        simp [entries, initEntry]
      simp at unassigned
  | some port =>
      have cleaned_again : port ∈ cleaned.map CleanedPort.port := by
        have filled : some port ∈ (cleaned.map CleanedPort.port).map some := by
          simp [entries, initEntry]
        simpa using filled
      have added : port ∈ ports := by
        have listed := ((exact.attached port).mp cleaned_again).1
        simpa using listed
      have nodup := exact.once.map (Option.some_injective _)
      rw [entries] at nodup
      have twice := (List.nodup_append.mp (List.nodup_append.mp nodup).1).2.2
      exact twice (some port) (List.mem_map_of_mem added) (some port) (by simp [initEntry]) rfl

theorem not_allAttached_of_failure {settings : Settings} {cleaned : List CleanedPort}
    {ports : List Nat} {failure : Int × Option Nat}
    : ¬ (⟨ports.map .ok ++ [.error failure], cleaned, true, true⟩
        : BondNotes).AllAttached settings := by
  rintro ⟨others, inits, _⟩
  have failed : Except.error failure ∈ others.map Except.ok := by
    rw [← inits]
    simp
  simp at failed

/-- Without its notes, the program is that of `virtio_forwarder_bond_add`. If it fails, it has
detached exactly what it attached if and only if no slave failed.
-/
theorem failed_bond_detaches_iff (settings : Settings) (slaves : List (List Char))
    (name : List Char) (id : Nat)
    : bondAdd settings slaves name id = Prod.fst <$> bondAddNoted settings slaves name id
      ∧ (bondAddNoted settings slaves name id).Returns fun result =>
          result.1 ≠ 0 → (result.2.Exact settings ↔ result.2.AllAttached settings) := by
  refine ⟨bondAdd_eq_noted settings slaves name id, ?_⟩
  have early (rc : Int) (freed : Bool)
      : rc ≠ 0 → ((⟨[], [], freed, freed⟩ : BondNotes).Exact settings
        ↔ (⟨[], [], freed, freed⟩ : BondNotes).AllAttached settings) := by
    intro _
    refine ⟨fun _ => ⟨[], rfl, List.nodup_nil, nofun⟩, fun _ => ⟨nofun, List.nodup_nil, ?_, rfl⟩⟩
    simp
  have untouched (rc : Int)
      : (deconfigureBondNoted name [] [] rc).Returns fun result =>
          result.1 ≠ 0 → (result.2.Exact settings ↔ result.2.AllAttached settings) := by
    refine (deconfigureBondNoted_returns name [] [] rc).mono fun result outcome => ?_
    obtain ⟨cleaned, entries, rfl⟩ := outcome
    obtain rfl := List.map_eq_nil_iff.mp entries
    exact early rc true
  unfold bondAddNoted
  split
  · exact early 1 false
  · refine .bind fun relay => ?_
    split
    · exact early 8 false
    · refine .bind fun relay => .bind fun created => ?_
      split
      · exact early 2 false
      · refine .bind fun used => ?_
        split
        · exact untouched 3
        · refine .bind fun migrated => .bind fun err => ?_
          split
          · exact untouched 4
          · refine (addSlavesNoted_returns settings id _ slaves []).bind_returns
              fun result outcome => ?_
            obtain ⟨ports, ⟨rfl, length⟩ | ⟨failure, rfl⟩⟩ := outcome
            · refine .bind fun err => ?_
              split
              · refine (deconfigureBondNoted_returns name _ _ 6).mono fun result outcome => ?_
                obtain ⟨cleaned, entries, rfl⟩ := outcome
                intro _
                refine exact_of_all_added ?_
                simpa [length, Function.comp_def, initEntry] using entries
              · exact fun failed => absurd rfl failed
            · refine (deconfigureBondNoted_returns name _ _ 5).mono fun result outcome => ?_
              obtain ⟨cleaned, entries, rfl⟩ := outcome
              intro _
              have entries : cleaned.map CleanedPort.entry
                  = ports.map some ++ [initEntry (.error failure)]
                    ++ List.replicate (slaves.length - (ports.length + 1)) none := by
                simpa [Function.comp_def, initEntry] using entries
              exact iff_of_false (not_exact_of_failure entries) not_allAttached_of_failure

/-- DPDK during the addition of a bond whose second slave cannot be probed; the array of slave
ports happens to hold the number of another port.
-/
def secondSlaveMissing : Instr → Int
  | .call (.devProbe dbdf) => if dbdf = "0000:05:08.1".toList then -1 else 0
  | .call (.portByName _) => -1
  | .call (.poolCreate _ _) => 1
  | .call (.bondCreate _ _) => 1
  | .call (.nextMatchingDev _) => 2
  | .call .uninitializedPort => 0
  | _ => 0

/-- After the second slave has failed, the port that happens to be in the array is closed. -/
theorem bond_closes_foreign_port
    : ¬ ∀ (settings : Settings) (answers : Instr → Int) (slaves : List (List Char))
        (name : List Char) (id : Nat) (rc : Int) (notes : BondNotes) (world : World),
        slaves.length ≤ 8
        → (bondAddNoted settings slaves name id).alone ⟨Instr.exec id, fun world => world⟩ answers
            (World.initial settings false fun _ => true)
          = (.ok (rc, notes), world)
        → rc ≠ 0 → notes.Exact settings := by
  intro claim
  let settings : Settings := { twoWorkers with maxRelays := 4, relaysFit := by decide }
  let slaves := ["0000:05:08.0".toList, "0000:05:08.1".toList]
  have outcome
      : (((bondAddNoted settings slaves "bond0".toList 0).alone
            ⟨Instr.exec 0, fun world => world⟩ secondSlaveMissing
            (World.initial settings false fun _ => true)).1.toOption.map
          fun result => (result.1, result.2.cleaned))
        = some (5, [⟨2, true⟩, ⟨0, false⟩]) := by decide +kernel
  match ran : (bondAddNoted settings slaves "bond0".toList 0).alone
      ⟨Instr.exec 0, fun world => world⟩ secondSlaveMissing
      (World.initial settings false fun _ => true) with
  | (.error abort, world) =>
      rw [ran] at outcome
      cases outcome
  | (.ok (rc, notes), world) =>
      rw [ran] at outcome
      obtain ⟨rfl, cleaned⟩ := Prod.mk.inj (Option.some.inj outcome)
      have exact := claim settings secondSlaveMissing slaves _ 0 5 notes world (by decide) ran
        (by decide)
      have assigned := exact.assigned ⟨0, false⟩ (cleaned ▸ by simp)
      cases assigned

end VirtioForwarder
