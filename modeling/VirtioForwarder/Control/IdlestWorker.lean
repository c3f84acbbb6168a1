import Mathlib.Tactic.Ring
import VirtioForwarder.Control.Operations

/-! The choice of the least busy worker: the counting pass and the scan of
`naive_get_idlest_worker` as the code has them, and what they find.
-/

namespace VirtioForwarder

open Program

/-- `cpu_workers[cpu] += amount`, with the index in bounds. -/
def addLoad (cpuWorkers : List Int) (cpu : Int) (amount : Int) : Option (List Int) :=
  if 0 ≤ cpu ∧ cpu < cpuWorkers.length then some (cpuWorkers.modify cpu.toNat (· + amount))
  else none

/-- A side of a relay adds to the load of its CPU if it is counted and has one. -/
def countSide (counted : Prop) [Decidable counted] (cpu amount : Int) (cpuWorkers : List Int)
    : Option (List Int) :=
  if counted ∧ cpu ≥ 0 then addLoad cpuWorkers cpu amount else some cpuWorkers

/-- The body of the counting pass over the relays. -/
def countRelay (relay : Relay) (cpuWorkers : List Int) : Option (List Int) := do
  let cpuWorkers ← countSide (relay.dpdk.state = .ready ∨ relay.dpdk.state = .added)
    relay.dpdk.vf2vioCpu 12 cpuWorkers
  countSide (relay.vio.state = .ready) relay.vio.vio2vfCpu 10 cpuWorkers

/-- `cpu_workers` after the first relays. -/
def countRelays (world : World) : Nat → Option (List Int)
  | 0 => some (List.replicate maxCpus 0)
  | id + 1 => do countRelay (world.relays id) (← countRelays world id)

/-- `min` and `min_index` after the first CPUs. -/
def scanCpus (settings : Settings) (world : World) (node : Int) (cpuWorkers : List Int)
    : Nat → Int × Int
  | 0 => (settings.maxRelays * 100, -1)
  | cpu + 1 =>
      let (min, minIndex) := scanCpus settings world node cpuWorkers cpu
      if (node ≠ socketIdAny ∧ haveWorkerOnNode settings node) ∧ settings.numaNode cpu ≠ node then
        (min, minIndex)
      else if ¬ settings.workerCoreBitmap.getLsbD cpu then (min, minIndex)
      else if (world.workers cpu).initialized then
        let load := cpuWorkers.getD cpu 0
        if load < min ∨ minIndex = -1 then (load, cpu) else (min, minIndex)
      else (min, minIndex)

/-- `naive_get_idlest_worker` with its array; `none` is an index out of bounds. -/
def naiveGetIdlestWorkerScan (settings : Settings) (world : World) (node : Int) : Option Int := do
  let cpuWorkers ← countRelays world settings.maxRelays
  return (scanCpus settings world node cpuWorkers maxCpus).2

/-- The relay's CPUs are indices of `cpu_workers` or -1. -/
def Relay.CpusInRange (relay : Relay) : Prop :=
  (-1 ≤ relay.dpdk.vf2vioCpu ∧ relay.dpdk.vf2vioCpu < maxCpus)
  ∧ -1 ≤ relay.vio.vio2vfCpu ∧ relay.vio.vio2vfCpu < maxCpus

-----------------------------------------------------------------------------------------
-- The loads
-----------------------------------------------------------------------------------------

/-- How many of the first relays have their VF side on a CPU. -/
def vf2vioServed (world : World) (relays : Nat) (cpu : Nat) : Nat :=
  (List.range relays).countP fun id =>
    ((world.relays id).dpdk.state = .ready ∨ (world.relays id).dpdk.state = .added)
    ∧ (world.relays id).dpdk.vf2vioCpu = cpu

/-- How many of the first relays have their virtio side on a CPU. -/
def vio2vfServed (world : World) (relays : Nat) (cpu : Nat) : Nat :=
  (List.range relays).countP fun id =>
    (world.relays id).vio.state = .ready ∧ (world.relays id).vio.vio2vfCpu = cpu

/-- The load that the first relays put on a CPU. -/
def servedLoad (world : World) (relays : Nat) (cpu : Nat) : Int :=
  12 * vf2vioServed world relays cpu + 10 * vio2vfServed world relays cpu

theorem addLoad_eq_some {cpuWorkers : List Int} {cpu : Int} (amount : Int)
    (nonneg : 0 ≤ cpu) (below : cpu < cpuWorkers.length)
    : ∃ after, addLoad cpuWorkers cpu amount = some after ∧ after.length = cpuWorkers.length
        ∧ ∀ other : Nat, after.getD other 0
          = cpuWorkers.getD other 0 + if cpu = other then amount else 0 := by
  refine ⟨_, if_pos ⟨nonneg, below⟩, by simp, fun other => ?_⟩
  obtain ⟨index, rfl⟩ := Int.eq_ofNat_of_zero_le nonneg
  simp only [Int.toNat_natCast, List.getD_eq_getElem?_getD, List.getElem?_modify]
  by_cases same : index = other
  · subst same
    have inside : index < cpuWorkers.length := by omega
    simp [inside]
  · have other_cpu : ¬ (index : Int) = other := by omega
    simp [same, other_cpu]

theorem countSide_eq_some (counted : Prop) [Decidable counted] {cpu : Int} (amount : Int)
    {cpuWorkers : List Int} (below : cpu < maxCpus) (length : cpuWorkers.length = maxCpus)
    : ∃ after, countSide counted cpu amount cpuWorkers = some after ∧ after.length = maxCpus
        ∧ ∀ other : Nat, after.getD other 0
          = cpuWorkers.getD other 0 + if counted ∧ cpu = other then amount else 0 := by
  by_cases served : counted ∧ cpu ≥ 0
  · obtain ⟨after, added, same, loads⟩ := addLoad_eq_some amount served.2 (length ▸ below)
    refine ⟨after, (if_pos served).trans added, same.trans length, ?_⟩
    simpa [served.1] using loads
  · refine ⟨cpuWorkers, if_neg served, length, fun other => ?_⟩
    have unserved : ¬ (counted ∧ cpu = other) := fun h => served ⟨h.1, by omega⟩
    simp [unserved]

/-- The counting pass stays in bounds and gives every CPU its load. -/
theorem countRelays_eq_some {world : World} {relays : Nat}
    (inRange : ∀ id < relays, (world.relays id).CpusInRange)
    : ∃ cpuWorkers, countRelays world relays = some cpuWorkers ∧ cpuWorkers.length = maxCpus
        ∧ ∀ cpu, cpuWorkers.getD cpu 0 = servedLoad world relays cpu := by
  induction relays with
  | zero =>
      refine ⟨_, rfl, List.length_replicate, fun cpu => ?_⟩
      simp only [servedLoad, vf2vioServed, vio2vfServed, List.getD_eq_getElem?_getD,
        List.getElem?_replicate, List.range_zero, List.countP_nil]
      split
      · rfl
      · rfl
  | succ id ih =>
      obtain ⟨before, counted, length, loads⟩ := ih fun other below => inRange other (by omega)
      obtain ⟨⟨_, vf2vio⟩, _, vio2vf⟩ := inRange id (by omega)
      obtain ⟨between, vf, length, vfLoads⟩ := countSide_eq_some
        ((world.relays id).dpdk.state = .ready ∨ (world.relays id).dpdk.state = .added) 12
        vf2vio length
      obtain ⟨after, virtio, length, virtioLoads⟩ := countSide_eq_some
        ((world.relays id).vio.state = .ready) 10 vio2vf length
      refine ⟨after, ?_, length, fun cpu => ?_⟩
      · simp [countRelays, counted, countRelay, vf, virtio]
      · rw [virtioLoads, vfLoads, loads]
        simp only [servedLoad, vf2vioServed, vio2vfServed, List.range_succ, List.countP_append,
          List.countP_singleton, decide_eq_true_eq]
        push_cast
        simp only [mul_add, mul_ite, mul_one, mul_zero]
        ring

-----------------------------------------------------------------------------------------
-- The scan
-----------------------------------------------------------------------------------------

/-- A CPU with a worker, on the node if the node is one and has a worker. -/
def Eligible (settings : Settings) (node : Int) (cpu : Nat) : Prop :=
  settings.workerCoreBitmap.getLsbD cpu
  ∧ (node ≠ socketIdAny → haveWorkerOnNode settings node → settings.numaNode cpu = node)

/-- The first CPU with the least load among the eligible CPUs below a bound. -/
structure Idlest (settings : Settings) (node : Int) (load : Nat → Int) (bound cpu : Nat) : Prop where
  below : cpu < bound
  eligible : Eligible settings node cpu
  least : ∀ other < bound, Eligible settings node other → load cpu ≤ load other
  first : ∀ other < cpu, Eligible settings node other → load cpu < load other

/-- What the scan knows after the first CPUs. -/
def ScanFound (settings : Settings) (node : Int) (load : Nat → Int) (bound : Nat)
    (found : Int × Int) : Prop :=
  (found.2 = -1 ∧ ∀ cpu < bound, ¬ Eligible settings node cpu)
  ∨ ∃ cpu : Nat, found = (load cpu, (cpu : Int)) ∧ Idlest settings node load bound cpu

variable {settings : Settings} {world : World} {node : Int}

theorem Idlest.extend {load : Nat → Int} {bound cpu : Nat}
    (idlest : Idlest settings node load bound cpu)
    (next : Eligible settings node bound → load cpu ≤ load bound)
    : Idlest settings node load (bound + 1) cpu := by
  obtain ⟨below, eligible, least, first⟩ := idlest
  refine ⟨by omega, eligible, fun other otherBelow otherEligible => ?_, first⟩
  rcases Nat.lt_succ_iff_lt_or_eq.mp otherBelow with earlier | rfl
  · exact least other earlier otherEligible
  · exact next otherEligible

/-- A CPU that is not eligible is skipped. -/
theorem ScanFound.skip {load : Nat → Int} {bound : Nat} {found : Int × Int}
    (h : ScanFound settings node load bound found) (ineligible : ¬ Eligible settings node bound)
    : ScanFound settings node load (bound + 1) found := by
  rcases h with ⟨none_found, none_eligible⟩ | ⟨index, found, idlest⟩
  · refine Or.inl ⟨none_found, fun other below => ?_⟩
    rcases Nat.lt_succ_iff_lt_or_eq.mp below with earlier | rfl
    · exact none_eligible other earlier
    · exact ineligible
  · exact Or.inr ⟨index, found, idlest.extend fun eligible => absurd eligible ineligible⟩

/-- One more CPU. -/
theorem scanFound_succ {load : Nat → Int} {bound : Nat} {found : Int × Int}
    (h : ScanFound settings node load bound found) (eligible : Eligible settings node bound)
    : ScanFound settings node load (bound + 1)
        (if load bound < found.1 ∨ found.2 = -1 then (load bound, (bound : Int)) else found) := by
  rcases h with ⟨none_found, none_eligible⟩ | ⟨cpu, rfl, idlest⟩
  · rw [if_pos (Or.inr none_found)]
    refine Or.inr ⟨bound, rfl, by omega, eligible, fun other below otherEligible => ?_, ?_⟩
    · rcases Nat.lt_succ_iff_lt_or_eq.mp below with earlier | rfl
      · exact absurd otherEligible (none_eligible other earlier)
      · exact le_refl _
    · exact fun other below otherEligible => absurd otherEligible (none_eligible other below)
  · by_cases less : load bound < load cpu
    · rw [if_pos (Or.inl less)]
      refine Or.inr ⟨bound, rfl, by omega, eligible, fun other below otherEligible => ?_, ?_⟩
      · rcases Nat.lt_succ_iff_lt_or_eq.mp below with earlier | rfl
        · exact le_trans (le_of_lt less) (idlest.least other earlier otherEligible)
        · exact le_refl _
      · exact fun other below otherEligible =>
          lt_of_lt_of_le less (idlest.least other below otherEligible)
    · have some_found : ¬ (load bound < load cpu ∨ (cpu : Int) = -1) := by omega
      rw [if_neg some_found]
      exact Or.inr ⟨cpu, rfl, idlest.extend fun _ => le_of_not_gt less⟩

/-- The loop of the scan: its invariant is `ScanFound`, by induction on the CPUs passed. -/
theorem scanCpus_found {cpuWorkers : List Int} {load : Nat → Int}
    (loads : ∀ cpu, cpuWorkers.getD cpu 0 = load cpu)
    (initialized : ∀ cpu, settings.workerCoreBitmap.getLsbD cpu → (world.workers cpu).initialized)
    (bound : Nat)
    : ScanFound settings node load bound (scanCpus settings world node cpuWorkers bound) := by
  induction bound with
  | zero => exact Or.inl ⟨rfl, by simp⟩
  | succ cpu ih =>
      unfold scanCpus
      dsimp only
      split
      · rename_i elsewhere
        exact ih.skip fun eligible => elsewhere.2 (eligible.2 elsewhere.1.1 elsewhere.1.2)
      · rename_i here
        split
        · rename_i no_worker
          exact ih.skip fun eligible => no_worker eligible.1
        · rename_i worker
          have worker := not_not.mp worker
          rw [if_pos (initialized cpu worker), loads]
          refine scanFound_succ ih ⟨worker, fun node onNode => ?_⟩
          by_contra other
          exact here ⟨⟨node, onNode⟩, other⟩

-----------------------------------------------------------------------------------------
-- The choice
-----------------------------------------------------------------------------------------

theorem cpuLoad_eq_servedLoad (settings : Settings) (world : World) (cpu : Nat)
    : (cpuLoad settings world cpu : Int) = servedLoad world settings.maxRelays cpu := by
  unfold cpuLoad servedLoad vf2vioServed vio2vfServed
  induction settings.maxRelays with
  | zero => rfl
  | succ id ih =>
      simp only [List.range_succ, List.map_append, List.sum_append, List.map_cons, List.map_nil,
        List.sum_cons, List.sum_nil, List.countP_append, List.countP_singleton, decide_eq_true_eq]
      rw [Nat.cast_add, ih]
      push_cast
      simp only [mul_add, mul_ite, mul_one, mul_zero]
      ring

/-- The best CPU so far in the form of the scan. -/
def bestFound : Option (Nat × Nat) → Int × Int
  | none => (0, -1)
  | some (load, cpu) => (load, cpu)

/-- A search that skips the CPUs that are not eligible and else keeps the first least load. -/
theorem foldl_found {load : Nat → Nat} (step : Option (Nat × Nat) → Nat → Option (Nat × Nat))
    (skips : ∀ best cpu, ¬ Eligible settings node cpu → step best cpu = best)
    (takes : ∀ best cpu, Eligible settings node cpu
      → bestFound (step best cpu)
        = if (load cpu : Int) < (bestFound best).1 ∨ (bestFound best).2 = -1
          then ((load cpu : Int), (cpu : Int)) else bestFound best)
    (bound : Nat)
    : ScanFound settings node (fun cpu => load cpu) bound
        (bestFound ((List.range bound).foldl step none)) := by
  induction bound with
  | zero => exact Or.inl ⟨rfl, by simp⟩
  | succ cpu ih =>
      rw [List.range_succ, List.foldl_append]
      by_cases eligible : Eligible settings node cpu
      · rw [List.foldl_cons, List.foldl_nil, takes _ cpu eligible]
        exact scanFound_succ ih eligible
      · rw [List.foldl_cons, List.foldl_nil, skips _ cpu eligible]
        exact ih.skip eligible

/-- The search of the control programs finds what the scan finds. -/
theorem naiveGetIdlestWorker_found
    (initialized : ∀ cpu, settings.workerCoreBitmap.getLsbD cpu → (world.workers cpu).initialized)
    : (naiveGetIdlestWorker settings world node = -1
        ∧ ∀ cpu < maxCpus, ¬ Eligible settings node cpu)
      ∨ ∃ cpu : Nat, naiveGetIdlestWorker settings world node = cpu
          ∧ Idlest settings node (servedLoad world settings.maxRelays) maxCpus cpu := by
  have loads : (fun cpu => (cpuLoad settings world cpu : Int))
      = servedLoad world settings.maxRelays :=
    funext fun cpu => cpuLoad_eq_servedLoad settings world cpu
  unfold naiveGetIdlestWorker
  dsimp only
  generalize step_eq : (fun (best : Option (Nat × Nat)) cpu =>
    if node ≠ socketIdAny ∧ haveWorkerOnNode settings node ∧ settings.numaNode cpu ≠ node then best
    else if ¬ settings.workerCoreBitmap.getLsbD cpu then best
    else if ¬ (world.workers cpu).initialized then best
    else
      match best with
      | none => some (cpuLoad settings world cpu, cpu)
      | some (least, index) =>
          if cpuLoad settings world cpu < least then some (cpuLoad settings world cpu, cpu)
          else some (least, index)) = step
  have found : ScanFound settings node (fun cpu => cpuLoad settings world cpu) maxCpus
      (bestFound ((List.range maxCpus).foldl step none)) := by
    apply foldl_found
    · intro best cpu ineligible
      subst step_eq
      dsimp only
      split
      · rfl
      · rename_i here
        split
        · rfl
        · rename_i worker
          exact absurd ⟨not_not.mp worker, fun node onNode => by
            by_contra other
            exact here ⟨node, onNode, other⟩⟩ ineligible
    · intro best cpu eligible
      subst step_eq
      dsimp only
      rw [if_neg fun elsewhere => elsewhere.2.2 (eligible.2 elsewhere.1 elsewhere.2.1),
        if_neg (not_not.mpr eligible.1), if_neg (not_not.mpr (initialized cpu eligible.1))]
      cases best with
      | none => rfl
      | some pair =>
          obtain ⟨least, index⟩ := pair
          have some_found : (index : Int) ≠ -1 := by omega
          by_cases less : cpuLoad settings world cpu < least
          · simp [bestFound, less]
          · simp [bestFound, less, some_found]
  rw [loads] at found
  cases best : (List.range maxCpus).foldl step none with
  | none =>
      rw [best] at found
      rcases found with ⟨_, none_eligible⟩ | ⟨cpu, found, _⟩
      · exact Or.inl ⟨rfl, none_eligible⟩
      · exact absurd (congrArg Prod.snd found) (by simp only [bestFound]; omega)
  | some pair =>
      rw [best] at found
      rcases found with ⟨none_found, _⟩ | ⟨cpu, found, idlest⟩
      · exact absurd none_found (by simp only [bestFound]; omega)
      · exact Or.inr ⟨cpu, congrArg Prod.snd found, idlest⟩

theorem Idlest.unique {load : Nat → Int} {bound cpu other : Nat}
    (h : Idlest settings node load bound cpu) (h' : Idlest settings node load bound other)
    : cpu = other := by
  rcases Nat.lt_trichotomy cpu other with less | same | greater
  · exact absurd (h'.first cpu less h.eligible) (not_lt.mpr (h.least other h'.below h'.eligible))
  · exact same
  · exact absurd (h.first other greater h'.eligible) (not_lt.mpr (h'.least cpu h.below h.eligible))

theorem haveWorkerOnNode_iff
    : haveWorkerOnNode settings node
      ↔ ∃ cpu, settings.workerCoreBitmap.getLsbD cpu ∧ settings.numaNode cpu = node := by
  unfold haveWorkerOnNode
  simp only [List.any_eq_true, List.mem_range, Bool.and_eq_true, decide_eq_true_eq]
  constructor
  · rintro ⟨cpu, _, onNode, worker⟩
    exact ⟨cpu, worker, onNode⟩
  · rintro ⟨cpu, worker, onNode⟩
    exact ⟨cpu, BitVec.lt_of_getLsbD worker, onNode, worker⟩

/-- On the nodes that CPUs are on, the eligible CPUs are those that the code means. -/
theorem eligible_iff (nodes : ∀ cpu, 0 ≤ settings.numaNode cpu) {cpu : Nat}
    : Eligible settings node cpu
      ↔ settings.workerCoreBitmap.getLsbD cpu
        ∧ ((∃ worker, settings.workerCoreBitmap.getLsbD worker ∧ settings.numaNode worker = node)
          → settings.numaNode cpu = node) := by
  refine and_congr_right fun _ => ?_
  constructor
  · rintro local_to_node ⟨worker, bit, rfl⟩
    have numbered : settings.numaNode worker ≠ socketIdAny := by
      have := nodes worker
      unfold socketIdAny
      omega
    exact local_to_node numbered (haveWorkerOnNode_iff.mpr ⟨worker, bit, rfl⟩)
  · intro local_to_node _ onNode
    exact local_to_node (haveWorkerOnNode_iff.mp onNode)

theorem exists_eligible (node : Int) (some_worker : settings.workerCoreBitmap ≠ 0)
    : ∃ cpu < maxCpus, Eligible settings node cpu := by
  by_cases onNode : haveWorkerOnNode settings node
  · obtain ⟨cpu, worker, same⟩ := haveWorkerOnNode_iff.mp onNode
    exact ⟨cpu, BitVec.lt_of_getLsbD worker, worker, fun _ _ => same⟩
  · have some_bit : ∃ cpu, settings.workerCoreBitmap.getLsbD cpu := by
      by_contra none_set
      refine some_worker (BitVec.eq_of_getLsbD_eq fun cpu _ => ?_)
      simpa using fun bit => none_set ⟨cpu, bit⟩
    obtain ⟨cpu, worker⟩ := some_bit
    exact ⟨cpu, BitVec.lt_of_getLsbD worker, worker, fun _ absent => absurd absent onNode⟩

/-- The counting pass and the scan stay in their arrays and find the worker that the control
programs take: none if there are no workers, and else the first one with the least load, on the
node if it has a worker. The assertion that a worker was found then holds.
-/
theorem idlest_worker_is_chosen (settings : Settings) (world : World) (node : Int)
    (inRange : ∀ id < settings.maxRelays, (world.relays id).CpusInRange)
    (initialized : ∀ cpu, settings.workerCoreBitmap.getLsbD cpu → (world.workers cpu).initialized)
    (nodes : ∀ cpu, 0 ≤ settings.numaNode cpu)
    : naiveGetIdlestWorkerScan settings world node
        = some (naiveGetIdlestWorker settings world node)
      ∧ (naiveGetIdlestWorker settings world node = -1 ↔ settings.workerCoreBitmap = 0)
      ∧ (settings.workerCoreBitmap ≠ 0
        → ∃ cpu : Nat, naiveGetIdlestWorker settings world node = cpu
          ∧ settings.workerCoreBitmap.getLsbD cpu
          ∧ ((∃ worker, settings.workerCoreBitmap.getLsbD worker
                ∧ settings.numaNode worker = node)
              → settings.numaNode cpu = node)
          ∧ ∀ other, settings.workerCoreBitmap.getLsbD other
            → ((∃ worker, settings.workerCoreBitmap.getLsbD worker
                  ∧ settings.numaNode worker = node)
                → settings.numaNode other = node)
            → servedLoad world settings.maxRelays cpu ≤ servedLoad world settings.maxRelays other
              ∧ (servedLoad world settings.maxRelays other
                  = servedLoad world settings.maxRelays cpu → cpu ≤ other))
      ∧ (settings.workerCoreBitmap ≠ 0
        → ∀ (id : Nat) (answers : Instr → Int),
          ((findIdlestCpu settings id).alone ⟨Instr.exec id, fun world => world⟩ answers world).1
          = .ok (naiveGetIdlestWorker settings world (world.relays id).vio.mempoolSocketId)) := by
  have empty : settings.workerCoreBitmap = 0 → ∀ cpu, ¬ settings.workerCoreBitmap.getLsbD cpu := by
    intro none_set cpu
    simp [none_set]
  have found (node : Int) : settings.workerCoreBitmap ≠ 0
      → ∃ cpu : Nat, naiveGetIdlestWorker settings world node = cpu
        ∧ Idlest settings node (servedLoad world settings.maxRelays) maxCpus cpu := by
    intro some_worker
    obtain ⟨cpu, below, eligible⟩ := exists_eligible node some_worker
    rcases naiveGetIdlestWorker_found initialized with ⟨_, none_eligible⟩ | chosen
    · exact absurd eligible (none_eligible cpu below)
    · exact chosen
  refine ⟨?_, ?_, ?_, ?_⟩
  · obtain ⟨cpuWorkers, counted, _, loads⟩ := countRelays_eq_some inRange
    have scanned : ScanFound settings node _ maxCpus
        (scanCpus settings world node cpuWorkers maxCpus) :=
      scanCpus_found loads initialized maxCpus
    simp only [naiveGetIdlestWorkerScan, counted, Option.bind_eq_bind, Option.bind_some]
    refine congrArg some ?_
    rcases scanned with ⟨none_found, none_eligible⟩ | ⟨cpu, scanned, idlest⟩
    · rcases naiveGetIdlestWorker_found initialized with ⟨none_too, _⟩ | ⟨cpu, _, idlest⟩
      · exact none_found.trans none_too.symm
      · exact absurd idlest.eligible (none_eligible cpu idlest.below)
    · rcases naiveGetIdlestWorker_found initialized with ⟨_, none_eligible⟩ | ⟨other, chosen, same⟩
      · exact absurd idlest.eligible (none_eligible cpu idlest.below)
      · rw [scanned, chosen, idlest.unique same]
  · constructor
    · intro none_found
      by_contra some_worker
      obtain ⟨cpu, chosen, _⟩ := found node some_worker
      omega
    · intro none_set
      rcases naiveGetIdlestWorker_found initialized with ⟨none_found, _⟩ | ⟨cpu, _, idlest⟩
      · exact none_found
      · exact absurd idlest.eligible.1 (empty none_set cpu)
  · intro some_worker
    obtain ⟨cpu, chosen, idlest⟩ := found node some_worker
    have eligible := (eligible_iff nodes).mp idlest.eligible
    refine ⟨cpu, chosen, eligible.1, eligible.2, fun other worker onNode => ?_⟩
    have otherEligible : Eligible settings node other := (eligible_iff nodes).mpr ⟨worker, onNode⟩
    refine ⟨idlest.least other (BitVec.lt_of_getLsbD worker) otherEligible, fun same => ?_⟩
    by_contra less
    exact absurd (idlest.first other (by omega) otherEligible) (by omega)
  · intro some_worker id answers
    obtain ⟨cpu, chosen, _⟩ := found (world.relays id).vio.mempoolSocketId some_worker
    have nonneg : naiveGetIdlestWorker settings world (world.relays id).vio.mempoolSocketId ≥ 0 := by
      omega
    change (Prog.alone _ answers (if naiveGetIdlestWorker settings world
      (world.relays id).vio.mempoolSocketId ≥ 0 then _ else _) _).1 = _
    rw [if_pos nonneg]
    rfl

/-- Two nodes with two workers each. -/
def twoNodes : Settings where
  maxRelays := 2
  relayCpus _ := ⟨-1, -1⟩
  workerCoreBitmap := 0x1e
  numaNode cpu := if cpu < 3 then 0 else 1
  relaysFit := by decide

/-- Relay 0 is served by CPUs 1 and 3, and the VF of relay 1 by CPU 4. -/
def twoRelaysServed : World :=
  let started := World.initial twoNodes false fun _ => true
  let served (vf2vioCpu vio2vfCpu : Int) (vio : VioState) (relay : Relay) : Relay :=
    { relay with
      dpdk := { relay.dpdk with state := .ready, vf2vioCpu := vf2vioCpu },
      vio := { relay.vio with state := vio, vio2vfCpu := vio2vfCpu } }
  (started.modifyRelay 0 (served 1 3 .ready)).modifyRelay 1 (served 4 (-1) .uninit)

/-- Witness: an idle worker behind one that is not, and the one of two with the lesser load. -/
theorem lesser_load_is_chosen
    : naiveGetIdlestWorkerScan twoNodes twoRelaysServed 0 = some 2
      ∧ naiveGetIdlestWorkerScan twoNodes twoRelaysServed 1 = some 3
      ∧ servedLoad twoRelaysServed 2 3 = 10
      ∧ servedLoad twoRelaysServed 2 4 = 12 := by
  have inRange : ∀ id < twoNodes.maxRelays, (twoRelaysServed.relays id).CpusInRange := by
    intro id below
    obtain rfl | rfl : id = 0 ∨ id = 1 := by
      change id < 2 at below
      omega
    · unfold Relay.CpusInRange
      decide
    · unfold Relay.CpusInRange
      decide
  have chosen (node : Int) := idlest_worker_is_chosen twoNodes twoRelaysServed node inRange
    (fun _ _ => rfl) (fun cpu => by unfold twoNodes; dsimp only; split <;> decide)
  refine ⟨(chosen 0).1.trans (congrArg some ?_), (chosen 1).1.trans (congrArg some ?_), ?_, ?_⟩
  · decide +kernel
  · decide +kernel
  · decide
  · decide

end VirtioForwarder
