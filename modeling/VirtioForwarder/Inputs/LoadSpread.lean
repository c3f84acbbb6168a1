import VirtioForwarder.Inputs.LoadBalancer

/-! How even the loads of the workers are that `round_robin` assigns. -/

namespace VirtioForwarder

open Python

variable {K : Type} [DivisionRing K] [LinearOrder K]

/-- The largest load of one direction of a relay; 0 without relays. -/
def largestLoad (items : List (Throughput K)) : K := (items.map Throughput.load).foldr max 0

theorem load_le_largestLoad {items : List (Throughput K)} {item : Throughput K}
    (mem : item ∈ items)
    : item.load ≤ largestLoad items := by
  induction items with
  | nil => cases mem
  | cons first rest hind =>
      rcases List.mem_cons.mp mem with rfl | later
      · exact le_max_left _ _
      · exact (hind later).trans (le_max_right _ _)

theorem largestLoad_nonneg (items : List (Throughput K)) : 0 ≤ largestLoad items := by
  induction items with
  | nil => exact le_refl _
  | cons first rest hind => exact hind.trans (le_max_right _ _)

/-- No two workers differ by more than a bound. -/
def Spread (bound : K) (workerLoads : Dict Int K) : Prop :=
  ∀ most ∈ workerLoads.values, ∀ least ∈ workerLoads.values, most - least ≤ bound

section Assigning

variable [IsStrictOrderedRing K]

/-- A load that is given to the least loaded worker does not raise the spread above the bound. -/
theorem Spread.addTo {bound amount : K} {workerLoads after : Dict Int K} {worker : Int}
    (spread : Spread bound workerLoads) (least : workerLoads.leastKey = some worker)
    (added : workerLoads.addTo worker amount = some after) (nonneg : 0 ≤ amount)
    (small : amount ≤ bound)
    : Spread bound after := by
  obtain ⟨low, here, lowest⟩ := Dict.leastKey_le least
  -- the worker has the value `low`, because it has one entry only
  have raised {value : K} (mem : value ∈ after.values)
      : value ∈ workerLoads.values ∨ value = low + amount := by
    refine (Dict.mem_values_addTo added mem).imp_right ?_
    rintro ⟨old, there, rfl⟩
    have first := Dict.get?_eq_some_iff.mpr here
    rw [Dict.get?_eq_some_iff.mpr there] at first
    rw [Option.some.inj first]
  have lowListed : low ∈ workerLoads.values := List.mem_map_of_mem here
  intro most mostMem other otherMem
  rcases raised mostMem with mostOld | rfl
  · rcases raised otherMem with otherOld | rfl
    · exact spread most mostOld other otherOld
    · have old := spread most mostOld low lowListed
      calc most - (low + amount) ≤ most - low := by
            rw [sub_add_eq_sub_sub]
            exact sub_le_self _ nonneg
        _ ≤ bound := old
  · rcases raised otherMem with otherOld | rfl
    · calc low + amount - other ≤ amount := by
            rw [sub_le_iff_le_add, add_comm amount]
            exact add_le_add_left (lowest other otherOld) amount
        _ ≤ bound := small
    · rw [sub_self]
      exact nonneg.trans small

/-- The loop of `round_robin` keeps the spread below every bound on the loads, and each load is
added to the sum, by induction on the loads.
-/
theorem assignWorkers_spread {bound : K} (items : List (Throughput K)) {workerLoads : Dict Int K}
    {assigned : List (Throughput K × Int)} {after : Dict Int K}
    (loads : ∀ item ∈ items, 0 ≤ item.load ∧ item.load ≤ bound) (spread : Spread bound workerLoads)
    (h : assignWorkers workerLoads items = .ok (assigned, after))
    : Spread bound after
      ∧ after.values.sum = workerLoads.values.sum + (items.map Throughput.load).sum
      ∧ after.keys = workerLoads.keys := by
  induction items generalizing workerLoads assigned with
  | nil =>
      cases h
      exact ⟨spread, by simp, rfl⟩
  | cons item items hind =>
      unfold assignWorkers at h
      cases least : workerLoads.leastKey with
      | none => simp [least] at h
      | some worker =>
          simp only [least] at h
          cases added : workerLoads.addTo worker item.load with
          | none => simp [added] at h
          | some grown =>
              simp only [added] at h
              obtain ⟨⟨rest, _⟩, assigns, h⟩ := of_bind_ok h
              cases h
              obtain ⟨nonneg, small⟩ := loads item List.mem_cons_self
              obtain ⟨spread, sum, keys⟩ := hind
                (fun other mem => loads other (List.mem_cons_of_mem _ mem))
                (spread.addTo least added nonneg small) assigns
              obtain ⟨_, same, kept⟩ := Dict.addTo_of_mem item.load (Dict.leastKey_mem least)
              rw [added] at same
              cases same
              refine ⟨spread, ?_, keys.trans kept⟩
              rw [sum, Dict.sum_values_addTo added, List.map_cons, List.sum_cons, add_assoc]

/-- **The spread of the loads**: after the assignment loop of `round_robin`, the loads of any two
workers differ by at most the largest load of one direction of a relay, and the loads of the workers
sum to the total of all loads.
-/
theorem round_robin_spread (relayRates : Dict Int (RelayRate K)) (workerCores : List Int)
    (some_core : workerCores ≠ []) (nonneg : ∀ item ∈ relayThroughput relayRates, 0 ≤ item.load)
    : ∃ assigned workerLoads,
        assignWorkers (.fromKeys workerCores 0)
            (sortedReverse Throughput.load (relayThroughput relayRates))
          = .ok (assigned, workerLoads)
        ∧ (∀ core, core ∈ workerLoads.keys ↔ core ∈ workerCores)
        ∧ Spread (largestLoad (relayThroughput relayRates)) workerLoads
        ∧ workerLoads.values.sum = ((relayThroughput relayRates).map Throughput.load).sum := by
  have perm := sortedReverse_perm Throughput.load (relayThroughput relayRates)
  have workers : (Dict.fromKeys workerCores (0 : K)).keys ≠ [] := by
    obtain ⟨core, rest, rfl⟩ := List.exists_cons_of_ne_nil some_core
    exact List.ne_nil_of_mem (Dict.mem_keys_fromKeys.mpr List.mem_cons_self)
  have idle : ∀ load ∈ (Dict.fromKeys workerCores (0 : K)).values, load = 0 :=
    fun _ mem => Dict.mem_values_fromKeys mem
  obtain ⟨assigned, workerLoads, assigns, _⟩ := assignWorkers_spec
    (sortedReverse Throughput.load (relayThroughput relayRates)) workers
  have loads : ∀ item ∈ sortedReverse Throughput.load (relayThroughput relayRates),
      0 ≤ item.load ∧ item.load ≤ largestLoad (relayThroughput relayRates) := by
    intro item mem
    have listed := perm.mem_iff.mp mem
    exact ⟨nonneg item listed, load_le_largestLoad listed⟩
  have even : Spread (largestLoad (relayThroughput relayRates))
      (Dict.fromKeys workerCores (0 : K)) := by
    intro most mostMem other otherMem
    rw [idle most mostMem, idle other otherMem, sub_self]
    exact largestLoad_nonneg _
  obtain ⟨spread, sum, keys⟩ := assignWorkers_spread _ loads even assigns
  refine ⟨assigned, workerLoads, assigns, ?_, spread, ?_⟩
  · intro core
    rw [keys]
    exact Dict.mem_keys_fromKeys
  · rw [sum, List.sum_eq_zero idle, zero_add, (perm.map Throughput.load).sum_eq]

end Assigning

/-- Three relays with packets in both directions, in one and in none. -/
def unevenRates : Dict Int (RelayRate ℚ) where
  entries := [(0, ⟨3000, 192000, 3000, 192000, 1000, 64000, 1000, 64000, 0, 0⟩),
    (1, ⟨0, 0, 0, 0, 2000, 3000000, 2000, 3000000, 0, 0⟩), (2, ⟨0, 0, 0, 0, 0, 0, 0, 0, 0, 0⟩)]
  distinct := by decide

/-- Witness: three relays on three workers. -/
theorem uneven_relays_spread
    : ∃ assigned workerLoads,
        assignWorkers (.fromKeys [1, 2, 5] 0)
            (sortedReverse Throughput.load (relayThroughput unevenRates))
          = .ok (assigned, workerLoads)
        ∧ (∀ core, core ∈ workerLoads.keys ↔ core ∈ [1, 2, 5])
        ∧ Spread (largestLoad (relayThroughput unevenRates)) workerLoads
        ∧ workerLoads.values.sum
          = ((relayThroughput unevenRates).map Throughput.load).sum := by
  refine round_robin_spread unevenRates [1, 2, 5] (by decide) fun item mem => ?_
  simp only [relayThroughput, unevenRates, List.flatMap_cons, List.flatMap_nil, List.cons_append,
    List.nil_append, List.append_nil, List.mem_cons, List.not_mem_nil, or_false] at mem
  rcases mem with rfl | rfl | rfl | rfl | rfl | rfl <;>
    norm_num [RelayRate.estimateVm2vfLoad, RelayRate.estimateVf2vmLoad]

end VirtioForwarder
