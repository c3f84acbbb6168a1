import Mathlib.Algebra.Order.Field.Basic
import Mathlib.Data.Rat.Cast.OfScientific
import Mathlib.Algebra.Order.Ring.Rat
import Mathlib.Data.Rat.Sqrt
import Mathlib.Tactic.NormNum
import VirtioForwarder.Library.Dict
import VirtioForwarder.Service.CoreSched

/-! The balancer `virtioforwarder_core_scheduler.py`, which polls the rates of the relays and
moves relays to other CPUs if that evens out the loads of the workers. The arithmetic is exact.
-/

namespace VirtioForwarder

open Python

/-- How the balancer ends without handling an exception; `fieldRange` is the assignment of a
number that does not fit its field of the message.
-/
inductive BalancerError
  | valueError
  | keyError
  | indexError
  | zeroDivision
  | assertion
  | fieldRange
  deriving DecidableEq, Repr

/-- Assign a number to a field of type `int32`. -/
def balancerField (value : Int) : Except BalancerError Int32 :=
  if -2147483648 ≤ value ∧ value ≤ 2147483647 then .ok (.ofInt value) else .error .fieldRange

/-- The rates of one direction, as `RelayState.VMtoVF` or `RelayState.VFtoVM` has them. -/
structure FlowRates (K : Type) where
  pktRateRx : K
  byteRateRx : K
  pktRateTx : K
  byteRateTx : K
  deriving DecidableEq, Repr

/-- `RelayState`, as far as the balancer reads it. -/
structure PolledRelay (K : Type) where
  id : UInt32
  socketId : UInt32
  vmToVfCpu : Int32
  vfToVmCpu : Int32
  vmToVf : FlowRates K
  vfToVm : FlowRates K
  deriving DecidableEq, Repr

/-- `RelayRate`. -/
structure RelayRate (K : Type) where
  virtioRxPps : K
  virtioRxBps : K
  dpdkTxPps : K
  dpdkTxBps : K
  dpdkRxPps : K
  dpdkRxBps : K
  virtioTxPps : K
  virtioTxBps : K
  vm2vfLoad : K
  vf2vmLoad : K
  deriving DecidableEq, Repr

/-- The marks `'VM2VF'` and `'VF2VM'`. -/
inductive Direction
  | vm2vf
  | vf2vm
  deriving DecidableEq, Repr

/-- An element of `relay_throughput`. -/
structure Throughput (K : Type) where
  relay : Int
  load : K
  direction : Direction
  deriving DecidableEq, Repr

variable {K : Type} [DivisionRing K] [LinearOrder K]

/-- `RelayRate.__init__`. -/
def RelayRate.init (relayState : PolledRelay K) : RelayRate K where
  virtioRxPps := relayState.vmToVf.pktRateRx
  virtioRxBps := relayState.vmToVf.byteRateRx
  dpdkTxPps := relayState.vmToVf.pktRateTx
  dpdkTxBps := relayState.vmToVf.byteRateTx
  dpdkRxPps := relayState.vfToVm.pktRateRx
  dpdkRxBps := relayState.vfToVm.byteRateRx
  virtioTxPps := relayState.vfToVm.pktRateTx
  virtioTxBps := relayState.vfToVm.byteRateTx
  vm2vfLoad := 0
  vf2vmLoad := 0

/-- `estimate_vm2vf_load`, which keeps the load that it returns. -/
def RelayRate.estimateVm2vfLoad (rate : RelayRate K) : RelayRate K :=
  { rate with
    vm2vfLoad := 8.2e-02 * (rate.virtioRxPps + rate.dpdkTxPps) / 2 * 1e-6
      + 9.3e-05 * (rate.virtioRxBps + rate.dpdkTxBps) / 2 * 1e-6 }

/-- `estimate_vf2vm_load`. -/
def RelayRate.estimateVf2vmLoad (rate : RelayRate K) : RelayRate K :=
  { rate with
    vf2vmLoad := 7.95e-02 * (rate.dpdkRxPps + rate.virtioTxPps) / 2 * 1e-6
      + 8.2e-05 * (rate.dpdkRxBps + rate.virtioTxBps) / 2 * 1e-6 }

/-- Both estimates, as the loops make them. -/
def RelayRate.estimated (rate : RelayRate K) : RelayRate K :=
  rate.estimateVm2vfLoad.estimateVf2vmLoad

/-- The loads that `round_robin` grabs. -/
def relayThroughput (relayRates : Dict Int (RelayRate K)) : List (Throughput K) :=
  relayRates.entries.flatMap fun (key, rate) =>
    [⟨key, rate.estimateVm2vfLoad.vm2vfLoad, .vm2vf⟩,
      ⟨key, rate.estimateVf2vmLoad.vf2vmLoad, .vf2vm⟩]

/-- The loop of `round_robin` that gives each load to the worker with the least load. -/
def assignWorkers (workerLoads : Dict Int K)
    : List (Throughput K) → Except BalancerError (List (Throughput K × Int) × Dict Int K)
  | [] => return ([], workerLoads)
  | item :: items =>
      match workerLoads.leastKey with
      | none => .error .valueError
      | some leastLoaded =>
          match workerLoads.addTo leastLoaded item.load with
          | none => .error .keyError
          | some workerLoads => do
              let (assigned, workerLoads) ← assignWorkers workerLoads items
              return ((item, leastLoaded) :: assigned, workerLoads)

/-- The loop of `round_robin` that builds the mappings from pairs of neighbours. -/
def pairMappings : List (Throughput K × Int) → Except BalancerError (List RelayCpuEntry)
  | [] => return []
  | [_] => .error .indexError
  | first :: second :: rest => do
      let vm2vf := if first.1.direction = .vm2vf then first else second
      let vf2vm := if second.1.direction = .vf2vm then second else first
      if vm2vf.1.relay ≠ vf2vm.1.relay then throw .assertion
      let relayNumber ← balancerField vm2vf.1.relay
      let virtio2vfCpu ← balancerField vm2vf.2
      let vf2virtioCpu ← balancerField vf2vm.2
      return { relayNumber, virtio2vfCpu, vf2virtioCpu } :: (← pairMappings rest)

/-- The coefficient of variation that `round_robin` and `get_variation_coefficient` compute. -/
def variationCoefficient (sqrt : K → K) (loads : List K) : Except BalancerError K :=
  if loads = [] then .error .zeroDivision
  else
    let mu := loads.sum / loads.length
    if mu = 0 then return -1
    else
      let var := (loads.map fun load => (load - mu) ^ 2).sum
      let stddev := sqrt (var / loads.length)
      return stddev / mu

/-- `round_robin`. -/
def roundRobin (sqrt : K → K) (relayRates : Dict Int (RelayRate K)) (workerCores : List Int)
    : Except BalancerError (List RelayCpuEntry × K) := do
  let throughput := sortedReverse Throughput.load (relayThroughput relayRates)
  let (assigned, workerLoads) ← assignWorkers (.fromKeys workerCores 0) throughput
  let relayMappings ← pairMappings (sorted (fun item => item.1.relay) assigned)
  let cv ← variationCoefficient sqrt workerLoads.values
  return (relayMappings, cv)

/-- The loads that `get_variation_coefficient` adds up. -/
def mappedLoads (relayRates : Dict Int (RelayRate K)) (workerLoads : Dict Int K)
    : List RelayCpuEntry → Option (Dict Int K)
  | [] => some workerLoads
  | req :: reqs => do
      let rate ← relayRates.get? req.relayNumber.toInt
      let workerLoads ← workerLoads.addTo req.virtio2vfCpu.toInt rate.vm2vfLoad
      let workerLoads ← workerLoads.addTo req.vf2virtioCpu.toInt rate.vf2vmLoad
      mappedLoads relayRates workerLoads reqs

/-- `get_variation_coefficient`. -/
def getVariationCoefficient (sqrt : K → K) (prevMappings : Option (List RelayCpuEntry))
    (relayRates : Dict Int (RelayRate K)) (workerCores : List Int)
    : Except BalancerError K :=
  match prevMappings with
  | none => return 1e10
  | some prevMappings =>
      match mappedLoads relayRates (.fromKeys workerCores 0) prevMappings with
      | none => return 1e10
      | some workerLoads => variationCoefficient sqrt workerLoads.values

/-- The rates after `round_robin`, which has made both estimates. -/
def estimatedRates (relayRates : Dict Int (RelayRate K)) : Dict Int (RelayRate K) :=
  relayRates.mapValues fun _ rate => rate.estimated

/-- What `main` gathers for a NUMA node. -/
structure NumaInfo (K : Type) where
  workers : List Int
  relayRates : Dict Int (RelayRate K)
  currentMappings : List RelayCpuEntry

/-- The body of the loop over `numa_info`: the mappings of the update request, if one is sent. -/
def optimizeNode (sqrt : K → K) (sensitivity : K) (info : NumaInfo K)
    : Except BalancerError (Option (List RelayCpuEntry)) := do
  if info.relayRates.entries.isEmpty then return none
  let (newMappings, cv) ← roundRobin sqrt info.relayRates info.workers
  let prevCv ← getVariationCoefficient sqrt (some info.currentMappings)
    (estimatedRates info.relayRates) info.workers
  if cv = -1 then return none
  if cv + sensitivity < prevCv then return some newMappings
  return none

/-- The body of the loop over the relays of a response. A relay of another node is left out. -/
def addRelay (numaInfo : Dict Int (NumaInfo K)) (relay : PolledRelay K)
    : Except BalancerError (Dict Int (NumaInfo K)) :=
  let node : Int := relay.socketId.toNat
  let id : Int := relay.id.toNat
  match numaInfo.get? node with
  | none => return numaInfo
  | some info => do
      let req : RelayCpuEntry :=
        { relayNumber := ← balancerField id
          virtio2vfCpu := relay.vmToVfCpu
          vf2virtioCpu := relay.vfToVmCpu }
      return numaInfo.set node
        { info with
          relayRates := info.relayRates.set id (RelayRate.init relay).estimated
          currentMappings := info.currentMappings ++ [req] }

/-- The loop over the relays of a response. The workers of a node are in the order in which the
set of its CPUs is gone through.
-/
def gatherNuma (nodeCpus : Dict Int (List Int)) (workerCores : List Int)
    (relays : List (PolledRelay K))
    : Except BalancerError (Dict Int (NumaInfo K)) :=
  relays.foldlM addRelay (nodeCpus.mapValues fun _ cpus => {
    workers := cpus.filter fun cpu => cpu ∈ workerCores
    relayRates := .empty
    currentMappings := [] })

/-- The nodes merged into one for `--global-numa-opt`. -/
def mergeNuma (workerCores : List Int) (numaInfo : Dict Int (NumaInfo K))
    : Dict Int (NumaInfo K) :=
  .set .empty (-1) {
    workers := workerCores.dedup
    relayRates := numaInfo.values.foldl (fun rates info => rates.update info.relayRates) .empty
    currentMappings := numaInfo.values.flatMap NumaInfo.currentMappings }

/-- The loop over `numa_info`: the nodes for which an update is requested, with the mappings. -/
def optimizeNodes (sqrt : K → K) (sensitivity : K)
    : List (Int × NumaInfo K) → Except BalancerError (List (Int × List RelayCpuEntry))
  | [] => return []
  | (node, info) :: rest => do
      match ← optimizeNode sqrt sensitivity info with
      | none => optimizeNodes sqrt sensitivity rest
      | some mappings => return (node, mappings) :: (← optimizeNodes sqrt sensitivity rest)

/-- The options of the balancer that the optimization depends on. -/
structure BalancerArgs (K : Type) where
  sensitivity : K
  globalNumaOpt : Bool

/-- `main` replaces an invalid sensitivity. -/
def BalancerArgs.effectiveSensitivity (args : BalancerArgs K) : K :=
  if args.sensitivity < 0 then 0.25 else args.sensitivity

/-- One turn of the main processing loop, from the response of the statistics server to the
updates that are requested.
-/
def balancerTurn (sqrt : K → K) (args : BalancerArgs K) (nodeCpus : Dict Int (List Int))
    (workerCores : List Int) (relays : List (PolledRelay K))
    : Except BalancerError (List (Int × List RelayCpuEntry)) := do
  if relays.isEmpty then return []
  let numaInfo ← gatherNuma nodeCpus workerCores relays
  let numaInfo := if args.globalNumaOpt then mergeNuma workerCores numaInfo else numaInfo
  optimizeNodes sqrt args.effectiveSensitivity numaInfo.entries

-----------------------------------------------------------------------------------------
-- The loads of a mapping
-----------------------------------------------------------------------------------------

/-- What an assigned load adds to its worker. -/
def assignedCharge (item : Throughput K × Int) : Int × K := (item.2, item.1.load)

/-- What the relay of a request adds to its workers. -/
def requestCharges (relayRates : Dict Int (RelayRate K)) (req : RelayCpuEntry) : List (Int × K) :=
  match relayRates.get? req.relayNumber.toInt with
  | none => []
  | some rate =>
      [(req.virtio2vfCpu.toInt, rate.vm2vfLoad), (req.vf2virtioCpu.toInt, rate.vf2vmLoad)]

/-- With a worker, every load is assigned, and the loads of the workers add up to the charges. -/
theorem assignWorkers_spec (items : List (Throughput K)) {workerLoads : Dict Int K}
    (some_worker : workerLoads.keys ≠ [])
    : ∃ assigned after, assignWorkers workerLoads items = .ok (assigned, after)
        ∧ assigned.map Prod.fst = items
        ∧ (∀ item ∈ assigned, item.2 ∈ workerLoads.keys)
        ∧ workerLoads.charge (assigned.map assignedCharge) = some after := by
  induction items generalizing workerLoads with
  | nil => exact ⟨[], workerLoads, rfl, rfl, by simp, rfl⟩
  | cons item items ih =>
      obtain ⟨worker, least⟩ := Dict.leastKey_isSome some_worker
      have known := Dict.leastKey_mem least
      obtain ⟨grown, added, keys⟩ := Dict.addTo_of_mem item.load known
      obtain ⟨assigned, after, rest, same, known_rest, charged⟩ := ih (keys ▸ some_worker)
      refine ⟨(item, worker) :: assigned, after, ?_, ?_, ?_, ?_⟩
      · simp only [assignWorkers, least, added, rest]
        rfl
      · simp [same]
      · exact List.forall_mem_cons.mpr ⟨known, fun item mem => keys ▸ known_rest item mem⟩
      · simpa [Dict.charge, assignedCharge, added] using charged

/-- Which worker gets a load depends on the sequence of the loads alone. -/
theorem assignWorkers_congr {items others : List (Throughput K)} {workerLoads : Dict Int K}
    {assigned : List (Throughput K × Int)} {after : Dict Int K}
    (loads : others.map Throughput.load = items.map Throughput.load)
    (h : assignWorkers workerLoads items = .ok (assigned, after))
    : ∃ assigned', assignWorkers workerLoads others = .ok (assigned', after)
        ∧ assigned'.map Prod.snd = assigned.map Prod.snd := by
  induction items generalizing others workerLoads assigned with
  | nil =>
      obtain rfl : others = [] := List.map_eq_nil_iff.mp loads
      exact ⟨assigned, h, rfl⟩
  | cons item items ih =>
      obtain ⟨other, others, rfl, load, loads⟩ := List.map_eq_cons_iff.mp loads
      unfold assignWorkers at h ⊢
      cases least : workerLoads.leastKey with
      | none => simp [least] at h
      | some worker =>
          simp only [least, load] at h ⊢
          cases added : workerLoads.addTo worker item.load with
          | none => simp [added] at h
          | some grown =>
              simp only [added] at h ⊢
              obtain ⟨⟨rest, _⟩, assigns, h⟩ := of_bind_ok h
              cases h
              obtain ⟨rest', assigns', workers⟩ := ih loads assigns
              refine ⟨(other, worker) :: rest', ?_, by simp [workers]⟩
              rw [assigns']
              rfl

omit [LinearOrder K] in
theorem mappedLoads_eq_charge {relayRates : Dict Int (RelayRate K)} {reqs : List RelayCpuEntry}
    {workerLoads : Dict Int K}
    (known : ∀ req ∈ reqs, req.relayNumber.toInt ∈ relayRates.keys)
    : mappedLoads relayRates workerLoads reqs
      = workerLoads.charge (reqs.flatMap (requestCharges relayRates)) := by
  induction reqs generalizing workerLoads with
  | nil => rfl
  | cons req reqs ih =>
      obtain ⟨rate, found⟩ := Dict.get?_isSome (known req List.mem_cons_self)
      have rest (loads : Dict Int K)
          : mappedLoads relayRates loads reqs
            = loads.charge (reqs.flatMap (requestCharges relayRates)) :=
        ih fun req mem => known req (List.mem_cons_of_mem _ mem)
      simp only [mappedLoads, List.flatMap_cons, requestCharges, found, Option.bind_eq_bind,
        Option.bind_some, List.cons_append, List.nil_append, Dict.charge, rest]

-----------------------------------------------------------------------------------------
-- Pairs of neighbours
-----------------------------------------------------------------------------------------

/-- The two loads of a relay. -/
def relayLoads (entry : Int × RelayRate K) : List (Throughput K) :=
  [⟨entry.1, entry.2.estimated.vm2vfLoad, .vm2vf⟩, ⟨entry.1, entry.2.estimated.vf2vmLoad, .vf2vm⟩]

omit [LinearOrder K] [DivisionRing K] in
/-- In the order of the relays, an element with the least relay comes first. -/
theorem first_has_least_relay {assigned : List (Throughput K × Int)}
    {item : Throughput K} {items : List (Throughput K)}
    (ordered : assigned.Pairwise fun a b => a.1.relay ≤ b.1.relay)
    (perm : (assigned.map Prod.fst).Perm (item :: items))
    (least : ∀ other ∈ items, item.relay ≤ other.relay)
    : ∃ first rest, assigned = first :: rest ∧ first.1 ∈ item :: items
        ∧ first.1.relay = item.relay := by
  cases assigned with
  | nil => simp at perm
  | cons first rest =>
      have listed : first.1 ∈ item :: items := perm.mem_iff.mp (by simp)
      have above : item.relay ≤ first.1.relay := by
        rcases List.mem_cons.mp listed with same | other
        · exact le_of_eq (congrArg Throughput.relay same.symm)
        · exact least _ other
      have below : first.1.relay ≤ item.relay := by
        obtain ⟨holder, mem, rfl⟩ := List.mem_map.mp (perm.mem_iff.mpr List.mem_cons_self)
        rcases List.mem_cons.mp mem with rfl | later
        · exact le_refl _
        · exact (List.pairwise_cons.mp ordered).1 holder later
      exact ⟨first, rest, rfl, listed, le_antisymm below above⟩

omit [LinearOrder K] in
/-- In the order of the relays, the two loads of the first relay come first. -/
theorem first_pair {assigned : List (Throughput K × Int)} {entry : Int × RelayRate K}
    {items : List (Throughput K)}
    (ordered : assigned.Pairwise fun a b => a.1.relay ≤ b.1.relay)
    (perm : (assigned.map Prod.fst).Perm (relayLoads entry ++ items))
    (least : ∀ other ∈ items, entry.1 < other.relay)
    : ∃ first second rest, assigned = first :: second :: rest
        ∧ (rest.map Prod.fst).Perm items
        ∧ (relayLoads entry = [first.1, second.1] ∨ relayLoads entry = [second.1, first.1]) := by
  have not_later {item : Throughput K} (relay : item.relay = entry.1) : item ∉ items :=
    fun mem => absurd relay (ne_of_gt (least item mem))
  -- The second element, once one of the two loads is known to be the first.
  have second {rest : List (Throughput K × Int)} {item : Throughput K}
      (ordered : rest.Pairwise fun a b => a.1.relay ≤ b.1.relay) (relay : item.relay = entry.1)
      (perm : (rest.map Prod.fst).Perm (item :: items))
      : ∃ second tail, rest = second :: tail ∧ second.1 = item
          ∧ (tail.map Prod.fst).Perm items := by
    obtain ⟨second, tail, rfl, listed, same⟩ := first_has_least_relay ordered perm
      fun other mem => relay ▸ (least other mem).le
    have this_one : second.1 = item :=
      (List.mem_cons.mp listed).resolve_right (not_later (same.trans relay))
    rw [List.map_cons, this_one] at perm
    exact ⟨second, tail, rfl, this_one, perm.cons_inv⟩
  have nearest : ∀ other ∈ (⟨entry.1, entry.2.estimated.vf2vmLoad, .vf2vm⟩ : Throughput K) :: items,
      entry.1 ≤ other.relay := by
    intro other mem
    rcases List.mem_cons.mp mem with rfl | later
    · exact le_refl _
    · exact (least other later).le
  obtain ⟨first, rest, rfl, listed, relay⟩ := first_has_least_relay ordered perm nearest
  have ordered := (List.pairwise_cons.mp ordered).2
  rcases List.mem_cons.mp listed with vm2vf | listed
  · rw [List.map_cons, vm2vf] at perm
    obtain ⟨other, tail, rfl, vf2vm, perm⟩ := second ordered rfl perm.cons_inv
    exact ⟨first, other, tail, rfl, perm, Or.inl (by rw [vm2vf, vf2vm]; rfl)⟩
  · have vf2vm := (List.mem_cons.mp listed).resolve_right (not_later relay)
    rw [List.map_cons, vf2vm] at perm
    obtain ⟨other, tail, rfl, vm2vf, perm⟩ := second ordered rfl
      (perm.trans (List.Perm.swap ..)).cons_inv
    exact ⟨first, other, tail, rfl, perm, Or.inr (by rw [vm2vf, vf2vm]; rfl)⟩

/-- The number fits a field of type `int32`. -/
def FieldFits (value : Int) : Prop := -2147483648 ≤ value ∧ value ≤ 2147483647

theorem balancerField_of_fits {value : Int} (fits : FieldFits value)
    : balancerField value = .ok (.ofInt value) :=
  if_pos fits

theorem balancerField_eq_ok {value : Int} {field : Int32} (h : balancerField value = .ok field)
    : FieldFits value ∧ field.toInt = value := by
  unfold balancerField at h
  split at h
  · rename_i fits
    cases h
    exact ⟨fits, Int32.toInt_ofInt_of_le (by simpa using fits.1) (by simpa using by omega)⟩
  · cases h

/-- The request that is made from the two loads of a relay. -/
def pairRequest (relay vm2vfWorker vf2vmWorker : Int) : Except BalancerError RelayCpuEntry := do
  let relayNumber ← balancerField relay
  let virtio2vfCpu ← balancerField vm2vfWorker
  let vf2virtioCpu ← balancerField vf2vmWorker
  return { relayNumber, virtio2vfCpu, vf2virtioCpu }

theorem pairRequest_eq_ok {relay vm2vfWorker vf2vmWorker : Int} {req : RelayCpuEntry}
    (h : pairRequest relay vm2vfWorker vf2vmWorker = .ok req)
    : (FieldFits relay ∧ FieldFits vm2vfWorker ∧ FieldFits vf2vmWorker)
      ∧ req.relayNumber.toInt = relay ∧ req.virtio2vfCpu.toInt = vm2vfWorker
      ∧ req.vf2virtioCpu.toInt = vf2vmWorker := by
  obtain ⟨number, relayField, h⟩ := of_bind_ok h
  obtain ⟨virtio2vf, vm2vfField, h⟩ := of_bind_ok h
  obtain ⟨vf2virtio, vf2vmField, h⟩ := of_bind_ok h
  cases h
  obtain ⟨relayFits, relay⟩ := balancerField_eq_ok relayField
  obtain ⟨vm2vfFits, vm2vf⟩ := balancerField_eq_ok vm2vfField
  obtain ⟨vf2vmFits, vf2vm⟩ := balancerField_eq_ok vf2vmField
  exact ⟨⟨relayFits, vm2vfFits, vf2vmFits⟩, relay, vm2vf, vf2vm⟩

omit [LinearOrder K] in
/-- A pair of neighbours becomes a request with the worker of each direction, in either order. -/
theorem pairMappings_pair {entry : Int × RelayRate K} {first second : Throughput K × Int}
    (rest : List (Throughput K × Int))
    (pair : relayLoads entry = [first.1, second.1] ∨ relayLoads entry = [second.1, first.1])
    : ∃ vm2vf vf2vm : Throughput K × Int,
        (vm2vf, vf2vm) ∈ [(first, second), (second, first)]
        ∧ relayLoads entry = [vm2vf.1, vf2vm.1]
        ∧ pairMappings (first :: second :: rest) = do
            let req ← pairRequest entry.1 vm2vf.2 vf2vm.2
            return req :: (← pairMappings rest) := by
  obtain ⟨a, v⟩ := first
  obtain ⟨b, w⟩ := second
  rcases pair with pair | pair
  · obtain ⟨rfl, rfl⟩ : _ = a ∧ _ = b := by simpa [relayLoads] using pair
    refine ⟨_, _, List.mem_cons_self, rfl, ?_⟩
    simp [pairMappings, pairRequest]
  · obtain ⟨rfl, rfl⟩ : _ = b ∧ _ = a := by simpa [relayLoads] using pair
    refine ⟨_, _, List.mem_cons_of_mem _ List.mem_cons_self, rfl, ?_⟩
    simp [pairMappings, pairRequest]

/-- The assigned loads in the order of the relays, which are those of `entries`. -/
structure Paired (entries : List (Int × RelayRate K)) (assigned : List (Throughput K × Int))
    : Prop where
  ascending : entries.Pairwise fun a b => a.1 < b.1
  ordered : assigned.Pairwise fun a b => a.1.relay ≤ b.1.relay
  perm : (assigned.map Prod.fst).Perm (entries.flatMap relayLoads)

omit [LinearOrder K] in
/-- The first relay has the first two elements. -/
theorem Paired.uncons {entry : Int × RelayRate K} {entries : List (Int × RelayRate K)}
    {assigned : List (Throughput K × Int)} (paired : Paired (entry :: entries) assigned)
    : ∃ first second rest, assigned = first :: second :: rest ∧ Paired entries rest
        ∧ (relayLoads entry = [first.1, second.1] ∨ relayLoads entry = [second.1, first.1]) := by
  obtain ⟨ascending, ordered, perm⟩ := paired
  obtain ⟨least, ascending⟩ := List.pairwise_cons.mp ascending
  have later : ∀ other ∈ entries.flatMap relayLoads, entry.1 < other.relay := by
    intro other mem
    obtain ⟨next, mem, load⟩ := List.mem_flatMap.mp mem
    have relay : other.relay = next.1 := by
      rcases List.mem_pair.mp load with rfl | rfl
      · rfl
      · rfl
    exact relay ▸ least next mem
  obtain ⟨first, second, rest, rfl, perm, pair⟩ := first_pair ordered perm later
  have ordered := (List.pairwise_cons.mp (List.pairwise_cons.mp ordered).2).2
  exact ⟨first, second, rest, rfl, ⟨ascending, ordered, perm⟩, pair⟩

omit [LinearOrder K] in
/-- The mappings name each relay once and charge the workers what the assignment charged them. -/
theorem pairMappings_eq_ok {entries : List (Int × RelayRate K)}
    {assigned : List (Throughput K × Int)} {mappings : List RelayCpuEntry}
    {relayRates : Dict Int (RelayRate K)}
    (rates : ∀ entry ∈ entries, relayRates.get? entry.1 = some entry.2.estimated)
    (paired : Paired entries assigned) (h : pairMappings assigned = .ok mappings)
    : mappings.map (fun req => req.relayNumber.toInt) = entries.map Prod.fst
      ∧ (mappings.flatMap (requestCharges relayRates)).Perm (assigned.map assignedCharge)
      ∧ (∀ entry ∈ entries, FieldFits entry.1) ∧ ∀ item ∈ assigned, FieldFits item.2 := by
  induction entries generalizing assigned mappings with
  | nil =>
      obtain rfl : assigned = [] := by simpa using paired.perm
      cases h
      simp
  | cons entry entries ih =>
      obtain ⟨first, second, rest, rfl, tail, pair⟩ := paired.uncons
      obtain ⟨vm2vf, vf2vm, order, loads, request⟩ := pairMappings_pair rest pair
      rw [request] at h
      obtain ⟨req, made, h⟩ := of_bind_ok h
      obtain ⟨others, more, h⟩ := of_bind_ok h
      cases h
      obtain ⟨⟨relayFits, vm2vfFits, vf2vmFits⟩, number, virtio2vf, vf2virtio⟩ :=
        pairRequest_eq_ok made
      obtain ⟨numbers, charges, relaysFit, workersFit⟩ :=
        ih (fun entry mem => rates entry (List.mem_cons_of_mem _ mem)) tail more
      have charged : (requestCharges relayRates req).Perm
          [assignedCharge first, assignedCharge second] := by
        have found := rates entry List.mem_cons_self
        simp only [relayLoads, List.cons.injEq, and_true] at loads
        have same : requestCharges relayRates req = [assignedCharge vm2vf, assignedCharge vf2vm] := by
          simp [requestCharges, number, found, assignedCharge, virtio2vf, vf2virtio, ← loads.1,
            ← loads.2]
        rw [same]
        rcases List.mem_pair.mp order with order | order
        · cases order
          exact .refl _
        · cases order
          exact .swap ..
      refine ⟨by simp [number, numbers], ?_, ?_, ?_⟩
      · exact charged.append charges
      · exact List.forall_mem_cons.mpr ⟨relayFits, relaysFit⟩
      · rcases List.mem_pair.mp order with order | order
        · cases order
          exact List.forall_mem_cons.mpr ⟨vm2vfFits, List.forall_mem_cons.mpr ⟨vf2vmFits, workersFit⟩⟩
        · cases order
          exact List.forall_mem_cons.mpr ⟨vf2vmFits, List.forall_mem_cons.mpr ⟨vm2vfFits, workersFit⟩⟩

omit [LinearOrder K] in
/-- Numbers that fit their fields are all that the mappings need. -/
theorem pairMappings_of_fits {entries : List (Int × RelayRate K)}
    {assigned : List (Throughput K × Int)} (paired : Paired entries assigned)
    (relaysFit : ∀ entry ∈ entries, FieldFits entry.1)
    (workersFit : ∀ item ∈ assigned, FieldFits item.2)
    : ∃ mappings, pairMappings assigned = .ok mappings := by
  induction entries generalizing assigned with
  | nil =>
      obtain rfl : assigned = [] := by simpa using paired.perm
      exact ⟨[], rfl⟩
  | cons entry entries ih =>
      obtain ⟨first, second, rest, rfl, tail, pair⟩ := paired.uncons
      obtain ⟨vm2vf, vf2vm, order, _, request⟩ := pairMappings_pair rest pair
      have fits : FieldFits vm2vf.2 ∧ FieldFits vf2vm.2 := by
        have firstFits := workersFit first (by simp)
        have secondFits := workersFit second (by simp)
        rcases List.mem_pair.mp order with order | order
        · cases order
          exact ⟨firstFits, secondFits⟩
        · cases order
          exact ⟨secondFits, firstFits⟩
      obtain ⟨mappings, more⟩ := ih tail
        (fun entry mem => relaysFit entry (List.mem_cons_of_mem _ mem))
        (fun item mem => workersFit item (by simp [mem]))
      rw [request, pairRequest, balancerField_of_fits (relaysFit entry List.mem_cons_self),
        balancerField_of_fits fits.1, balancerField_of_fits fits.2, more]
      exact ⟨_, rfl⟩

-----------------------------------------------------------------------------------------
-- The mapping of `round_robin`
-----------------------------------------------------------------------------------------

/-- The relays in the order of their numbers. -/
def ascendingEntries (relayRates : Dict Int (RelayRate K)) : List (Int × RelayRate K) :=
  sorted Prod.fst relayRates.entries

omit [LinearOrder K] [DivisionRing K] in
theorem ascendingEntries_perm (relayRates : Dict Int (RelayRate K))
    : (ascendingEntries relayRates).Perm relayRates.entries :=
  sorted_perm ..

omit [LinearOrder K] [DivisionRing K] in
theorem ascendingEntries_pairwise (relayRates : Dict Int (RelayRate K))
    : (ascendingEntries relayRates).Pairwise fun a b => a.1 < b.1 := by
  have distinct : (ascendingEntries relayRates).Pairwise fun a b => a.1 ≠ b.1 :=
    List.pairwise_map.mp (((ascendingEntries_perm relayRates).map Prod.fst).nodup_iff.mpr
      relayRates.distinct)
  have ordered : (ascendingEntries relayRates).Pairwise fun a b => a.1 ≤ b.1 :=
    sorted_pairwise Prod.fst relayRates.entries
  exact (ordered.and distinct).imp fun h => lt_of_le_of_ne h.1 h.2

theorem paired_of_assigned {relayRates : Dict Int (RelayRate K)}
    {assigned : List (Throughput K × Int)}
    (items : assigned.map Prod.fst = sortedReverse Throughput.load (relayThroughput relayRates))
    : Paired (ascendingEntries relayRates) (sorted (fun item => item.1.relay) assigned) where
  ascending := ascendingEntries_pairwise relayRates
  ordered := sorted_pairwise (fun item : Throughput K × Int => item.1.relay) assigned
  perm := by
    have first : ((sorted (fun item => item.1.relay) assigned).map Prod.fst).Perm
        (relayThroughput relayRates) :=
      ((sorted_perm ..).map Prod.fst).trans (items ▸ sortedReverse_perm ..)
    exact first.trans ((ascendingEntries_perm relayRates).symm.flatMap_right relayLoads)

omit [LinearOrder K] in
theorem get?_estimatedRates {relayRates : Dict Int (RelayRate K)} {entry : Int × RelayRate K}
    (mem : entry ∈ relayRates.entries)
    : (estimatedRates relayRates).get? entry.1 = some entry.2.estimated :=
  Dict.get?_eq_some_iff.mpr (List.mem_map.mpr ⟨entry, mem, rfl⟩)

/-- The steps of `round_robin`, with the loads that it accumulates. -/
structure RoundRobinRun (sqrt : K → K) (relayRates : Dict Int (RelayRate K)) (workers : List Int)
    (mappings : List RelayCpuEntry) (cv : K) (workerLoads : Dict Int K)
    (assigned : List (Throughput K × Int)) : Prop where
  assigns : assignWorkers (.fromKeys workers 0)
    (sortedReverse Throughput.load (relayThroughput relayRates)) = .ok (assigned, workerLoads)
  pairs : pairMappings (sorted (fun item => item.1.relay) assigned) = .ok mappings
  variation : variationCoefficient sqrt workerLoads.values = .ok cv

theorem roundRobin_eq_ok {sqrt : K → K} {relayRates : Dict Int (RelayRate K)} {workers : List Int}
    {mappings : List RelayCpuEntry} {cv : K}
    : roundRobin sqrt relayRates workers = .ok (mappings, cv)
      ↔ ∃ workerLoads assigned,
          RoundRobinRun sqrt relayRates workers mappings cv workerLoads assigned := by
  constructor
  · intro h
    obtain ⟨⟨assigned, workerLoads⟩, assigns, h⟩ := of_bind_ok h
    obtain ⟨_, pairs, h⟩ := of_bind_ok h
    obtain ⟨_, variation, h⟩ := of_bind_ok h
    cases h
    exact ⟨workerLoads, assigned, assigns, pairs, variation⟩
  · rintro ⟨workerLoads, assigned, assigns, pairs, variation⟩
    simp only [roundRobin, assigns, pairs, variation, bind, Except.bind, pure, Except.pure]

omit [LinearOrder K] in
theorem fromKeys_keys_ne_nil {workers : List Int} (some_worker : workers ≠ [])
    : (Dict.fromKeys workers (0 : K)).keys ≠ [] := by
  obtain ⟨worker, mem⟩ := List.exists_mem_of_ne_nil workers some_worker
  exact List.ne_nil_of_mem (Dict.mem_keys_fromKeys.mpr mem)

section

variable {sqrt : K → K} {relayRates : Dict Int (RelayRate K)} {workers : List Int}
  {mappings : List RelayCpuEntry} {cv : K} {workerLoads : Dict Int K}
  {assigned : List (Throughput K × Int)}

theorem RoundRobinRun.spec (some_worker : workers ≠ [])
    (run : RoundRobinRun sqrt relayRates workers mappings cv workerLoads assigned)
    : assigned.map Prod.fst = sortedReverse Throughput.load (relayThroughput relayRates)
      ∧ (∀ item ∈ assigned, item.2 ∈ (Dict.fromKeys workers (0 : K)).keys)
      ∧ (Dict.fromKeys workers (0 : K)).charge (assigned.map assignedCharge) = some workerLoads := by
  obtain ⟨_, _, assigns, items, known, charged⟩ := assignWorkers_spec
    (sortedReverse Throughput.load (relayThroughput relayRates)) (fromKeys_keys_ne_nil some_worker)
  cases assigns.symm.trans run.assigns
  exact ⟨items, known, charged⟩

/-- The loads of the mapping are those that were accumulated, in whatever order they are added. -/
theorem RoundRobinRun.mappedLoads_eq (some_worker : workers ≠ [])
    (run : RoundRobinRun sqrt relayRates workers mappings cv workerLoads assigned)
    {others : Dict Int (RelayRate K)} (same : others.entries.Perm relayRates.entries)
    {applied : List RelayCpuEntry} (perm : applied.Perm mappings)
    : mappedLoads (estimatedRates others) (.fromKeys workers 0) applied = some workerLoads := by
  obtain ⟨items, known, charged⟩ := run.spec some_worker
  have rates : ∀ entry ∈ ascendingEntries relayRates,
      (estimatedRates others).get? entry.1 = some entry.2.estimated := by
    intro entry mem
    exact get?_estimatedRates (same.mem_iff.mpr ((ascendingEntries_perm relayRates).mem_iff.mp mem))
  obtain ⟨numbers, charges, _⟩ := pairMappings_eq_ok rates (paired_of_assigned items) run.pairs
  have listed : ∀ req ∈ applied, req.relayNumber.toInt ∈ (estimatedRates others).keys := by
    intro req mem
    have number : req.relayNumber.toInt ∈ (ascendingEntries relayRates).map Prod.fst :=
      numbers ▸ List.mem_map_of_mem (f := fun req : RelayCpuEntry => req.relayNumber.toInt)
        (perm.mem_iff.mp mem)
    obtain ⟨entry, mem, number⟩ := List.mem_map.mp number
    exact number ▸ List.mem_map.mpr ⟨_, Dict.get?_eq_some_iff.mp (rates entry mem), rfl⟩
  have charges : (assigned.map assignedCharge).Perm
      (applied.flatMap (requestCharges (estimatedRates others))) :=
    ((sorted_perm ..).map assignedCharge).symm.trans
      (charges.symm.trans (perm.symm.flatMap_right _))
  rw [mappedLoads_eq_charge listed, ← Dict.charge_perm charges, charged]
  intro charge mem
  obtain ⟨item, assigned_item, rfl⟩ := List.mem_map.mp mem
  exact known item assigned_item

/-- With the same rates, `round_robin` reports the same coefficient. -/
theorem RoundRobinRun.again (some_worker : workers ≠ [])
    (run : RoundRobinRun sqrt relayRates workers mappings cv workerLoads assigned)
    {others : Dict Int (RelayRate K)} (same : others.entries.Perm relayRates.entries)
    : ∃ again, roundRobin sqrt others workers = .ok (again, cv) := by
  obtain ⟨items, known, charged⟩ := run.spec some_worker
  obtain ⟨_, _, relaysFit, workersFit⟩ := pairMappings_eq_ok
    (fun entry mem => get?_estimatedRates ((ascendingEntries_perm relayRates).mem_iff.mp mem))
    (paired_of_assigned items) run.pairs
  have loads : (sortedReverse Throughput.load (relayThroughput others)).map Throughput.load
      = (sortedReverse Throughput.load (relayThroughput relayRates)).map Throughput.load :=
    map_sortedReverse _ (same.flatMap_right relayLoads)
  obtain ⟨reassigned, assigns, same_workers⟩ := assignWorkers_congr loads run.assigns
  obtain ⟨_, _, spec, items', _⟩ := assignWorkers_spec
    (sortedReverse Throughput.load (relayThroughput others)) (fromKeys_keys_ne_nil some_worker)
  cases spec.symm.trans assigns
  have relaysFit : ∀ entry ∈ ascendingEntries others, FieldFits entry.1 := by
    intro entry mem
    have listed := same.mem_iff.mp ((ascendingEntries_perm others).mem_iff.mp mem)
    exact relaysFit entry ((ascendingEntries_perm relayRates).mem_iff.mpr listed)
  have workersFit : ∀ item ∈ sorted (fun item => item.1.relay) reassigned, FieldFits item.2 := by
    intro item mem
    have worker : item.2 ∈ assigned.map Prod.snd :=
      same_workers ▸ List.mem_map_of_mem ((sorted_perm ..).mem_iff.mp mem)
    obtain ⟨item, mem, worker⟩ := List.mem_map.mp worker
    exact worker ▸ workersFit item ((sorted_perm ..).mem_iff.mpr mem)
  obtain ⟨again, pairs⟩ := pairMappings_of_fits (paired_of_assigned items') relaysFit workersFit
  exact ⟨again, roundRobin_eq_ok.mpr ⟨workerLoads, reassigned, assigns, pairs, run.variation⟩⟩

end

theorem variationCoefficient_of_ne_nil (sqrt : K → K) {loads : List K} (some_load : loads ≠ [])
    : ∃ cv, variationCoefficient sqrt loads = .ok cv := by
  by_cases idle : loads.sum / loads.length = 0
  · exact ⟨-1, by simp only [variationCoefficient, if_neg some_load, if_pos idle]; rfl⟩
  · exact ⟨_, by simp only [variationCoefficient, if_neg some_load, if_neg idle]; rfl⟩

/-- With a worker, numbers that fit their fields are all that `round_robin` needs. -/
theorem roundRobin_returns (sqrt : K → K) {relayRates : Dict Int (RelayRate K)}
    {workers : List Int} (some_worker : workers ≠ [])
    (relaysFit : ∀ id ∈ relayRates.keys, FieldFits id)
    (workersFit : ∀ worker ∈ workers, FieldFits worker)
    : ∃ result, roundRobin sqrt relayRates workers = .ok result := by
  have some_load : (Dict.fromKeys workers (0 : K)).keys ≠ [] := fromKeys_keys_ne_nil some_worker
  obtain ⟨assigned, workerLoads, assigns, items, known, charged⟩ := assignWorkers_spec
    (sortedReverse Throughput.load (relayThroughput relayRates)) some_load
  have relaysFit : ∀ entry ∈ ascendingEntries relayRates, FieldFits entry.1 := by
    intro entry mem
    exact relaysFit entry.1 (List.mem_map_of_mem ((ascendingEntries_perm relayRates).mem_iff.mp mem))
  have workersFit : ∀ item ∈ sorted (fun item => item.1.relay) assigned, FieldFits item.2 := by
    intro item mem
    have worker := known item ((sorted_perm ..).mem_iff.mp mem)
    exact workersFit item.2 (Dict.mem_keys_fromKeys.mp worker)
  obtain ⟨mappings, pairs⟩ := pairMappings_of_fits (paired_of_assigned items) relaysFit workersFit
  have some_value : workerLoads.values ≠ [] := by
    rw [← Dict.keys_charge charged] at some_load
    simpa [Dict.values, Dict.keys] using some_load
  obtain ⟨cv, variation⟩ := variationCoefficient_of_ne_nil sqrt some_value
  exact ⟨(mappings, cv), roundRobin_eq_ok.mpr ⟨workerLoads, assigned, assigns, pairs, variation⟩⟩

/-- The loads that `get_variation_coefficient` adds up for a mapping of `round_robin` are those
that `round_robin` accumulated, and the coefficients are the same. Once the mapping is applied,
in whatever order the relays are then listed, a poll with the same rates requests no update.
-/
theorem round_robin_mapping_is_kept [IsStrictOrderedRing K] (sqrt : K → K)
    (relayRates : Dict Int (RelayRate K)) {workers : List Int} (some_worker : workers ≠ [])
    {sensitivity : K} (valid : 0 ≤ sensitivity)
    : ((∀ id ∈ relayRates.keys, FieldFits id) → (∀ worker ∈ workers, FieldFits worker)
        → ∃ result, roundRobin sqrt relayRates workers = .ok result)
      ∧ ∀ mappings cv, roundRobin sqrt relayRates workers = .ok (mappings, cv)
        → (∃ assigned workerLoads,
            assignWorkers (.fromKeys workers 0)
                (sortedReverse Throughput.load (relayThroughput relayRates))
              = .ok (assigned, workerLoads)
            ∧ mappedLoads (estimatedRates relayRates) (.fromKeys workers 0) mappings
              = some workerLoads)
          ∧ getVariationCoefficient sqrt (some mappings) (estimatedRates relayRates) workers = .ok cv
          ∧ ∀ info : NumaInfo K,
              info.workers = workers
              → info.relayRates.entries.Perm relayRates.entries
              → info.currentMappings.Perm mappings
              → (∃ again, roundRobin sqrt info.relayRates info.workers = .ok (again, cv))
                ∧ getVariationCoefficient sqrt (some info.currentMappings)
                    (estimatedRates info.relayRates) info.workers = .ok cv
                ∧ ¬ cv + sensitivity < cv
                ∧ optimizeNode sqrt sensitivity info = .ok none := by
  refine ⟨roundRobin_returns sqrt some_worker, ?_⟩
  intro mappings cv returned
  obtain ⟨workerLoads, assigned, run⟩ := roundRobin_eq_ok.mp returned
  have coefficient {others : Dict Int (RelayRate K)} {applied : List RelayCpuEntry}
      (same : others.entries.Perm relayRates.entries) (perm : applied.Perm mappings)
      : getVariationCoefficient sqrt (some applied) (estimatedRates others) workers = .ok cv := by
    simp only [getVariationCoefficient, run.mappedLoads_eq some_worker same perm]
    exact run.variation
  refine ⟨⟨assigned, workerLoads, run.assigns, run.mappedLoads_eq some_worker (.refl _) (.refl _)⟩,
    coefficient (.refl _) (.refl _), ?_⟩
  rintro ⟨_, others, applied⟩ rfl same perm
  obtain ⟨again, returned⟩ := run.again some_worker same
  have settled : ¬ cv + sensitivity < cv := not_lt.mpr (le_add_of_nonneg_right valid)
  refine ⟨⟨again, returned⟩, coefficient same perm, settled, ?_⟩
  unfold optimizeNode
  split
  · rfl
  · simp only [returned, coefficient same perm, bind, Except.bind, if_neg settled]
    split
    · rfl
    · rfl

/-- The rates of a relay with a million packets per second in one direction. -/
def busyRate (toVf toVm : ℚ) : RelayRate ℚ :=
  .init {
    id := 0
    socketId := 0
    vmToVfCpu := 1
    vfToVmCpu := 1
    vmToVf := ⟨toVf, 64 * toVf, toVf, 64 * toVf⟩
    vfToVm := ⟨toVm, 64 * toVm, toVm, 64 * toVm⟩ }

/-- Two relays, of which one only receives and the other only sends. -/
def twoBusyRelays : Dict Int (RelayRate ℚ) :=
  ⟨[(0, busyRate 1000000 0), (1, busyRate 0 2000000)], by decide⟩

/-- Witness: two relays on the workers 1 and 2. The loads of two workers have a rational
deviation.
-/
theorem two_busy_relays_are_kept
    : ∃ mappings cv,
        roundRobin Rat.sqrt twoBusyRelays [1, 2] = .ok (mappings, cv)
        ∧ optimizeNode Rat.sqrt 0.25 ⟨[1, 2], twoBusyRelays, mappings⟩ = .ok none := by
  have relaysFit : ∀ id ∈ twoBusyRelays.keys, FieldFits id := by
    simp [twoBusyRelays, Dict.keys, FieldFits]
  have workersFit : ∀ worker ∈ [1, 2], FieldFits worker := by simp [FieldFits]
  have kept := round_robin_mapping_is_kept Rat.sqrt twoBusyRelays
    (List.cons_ne_nil 1 [2]) (show (0 : ℚ) ≤ 0.25 by norm_num)
  obtain ⟨⟨mappings, cv⟩, returned⟩ := kept.1 relaysFit workersFit
  have settled := (kept.2 mappings cv returned).2.2 ⟨[1, 2], twoBusyRelays, mappings⟩ rfl
    (.refl _) (.refl _)
  exact ⟨mappings, cv, returned, settled.2.2.2⟩

-----------------------------------------------------------------------------------------
-- The entries of the mapping
-----------------------------------------------------------------------------------------

/-- The entry of a relay has the workers that its two loads were assigned to. -/
structure EntryOf (assigned : List (Throughput K × Int)) (relay : Int × RelayRate K)
    (req : RelayCpuEntry) : Prop where
  number : req.relayNumber.toInt = relay.1
  virtio2vf : (⟨relay.1, relay.2.estimated.vm2vfLoad, .vm2vf⟩, req.virtio2vfCpu.toInt) ∈ assigned
  vf2virtio : (⟨relay.1, relay.2.estimated.vf2vmLoad, .vf2vm⟩, req.vf2virtioCpu.toInt) ∈ assigned

omit [LinearOrder K] in
theorem pairMappings_entries {entries : List (Int × RelayRate K)}
    {assigned : List (Throughput K × Int)} {mappings : List RelayCpuEntry}
    (paired : Paired entries assigned) (h : pairMappings assigned = .ok mappings)
    : ∀ req ∈ mappings, ∃ relay ∈ entries, EntryOf assigned relay req := by
  induction entries generalizing assigned mappings with
  | nil =>
      obtain rfl : assigned = [] := by simpa using paired.perm
      cases h
      simp
  | cons entry entries ih =>
      obtain ⟨first, second, rest, rfl, tail, pair⟩ := paired.uncons
      obtain ⟨vm2vf, vf2vm, order, loads, request⟩ := pairMappings_pair rest pair
      rw [request] at h
      obtain ⟨req, made, h⟩ := of_bind_ok h
      obtain ⟨others, more, h⟩ := of_bind_ok h
      cases h
      obtain ⟨_, number, virtio2vf, vf2virtio⟩ := pairRequest_eq_ok made
      have listed : vm2vf ∈ first :: second :: rest ∧ vf2vm ∈ first :: second :: rest := by
        rcases List.mem_pair.mp order with order | order
        · cases order
          simp
        · cases order
          simp
      simp only [relayLoads, List.cons.injEq, and_true] at loads
      intro other mem
      rcases List.mem_cons.mp mem with rfl | later
      · refine ⟨entry, List.mem_cons_self, number, ?_, ?_⟩
        · rw [virtio2vf, loads.1]
          exact listed.1
        · rw [vf2virtio, loads.2]
          exact listed.2
      · obtain ⟨relay, mem, number, virtio2vf, vf2virtio⟩ := ih tail more other later
        exact ⟨relay, List.mem_cons_of_mem _ mem, number, by simp [virtio2vf], by simp [vf2virtio]⟩

theorem balancerField_eq_error {value : Int} {error : BalancerError}
    (h : balancerField value = .error error)
    : error = .fieldRange := by
  unfold balancerField at h
  split at h
  · cases h
  · cases h
    rfl

omit [LinearOrder K] in
/-- The assertion holds at every pair, and no pair is cut off. -/
theorem pairMappings_eq_error {entries : List (Int × RelayRate K)}
    {assigned : List (Throughput K × Int)} {error : BalancerError}
    (paired : Paired entries assigned) (h : pairMappings assigned = .error error)
    : error = .fieldRange := by
  induction entries generalizing assigned with
  | nil =>
      obtain rfl : assigned = [] := by simpa using paired.perm
      cases h
  | cons entry entries ih =>
      obtain ⟨first, second, rest, rfl, tail, pair⟩ := paired.uncons
      obtain ⟨vm2vf, vf2vm, _, _, request⟩ := pairMappings_pair rest pair
      rw [request] at h
      rcases of_bind_error h with h | ⟨req, _, h⟩
      · rcases of_bind_error h with h | ⟨_, _, h⟩
        · exact balancerField_eq_error h
        · rcases of_bind_error h with h | ⟨_, _, h⟩
          · exact balancerField_eq_error h
          · rcases of_bind_error h with h | ⟨_, _, h⟩
            · exact balancerField_eq_error h
            · cases h
      · rcases of_bind_error h with h | ⟨_, _, h⟩
        · exact ih tail h
        · cases h

/-- Every load is charged to a worker once. `round_robin` returns if the numbers fit the fields
of the request, and fails in no other way. It returns one entry for every relay, in the order of
the relays, with the workers that the relay's loads were charged to.
-/
theorem round_robin_maps_each_relay (sqrt : K → K) (relayRates : Dict Int (RelayRate K))
    {workers : List Int} (some_worker : workers ≠ [])
    : ∃ assigned workerLoads,
        assignWorkers (.fromKeys workers 0)
            (sortedReverse Throughput.load (relayThroughput relayRates))
          = .ok (assigned, workerLoads)
        ∧ (assigned.map Prod.fst).Perm (relayThroughput relayRates)
        ∧ (∀ item ∈ assigned, item.2 ∈ workers)
        ∧ ((∃ result, roundRobin sqrt relayRates workers = .ok result)
            ↔ (∀ id ∈ relayRates.keys, FieldFits id) ∧ ∀ item ∈ assigned, FieldFits item.2)
        ∧ (∀ error, roundRobin sqrt relayRates workers = .error error → error = .fieldRange)
        ∧ ∀ mappings cv, roundRobin sqrt relayRates workers = .ok (mappings, cv)
          → (mappings.map fun req => req.relayNumber.toInt).Pairwise (· < ·)
            ∧ (∀ id, id ∈ mappings.map (fun req => req.relayNumber.toInt) ↔ id ∈ relayRates.keys)
            ∧ ∀ req ∈ mappings, ∃ rate,
                relayRates.get? req.relayNumber.toInt = some rate
                ∧ EntryOf assigned (req.relayNumber.toInt, rate) req
                ∧ req.virtio2vfCpu.toInt ∈ workers ∧ req.vf2virtioCpu.toInt ∈ workers := by
  have some_load : (Dict.fromKeys workers (0 : K)).keys ≠ [] := fromKeys_keys_ne_nil some_worker
  obtain ⟨assigned, workerLoads, assigns, items, known, charged⟩ := assignWorkers_spec
    (sortedReverse Throughput.load (relayThroughput relayRates)) some_load
  have members : ∀ item ∈ assigned, item.2 ∈ workers :=
    fun item mem => Dict.mem_keys_fromKeys.mp (known item mem)
  have paired := paired_of_assigned items
  have some_value : workerLoads.values ≠ [] := by
    rw [← Dict.keys_charge charged] at some_load
    simpa [Dict.values, Dict.keys] using some_load
  obtain ⟨cv, variation⟩ := variationCoefficient_of_ne_nil sqrt some_value
  have rates : ∀ entry ∈ ascendingEntries relayRates,
      (estimatedRates relayRates).get? entry.1 = some entry.2.estimated :=
    fun entry mem => get?_estimatedRates ((ascendingEntries_perm relayRates).mem_iff.mp mem)
  have numbers_perm := (ascendingEntries_perm relayRates).map Prod.fst
  refine ⟨assigned, workerLoads, assigns, items ▸ sortedReverse_perm .., members, ?_, ?_, ?_⟩
  · constructor
    · rintro ⟨⟨mappings, cv⟩, returned⟩
      obtain ⟨_, _, run⟩ := roundRobin_eq_ok.mp returned
      cases assigns.symm.trans run.assigns
      obtain ⟨_, _, relaysFit, workersFit⟩ := pairMappings_eq_ok rates paired run.pairs
      constructor
      · intro id mem
        obtain ⟨entry, listed, rfl⟩ := List.mem_map.mp (numbers_perm.mem_iff.mpr mem)
        exact relaysFit entry listed
      · exact fun item mem => workersFit item ((sorted_perm ..).mem_iff.mpr mem)
    · rintro ⟨relaysFit, workersFit⟩
      obtain ⟨mappings, pairs⟩ := pairMappings_of_fits paired
        (fun entry mem => relaysFit entry.1 (numbers_perm.mem_iff.mp (List.mem_map_of_mem mem)))
        (fun item mem => workersFit item ((sorted_perm ..).mem_iff.mp mem))
      exact ⟨_, roundRobin_eq_ok.mpr ⟨workerLoads, assigned, assigns, pairs, variation⟩⟩
  · intro error failed
    rcases of_bind_error failed with failed | ⟨_, assigned_again, failed⟩
    · cases assigns.symm.trans failed
    · cases assigns.symm.trans assigned_again
      rcases of_bind_error failed with failed | ⟨_, _, failed⟩
      · exact pairMappings_eq_error paired failed
      · rcases of_bind_error failed with failed | ⟨_, _, failed⟩
        · cases variation.symm.trans failed
        · cases failed
  · intro mappings cv returned
    obtain ⟨_, _, run⟩ := roundRobin_eq_ok.mp returned
    cases assigns.symm.trans run.assigns
    obtain ⟨numbers, _⟩ := pairMappings_eq_ok rates paired run.pairs
    refine ⟨?_, ?_, ?_⟩
    · rw [numbers]
      exact List.pairwise_map.mpr (ascendingEntries_pairwise relayRates)
    · intro id
      rw [numbers]
      exact numbers_perm.mem_iff
    · intro req mem
      obtain ⟨⟨_, rate⟩, listed, entry⟩ := pairMappings_entries paired run.pairs req mem
      obtain rfl := entry.number
      have found : relayRates.get? req.relayNumber.toInt = some rate :=
        Dict.get?_eq_some_iff.mpr ((ascendingEntries_perm relayRates).mem_iff.mp listed)
      have virtio2vf := (sorted_perm ..).mem_iff.mp entry.virtio2vf
      have vf2virtio := (sorted_perm ..).mem_iff.mp entry.vf2virtio
      exact ⟨rate, found, ⟨rfl, virtio2vf, vf2virtio⟩, members _ virtio2vf, members _ vf2virtio⟩

/-- Witness: the two relays get one entry each. -/
theorem two_busy_relays_are_mapped
    : ∃ mappings cv, roundRobin Rat.sqrt twoBusyRelays [1, 2] = .ok (mappings, cv)
        ∧ (mappings.map fun req => req.relayNumber.toInt).Pairwise (· < ·)
        ∧ (∀ id, id ∈ mappings.map (fun req => req.relayNumber.toInt) ↔ id ∈ twoBusyRelays.keys)
        ∧ ∀ req ∈ mappings, req.virtio2vfCpu.toInt ∈ [1, 2] ∧ req.vf2virtioCpu.toInt ∈ [1, 2] := by
  obtain ⟨assigned, _, _, _, members, returns, _, entries⟩ :=
    round_robin_maps_each_relay Rat.sqrt twoBusyRelays (List.cons_ne_nil 1 [2])
  have relaysFit : ∀ id ∈ twoBusyRelays.keys, FieldFits id := by
    simp [twoBusyRelays, Dict.keys, FieldFits]
  have workersFit : ∀ worker ∈ [1, 2], FieldFits worker := by simp [FieldFits]
  obtain ⟨⟨mappings, cv⟩, returned⟩ :=
    returns.mpr ⟨relaysFit, fun item mem => workersFit item.2 (members item mem)⟩
  obtain ⟨ordered, complete, each⟩ := entries mappings cv returned
  refine ⟨mappings, cv, returned, ordered, complete, fun req mem => ?_⟩
  obtain ⟨_, _, _, virtio2vf, vf2virtio⟩ := each req mem
  exact ⟨virtio2vf, vf2virtio⟩

-----------------------------------------------------------------------------------------
-- Turns of the main loop
-----------------------------------------------------------------------------------------

/-- The mappings are those of `round_robin` for the node, and their coefficient is lower than that
of the mappings in use by more than the sensitivity.
-/
def NumaInfo.ImprovedBy (sqrt : K → K) (sensitivity : K) (info : NumaInfo K)
    (mappings : List RelayCpuEntry) : Prop :=
  ∃ cv prevCv,
    roundRobin sqrt info.relayRates info.workers = .ok (mappings, cv)
    ∧ getVariationCoefficient sqrt (some info.currentMappings) (estimatedRates info.relayRates)
        info.workers
      = .ok prevCv
    ∧ cv ≠ -1 ∧ cv + sensitivity < prevCv

section

variable {sqrt : K → K} {sensitivity : K}

theorem optimizeNode_improves {info : NumaInfo K} {mappings : List RelayCpuEntry}
    (updated : optimizeNode sqrt sensitivity info = .ok (some mappings))
    : info.ImprovedBy sqrt sensitivity mappings := by
  unfold optimizeNode at updated
  split at updated
  · cases updated
  · obtain ⟨⟨newMappings, cv⟩, returned, updated⟩ := of_bind_ok updated
    obtain ⟨prevCv, previous, updated⟩ := of_bind_ok updated
    split at updated
    · cases updated
    · rename_i busy
      split at updated
      · rename_i lower
        cases updated
        exact ⟨cv, prevCv, returned, previous, busy, lower⟩
      · cases updated

/-- The nodes are updated in order, each at most once and for the better. By induction on the nodes. -/
theorem optimizeNodes_improve {nodes : List (Int × NumaInfo K)}
    {updates : List (Int × List RelayCpuEntry)}
    (returned : optimizeNodes sqrt sensitivity nodes = .ok updates)
    : (updates.map Prod.fst).Sublist (nodes.map Prod.fst)
      ∧ ∀ update ∈ updates, ∃ info,
          (update.1, info) ∈ nodes ∧ info.ImprovedBy sqrt sensitivity update.2 := by
  induction nodes generalizing updates with
  | nil =>
      cases returned
      exact ⟨.refl _, nofun⟩
  | cons entry rest ih =>
      obtain ⟨node, info⟩ := entry
      rw [optimizeNodes] at returned
      obtain ⟨updated, optimized, returned⟩ := of_bind_ok returned
      cases updated with
      | none =>
          obtain ⟨order, better⟩ := ih returned
          refine ⟨order.cons _, fun update member => ?_⟩
          obtain ⟨info, listed, improved⟩ := better update member
          exact ⟨info, List.mem_cons_of_mem _ listed, improved⟩
      | some mappings =>
          obtain ⟨later, listed, same⟩ := of_bind_ok returned
          cases same
          obtain ⟨order, better⟩ := ih listed
          refine ⟨order.cons_cons _, List.forall_mem_cons.mpr ⟨?_, fun update member => ?_⟩⟩
          · exact ⟨info, List.mem_cons_self, optimizeNode_improves optimized⟩
          · obtain ⟨info, listed, improved⟩ := better update member
            exact ⟨info, List.mem_cons_of_mem _ listed, improved⟩

/-- A turn only requests updates that make the loads of a node more even, at most one for each
node.
-/
theorem balancerTurn_improves {args : BalancerArgs K} {nodeCpus : Dict Int (List Int)}
    {workerCores : List Int} {relays : List (PolledRelay K)}
    {updates : List (Int × List RelayCpuEntry)}
    (returned : balancerTurn sqrt args nodeCpus workerCores relays = .ok updates)
    : ∃ numaInfo nodes,
        gatherNuma nodeCpus workerCores relays = .ok numaInfo
        ∧ nodes = (if args.globalNumaOpt then mergeNuma workerCores numaInfo else numaInfo)
        ∧ (updates.map Prod.fst).Sublist nodes.keys
        ∧ ∀ update ∈ updates, ∃ info,
            (update.1, info) ∈ nodes.entries
            ∧ info.ImprovedBy sqrt args.effectiveSensitivity update.2 := by
  unfold balancerTurn at returned
  split at returned
  · rename_i none
    cases returned
    obtain rfl := List.isEmpty_iff.mp none
    exact ⟨_, _, rfl, rfl, List.nil_sublist _, nofun⟩
  · obtain ⟨numaInfo, gathered, returned⟩ := of_bind_ok returned
    obtain ⟨order, better⟩ := optimizeNodes_improve returned
    exact ⟨numaInfo, _, gathered, rfl, order, better⟩

end

end VirtioForwarder
