import VirtioForwarder.Inputs.Tables

/-! The statistics service of `zmq_stats.c`: which relays a response reports, and where in its
buffers. The counters and rates are left out.
-/

namespace VirtioForwarder

open Program

/-- `StatsRequest`, without the delay. -/
structure StatsRequest where
  relay : List UInt32
  includeInactive : Option Bool
  deriving DecidableEq, Repr

/-- `StatsResponse.Status`. -/
inductive StatsStatus
  | ok
  | ebadr
  | e2big
  deriving DecidableEq, Repr

/-- What is kept of `RelayState`. -/
structure RelayState where
  id : Nat
  active : Bool
  deriving DecidableEq, Repr

/-- `StatsResponse`; the position of a relay is its index in the buffers. -/
structure StatsResponse where
  status : StatsStatus
  relay : List RelayState
  deriving DecidableEq, Repr

/-- `reset_rate_stats`. -/
def resetRateStats (settings : Settings) (id : Nat) : InputProg Unit := do
  atEntry settings .virtioVfRelays id
  atEntry settings .relayPrevCounters id

/-- The loop of `reset_all_rate_stats`. -/
def resetAllRateStats (settings : Settings) : List Nat → InputProg Unit
  | [] => return
  | id :: ids => do
      resetRateStats settings id
      resetAllRateStats settings ids

/-- `virtio_forwarder_get_stats`; the value is `stats->active`. -/
def virtioForwarderGetStats (settings : Settings) (id : Nat) : InputProg Bool :=
  if id < settings.maxRelays then do
    atEntry settings .virtioVfRelays id
    atEntry settings .relayPrevCounters id
    let virtioState := (← onDaemon (onRelay id (look id .vioState))).vio.state
    atEntry settings .relayIfnameMap id
    let dpdkState := (← onDaemon (onRelay id (look id .dpdkState))).dpdk.state
    resetRateStats settings id
    return virtioState = .ready ∧ dpdkState = .ready
  else .fail .assertion

/-- Entry `j` of the buffers that hold the response is filled in. -/
def fillBuffers (settings : Settings) (j : Nat) : List StatsArray → InputProg Unit
  | [] => return
  | array :: arrays => do
      atEntry settings (.stats array) j
      fillBuffers settings j arrays

/-- `relay_query`, with the relays that are reported so far. -/
def relayQuery (settings : Settings) (relay : Nat) (includeInactive : Bool)
    (found : List RelayState)
    : InputProg (List RelayState) :=
  if relay ≥ settings.maxRelays then return found
  else do
    atEntry settings (.stats .workerStats) found.length
    let active ← virtioForwarderGetStats settings relay
    if !includeInactive && !active then return found
    else
      fillBuffers settings found.length
        [.relayState, .cpu, .vf, .vmToVf, .vhost, .vfToVm, .relayStatePtrs]
      return found ++ [⟨relay, active⟩]

/-- The loop over the relays of a query. -/
def relayQueries (settings : Settings) (includeInactive : Bool) (found : List RelayState)
    : List Nat → InputProg (List RelayState)
  | [] => return found
  | relay :: relays => do
      let found ← relayQuery settings relay includeInactive found
      relayQueries settings includeInactive found relays

/-- Inactive relays are reported unless the request says otherwise. -/
def StatsRequest.inactive (pc : StatsRequest) : Bool :=
  pc.includeInactive.getD true

/-- `handle_StatsRequest` for a request that could be unpacked. -/
def handleStatsRequest (settings : Settings) (pc : StatsRequest) : InputProg StatsResponse :=
  if pc.relay.length > settings.maxRelays then return ⟨.e2big, []⟩
  else do
    resetAllRateStats settings (List.range settings.maxRelays)
    if pc.relay ≠ [] then
      let found ← relayQueries settings pc.inactive [] (pc.relay.map UInt32.toNat)
      return ⟨.ok, found⟩
    else
      let found ← relayQueries settings pc.inactive [] (List.range settings.maxRelays)
      if pc.inactive ∧ found.length ≠ settings.maxRelays then .fail .assertion
      else return ⟨.ok, found⟩

-----------------------------------------------------------------------------------------
-- The places of the buffers
-----------------------------------------------------------------------------------------

section Buffers

variable {settings : Settings}

theorem all_atEntry_of_lt {table : RelayTable} {index : Nat} (below : index < settings.maxRelays)
    : (atEntry settings table index).All (InputInstr.InTables settings) fun _ => True :=
  all_atEntry.mpr ⟨Int.natCast_nonneg index, Int.ofNat_lt.mpr below⟩

theorem resetRateStats_all {id : Nat} (below : id < settings.maxRelays)
    : (resetRateStats settings id).All (InputInstr.InTables settings) fun _ => True :=
  (all_atEntry_of_lt below).bind fun _ => all_atEntry_of_lt below

theorem resetAllRateStats_all {ids : List Nat} (below : ∀ id ∈ ids, id < settings.maxRelays)
    : (resetAllRateStats settings ids).All (InputInstr.InTables settings) fun _ => True := by
  induction ids with
  | nil => trivial
  | cons id ids ih =>
      refine (resetRateStats_all (below id (List.mem_cons_self ..))).bind fun _ => ?_
      exact ih fun other member => below other (List.mem_cons_of_mem id member)

theorem virtioForwarderGetStats_all {id : Nat}
    : (virtioForwarderGetStats settings id).All (InputInstr.InTables settings)
        fun _ => True := by
  unfold virtioForwarderGetStats
  split
  · rename_i below
    refine (all_atEntry_of_lt below).bind fun _ => ?_
    refine (all_atEntry_of_lt below).bind fun _ => ?_
    refine (all_onDaemon (all_onRelay below _)).bind fun _ => ?_
    refine (all_atEntry_of_lt below).bind fun _ => ?_
    refine (all_onDaemon (all_onRelay below _)).bind fun _ => ?_
    refine (resetRateStats_all below).bind fun _ => ?_
    trivial
  · trivial

theorem fillBuffers_all {j : Nat} (below : j < settings.maxRelays) (arrays : List StatsArray)
    : (fillBuffers settings j arrays).All (InputInstr.InTables settings) fun _ => True := by
  induction arrays with
  | nil => trivial
  | cons array arrays ih => exact (all_atEntry_of_lt below).bind fun _ => ih

/-- A query stays inside the tables while the buffers have room. -/
theorem relayQuery_all {relay : Nat} {includeInactive : Bool} {found : List RelayState}
    (room : found.length < settings.maxRelays)
    : (relayQuery settings relay includeInactive found).All (InputInstr.InTables settings)
        fun _ => True := by
  unfold relayQuery
  split
  · trivial
  · refine (all_atEntry_of_lt room).bind fun _ => ?_
    refine virtioForwarderGetStats_all.bind fun active => ?_
    split
    · trivial
    · refine (fillBuffers_all room _).bind fun _ => ?_
      trivial

/-- A query reports at most one relay more. -/
theorem relayQuery_returns {relay : Nat} {includeInactive : Bool} {found : List RelayState}
    : (relayQuery settings relay includeInactive found).Returns fun later =>
        later.length ≤ found.length + 1 := by
  unfold relayQuery
  split
  · exact Nat.le_succ _
  · refine .bind fun _ => .bind fun active => ?_
    split
    · exact Nat.le_succ _
    · refine .bind fun _ => ?_
      simp [pure, Prog.Returns]

/-- The loop fills at most one place for each relay of the query, by induction on the query. -/
theorem relayQueries_all {includeInactive : Bool} {found : List RelayState} {relays : List Nat}
    (room : found.length + relays.length ≤ settings.maxRelays)
    : (relayQueries settings includeInactive found relays).All (InputInstr.InTables settings)
        fun _ => True := by
  induction relays generalizing found with
  | nil => trivial
  | cons relay relays ih =>
      rw [List.length_cons] at room
      refine (relayQuery_all (by omega)).bind_returns relayQuery_returns fun later grown => ?_
      exact ih (by omega)

/-- No statistics request makes an access outside the tables. -/
theorem handleStatsRequest_all (pc : StatsRequest)
    : (handleStatsRequest settings pc).All (InputInstr.InTables settings) fun _ => True := by
  unfold handleStatsRequest
  split
  · trivial
  · rename_i few
    refine (resetAllRateStats_all fun id member => List.mem_range.mp member).bind fun _ => ?_
    split
    · refine (relayQueries_all ?_).bind fun _ => ?_
      · simpa using few
      · trivial
    · refine (relayQueries_all ?_).bind fun found => ?_
      · simp
      · split <;> trivial

end Buffers

end VirtioForwarder
