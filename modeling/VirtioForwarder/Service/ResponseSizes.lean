import Mathlib.Algebra.Group.Action.Defs
import Mathlib.Algebra.Order.BigOperators.Group.List
import Mathlib.Algebra.Order.Ring.Nat
import VirtioForwarder.Library.CLayout
import VirtioForwarder.Service.CoreSched
import VirtioForwarder.Service.RequestBuffers
import VirtioForwarder.Service.Stats

/-! The packed sizes of the responses, and the sizes of the response buffers. The limit of the
statistics service is the size of a C struct with the unpacked messages.
-/

namespace VirtioForwarder

open CLayout Program

-----------------------------------------------------------------------------------------
-- Messages on the wire
-----------------------------------------------------------------------------------------

/-- The bytes of the number of a field; the type in its low three bits makes no difference. -/
def tagSize (field : Nat) : Nat := varintSize (8 * field)

/-- A field with a number. -/
def numberField (field value : Nat) : Nat := tagSize field + varintSize value

/-- A field of type `float`. -/
def floatField (field : Nat) : Nat := tagSize field + 4

/-- A field with a string or a message of the given length. -/
def lengthField (field length : Nat) : Nat := tagSize field + varintSize length + length

/-- An `int32` as the 64 bits that are sent. -/
def int32Value (value : Int) : Nat := (value.bmod (2 ^ 32) % 2 ^ 64).toNat

-----------------------------------------------------------------------------------------
-- Statistics
-----------------------------------------------------------------------------------------

/-- `VIRTIO_WORKER_INTERNAL_STATE_CCH_MAX`. -/
def virtioWorkerInternalStateCchMax : Nat := 24

/-- The size of `vhost_socket_name`. -/
def vhostSocketNameSize : Nat := 128

/-- `struct virtio_worker_stats` without the rates, which take four bytes each in any case. The
strings end in their arrays.
-/
structure VirtioWorkerStats where
  virtioInternalState : List Char
  virtio2vfActive : Bool
  vhostSocketName : List Char
  virtio2vfCpu : Int32
  virtioRx : UInt64
  virtioRxBytes : UInt64
  dpdkTx : UInt64
  dpdkTxBytes : UInt64
  dpdkDropFull : UInt64
  dpdkDropUnavail : UInt64
  dpdkInternalState : List Char
  vf2virtioActive : Bool
  pciDbdf : List Char
  vf2virtioCpu : Int32
  dpdkRx : UInt64
  dpdkRxBytes : UInt64
  virtioTx : UInt64
  virtioTxBytes : UInt64
  virtioDropFull : UInt64
  virtioDropUnavail : UInt64
  socketId : UInt32
  virtioStateEnds : virtioInternalState.length < virtioWorkerInternalStateCchMax
  dpdkStateEnds : dpdkInternalState.length < virtioWorkerInternalStateCchMax
  socketNameEnds : vhostSocketName.length < vhostSocketNameSize
  pciDbdfEnds : pciDbdf.length < rteEthNameMaxLen

/-- `RelayState.VFtoVM` or `RelayState.VMtoVF`: the counters that are present have the numbers of
their fields.
-/
structure DirectionMessage where
  active : Bool
  internalState : List Char
  counters : List (Nat × UInt64)

/-- `RelayState.CPU`. -/
structure CpuMessage where
  vfToVm : Option Int32
  vmToVf : Option Int32

/-- `RelayState`; `ident` is never present. -/
structure RelayStateMessage where
  id : Nat
  active : Bool
  cpu : Option CpuMessage
  vhostSocketName : List Char
  pciAddrStr : Option (List Char)
  vfToVm : DirectionMessage
  vmToVf : DirectionMessage
  socketId : UInt32

/-- The message that `relay_query` makes of the statistics of a relay. -/
def relayStateMessage (relay : RelayState) (s : VirtioWorkerStats) : RelayStateMessage where
  id := relay.id
  active := relay.active
  vmToVf :=
    { active := s.virtio2vfActive
      internalState := s.virtioInternalState
      counters :=
        if s.virtio2vfActive then
          [(3, s.virtioRx), (4, s.virtioRxBytes), (5, s.dpdkTx), (6, s.dpdkTxBytes),
            (7, s.dpdkDropFull), (9, s.dpdkDropUnavail)]
        else [] }
  vhostSocketName := s.vhostSocketName
  vfToVm :=
    { active := s.vf2virtioActive
      internalState := s.dpdkInternalState
      counters :=
        if s.vf2virtioActive then
          [(3, s.dpdkRx), (4, s.dpdkRxBytes), (5, s.virtioTx), (6, s.virtioTxBytes),
            (7, s.virtioDropFull), (9, s.virtioDropUnavail)]
        else [] }
  cpu :=
    if s.virtio2vfActive || s.vf2virtioActive then
      some
        { vfToVm := if s.vf2virtioActive then some s.vf2virtioCpu else none
          vmToVf := if s.virtio2vfActive then some s.virtio2vfCpu else none }
    else none
  pciAddrStr := if s.vf2virtioActive then some s.pciDbdf else none
  socketId := s.socketId

/-- `virtioforwarder__relay_state__vfto_vm__get_packed_size`, or that of the other direction. -/
def DirectionMessage.packedSize (message : DirectionMessage) : Nat :=
  numberField 1 message.active.toNat + lengthField 2 message.internalState.length
    + (message.counters.map fun (field, value) => numberField field value.toNat).sum
    + (floatField 11 + floatField 12 + floatField 13 + floatField 14)

/-- `virtioforwarder__relay_state__cpu__get_packed_size`. -/
def CpuMessage.packedSize (message : CpuMessage) : Nat :=
  (message.vfToVm.elim 0 fun cpu => numberField 1 (int32Value cpu.toInt))
    + (message.vmToVf.elim 0 fun cpu => numberField 2 (int32Value cpu.toInt))

/-- `virtioforwarder__relay_state__get_packed_size`. -/
def RelayStateMessage.packedSize (message : RelayStateMessage) : Nat :=
  numberField 1 message.id + numberField 2 message.active.toNat
    + (message.cpu.elim 0 fun cpu => lengthField 4 cpu.packedSize)
    + lengthField 5 (lengthField 1 message.vhostSocketName.length)
    + (message.pciAddrStr.elim 0 fun address => lengthField 6 (lengthField 1 address.length))
    + lengthField 7 message.vfToVm.packedSize + lengthField 8 message.vmToVf.packedSize
    + numberField 9 message.socketId.toNat

/-- `StatsResponse.Status` as a number. -/
def StatsStatus.value : StatsStatus → Nat
  | .ok => 0
  | .ebadr => 400
  | .e2big => 413

/-- `virtioforwarder__stats_response__get_packed_size`; `stats` is `worker_stats` of the buffer. -/
def StatsResponse.packedSize (response : StatsResponse) (stats : Nat → VirtioWorkerStats) : Nat :=
  numberField 1 response.status.value
    + (response.relay.mapIdx fun j relay =>
        lengthField 2 (relayStateMessage relay (stats j)).packedSize).sum

/-- `handle_StatsRequest`; a request that cannot be unpacked is `none`. -/
def statsReply (settings : Settings) : Option StatsRequest → InputProg StatsResponse
  | none => return ⟨.ebadr, []⟩
  | some pc => handleStatsRequest settings pc

/-- `struct virtio_worker_stats`. -/
def virtioWorkerStatsType : CType :=
  structOf
    ([byte.array virtioWorkerInternalStateCchMax, byte, byte.array vhostSocketNameSize, word]
      ++ List.replicate 6 doubleWord ++ List.replicate 4 word
      ++ [byte.array virtioWorkerInternalStateCchMax, byte, byte.array rteEthNameMaxLen, word]
      ++ List.replicate 6 doubleWord ++ List.replicate 4 word ++ [byte, word])

/-- `ProtobufCMessage`: the descriptor, and the number and the array of unknown fields. -/
def protobufCMessage : CType := structOf [pointer, word, pointer]

/-- `Virtioforwarder__RelayState`. -/
def relayStateType : CType :=
  structOf [protobufCMessage, word, word, pointer, pointer, pointer, pointer, pointer, pointer, word]

/-- `Virtioforwarder__RelayState__CPU`. -/
def cpuType : CType := structOf [protobufCMessage, word, word, word, word]

/-- `Virtioforwarder__RelayState__VF` and `__VHOST`. -/
def stringType : CType := structOf [protobufCMessage, pointer]

/-- `Virtioforwarder__RelayState__VFtoVM` and `__VMtoVF`: eight optional counters, four rates. -/
def directionType : CType :=
  structOf ([protobufCMessage, word, pointer] ++ (List.replicate 8 [word, doubleWord]).flatten
    ++ List.replicate 4 word)

/-- `struct stats_response_buffer`. -/
def statsResponseBuffer (maxRelays : Nat) : CType :=
  structOf [virtioWorkerStatsType.array maxRelays, relayStateType.array maxRelays,
    cpuType.array maxRelays, stringType.array maxRelays, stringType.array maxRelays,
    directionType.array maxRelays, directionType.array maxRelays, pointer.array maxRelays]

-----------------------------------------------------------------------------------------
-- Configuration
-----------------------------------------------------------------------------------------

/-- `ConfigResponse.RelayCPU`. -/
structure ConfigRelayCpu where
  relayNumber : Nat
  vf2virtioCpu : Int
  virtio2vfCpu : Int

/-- `ConfigResponse`. -/
structure ConfigResponse where
  status : Nat
  relayCpuMap : List ConfigRelayCpu

/-- `relay_cpus_query`: the relays with two CPUs. -/
def relayCpusQuery (settings : Settings) : List ConfigRelayCpu :=
  (List.range settings.maxRelays).filterMap fun i =>
    let cpus := settings.relayCpus i
    if cpus.vf2vioCpu ≠ -1 ∧ cpus.vio2vfCpu ≠ -1 then some ⟨i, cpus.vf2vioCpu, cpus.vio2vfCpu⟩
    else none

/-- `handle_ConfigRequest`, given whether the request can be unpacked. -/
def configReply (settings : Settings) (unpacked : Bool) : ConfigResponse :=
  if unpacked then ⟨0, relayCpusQuery settings⟩ else ⟨400, []⟩

/-- `virtioforwarder__config_response__relay_cpu__get_packed_size`. -/
def ConfigRelayCpu.packedSize (cpu : ConfigRelayCpu) : Nat :=
  numberField 1 (int32Value cpu.relayNumber) + numberField 2 (int32Value cpu.vf2virtioCpu)
    + numberField 3 (int32Value cpu.virtio2vfCpu)

/-- `virtioforwarder__config_response__get_packed_size`. -/
def ConfigResponse.packedSize (response : ConfigResponse) : Nat :=
  numberField 1 response.status
    + (response.relayCpuMap.map fun cpu => lengthField 5 cpu.packedSize).sum

-----------------------------------------------------------------------------------------
-- Core scheduler and port control
-----------------------------------------------------------------------------------------

/-- The first three fields of `CoreSchedResponse` and `PortControlResponse`. -/
def errorFields (status : Nat) (errorCode : Option Int) (errorCodeSource : Option String) : Nat :=
  numberField 4 status + (errorCode.elim 0 fun code => numberField 5 (int32Value code))
    + (errorCodeSource.elim 0 fun source => lengthField 6 source.length)

/-- `virtioforwarder__core_sched_response__get_packed_size`; the cores are not packed. -/
def CoreSchedResponse.packedSize (response : CoreSchedResponse) : Nat :=
  errorFields (if response.status = .ok then 1 else 0) response.errorCode response.errorCodeSource
    + (response.ealCores.map fun core => numberField 7 core).sum

/-- `virtioforwarder__port_control_response__get_packed_size`. -/
def PortControlResponse.packedSize (response : PortControlResponse) : Nat :=
  errorFields (if response.status = .ok then 1 else 0) response.errorCode response.errorCodeSource
    + (response.queryString.elim 0 fun query => lengthField 7 query.length)

/-- `handle_CoreSchedRequest`; a request that cannot be unpacked is `none`. -/
def coreSchedReply (settings : Settings) : Option CoreSchedRequest → InputProg CoreSchedResponse
  | none => return .initial
  | some pc => handleCoreSchedRequest settings pc

/-- `handle_PortControlRequest`; a request that cannot be unpacked is `none`. -/
def portControlReply (settings : Settings) (conf : SocketConf)
    : Option PortControlRequest → SockProg PortControlResponse
  | none => return .initial
  | some pc => handlePortControlRequest settings conf pc

-----------------------------------------------------------------------------------------
-- The buffers
-----------------------------------------------------------------------------------------

/-- The assertions of `zmq_service_alloc`: both sizes are positive. -/
def zmqServiceAlloc (service : ZmqService) : Option ZmqService :=
  if service.maxRequestCb = 0 ∨ service.maxResponseCb = 0 then none else some service

/-- The size of `pci_dbdf` in `struct relay_dpdk`, which a query string points to. -/
def pciDbdfSize : Nat := 20

/-- Every response of the service has at most the given size: for every request, also one that cannot
be unpacked, for all answers and states that its handler meets, and for all statistics.
-/
def Service.ResponsesFit (settings : Settings) (conf : SocketConf) (limit : Nat) : Service → Prop
  | .config => ∀ unpacked, (configReply settings unpacked).packedSize ≤ limit
  | .stats =>
      ∀ pc, (statsReply settings pc).Returns fun response =>
        ∀ stats, response.packedSize stats ≤ limit
  | .portControl =>
      ∀ pc, (portControlReply settings conf pc).Returns fun response =>
        (∀ query ∈ response.queryString, query.length < pciDbdfSize) → response.packedSize ≤ limit
  | .coreSched =>
      ∀ pc, (coreSchedReply settings pc).Returns fun response => response.packedSize ≤ limit

-----------------------------------------------------------------------------------------
-- Bounds of fields
-----------------------------------------------------------------------------------------

theorem varintSize_le {n k : Nat} (some : 0 < k) (small : n < 128 ^ k) : varintSize n ≤ k := by
  have digits : (Nat.digits 128 n).length ≤ k := (Nat.digits_length_le_iff (by decide) n).mpr small
  rw [varintSize]
  omega

/-- The field numbers below 16 take one byte. -/
theorem tagSize_le {field : Nat} (small : field < 16) : tagSize field ≤ 1 :=
  varintSize_le (by decide) (by omega)

theorem numberField_le {field value k : Nat} (small : field < 16) (some : 0 < k)
    (fits : value < 128 ^ k)
    : numberField field value ≤ 1 + k :=
  Nat.add_le_add (tagSize_le small) (varintSize_le some fits)

theorem numberField_uint64_le {field : Nat} (small : field < 16) (value : UInt64)
    : numberField field value.toNat ≤ 11 :=
  numberField_le small (by decide : 0 < 10) (value.toNat_lt.trans (by decide))

theorem numberField_bool_le {field : Nat} (small : field < 16) (value : Bool)
    : numberField field value.toNat ≤ 2 :=
  numberField_le small (by decide : 0 < 1) (value.toNat_lt.trans (by decide))

/-- A negative number takes ten bytes. -/
theorem numberField_int32_le {field : Nat} (small : field < 16) (value : Int)
    : numberField field (int32Value value) ≤ 11 := by
  have fits : int32Value value < 2 ^ 64 := by
    rw [int32Value]
    omega
  exact numberField_le small (by decide : 0 < 10) (fits.trans (by decide))

theorem floatField_le {field : Nat} (small : field < 16) : floatField field ≤ 5 :=
  Nat.add_le_add_right (tagSize_le small) 4

/-- A string or message of less than 2^7 or 2^14 bytes has a length of one or two bytes. -/
theorem lengthField_le {field length bound k : Nat} (small : field < 16) (some : 0 < k)
    (fits : bound < 128 ^ k) (short : length ≤ bound)
    : lengthField field length ≤ 1 + k + bound := by
  have tag := tagSize_le small
  have size := varintSize_le some (short.trans_lt fits)
  rw [lengthField]
  omega

-----------------------------------------------------------------------------------------
-- Statistics
-----------------------------------------------------------------------------------------

/-- The counters of a direction: six at most, with field numbers below 16. -/
theorem counters_le {counters : List (Nat × UInt64)} (few : counters.length ≤ 6)
    (small : ∀ counter ∈ counters, counter.1 < 16)
    : (counters.map fun (field, value) => numberField field value.toNat).sum ≤ 66 := by
  have each : ∀ size ∈ counters.map fun (field, value) => numberField field value.toNat,
      size ≤ 11 := by
    intro size member
    obtain ⟨⟨field, value⟩, listed, rfl⟩ := List.mem_map.mp member
    exact numberField_uint64_le (small _ listed) value
  have sum := List.sum_le_card_nsmul _ 11 each
  rw [List.length_map, smul_eq_mul] at sum
  omega

theorem DirectionMessage.packedSize_le {message : DirectionMessage}
    (ends : message.internalState.length < virtioWorkerInternalStateCchMax)
    (few : message.counters.length ≤ 6) (small : ∀ counter ∈ message.counters, counter.1 < 16)
    : message.packedSize ≤ 113 := by
  have active := numberField_bool_le (by decide : 1 < 16) message.active
  have state : lengthField 2 message.internalState.length ≤ 25 :=
    lengthField_le (by decide) (by decide : 0 < 1) (by decide : 23 < 128 ^ 1) (Nat.le_of_lt_succ ends)
  have counters := counters_le few small
  have first := floatField_le (by decide : 11 < 16)
  have second := floatField_le (by decide : 12 < 16)
  have third := floatField_le (by decide : 13 < 16)
  have fourth := floatField_le (by decide : 14 < 16)
  rw [packedSize]
  omega

theorem CpuMessage.packedSize_le (message : CpuMessage) : message.packedSize ≤ 22 := by
  obtain ⟨vfToVm, vmToVf⟩ := message
  have up : (vfToVm.elim 0 fun cpu => numberField 1 (int32Value cpu.toInt)) ≤ 11 := by
    cases vfToVm with
    | none => exact Nat.zero_le _
    | some cpu => exact numberField_int32_le (by decide) _
  have down : (vmToVf.elim 0 fun cpu => numberField 2 (int32Value cpu.toInt)) ≤ 11 := by
    cases vmToVf with
    | none => exact Nat.zero_le _
    | some cpu => exact numberField_int32_le (by decide) _
  exact Nat.add_le_add up down

/-- The message of one relay, with its largest fields all at once. -/
theorem relayStateMessage_packedSize_le {relay : RelayState} (small : relay.id < 64)
    (s : VirtioWorkerStats)
    : (relayStateMessage relay s).packedSize ≤ 463 := by
  have id := numberField_le (by decide : 1 < 16) (by decide : 0 < 1)
    (small.trans (by decide) : relay.id < 128 ^ 1)
  have active := numberField_bool_le (by decide : 2 < 16) relay.active
  have cpu : ((relayStateMessage relay s).cpu.elim 0 fun cpu => lengthField 4 cpu.packedSize)
      ≤ 24 := by
    cases (relayStateMessage relay s).cpu with
    | none => exact Nat.zero_le _
    | some cpu =>
        exact lengthField_le (by decide) (by decide : 0 < 1) (by decide : 22 < 128 ^ 1)
          cpu.packedSize_le
  have name : lengthField 1 s.vhostSocketName.length ≤ 129 :=
    lengthField_le (by decide) (by decide : 0 < 1) (by decide : 127 < 128 ^ 1)
      (Nat.le_of_lt_succ s.socketNameEnds)
  have vhost : lengthField 5 (lengthField 1 s.vhostSocketName.length) ≤ 132 :=
    lengthField_le (by decide) (by decide : 0 < 2) (by decide : 129 < 128 ^ 2) name
  have address : lengthField 1 s.pciDbdf.length ≤ 65 :=
    lengthField_le (by decide) (by decide : 0 < 1) (by decide : 63 < 128 ^ 1)
      (Nat.le_of_lt_succ s.pciDbdfEnds)
  have vf : ((relayStateMessage relay s).pciAddrStr.elim 0
      fun address => lengthField 6 (lengthField 1 address.length)) ≤ 67 := by
    rw [relayStateMessage]
    dsimp only
    split
    · exact lengthField_le (by decide) (by decide : 0 < 1) (by decide : 65 < 128 ^ 1) address
    · exact Nat.zero_le _
  have up : (relayStateMessage relay s).vfToVm.packedSize ≤ 113 := by
    apply DirectionMessage.packedSize_le s.dpdkStateEnds <;> rw [relayStateMessage] <;>
      cases s.vf2virtioActive <;> simp
  have down : (relayStateMessage relay s).vmToVf.packedSize ≤ 113 := by
    apply DirectionMessage.packedSize_le s.virtioStateEnds <;> rw [relayStateMessage] <;>
      cases s.virtio2vfActive <;> simp
  have upField := lengthField_le (by decide : 7 < 16) (by decide : 0 < 1)
    (by decide : 113 < 128 ^ 1) up
  have downField := lengthField_le (by decide : 8 < 16) (by decide : 0 < 1)
    (by decide : 113 < 128 ^ 1) down
  have socket : numberField 9 s.socketId.toNat ≤ 6 :=
    numberField_le (by decide) (by decide : 0 < 5) (s.socketId.toNat_lt.trans (by decide))
  rw [RelayStateMessage.packedSize]
  have same : (relayStateMessage relay s).vhostSocketName = s.vhostSocketName := rfl
  have sameId : (relayStateMessage relay s).id = relay.id := rfl
  have sameActive : (relayStateMessage relay s).active = relay.active := rfl
  have sameSocket : (relayStateMessage relay s).socketId = s.socketId := rfl
  rw [same, sameId, sameActive, sameSocket]
  omega

theorem StatsStatus.value_lt (status : StatsStatus) : status.value < 128 ^ 2 := by
  cases status <;> decide

/-- A response with a number of relays. -/
theorem StatsResponse.packedSize_le {response : StatsResponse}
    (small : ∀ relay ∈ response.relay, relay.id < 64) (stats : Nat → VirtioWorkerStats)
    : response.packedSize stats ≤ 3 + 466 * response.relay.length := by
  have status := numberField_le (by decide : 1 < 16) (by decide : 0 < 2) response.status.value_lt
  have each : ∀ size ∈ response.relay.mapIdx fun j relay =>
      lengthField 2 (relayStateMessage relay (stats j)).packedSize, size ≤ 466 := by
    intro size member
    obtain ⟨j, below, rfl⟩ := List.mem_mapIdx.mp member
    exact lengthField_le (by decide) (by decide : 0 < 2) (by decide : 463 < 128 ^ 2)
      (relayStateMessage_packedSize_le (small _ (List.getElem_mem below)) _)
  have sum := List.sum_le_card_nsmul _ 466 each
  rw [List.length_mapIdx, smul_eq_mul] at sum
  rw [packedSize]
  omega

/-- The struct with the unpacked messages takes 960 bytes for each relay. -/
theorem statsResponseBuffer_size (maxRelays : Nat)
    : (statsResponseBuffer maxRelays).size = 960 * maxRelays := by
  have workerStats : virtioWorkerStatsType = ⟨392, 8⟩ := by decide +kernel
  have relayState : relayStateType = ⟨88, 8⟩ := by decide +kernel
  have cpu : cpuType = ⟨40, 8⟩ := by decide +kernel
  have string : stringType = ⟨32, 8⟩ := by decide +kernel
  have direction : directionType = ⟨184, 8⟩ := by decide +kernel
  rw [statsResponseBuffer, workerStats, relayState, cpu, string, direction, pointer,
    structOf_size (by decide : 0 < 8) (List.cons_ne_nil _ _)]
  · simp only [CType.array, List.map_cons, List.map_nil, List.sum_cons, List.sum_nil]
    omega
  · intro member listed
    simp only [List.mem_cons, List.not_mem_nil, or_false] at listed
    rcases listed with rfl | rfl | rfl | rfl | rfl | rfl | rfl | rfl <;>
      exact ⟨rfl, Nat.dvd_mul_right_of_dvd (by decide) _⟩

section Replies

variable {settings : Settings} {conf : SocketConf}

/-- The relays that a query has found so far: at most so many, all of the table. -/
def ReportsAtMost (settings : Settings) (count : Nat) (found : List RelayState) : Prop :=
  found.length ≤ count ∧ ∀ relay ∈ found, relay.id < settings.maxRelays

theorem relayQuery_reports {relay count : Nat} {includeInactive : Bool} {found : List RelayState}
    (reports : ReportsAtMost settings count found)
    : (relayQuery settings relay includeInactive found).Returns
        (ReportsAtMost settings (count + 1)) := by
  have same : ReportsAtMost settings (count + 1) found :=
    ⟨reports.1.trans (Nat.le_succ _), reports.2⟩
  rw [relayQuery]
  split
  · exact same
  · next inside =>
      refine .bind fun _ => .bind fun active => ?_
      split
      · exact same
      · refine .bind fun _ => ?_
        constructor
        · rw [List.length_append, List.length_singleton]
          exact Nat.add_le_add_right reports.1 1
        · intro other member
          rcases List.mem_append.mp member with earlier | last
          · exact reports.2 other earlier
          · rw [List.mem_singleton.mp last]
            exact not_le.mp inside

/-- The loop reports each relay of the query at most once more, by induction on the query. -/
theorem relayQueries_reports {count : Nat} {includeInactive : Bool} {found : List RelayState}
    {relays : List Nat} (reports : ReportsAtMost settings count found)
    : (relayQueries settings includeInactive found relays).Returns
        (ReportsAtMost settings (count + relays.length)) := by
  induction relays generalizing count found with
  | nil => exact reports
  | cons relay relays ih =>
      refine (relayQuery_reports reports).bind_returns fun later grown => ?_
      rw [List.length_cons, Nat.add_comm relays.length, ← Nat.add_assoc]
      exact ih grown

theorem statsReply_reports (pc : Option StatsRequest)
    : (statsReply settings pc).Returns fun response =>
        ReportsAtMost settings settings.maxRelays response.relay := by
  have none : ReportsAtMost settings 0 [] := ⟨Nat.le_refl _, by simp⟩
  have empty : ReportsAtMost settings settings.maxRelays [] := ⟨Nat.zero_le _, by simp⟩
  cases pc with
  | none => exact empty
  | some pc =>
      rw [statsReply, handleStatsRequest]
      split
      · exact empty
      · next few =>
          refine .bind fun _ => ?_
          split
          · refine (relayQueries_reports none).bind_returns fun found reports => ?_
            rw [Nat.zero_add, List.length_map] at reports
            exact ⟨reports.1.trans (not_lt.mp few), reports.2⟩
          · refine (relayQueries_reports none).bind_returns fun found reports => ?_
            rw [Nat.zero_add, List.length_range] at reports
            split
            · trivial
            · exact reports

theorem ConfigRelayCpu.packedSize_le (cpu : ConfigRelayCpu) : cpu.packedSize ≤ 33 :=
  Nat.add_le_add
    (Nat.add_le_add (numberField_int32_le (by decide) _) (numberField_int32_le (by decide) _))
    (numberField_int32_le (by decide) _)

theorem configReply_packedSize_le (unpacked : Bool)
    : (configReply settings unpacked).packedSize ≤ 3 + 35 * settings.maxRelays := by
  have status : (configReply settings unpacked).status < 128 ^ 2 := by
    rw [configReply]
    split
    · exact (by decide : 0 < 128 ^ 2)
    · exact (by decide : 400 < 128 ^ 2)
  have few : (configReply settings unpacked).relayCpuMap.length ≤ settings.maxRelays := by
    rw [configReply]
    split
    · exact (List.length_filterMap_le _ _).trans_eq List.length_range
    · exact Nat.zero_le _
  have first := numberField_le (by decide : 1 < 16) (by decide : 0 < 2) status
  have each : ∀ size ∈ (configReply settings unpacked).relayCpuMap.map fun cpu =>
      lengthField 5 cpu.packedSize, size ≤ 35 := by
    intro size member
    obtain ⟨cpu, _, rfl⟩ := List.mem_map.mp member
    exact lengthField_le (by decide) (by decide : 0 < 1) (by decide : 33 < 128 ^ 1)
      cpu.packedSize_le
  have sum := List.sum_le_card_nsmul _ 35 each
  rw [List.length_map, smul_eq_mul] at sum
  rw [ConfigResponse.packedSize]
  omega

/-- The source of an error is a text of less than 30 characters. -/
theorem errorFields_le {status : Nat} (errorCode : Option Int) {errorCodeSource : Option String}
    (two : status < 2) (short : ∀ source ∈ errorCodeSource, source.length < 30)
    : errorFields status errorCode errorCodeSource ≤ 44 := by
  have first := numberField_le (by decide : 4 < 16) (by decide : 0 < 1)
    (two.trans (by decide) : status < 128 ^ 1)
  have code : (errorCode.elim 0 fun code => numberField 5 (int32Value code)) ≤ 11 := by
    cases errorCode with
    | none => exact Nat.zero_le _
    | some code => exact numberField_int32_le (by decide) code
  have source : (errorCodeSource.elim 0 fun source => lengthField 6 source.length) ≤ 31 := by
    cases errorCodeSource with
    | none => exact Nat.zero_le _
    | some source =>
        exact lengthField_le (by decide) (by decide : 0 < 1) (by decide : 29 < 128 ^ 1)
          (Nat.le_of_lt_succ (short source rfl))
  rw [errorFields]
  omega

/-- What the core scheduler puts into a response: a short source, and CPUs of the bitmap. -/
def CoreSchedResponse.Bounded (response : CoreSchedResponse) : Prop :=
  (∀ source ∈ response.errorCodeSource, source.length < 30)
  ∧ response.ealCores.length ≤ 64 ∧ ∀ core ∈ response.ealCores, core < 64

theorem CoreSchedResponse.Bounded.packedSize_le {response : CoreSchedResponse}
    (bounded : response.Bounded)
    : response.packedSize ≤ 172 := by
  obtain ⟨short, few, small⟩ := bounded
  have errors : errorFields (if response.status = .ok then 1 else 0) response.errorCode
      response.errorCodeSource ≤ 44 := by
    apply errorFields_le _ _ short
    split <;> decide
  have each : ∀ size ∈ response.ealCores.map fun core => numberField 7 core, size ≤ 2 := by
    intro size member
    obtain ⟨core, listed, rfl⟩ := List.mem_map.mp member
    exact numberField_le (by decide) (by decide : 0 < 1) ((small core listed).trans (by decide))
  have sum := List.sum_le_card_nsmul _ 2 each
  rw [List.length_map, smul_eq_mul] at sum
  rw [packedSize]
  omega

theorem CoreSchedResponse.initial_bounded : CoreSchedResponse.initial.Bounded := by
  simp [Bounded, initial]

theorem setErrorCode_bounded {response : CoreSchedResponse} (bounded : response.Bounded)
    {source : String} (short : source.length < 30) (code : Int)
    : (response.setErrorCode source code : InputProg CoreSchedResponse).Returns
        CoreSchedResponse.Bounded := by
  rw [CoreSchedResponse.setErrorCode]
  split
  · exact bounded
  · split
    · refine ⟨?_, bounded.2⟩
      intro other same
      cases same
      exact short
    · trivial

theorem updateRelays_bounded {response : CoreSchedResponse} (bounded : response.Bounded)
    (entries : List RelayCpuEntry)
    : (updateRelays settings response entries).Returns CoreSchedResponse.Bounded := by
  induction entries generalizing response with
  | nil => exact bounded
  | cons entry entries ih =>
      refine .bind fun code => ?_
      refine (setErrorCode_bounded bounded (by decide) code).bind_returns fun later more => ?_
      exact ih more

theorem coreSchedReply_bounded (pc : Option CoreSchedRequest)
    : (coreSchedReply settings pc).Returns CoreSchedResponse.Bounded := by
  cases pc with
  | none => exact CoreSchedResponse.initial_bounded
  | some pc =>
      rw [coreSchedReply, handleCoreSchedRequest]
      split
      · exact CoreSchedResponse.initial_bounded
      · split
        · exact updateRelays_bounded CoreSchedResponse.initial_bounded _
        · split
          · exact setErrorCode_bounded CoreSchedResponse.initial_bounded (by decide) 1
          · refine ⟨by simp [CoreSchedResponse.initial], ?_, ?_⟩
            · exact (List.length_filter_le _ _).trans_eq List.length_range
            · exact fun core member => BitVec.lt_of_getLsbD (Bits.mem_setBits.mp member)
        · exact CoreSchedResponse.initial_bounded

/-- The source of an error of the port control service is short. -/
def PortControlResponse.Bounded (response : PortControlResponse) : Prop :=
  ∀ source ∈ response.errorCodeSource, source.length < 30

theorem PortControlResponse.Bounded.packedSize_le {response : PortControlResponse}
    (bounded : response.Bounded)
    (ends : ∀ query ∈ response.queryString, query.length < pciDbdfSize)
    : response.packedSize ≤ 65 := by
  have errors : errorFields (if response.status = .ok then 1 else 0) response.errorCode
      response.errorCodeSource ≤ 44 := by
    apply errorFields_le _ _ bounded
    split <;> decide
  have query : (response.queryString.elim 0 fun query => lengthField 7 query.length) ≤ 21 := by
    cases same : response.queryString with
    | none => exact Nat.zero_le _
    | some query =>
        exact lengthField_le (by decide) (by decide : 0 < 1) (by decide : 19 < 128 ^ 1)
          (Nat.le_of_lt_succ (ends query same))
  rw [packedSize]
  omega

theorem setErrorCode_short {response : PortControlResponse} (bounded : response.Bounded)
    {source : String} (short : source.length < 30) (code : Int)
    : (setErrorCode response source code).Bounded := by
  rw [setErrorCode]
  split
  · exact bounded
  · intro other same
    cases same
    exact short

theorem PortControlResponse.initial_bounded : PortControlResponse.initial.Bounded := by
  simp [Bounded, initial]

theorem portControlReply_bounded (pc : Option PortControlRequest)
    : (portControlReply settings conf pc).Returns PortControlResponse.Bounded := by
  have initial := PortControlResponse.initial_bounded
  cases pc with
  | none => exact initial
  | some pc =>
      rw [portControlReply, handlePortControlRequest]
      split
      · exact initial
      · split
        · trivial
        · split
          · rw [portControlHandleAdd]
            split
            · exact initial
            · exact .bind fun code => setErrorCode_short initial (by decide) code
            · exact .bind fun code => setErrorCode_short initial (by decide) code
          · exact .bind fun code => setErrorCode_short initial (by decide) code
          · exact .bind fun code => setErrorCode_short initial (by decide) code
          · exact .bind fun code => setErrorCode_short initial (by decide) code
          · exact .bind fun result => setErrorCode_short (by simp [PortControlResponse.Bounded,
              PortControlResponse.initial]) (by decide) result.1
          · exact initial

end Replies

/-- The responses of every service fit the buffer that it is set up with, of which
`zmq_service_alloc` asserts that it is not empty.
-/
theorem responses_fit {settings : Settings} (conf : SocketConf) {service : Service}
    {allocated : ZmqService}
    (alloc : zmqServiceAlloc (service.setup (statsResponseBuffer settings.maxRelays).size)
      = some allocated)
    : service.ResponsesFit settings conf allocated.maxResponseCb.toNat := by
  have relays := settings.relaysFit
  rw [zmqServiceAlloc] at alloc
  split at alloc
  · cases alloc
  · next positive =>
      cases alloc
      cases service with
      | config =>
          intro unpacked
          have size : (configReply settings unpacked).packedSize ≤ _ :=
            configReply_packedSize_le unpacked
          have limit : configSetup.maxResponseCb.toNat = 4096 := rfl
          simp only [Service.setup, limit]
          omega
      | stats =>
          intro pc
          refine (statsReply_reports pc).mono fun response reports stats => ?_
          have size := response.packedSize_le
            (fun relay member => (reports.2 relay member).trans_le relays) stats
          have few := reports.1
          rw [not_or] at positive
          have limit : (statsSetup (statsResponseBuffer settings.maxRelays).size).maxResponseCb.toNat
              = 960 * settings.maxRelays := by
            rw [statsResponseBuffer_size, statsSetup]
            exact UInt16.toNat_ofNat_of_lt' (show 960 * settings.maxRelays < 65536 by omega)
          have some : settings.maxRelays ≠ 0 := by
            intro zero
            exact positive.2 (UInt16.toNat_inj.mp (limit.trans (by rw [zero]; rfl)))
          simp only [Service.setup, limit]
          omega
      | portControl =>
          intro pc
          refine (portControlReply_bounded pc).mono fun response bounded ends => ?_
          have limit : portControlSetup.maxResponseCb.toNat = 256 := rfl
          simp only [Service.setup, limit]
          exact (bounded.packedSize_le ends).trans (by decide)
      | coreSched =>
          intro pc
          refine (coreSchedReply_bounded pc).mono fun response bounded => ?_
          have limit : coreSchedSetup.maxResponseCb.toNat = 256 := rfl
          simp only [Service.setup, limit]
          exact bounded.packedSize_le.trans (by decide)

/-- As many relays as a mask has bits. -/
def allRelays : Settings := { twoWorkers with maxRelays := 64, relaysFit := by decide }

theorem zmqServiceAlloc_stats
    : zmqServiceAlloc (Service.stats.setup (statsResponseBuffer allRelays.maxRelays).size)
      = some (statsSetup 61440) := by
  decide +kernel

/-- Witness: the statistics service with all relays. -/
theorem responses_fit_all_relays
    : Service.stats.ResponsesFit allRelays ⟨false, false⟩ (statsSetup 61440).maxResponseCb.toNat :=
  responses_fit ⟨false, false⟩ zmqServiceAlloc_stats

end VirtioForwarder
