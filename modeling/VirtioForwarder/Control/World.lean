import VirtioForwarder.Library.Program
import VirtioForwarder.Relay.Traffic
import VirtioForwarder.Relay.Vring

/-! The state shared by the control threads and the workers, one access at a time.
A control operation is a program of single reads, writes and driver calls. What DPDK and
vhost answer is open; of their state the model keeps the pools, the pool that was last
passed for the receive queue of each port, and which ports are started.
-/

namespace VirtioForwarder

open Program

/-- `SOCKET_ID_ANY`. -/
def socketIdAny : Int := -1

/-- `MAX_CPUS`: entries of `worker_threads`. -/
def maxCpus : Nat := 64

/-- `struct relay_cpus` of the configuration, with -1 for a CPU that is not specified. -/
structure RelayCpus where
  vio2vfCpu : Int
  vf2vioCpu : Int
  deriving DecidableEq, Repr

/-- What is fixed at startup. `maxRelays` is `MAX_RELAYS`, that is `RTE_MAX_ETHPORTS`; the
64-bit masks of relays need that many bits.
-/
structure Settings where
  maxRelays : Nat
  relayCpus : Nat → RelayCpus
  workerCoreBitmap : BitVec 64
  numaNode : Nat → Int
  relaysFit : maxRelays ≤ 64

/-- One relay and two CPUs with workers, chosen by load. -/
def twoWorkers : Settings where
  maxRelays := 1
  relayCpus _ := ⟨-1, -1⟩
  workerCoreBitmap := 3
  numaNode _ := 0
  relaysFit := by decide

/-- `worker_thread_t`; `activeRelays` is the bit mask of the relays that it serves. -/
structure Worker where
  initialized : Bool
  needUpdate : Bool
  activeRelays : Nat → Bool

/-- The relays, the workers, and what the model keeps of the drivers. -/
structure World where
  relays : Nat → Relay
  workers : Nat → Worker
  nextPool : Nat
  freed : Nat → Bool
  rxPool : Nat → Option Nat
  started : Nat → Bool

/-- `virtio_forwarders_initialize` before the static VFs: no pool exists, no port is up. -/
def World.initial (settings : Settings) (useJumbo : Bool) (initialized : Nat → Bool) : World where
  relays id :=
    let cpu := (settings.relayCpus id).vio2vfCpu
    .initial id (if cpu ≠ -1 then settings.numaNode cpu.toNat else socketIdAny) useJumbo
  workers cpu := ⟨initialized cpu, false, fun _ => false⟩
  nextPool := 0
  freed _ := false
  rxPool _ := none
  started _ := false

/-- Change one relay. -/
def World.modifyRelay (world : World) (id : Nat) (f : Relay → Relay) : World :=
  { world with relays := Function.update world.relays id (f (world.relays id)) }

/-- The shared data that a read concerns. -/
inductive Field
  | vioState
  | dpdkState
  | vio2vfCpu
  | vf2vioCpu
  | mempool
  | mempoolSocketId
  | device
  | rxPkts
  | workers
  | relays
  deriving DecidableEq, Repr

/-- An assignment to a field of the operation's relay. -/
inductive Write
  | vioState (state : VioState)
  | dpdkState (state : DpdkState)
  | vio2vfCpu (cpu : Int)
  | vf2vioCpu (cpu : Int)
  | mempool (pool : Option Nat)
  | mempoolSocketId (node : Int)
  | lmPending (pending : Bool)
  | txQRr (queue : Nat)
  | vioDev (device : Int)
  | maxQueuePairs (pairs : Nat)
  | txQBitmap (bitmap : BitVec 64)
  | rxQBitmap (bitmap : BitVec 64)
  | dpdkPort (port : Nat)
  | pciDbdf (dbdf : List Char)
  | isBond (bond : Bool)
  | numSlaves (slaves : Nat)
  deriving DecidableEq, Repr

/-- Carry out an assignment. -/
def Write.apply (write : Write) (relay : Relay) : Relay :=
  match write with
  | .vioState state => relay.setVioState state
  | .dpdkState state => relay.setDpdkState state
  | .vio2vfCpu cpu => { relay with vio := { relay.vio with vio2vfCpu := cpu } }
  | .vf2vioCpu cpu => { relay with dpdk := { relay.dpdk with vf2vioCpu := cpu } }
  | .mempool pool => { relay with vio := { relay.vio with mempool := pool } }
  | .mempoolSocketId node => { relay with vio := { relay.vio with mempoolSocketId := node } }
  | .lmPending pending => { relay with vio := { relay.vio with lmPending := pending } }
  | .txQRr queue => { relay with vio := { relay.vio with txQRr := queue } }
  | .vioDev device => { relay with vio := { relay.vio with vioDev := device } }
  | .maxQueuePairs pairs => { relay with vio := { relay.vio with maxQueuePairs := pairs } }
  | .txQBitmap bitmap => { relay with vio := { relay.vio with txQBitmap := bitmap } }
  | .rxQBitmap bitmap => { relay with vio := { relay.vio with rxQBitmap := bitmap } }
  | .dpdkPort port => { relay with dpdk := { relay.dpdk with dpdkPort := port } }
  | .pciDbdf dbdf => { relay with dpdk := { relay.dpdk with pciDbdf := dbdf } }
  | .isBond bond => { relay with dpdk := { relay.dpdk with isBond := bond } }
  | .numSlaves slaves => { relay with dpdk := { relay.dpdk with numSlaves := slaves } }

/-- The calls to DPDK and vhost. The answer of a call is its return value; the port that the
device iterator finds and the contents of output arrays are answers of their own.
-/
inductive DriverCall
  | devProbe (dbdf : List Char)
  | nextMatchingDev (dbdf : List Char)
  | devInfoGet (port : Nat)
  | devConfigure (port : Nat)
  | devSetMtu (port : Nat)
  | txQueueSetup (port : Nat) (node : Int)
  | rxQueueSetup (port : Nat) (node : Int) (pool : Option Nat)
  | promiscuousEnable (port : Nat)
  | devStart (port : Nat)
  | devStop (port : Nat)
  | devClose (port : Nat)
  | devRemove (port : Nat)
  | poolCreate (node : Int) (size : Nat)
  | poolFree (pool : Option Nat)
  | bondCreate (name : List Char) (node : Int)
  | bondFree (name : List Char)
  | bondSlaveAdd (port slave : Nat)
  | bondSlavesGet (port : Nat)
  | bondSlave (port index : Nat)
  | bondSlaveRemove (port slave : Nat)
  | portByName (name : List Char)
  | uninitializedPort
  | vringNum (device : Int)
  | guestNumaNode (device : Int)
  deriving DecidableEq, Repr

/-- Carry out a call that was answered with `answer`; 0 is success, but for the pool, which
is `NULL` on failure.
-/
def DriverCall.apply (call : DriverCall) (answer : Int) (world : World) : World :=
  match call with
  | .rxQueueSetup port _ pool => { world with rxPool := Function.update world.rxPool port pool }
  | .devStart port =>
      if answer = 0 then { world with started := Function.update world.started port true }
      else world
  | .devStop port | .devClose port =>
      if answer = 0 then { world with started := Function.update world.started port false }
      else world
  | .poolCreate _ _ =>
      if answer ≠ 0 then { world with nextPool := world.nextPool + 1 } else world
  | .poolFree (some pool) => { world with freed := Function.update world.freed pool true }
  | _ => world

/-- One access of a control thread. -/
inductive Instr
  | read (field : Field)
  | write (assignment : Write)
  | flagWorker (cpu : Nat)
  | call (request : DriverCall)
  | logTimeout
  deriving DecidableEq, Repr

/-- The effect of an access made by an operation on the relay `id`. -/
def Instr.exec (id : Nat) (instr : Instr) (answer : Int) (world : World) : World :=
  match instr with
  | .read _ | .logTimeout => world
  | .write assignment => world.modifyRelay id assignment.apply
  | .flagWorker cpu =>
      { world with
        workers := Function.update world.workers cpu
          { world.workers cpu with needUpdate := true } }
  | .call request => request.apply answer world

/-- The ways in which a control operation aborts: the two assertions of `migrate_mempool`,
the assertion that some worker is found, and an index outside `worker_threads`.
-/
inductive Abort
  | assertNotReady
  | assertNoRxPkts
  | assertWorkerFound
  | workerIndex
  deriving DecidableEq, Repr

/-- `update_thread` of the worker on `cpu`. -/
def updateThread (settings : Settings) (world : World) (cpu : Nat) : World :=
  { world with
    workers := Function.update world.workers cpu
      { world.workers cpu with
        needUpdate := false
        activeRelays := fun id =>
          id < settings.maxRelays
          && ((world.relays id).dpdk.state ≠ .uninit && (world.relays id).dpdk.vf2vioCpu = cpu
            || (world.relays id).vio.state ≠ .uninit && (world.relays id).vio.vio2vfCpu = cpu) } }

/-- What happens beside the control operations. Worker iterations are not tied to the CPU
fields, because a worker tests these fields before it starts an iteration.
-/
inductive Event
  | vm2vf (id : Nat) (io : VmToVfIO)
  | vf2vm (id : Nat) (io : VfToVmIO)
  | updateThread (cpu : Nat)
  | vringStateChange (id : Nat) (change : VringChange)
  | setLmPending (id : Nat)

/-- The effect of an event; an iteration that does not return is not an event. -/
def Event.apply (settings : Settings) (event : Event) (world : World) : Option World :=
  match event with
  | .vm2vf id io =>
      match relayVm2vfTraffic (world.relays id) io with
      | .ok out => some (world.modifyRelay id fun _ => out.relay)
      | .error _ => none
  | .vf2vm id io =>
      match relayVf2vmTraffic (world.relays id) io with
      | .ok out => some (world.modifyRelay id fun _ => out.relay)
      | .error _ => none
  | .updateThread cpu => some (VirtioForwarder.updateThread settings world cpu)
  | .vringStateChange id change =>
      some (world.modifyRelay id fun relay =>
        VirtioForwarder.vringStateChange relay change.queueId change.enable)
  | .setLmPending id => some (world.modifyRelay id (Write.lmPending true).apply)

end VirtioForwarder
