import VirtioForwarder.Control.World

/-! The control operations of `virtio_worker.c` as programs of single accesses.
Each function follows its namesake, as built with DPDK 22.03 or later and with bonding. Log
messages are left out, but for the one that a wait writes when it gives up. The spinlocks
that `migrate_mempool` takes only delay it, because worker iterations are atomic here.
-/

namespace VirtioForwarder

open Program

/-- A control program on the shared world. -/
abbrev Control (α : Type) := Prog Instr Int World Abort α

/-- Read a field of relay `id`; the value is the relay as seen at that moment. -/
def look (id : Nat) (field : Field) : Control Relay :=
  .perform (.read field) fun _ world => world.relays id

/-- Assign a field of the operation's relay. -/
def assign (write : Write) : Control Unit :=
  .perform (.write write) fun _ _ => ()

/-- Call a driver function; the value is its return value. -/
def drive (call : DriverCall) : Control Int :=
  .perform (.call call) fun answer _ => answer

/-- `worker_threads[cpu].need_update = true`. -/
def flagWorker (cpu : Int) : Control Unit :=
  if 0 ≤ cpu ∧ cpu < maxCpus then .perform (.flagWorker cpu.toNat) fun _ _ => ()
  else .fail .workerIndex

/-- Read `worker_threads[cpu]`. Outside of the array the memory may hold anything: a 0 reads as a
worker that does not run, and after anything else the array is written outside as well.
-/
def lookWorker (cpu : Int) : Control Worker :=
  if 0 ≤ cpu ∧ cpu < maxCpus then .perform (.read .workers) fun _ world => world.workers cpu.toNat
  else do
    let stray ← .perform (.read .workers) fun stray _ => stray
    if stray = 0 then return ⟨false, false, fun _ => false⟩ else .fail .workerIndex

-----------------------------------------------------------------------------------------
-- The choice of a worker
-----------------------------------------------------------------------------------------

/-- `have_worker_on_node`. -/
def haveWorkerOnNode (settings : Settings) (node : Int) : Bool :=
  (List.range maxCpus).any fun cpu =>
    settings.numaNode cpu = node && settings.workerCoreBitmap.getLsbD cpu

/-- `cpu_workers[cpu]` of `naive_get_idlest_worker`, the load of a CPU. -/
def cpuLoad (settings : Settings) (world : World) (cpu : Nat) : Nat :=
  ((List.range settings.maxRelays).map fun id =>
    let relay := world.relays id
    (if (relay.dpdk.state = .ready ∨ relay.dpdk.state = .added) ∧ relay.dpdk.vf2vioCpu = cpu
      then 12 else 0)
    + (if relay.vio.state = .ready ∧ relay.vio.vio2vfCpu = cpu then 10 else 0)).sum

/-- `naive_get_idlest_worker`: the first CPU with the least load among the initialized
workers, on the node if there is a worker on it; -1 if there is none.
-/
def naiveGetIdlestWorker (settings : Settings) (world : World) (node : Int) : Int :=
  let best := (List.range maxCpus).foldl
    (fun (best : Option (Nat × Nat)) cpu =>
      if node ≠ socketIdAny ∧ haveWorkerOnNode settings node ∧ settings.numaNode cpu ≠ node then
        best
      else if ¬ settings.workerCoreBitmap.getLsbD cpu then best
      else if ¬ (world.workers cpu).initialized then best
      else
        match best with
        | none => some (cpuLoad settings world cpu, cpu)
        | some (least, index) =>
            if cpuLoad settings world cpu < least then some (cpuLoad settings world cpu, cpu)
            else some (least, index))
    none
  match best with
  | none => -1
  | some (_, index) => index

/-- Ask for the idlest worker near the relay's memory; there has to be one. -/
def findIdlestCpu (settings : Settings) (id : Nat) : Control Int := do
  let cpu ← .perform (.read .relays) fun _ world =>
    naiveGetIdlestWorker settings world (world.relays id).vio.mempoolSocketId
  if cpu ≥ 0 then return cpu
  else .fail .assertWorkerFound

/-- The VF side leaves the worker that it has. -/
def leaveVf2virtioCpu (id : Nat) : Control Unit := do
  let cpu := (← look id .vf2vioCpu).dpdk.vf2vioCpu
  if cpu = -1 then return
  flagWorker cpu
  assign (.vf2vioCpu (-1))

/-- `find_vf2virtio_cpu`. -/
def findVf2virtioCpu (settings : Settings) (id : Nat) : Control Unit := do
  let confCpu := (settings.relayCpus id).vf2vioCpu
  if confCpu ≠ -1 then assign (.vf2vioCpu confCpu)
  else
    leaveVf2virtioCpu id
    assign (.vf2vioCpu (← findIdlestCpu settings id))

/-- The virtio side leaves the worker that it has. -/
def leaveVirtio2vfCpu (id : Nat) : Control Unit := do
  let cpu := (← look id .vio2vfCpu).vio.vio2vfCpu
  if cpu = -1 then return
  flagWorker cpu
  assign (.vio2vfCpu (-1))

/-- `find_virtio2vf_cpu`. -/
def findVirtio2vfCpu (settings : Settings) (id : Nat) : Control Unit := do
  let confCpu := (settings.relayCpus id).vio2vfCpu
  if confCpu ≠ -1 then assign (.vio2vfCpu confCpu)
  else
    leaveVirtio2vfCpu id
    assign (.vio2vfCpu (← findIdlestCpu settings id))

-----------------------------------------------------------------------------------------
-- Pools, queues and ports
-----------------------------------------------------------------------------------------

/-- `NUM_PKTMBUF_POOL`. -/
def numPktmbufPool : Nat := 4096

/-- The pool size `slaves * NUM_PKTMBUF_POOL - 1` in an `unsigned`. -/
def bondPoolSize (slaves : Nat) : Nat :=
  (slaves * numPktmbufPool + (2 ^ 32 - 1)) % 2 ^ 32

/-- `alloc_mempool`; `none` is `NULL`. A new pool has a handle that was never used. -/
def allocMempool (node : Int) (size : Nat) : Control (Option Nat) :=
  .perform (.call (.poolCreate node size)) fun answer world =>
    if answer ≠ 0 then some world.nextPool else none

/-- `rte_eth_rx_queue_setup` with the relay's socket and pool. -/
def setupRxQueue (id port : Nat) : Control Int := do
  let node := (← look id .mempoolSocketId).vio.mempoolSocketId
  let pool := (← look id .mempool).vio.mempool
  drive (.rxQueueSetup port node pool)

/-- `rte_eth_tx_queue_setup` with the relay's socket. -/
def setupTxQueue (id port : Nat) : Control Int := do
  let node := (← look id .mempoolSocketId).vio.mempoolSocketId
  drive (.txQueueSetup port node)

/-- The second half of `migrate_mempool`: the queues of an added VF are set up again. -/
def reconfigureVf (id port : Nat) : Control Int := do
  let err ← drive (.devInfoGet port)
  if err ≠ 0 then return err
  if (← setupTxQueue id port) ≠ 0 then
    let _ ← drive (.devClose port)
    return -1
  if (← setupRxQueue id port) ≠ 0 then
    let _ ← drive (.devClose port)
    return -1
  return 0

/-- An added VF is stopped before its pool is freed. -/
def stopAddedVf (id port : Nat) : Control Unit := do
  if (← look id .dpdkState).dpdk.state = .added then
    let _ ← drive (.devStop port)
  else return

/-- The old pool is freed if there is one. -/
def freeOldPool (id : Nat) : Control Unit := do
  let old := (← look id .mempool).vio.mempool
  if old.isSome then
    let _ ← drive (.poolFree old)
  else return

/-- The part of `migrate_mempool` behind its assertions. -/
def swapMempool (id port : Nat) (newnode : Int) (newPool : Nat) : Control Int := do
  stopAddedVf id port
  freeOldPool id
  assign (.mempool (some newPool))
  assign (.mempoolSocketId newnode)
  if (← look id .dpdkState).dpdk.state = .added then reconfigureVf id port
  else return 0

/-- `migrate_mempool`; the port id is cut to 8 bits. -/
def migrateMempool (id : Nat) (newnode : Int) (size : Nat) : Control Int := do
  let port := (← look id .device).dpdk.dpdkPort % 256
  match ← allocMempool newnode size with
  | none => return -1
  | some newPool =>
      if (← look id .dpdkState).dpdk.state = .ready then .fail .assertNotReady
      else if (← look id .rxPkts).dpdk.rxPkts.avail ≠ 0 then .fail .assertNoRxPkts
      else swapMempool id port newnode newPool

/-- `stop_close_remove_dev`. -/
def stopCloseRemoveDev (port : Nat) : Control Int := do
  let err ← drive (.devStop port)
  if err ≠ 0 then return err
  let err ← drive (.devClose port)
  if err ≠ 0 then return err
  drive (.devRemove port)

/-- `cleanup_eth_dev`. -/
def cleanupEthDev (port : Nat) : Control Int := do
  let err ← drive (.devInfoGet port)
  if err ≠ 0 then return err
  stopCloseRemoveDev port

/-- The part of `dev_queue_configure` that makes sure that the relay has a pool. -/
def ensureMempool (id : Nat) : Control Bool := do
  if (← look id .mempool).vio.mempool.isSome then return true
  let node := (← look id .mempoolSocketId).vio.mempoolSocketId
  match ← allocMempool node (numPktmbufPool - 1) with
  | none => return false
  | some pool =>
      assign (.mempool (some pool))
      return true

/-- The part of `dev_queue_configure` that sets up the port itself. -/
def configurePort (port : Nat) (isBond : Bool) : Control Int := do
  let err ← drive (.devInfoGet port)
  if err ≠ 0 then return err
  if (← drive (.devConfigure port)) ≠ 0 then return 4
  if isBond then return 0
  if (← drive (.devSetMtu port)) ≠ 0 then return 4
  return 0

/-- `dev_queue_configure`. -/
def devQueueConfigure (id port : Nat) (isBond : Bool) : Control Int := do
  let err ← configurePort port isBond
  if err ≠ 0 then return err
  if !(← ensureMempool id) then return -1
  let err ← drive (.devInfoGet port)
  if err ≠ 0 then return err
  if (← setupTxQueue id port) ≠ 0 then return 6
  if (← setupRxQueue id port) ≠ 0 then return 5
  return 0

/-- `init_vf`: the port of the device, or the error with the port if it was found. Without a
matching device the loop over the matches does nothing, and the port is `RTE_MAX_ETHPORTS`.
-/
def initVf (settings : Settings) (id : Nat) (dbdf : List Char)
    : Control (Except (Int × Option Nat) Nat) := do
  if (← drive (.devProbe dbdf)) ≠ 0 then return .error (2, none)
  let found ← drive (.nextMatchingDev dbdf)
  if 0 ≤ found ∧ found < settings.maxRelays then
    let port := found.toNat
    let err ← devQueueConfigure id port false
    if err ≠ 0 then
      let _ ← cleanupEthDev port
      return .error (err, some port)
    let _ ← drive (.promiscuousEnable port)
    return .ok port
  return .ok settings.maxRelays

-----------------------------------------------------------------------------------------
-- Adding a VF or a bond
-----------------------------------------------------------------------------------------

/-- `strlcpy(relay->dpdk.pci_dbdf, pci_dbdf, 20)`. -/
def storedDbdf (dbdf : List Char) : List Char := dbdf.take 19

/-- The decision of `configure_dev_with_virtio`: a VF is started if the guest is connected.
The value is the new state of the VF, or `none` if the start failed.
-/
def startOrStop (id port : Nat) : Control (Option DpdkState) := do
  if (← look id .vioState).vio.state = .ready then
    if (← drive (.devStart port)) ≠ 0 then return none
    return some .ready
  else
    let _ ← drive (.devStop port)
    return some .added

/-- The rest of `configure_dev_with_virtio`: the VF is published and its worker flagged. -/
def publishVf (settings : Settings) (id : Nat) (dbdf : List Char) (port : Nat)
    (state : DpdkState) (isBond : Bool) (numSlaves : Nat)
    : Control Unit := do
  assign (.lmPending false)
  assign (.dpdkPort port)
  assign (.pciDbdf (storedDbdf dbdf))
  findVf2virtioCpu settings id
  assign (.dpdkState state)
  assign (.isBond isBond)
  assign (.numSlaves numSlaves)
  flagWorker (← look id .vf2vioCpu).dpdk.vf2vioCpu

/-- `configure_dev_with_virtio`. -/
def configureDevWithVirtio (settings : Settings) (id : Nat) (dbdf : List Char) (port : Nat)
    (isBond : Bool) (numSlaves : Nat)
    : Control Int := do
  match ← startOrStop id port with
  | none => return 1
  | some state =>
      publishVf settings id dbdf port state isBond numSlaves
      return 0

/-- The VF is in use: `dpdk.state` is tested for `DPDK_READY`, then for `DPDK_ADDED`. -/
def vfActive (id : Nat) : Control Bool := do
  if (← look id .dpdkState).dpdk.state = .ready then return true
  return (← look id .dpdkState).dpdk.state = .added

/-- `conditional_add_ok`. -/
def conditionalAddOk (id : Nat) (dbdf : List Char) : Control Bool := do
  if !(← vfActive id) then return false
  let relay ← look id .device
  return relay.id = id ∧ relay.dpdk.pciDbdf = dbdf

/-- `virtio_forwarder_add_vf2`. -/
def addVf2 (settings : Settings) (dbdf : List Char) (id : Nat) (conditional : Bool)
    : Control Int := do
  if id ≥ settings.maxRelays then return 1
  if (← look id .dpdkState).dpdk.state ≠ .uninit then
    if !conditional then return 8
    if ← conditionalAddOk id dbdf then return 0
    return 8
  match ← initVf settings id dbdf with
  | .error (err, _) => return err
  | .ok port =>
      let err ← configureDevWithVirtio settings id dbdf port false 0
      if err = 0 then return 0
      let _ ← cleanupEthDev port
      return err

/-- The loop of `virtio_forwarder_bond_add` that looks for slaves in use. -/
def slaveInUse : List (List Char) → Control Bool
  | [] => return false
  | slave :: slaves => do
      if (← drive (.portByName slave)) = 0 then return true
      slaveInUse slaves

/-- The loop that sets up the slaves and adds them to the bond; whether it succeeded, and
the ports found so far.
-/
def addSlaves (settings : Settings) (id bond : Nat) (ports : List (Option Nat))
    : List (List Char) → Control (Bool × List (Option Nat))
  | [] => return (true, ports)
  | slave :: slaves => do
      match ← initVf settings id slave with
      | .error (_, port) => return (false, ports ++ [port])
      | .ok port =>
          let _ ← drive (.bondSlaveAdd bond port)
          addSlaves settings id bond (ports ++ [some port]) slaves

/-- The loop of the error path that cleans up the slave ports. An entry of the array that no
call has written holds any value.
-/
def cleanupSlaves : List (Option Nat) → Control Unit
  | [] => return
  | some port :: ports => do
      let _ ← cleanupEthDev port
      cleanupSlaves ports
  | none :: ports => do
      let garbage ← drive .uninitializedPort
      let _ ← cleanupEthDev garbage.toNat
      cleanupSlaves ports

/-- `error_slaves_deconfigure` and `error_bond_deconfigure` of
`virtio_forwarder_bond_add`, with the array of slave ports filled up to its length.
-/
def deconfigureBond (name : List Char) (ports : List (Option Nat)) (rc : Int) : Control Int := do
  cleanupSlaves ports
  let _ ← drive (.bondFree name)
  return rc

/-- `virtio_forwarder_bond_add`. -/
def bondAdd (settings : Settings) (slaves : List (List Char)) (name : List Char) (id : Nat)
    : Control Int := do
  if id ≥ settings.maxRelays then return 1
  if (← look id .dpdkState).dpdk.state ≠ .uninit then return 8
  let node := (← look id .mempoolSocketId).vio.mempoolSocketId
  let socketId := if node = socketIdAny then 0 else node
  let created ← drive (.bondCreate name socketId)
  if created < 0 then return 2
  let port := created.toNat % 2 ^ 16
  if ← slaveInUse slaves then deconfigureBond name [] 3
  else
    let _ ← migrateMempool id socketId (bondPoolSize slaves.length)
    if (← devQueueConfigure id port true) ≠ 0 then deconfigureBond name [] 4
    else
      let (added, ports) ← addSlaves settings id port [] slaves
      let ports := ports ++ List.replicate (slaves.length - ports.length) none
      if !added then deconfigureBond name ports 5
      else if (← configureDevWithVirtio settings id name port true slaves.length) ≠ 0 then
        deconfigureBond name ports 6
      else return 0

/-- `pci_dbdf_equal`: `strcmp` finds no difference. -/
def pciDbdfEqual (a b : List Char) : Bool := a = b

/-- `virtio_relay_has_device`. -/
def virtioRelayHasDevice (settings : Settings) (world : World) (id : Nat) (dev : List Char)
    : Bool :=
  if id ≥ settings.maxRelays then false
  else pciDbdfEqual dev (world.relays id).dpdk.pciDbdf

-----------------------------------------------------------------------------------------
-- Removing a VF or a bond
-----------------------------------------------------------------------------------------

/-- `while (state != UNINIT && retries++ < limit) usleep(50000);` with `polls` polls left
after this one; whether the last poll has seen the state, and the number of polls left.
-/
def waitReleased (id : Nat) (field : Field) (released : Relay → Bool) : Nat → Control (Bool × Nat)
  | 0 => do
      return (released (← look id field), 0)
  | polls + 1 => do
      if released (← look id field) then return (true, polls + 1)
      waitReleased id field released polls

/-- Log that a wait has given up. -/
def logTimeout : Control Unit := .perform .logTimeout fun _ _ => ()

/-- `stop_vm2vf_thread`. -/
def stopVm2vfThread (id : Nat) : Control Int := do
  if (← look id .vf2vioCpu).dpdk.vf2vioCpu < 0 then return 0
  assign (.dpdkState .removing1)
  let _ ← waitReleased id .dpdkState (·.dpdk.state = .uninit) 20
  if (← look id .dpdkState).dpdk.state = .uninit then return 0
  logTimeout
  return 5

/-- The array that `rte_eth_bond_slaves_get` fills. -/
def bondSlaves (port : Nat) : Nat → Control (List Nat)
  | 0 => return []
  | count + 1 => do
      let slaves ← bondSlaves port count
      let slave ← drive (.bondSlave port count)
      return slaves ++ [slave.toNat]

/-- The loop that removes the slaves from the bond. -/
def removeSlaves (port : Nat) : List Nat → Control Unit
  | [] => return
  | slave :: slaves => do
      let _ ← drive (.bondSlaveRemove port slave)
      removeSlaves port slaves

/-- `detach_slaves`. -/
def detachSlaves (id : Nat) : Control Int := do
  let relay ← look id .device
  if !relay.dpdk.isBond then return 0
  let port := relay.dpdk.dpdkPort
  let count ← drive (.bondSlavesGet port)
  if count < 0 then return 1
  let slaves ← bondSlaves port count.toNat
  removeSlaves port slaves
  cleanupSlaves (slaves.map some)
  return 0

/-- The part of `detach_device` that gives the device back to DPDK. -/
def releaseDevice (id port : Nat) : Control Int := do
  let relay ← look id .device
  if relay.dpdk.isBond then
    let _ ← detachSlaves id
    let _ ← drive (.devStop port)
    let _ ← drive (.devClose port)
    drive (.bondFree relay.dpdk.pciDbdf)
  else cleanupEthDev port

/-- The last part of `detach_device`: a pool that no guest uses is freed. -/
def freePoolUnlessConnected (id : Nat) : Control Unit := do
  if (← look id .vioState).vio.state = .uninit then
    let pool := (← look id .mempool).vio.mempool
    let _ ← drive (.poolFree pool)
    assign (.mempool none)
  else return

/-- `detach_device`; port -1 is 65535 in the 16-bit `dpdk_port_t`. -/
def detachDevice (id : Nat) : Control Int := do
  let port := (← look id .device).dpdk.dpdkPort
  let err ← stopVm2vfThread id
  if err ≠ 0 then return err
  let cpu := (← look id .vf2vioCpu).dpdk.vf2vioCpu
  assign (.vf2vioCpu (-1))
  flagWorker cpu
  if (← releaseDevice id port) ≠ 0 then return 2
  assign (.dpdkPort 65535)
  assign (.pciDbdf [])
  assign (.isBond false)
  assign (.numSlaves 0)
  freePoolUnlessConnected id
  return 0

/-- `virtio_forwarder_remove_vf2`. -/
def removeVf2 (settings : Settings) (dbdf : List Char) (id : Nat) (conditional : Bool)
    : Control Int := do
  if id ≥ settings.maxRelays then return 1
  if ← vfActive id then
    if dbdf = (← look id .device).dpdk.pciDbdf then detachDevice id
    else return 3
  else if conditional then return 0
  else return 4

-----------------------------------------------------------------------------------------
-- Connecting and disconnecting a guest
-----------------------------------------------------------------------------------------

/-- The pool for a guest on `newnode`: allocated if the relay has none, there or on any
node, else moved to the node if the relay's pool is elsewhere. `false` is an error.
-/
def alignMempool (id : Nat) (newnode : Int) : Control Bool := do
  if (← look id .mempool).vio.mempool.isNone then
    match ← allocMempool newnode (numPktmbufPool - 1) with
    | some pool =>
        assign (.mempool (some pool))
        assign (.mempoolSocketId newnode)
        return true
    | none =>
        match ← allocMempool socketIdAny (numPktmbufPool - 1) with
        | some pool =>
            assign (.mempool (some pool))
            assign (.mempoolSocketId socketIdAny)
            return true
        | none => return false
  else if (← look id .mempoolSocketId).vio.mempoolSocketId ≠ newnode ∧ newnode ≠ socketIdAny then
    let relay ← look id .device
    let size := if relay.dpdk.isBond then bondPoolSize relay.dpdk.numSlaves else numPktmbufPool - 1
    let _ ← migrateMempool id newnode size
    return true
  else return true

/-- The last part of `virtio_forwarder_add_virtio`: start a VF that is already there. -/
def startAddedVf (settings : Settings) (id : Nat) : Control Unit := do
  if (← look id .dpdkState).dpdk.state ≠ .added then return
  findVf2virtioCpu settings id
  let port := (← look id .device).dpdk.dpdkPort
  if (← drive (.devStart port)) ≠ 0 then return
  assign (.lmPending false)
  assign (.dpdkState .ready)
  flagWorker (← look id .vf2vioCpu).dpdk.vf2vioCpu

/-- `virtio_forwarder_add_virtio`. -/
def addVirtio (settings : Settings) (virtionet : Int) (id : Nat) : Control Int := do
  if id ≥ settings.maxRelays then return -1
  if (← look id .vioState).vio.state ≠ .uninit then return -1
  assign (.txQRr 0)
  assign (.vioDev virtionet)
  let pairs := (← drive (.vringNum virtionet)).toNat / 2
  assign (.maxQueuePairs pairs)
  if pairs > maxMultiqueuePairs then return -1
  let newnode ← drive (.guestNumaNode virtionet)
  if !(← alignMempool id newnode) then return -1
  findVirtio2vfCpu settings id
  let cpu := (← look id .vio2vfCpu).vio.vio2vfCpu
  if !settings.workerCoreBitmap.getLsbD cpu.toNat then return -1
  assign (.vioState .ready)
  flagWorker (← look id .vio2vfCpu).vio.vio2vfCpu
  startAddedVf settings id
  return 0

/-- The last part of `virtio_forwarder_remove_virtio`: stop the VF, or free the pool. -/
def stopVfOrFreePool (id : Nat) : Control Unit := do
  if (← look id .dpdkState).dpdk.state = .ready then
    let port := (← look id .device).dpdk.dpdkPort
    let _ ← drive (.devStop port)
    assign (.dpdkState .added)
    flagWorker (← look id .vf2vioCpu).dpdk.vf2vioCpu
  else
    let pool := (← look id .mempool).vio.mempool
    let _ ← drive (.poolFree pool)
    assign (.mempool none)

/-- The wait of `virtio_forwarder_remove_virtio`; used up retries are only logged. -/
def waitVirtioReleased (id : Nat) : Control Unit := do
  let (_, pollsLeft) ← waitReleased id .vioState (·.vio.state = .uninit) 20
  if pollsLeft = 0 then logTimeout else return

/-- `virtio_forwarder_remove_virtio`, which returns nothing. -/
def removeVirtio (settings : Settings) (id : Nat) : Control Int := do
  if id ≥ settings.maxRelays then return 0
  if (← look id .vioState).vio.state ≠ .ready then return 0
  assign (.vioState .removing1)
  waitVirtioReleased id
  let cpu := (← look id .vio2vfCpu).vio.vio2vfCpu
  assign (.vio2vfCpu (-1))
  assign (.txQBitmap 0)
  assign (.rxQBitmap 0)
  flagWorker cpu
  stopVfOrFreePool id
  return 0

-----------------------------------------------------------------------------------------
-- Moving a relay to other CPUs
-----------------------------------------------------------------------------------------

/-- The "Move virtio2vf" part of `migrate_relay_cpus`, which reads the CPU once to compare it and
once more to keep it.
-/
def moveVirtio2vf (id : Nat) (newCpu : Int) : Control Unit := do
  if !(← lookWorker newCpu).initialized then return
  if (← look id .vioState).vio.state ≠ .ready then return
  if (← look id .vio2vfCpu).vio.vio2vfCpu = newCpu then return
  let oldCpu := (← look id .vio2vfCpu).vio.vio2vfCpu
  assign (.vio2vfCpu newCpu)
  flagWorker oldCpu
  flagWorker newCpu

/-- The VF is in use: `dpdk.state` is tested for `DPDK_ADDED`, then for `DPDK_READY`. -/
def vfInitialized (id : Nat) : Control Bool := do
  if (← look id .dpdkState).dpdk.state = .added then return true
  return (← look id .dpdkState).dpdk.state = .ready

/-- The "Move vf2virtio" part of `migrate_relay_cpus`. -/
def moveVf2virtio (id : Nat) (newCpu : Int) : Control Unit := do
  if !(← lookWorker newCpu).initialized then return
  if !(← vfInitialized id) then return
  if (← look id .vf2vioCpu).dpdk.vf2vioCpu = newCpu then return
  let oldCpu := (← look id .vf2vioCpu).dpdk.vf2vioCpu
  assign (.vf2vioCpu newCpu)
  flagWorker oldCpu
  flagWorker newCpu

/-- `1ULL << count`. C leaves counts outside 0..63 undefined; the shift instructions of x86-64
and AArch64 take the count modulo 64.
-/
def shiftedOne (count : Int) : BitVec 64 := 1#64 <<< (count % 64).toNat

/-- `migrate_relay_cpus`. The test for valid CPUs uses the logical `!worker_core_bitmap`,
which is 0 for every bitmap but the empty one.
-/
def migrateRelayCpus (settings : Settings) (id : Nat) (newVirtio2vfCpu newVf2virtioCpu : Int)
    : Control Int := do
  let mask := shiftedOne newVirtio2vfCpu ||| shiftedOne newVf2virtioCpu
  let notBitmap : BitVec 64 := if settings.workerCoreBitmap = 0 then 1 else 0
  if mask &&& notBitmap ≠ 0 then return -1
  moveVirtio2vf id newVirtio2vfCpu
  moveVf2virtio id newVf2virtioCpu
  return 0

-----------------------------------------------------------------------------------------
-- The control system
-----------------------------------------------------------------------------------------

/-- A call of a control operation. -/
inductive Op
  | addVf2 (dbdf : List Char) (id : Nat) (conditional : Bool)
  | bondAdd (slaves : List (List Char)) (name : List Char) (id : Nat)
  | removeVf2 (dbdf : List Char) (id : Nat) (conditional : Bool)
  | addVirtio (virtionet : Int) (id : Nat)
  | removeVirtio (id : Nat)
  | migrateRelayCpus (id : Nat) (newVirtio2vfCpu newVf2virtioCpu : Int)
  deriving DecidableEq, Repr

/-- The relay that an operation works on. -/
def Op.relay : Op → Nat
  | .addVf2 _ id _ | .bondAdd _ _ id | .removeVf2 _ id _ | .addVirtio _ id | .removeVirtio id
  | .migrateRelayCpus id _ _ => id

/-- The program of an operation. -/
def Op.code (settings : Settings) : Op → Control Int
  | .addVf2 dbdf id conditional => VirtioForwarder.addVf2 settings dbdf id conditional
  | .bondAdd slaves name id => VirtioForwarder.bondAdd settings slaves name id
  | .removeVf2 dbdf id conditional => VirtioForwarder.removeVf2 settings dbdf id conditional
  | .addVirtio virtionet id => VirtioForwarder.addVirtio settings virtionet id
  | .removeVirtio id => VirtioForwarder.removeVirtio settings id
  | .migrateRelayCpus id newVirtio2vfCpu newVf2virtioCpu =>
      VirtioForwarder.migrateRelayCpus settings id newVirtio2vfCpu newVf2virtioCpu

/-- The control threads with the workers as their environment. -/
def controlSystem (settings : Settings) : System Op Instr Int World Abort World Event Int where
  exec op := Instr.exec op.relay
  obs := id
  env := Event.apply settings
  code := Op.code settings

/-- The daemon after its start, before any control operation. -/
def idleDaemon (settings : Settings) (useJumbo : Bool) (initialized : Nat → Bool)
    : Config Unit Op Instr Int World Abort World Int :=
  .idle (World.initial settings useJumbo initialized) (.removeVirtio 0) 0

end VirtioForwarder
