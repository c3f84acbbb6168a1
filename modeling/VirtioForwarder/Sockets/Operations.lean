import VirtioForwarder.Control.Operations

/-! The vhost-user sockets of `virtio_vhostuser.c` in dynamic-socket mode, as built with DPDK
22.03 or later. The control operations are parts of larger programs here, which also read and
write `relay_ifname_map` and call the vhost library and the file system.
-/

namespace VirtioForwarder

open Program

/-- The control world and `relay_ifname_map`, with `none` for `NULL`. -/
structure Daemon where
  world : World
  relayIfnameMap : Nat → Option (List Char)

/-- The daemon before it was asked for anything. -/
def Daemon.unused (settings : Settings) : Daemon :=
  ⟨World.initial settings false fun _ => true, fun _ => none⟩

/-- What the socket code reads of `struct virtio_vhostuser_conf`: `vhost_client`, and whether
the configured user or group is another than that of the process.
-/
structure SocketConf where
  vhostClient : Bool
  changesOwner : Bool
  deriving DecidableEq, Repr

/-- The calls to the vhost library and the file system. The answer is the return value;
`isSocket` is the test `S_ISSOCK` of the result of `stat`.
-/
inductive VhostCall
  | stat (path : List Char)
  | isSocket (path : List Char)
  | unlink (path : List Char)
  | driverRegister (path : List Char)
  | driverStart (path : List Char)
  | chown (path : List Char)
  | driverUnregister (path : Option (List Char))
  deriving DecidableEq, Repr

/-- One access of a thread that works on sockets. -/
inductive SockInstr
  | control (id : Nat) (access : Instr)
  | readMap
  | writeMap (id : Nat) (path : Option (List Char))
  | vringStateChange (id : Nat) (change : VringChange)
  | vhost (call : VhostCall)
  deriving DecidableEq, Repr

/-- The effect of an access. -/
def SockInstr.exec (instr : SockInstr) (answer : Int) (daemon : Daemon) : Daemon :=
  match instr with
  | .control id access => { daemon with world := access.exec id answer daemon.world }
  | .readMap | .vhost _ => daemon
  | .writeMap id path =>
      { daemon with relayIfnameMap := Function.update daemon.relayIfnameMap id path }
  | .vringStateChange id change =>
      { daemon with
        world := daemon.world.modifyRelay id fun relay =>
          VirtioForwarder.vringStateChange relay change.queueId change.enable }

/-- A control operation aborts, `strcmp` is called with a null path, a request has more PCI
addresses than its buffer has room for, or the name of a device is copied to a buffer that is
too small.
-/
inductive SockFault
  | control (abort : Abort)
  | nullPath
  | addresses
  | nameBuffer
  deriving DecidableEq, Repr

/-- A program on the daemon. -/
abbrev SockProg (α : Type) := Prog SockInstr Int Daemon SockFault α

/-- A control program on relay `id` as a part of a program on the daemon. -/
def onRelay {α : Type} (id : Nat) (p : Control α) : SockProg α :=
  p.embed (.control id) Daemon.world .control

/-- A control program makes accesses to its own relay only, and its errors are its own. -/
theorem onRelay_all {α : Type} (id : Nat) (p : Control α)
    : (onRelay id p).All (fun i => ∃ access, i = .control id access)
        fun e => ∃ abort, e = .control abort := by
  induction p with
  | ret a => trivial
  | fail e => exact ⟨e, rfl⟩
  | instr i next ih => exact ⟨⟨i, rfl⟩, fun answer seen => ih answer seen.world⟩

/-- Read `relay_ifname_map`. -/
def readMap : SockProg (Nat → Option (List Char)) :=
  .perform .readMap fun _ daemon => daemon.relayIfnameMap

/-- Assign `relay_ifname_map[id]`. -/
def writeMap (id : Nat) (path : Option (List Char)) : SockProg Unit :=
  .perform (.writeMap id path) fun _ _ => ()

/-- Call the vhost library or the file system; the value is the return value. -/
def vhost (call : VhostCall) : SockProg Int :=
  .perform (.vhost call) fun answer _ => answer

/-- `get_relay_for_sock`; `none` is -1. With a null path, the first comparison crashes. -/
def getRelayForSock (settings : Settings) (path : Option (List Char)) : SockProg (Option Nat) := do
  let map ← readMap
  match path with
  | some path => return (List.range settings.maxRelays).find? fun id => map id = some path
  | none =>
      if (List.range settings.maxRelays).any fun id => (map id).isSome then .fail .nullPath
      else return none

/-- A pre-existing socket of a server is deleted; whether the path can be used. -/
def clearStaleSocket (conf : SocketConf) (path : List Char) : SockProg Bool := do
  if conf.vhostClient then return true
  if (← vhost (.stat path)) ≠ 0 then return true
  if (← vhost (.isSocket path)) = 0 then return false
  return (← vhost (.unlink path)) = 0

/-- `register_relay_socket`, without the calls that only choose features. The new entry of the
map counts from the moment at which its text has been copied.
-/
def registerRelaySocket (conf : SocketConf) (path : List Char) (id : Nat) : SockProg Int := do
  if !(← clearStaleSocket conf path) then return -1
  if ((← readMap) id).isSome then return -1
  if (← vhost (.driverRegister path)) ≠ 0 then return -1
  if (← vhost (.driverStart path)) ≠ 0 then return -1
  writeMap id (some path)
  if !conf.vhostClient && conf.changesOwner then
    if (← vhost (.chown path)) ≠ 0 then return -1
    return 0
  return 0

/-- `deregister_socket`. -/
def deregisterSocket (settings : Settings) (path : Option (List Char)) : SockProg Int := do
  let err ← vhost (.driverUnregister path)
  match ← getRelayForSock settings path with
  | none => return 1
  | some id =>
      if ((← readMap) id).isSome then
        writeMap id none
        return err
      return 2

/-- `virtio_get_free_relay_id`; `none` is -1. -/
def virtioGetFreeRelayId (settings : Settings) : SockProg (Option Nat) :=
  .perform .readMap fun _ daemon =>
    (List.range settings.maxRelays).find? fun id =>
      (daemon.world.relays id).vio.state = .uninit
      ∧ (daemon.world.relays id).dpdk.state = .uninit
      ∧ daemon.relayIfnameMap id = none

/-- `EEXIST`. -/
def eexist : Int := 17

/-- `rte_eth_dev_get_port_by_name`, which refuses a null name with `-EINVAL`. -/
def portByName (dev : Option (List Char)) : SockProg Int :=
  match dev with
  | some name => onRelay 0 (drive (.portByName name))
  | none => return -22

/-- The VF or the bond of a new pair is attached; 0, or the error code of the pair. A bond
without a name is refused by `rte_eth_bond_create`.
-/
def addPairDevice (settings : Settings) (slaves : List (List Char)) (name : Option (List Char))
    (conditional : Bool) (id : Nat)
    : SockProg Int := do
  match slaves, name with
  | [dbdf], _ =>
      if (← onRelay id (addVf2 settings dbdf id conditional)) ≠ 0 then return 3
      return 0
  | _, some name =>
      if (← onRelay id (bondAdd settings slaves name id)) ≠ 0 then return 4
      return 0
  | _, none => return 4

/-- The device of a pair: the only VF, or else the bond. -/
def pairDevice (slaves : List (List Char)) (name : Option (List Char)) : Option (List Char) :=
  match slaves with
  | [dbdf] => some dbdf
  | _ => name

/-- `exit_deconfigure_pair` of `virtio_add_sock_dev_pair`. -/
def deconfigurePair (settings : Settings) (path : List Char) (dev : List Char)
    (conditional : Bool) (id : Nat)
    : SockProg Int := do
  let _ ← onRelay id (removeVf2 settings dev id conditional)
  let _ ← deregisterSocket settings (some path)
  return 5

/-- `virtio_add_sock_dev_pair`. -/
def virtioAddSockDevPair (settings : Settings) (conf : SocketConf)
    (vhostPath : Option (List Char)) (slaves : List (List Char)) (name : Option (List Char))
    (conditional : Bool)
    : SockProg Int := do
  match vhostPath with
  | none => return -1
  | some path =>
      let dev := pairDevice slaves name
      if (← portByName dev) = 0 then return -eexist
      if (← getRelayForSock settings (some path)).isSome then return 1
      match ← virtioGetFreeRelayId settings with
      | none => return 2
      | some id =>
          let err ← addPairDevice settings slaves name conditional id
          if err ≠ 0 then return err
          if (← registerRelaySocket conf path id) = 0 then return 0
          deconfigurePair settings path (dev.getD []) conditional id

/-- The relay of a pair and its path: found by the path, or else by the device. -/
def findPair (settings : Settings) (vhostPath : Option (List Char)) (dev : List Char)
    : SockProg (Option (Nat × Option (List Char))) := do
  match vhostPath with
  | some path => return (← getRelayForSock settings (some path)).map fun id => (id, some path)
  | none =>
      .perform .readMap fun _ daemon =>
        ((List.range settings.maxRelays).find? fun id =>
          (daemon.world.relays id).dpdk.pciDbdf = dev).map
          fun id => (id, daemon.relayIfnameMap id)

/-- The end of `virtio_remove_sock_dev_pair`, after the pair was found. -/
def removeFoundPair (settings : Settings) (id : Nat) (path : Option (List Char)) (dev : List Char)
    (conditional : Bool)
    : SockProg Int := do
  let _ ← onRelay id (removeVirtio settings id)
  if (← deregisterSocket settings path) ≠ 0 then return 3
  if (← onRelay id (removeVf2 settings dev id conditional)) ≠ 0 then return 4
  return 0

/-- `virtio_remove_sock_dev_pair`. Without a device, the name of that of the relay is copied to
the buffer of `dev`, which has `room` bytes.
-/
def virtioRemoveSockDevPair (settings : Settings) (vhostPath : Option (List Char))
    (dev : List Char) (room : Nat) (conditional : Bool)
    : SockProg Int := do
  if vhostPath.isNone ∧ dev = [] then return -1
  match ← findPair settings vhostPath dev with
  | none => return 1
  | some (id, path) =>
      let stored := (← onRelay id (look id .device)).dpdk.pciDbdf
      if dev ≠ [] ∧ !pciDbdfEqual dev stored then return 2
      if dev = [] ∧ room ≤ stored.length then .fail .nameBuffer
      else removeFoundPair settings id path (if dev = [] then stored else dev) conditional

end VirtioForwarder
