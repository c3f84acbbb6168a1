import VirtioForwarder.Inputs.PciAddress
import VirtioForwarder.Library.CText
import VirtioForwarder.Service.Server
import VirtioForwarder.Sockets.Operations

/-! The port control service of `zmq_port_control.c`: a request is validated and carried out
by one of the control or socket operations, whose return value decides the response.
-/

namespace VirtioForwarder

open CText Program

/-- `RTE_ETH_NAME_MAX_LEN`. -/
def rteEthNameMaxLen : Nat := 64

/-- `PortControlRequest.Op`; other numbers can be sent as well. -/
inductive PortControlOp
  | add
  | remove
  | addSock
  | removeSock
  | queryPci
  | other (value : Int)
  deriving DecidableEq, Repr

/-- `PortControlRequest`, without the mode of a bond. The bytes of a text may include zero bytes. -/
structure PortControlRequest where
  op : PortControlOp
  pciAddrs : List RequestPciAddress
  virtioId : Option UInt32
  conditional : Option Bool
  name : Option (List Char)
  vhostPath : Option (List Char)
  deriving DecidableEq, Repr

/-- `PortControlResponse.Status`. -/
inductive PortControlStatus
  | error
  | ok
  deriving DecidableEq, Repr

/-- `PortControlResponse`. -/
structure PortControlResponse where
  status : PortControlStatus
  errorCode : Option Int
  errorCodeSource : Option String
  queryString : Option (List Char)
  deriving DecidableEq, Repr

/-- The response that a handler starts from. -/
def PortControlResponse.initial : PortControlResponse := ⟨.error, none, none, none⟩

/-- `validate_PortControlRequest`. -/
def validatePortControlRequest (pc : PortControlRequest) : Bool :=
  if pc.name.isSome ∧ (pc.op = .add ∨ pc.op = .addSock) ∧ pc.pciAddrs.length < 2 then false
  else if pc.name.isNone ∧ pc.pciAddrs.length > 1 then false
  else if (pc.op = .remove ∨ pc.op = .removeSock) ∧ pc.name.isNone ∧ pc.pciAddrs.length > 1 then
    false
  else if (pc.op = .add ∨ pc.op = .remove) ∧ pc.virtioId.isNone then false
  else if pc.op = .queryPci ∧ pc.vhostPath.isNone then false
  else true

/-- `handle_PortControlRequest_set_error_code`, which is called once for a response. -/
def setErrorCode (response : PortControlResponse) (source : String) (code : Int)
    : PortControlResponse :=
  if code = 0 then { response with status := .ok }
  else { response with errorCode := some code, errorCodeSource := some source }

/-- `dbdf_addrs` of `struct port_control_req_buffer`. -/
def PortControlRequest.dbdfAddrs (pc : PortControlRequest) : List (List Char) :=
  pc.pciAddrs.map pciAddressToStr

/-- The first entry of `dbdf_addrs`, which is empty without addresses. -/
def PortControlRequest.firstDbdf (pc : PortControlRequest) : List Char :=
  pc.dbdfAddrs.headD []

/-- `name` of `struct port_control_req_buffer`, as the string that ends at its first zero byte. -/
def PortControlRequest.nameString (pc : PortControlRequest) : Option (List Char) :=
  pc.name.map cString

/-- `vhost_path` of `struct port_control_req_buffer`, as a string as well. -/
def PortControlRequest.vhostString (pc : PortControlRequest) : Option (List Char) :=
  pc.vhostPath.map cString

/-- The name under which a removal looks for the device. -/
def PortControlRequest.removedDevice (pc : PortControlRequest) : List Char :=
  if pc.pciAddrs.length = 1 then pc.firstDbdf else pc.nameString.getD pc.firstDbdf

/-- The size of the buffer with the name of the device that is removed: a row of `dbdf_addrs`, or
the bytes of the name in the request itself, which are unpacked with a zero byte behind them.
-/
def PortControlRequest.deviceRoom (pc : PortControlRequest) : Nat :=
  if pc.pciAddrs.length = 1 then rteEthNameMaxLen
  else pc.name.elim rteEthNameMaxLen fun name => name.length + 1

/-- The relay that is named, or else 0. -/
def PortControlRequest.relay (pc : PortControlRequest) : Nat :=
  (pc.virtioId.map UInt32.toNat).getD 0

/-- A request is conditional unless it says otherwise. -/
def PortControlRequest.isConditional (pc : PortControlRequest) : Bool :=
  pc.conditional.getD true

/-- `port_control_handle_add`. -/
def portControlHandleAdd (settings : Settings) (pc : PortControlRequest)
    : SockProg PortControlResponse := do
  match pc.dbdfAddrs with
  | [] => return .initial
  | [dbdf] =>
      let code ← onRelay pc.relay (addVf2 settings dbdf pc.relay pc.isConditional)
      return setErrorCode .initial "virtio_forwarder_add_vf2()" code
  | slaves =>
      let code ← onRelay pc.relay (bondAdd settings slaves (pc.nameString.getD []) pc.relay)
      return setErrorCode .initial "virtio_forwarder_bond_add()" code

/-- `port_control_handle_remove`. -/
def portControlHandleRemove (settings : Settings) (pc : PortControlRequest)
    : SockProg PortControlResponse := do
  let code ← onRelay pc.relay (removeVf2 settings pc.removedDevice pc.relay pc.isConditional)
  return setErrorCode .initial "virtio_forwarder_remove_vf2()" code

/-- `port_control_handle_add_socket`. -/
def portControlHandleAddSocket (settings : Settings) (conf : SocketConf) (pc : PortControlRequest)
    : SockProg PortControlResponse := do
  let code ← virtioAddSockDevPair settings conf pc.vhostString pc.dbdfAddrs pc.nameString
    pc.isConditional
  return setErrorCode .initial "virtio_add_sock_dev_pair()" code

/-- `port_control_handle_remove_socket`. -/
def portControlHandleRemoveSocket (settings : Settings) (pc : PortControlRequest)
    : SockProg PortControlResponse := do
  let code ← virtioRemoveSockDevPair settings pc.vhostString pc.removedDevice pc.deviceRoom
    pc.isConditional
  return setErrorCode .initial "virtio_remove_sock_dev_pair()" code

/-- `virtio_query_pci`; the value is the return value and the query string. -/
def virtioQueryPci (settings : Settings) (vhostPath : Option (List Char))
    : SockProg (Int × Option (List Char)) := do
  match vhostPath with
  | none => return (22, none)
  | some path =>
      match ← getRelayForSock settings (some path) with
      | none => return (2, none)
      | some id => return (0, some (← onRelay id (look id .device)).dpdk.pciDbdf)

/-- `port_control_handle_query_pci`. -/
def portControlHandleQueryPci (settings : Settings) (pc : PortControlRequest)
    : SockProg PortControlResponse := do
  let (code, query) ← virtioQueryPci settings pc.vhostString
  return setErrorCode { PortControlResponse.initial with queryString := query }
    "virtio_query_pci()" code

/-- `handle_PortControlRequest` for a request that could be unpacked. -/
def handlePortControlRequest (settings : Settings) (conf : SocketConf) (pc : PortControlRequest)
    : SockProg PortControlResponse :=
  if !validatePortControlRequest pc then return .initial
  else if pc.pciAddrs.length > maxNumBondSlaves then .fail .addresses
  else
    match pc.op with
    | .add => portControlHandleAdd settings pc
    | .remove => portControlHandleRemove settings pc
    | .addSock => portControlHandleAddSocket settings conf pc
    | .removeSock => portControlHandleRemoveSocket settings pc
    | .queryPci => portControlHandleQueryPci settings pc
    | .other _ => return .initial

end VirtioForwarder
