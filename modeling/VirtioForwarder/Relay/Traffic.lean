import VirtioForwarder.Relay.State

/-! One worker iteration on a relay, in both directions.
Each function follows its namesake in `virtio_worker.c` (built without `VIRTIO_ECHO` and
`VIRTIO_RETRY_ENQUEUE`). The answers of DPDK and vhost are inputs, the calls made to them
are returned as a list of actions, and a call that does not return is a `Fault`.
-/

namespace VirtioForwarder

/-- A packet-path call with what it delivered or what it was offered and accepted. -/
inductive Action
  | dequeueBurst (queue : Nat) (pkts : List Mbuf)
  | txBurst (offered : List Mbuf) (sent : Nat)
  | rxBurst (pkts : List Mbuf)
  | enqueueBurst (queue : Nat) (offered : List Mbuf) (sent : Nat)
  | free (pkt : Mbuf)
  deriving DecidableEq, Repr

/-- Why a call does not return: the `do`/`while` scan never ends, an array is indexed out
of bounds, a division by zero, or a failed `assert`.
-/
inductive Fault
  | hang
  | outOfBounds
  | divByZero
  | assertFailed
  deriving DecidableEq, Repr

/-- Answers during one `relay_vm2vf_traffic` call: the packets that
`rte_vhost_dequeue_burst` has to offer and the number `rte_eth_tx_burst` can take.
Both are cut to the size of the request.
-/
structure VmToVfIO where
  dequeued : List Mbuf
  txAccepted : Nat

/-- Answers during one `relay_vf2vm_traffic` call: `rte_vhost_avail_entries`, the packets
that `rte_eth_rx_burst` has to offer, and for each vhost queue the number of packets that
`rte_vhost_enqueue_burst` can take. Bursts are cut to the size of the request.
-/
structure VfToVmIO where
  availEntries : Nat
  received : List Mbuf
  enqueueAccepted : Nat → Nat

/-- The relay after a call, the actions of the call, and its return value. -/
structure Outcome where
  relay : Relay
  actions : List Action
  ret : Int

/-- A skipped call: nothing changes and the local variable `sent` keeps its initial 0. -/
def Outcome.skip (relay : Relay) : Outcome := ⟨relay, [], 0⟩

/-- `rte_pktmbuf_free` on every buffered packet, from the last one to the first. -/
def PktCache.freeAll (cache : PktCache) : List Action :=
  cache.window.reverse.map .free

/-- The `do`/`while` loop of `virtio_rx` that advances `tx_q_rr` to the next enabled pair.
`none` means that the first `fuel` rounds do not find one.
-/
def advanceTxQRr (bitmap : BitVec 64) (maxQueuePairs : Nat) : Nat → Nat → Option Nat
  | 0, _ => none
  | fuel + 1, rr =>
      let next := if rr + 1 ≥ maxQueuePairs then 0 else rr + 1
      if bitmap.getLsbD next then some next
      else advanceTxQRr bitmap maxQueuePairs fuel next

/-- `virtio_rx`. The scan visits every pair in its first `max_queue_pairs + 1` rounds, so
it goes on forever if it has not ended by then.
-/
def virtioRx (relay : Relay) (io : VmToVfIO) : Except Fault Outcome :=
  let vio := relay.vio
  if vio.state ≠ .ready then .ok ⟨relay, [], -1⟩
  else
    let enabled := vio.txQBitmap.getLsbD vio.txQRr
    let pkts := if enabled then io.dequeued.take burstLen else []
    match advanceTxQRr vio.txQBitmap vio.maxQueuePairs (vio.maxQueuePairs + 1) vio.txQRr with
    | none => .error .hang
    | some rr =>
        .ok {
          relay := { relay with
            vio := { vio with txPkts := vio.txPkts.receive pkts, txQRr := rr }
            stats := { relay.stats with
              vioRx := relay.stats.vioRx + UInt64.ofNat pkts.length
              vioRxBytes := relay.stats.vioRxBytes + (burstBytes pkts).toUInt64 } }
          actions := if enabled then [.dequeueBurst (vio.txQRr * 2 + 1) pkts] else []
          ret := pkts.length
        }

/-- `dpdk_tx`: offer the whole window to the VF's transmit queue. -/
def dpdkTx (relay : Relay) (io : VmToVfIO) : Except Fault Outcome :=
  if relay.dpdk.state ≠ .ready then .ok ⟨relay, [], -1⟩
  else
    let pkts := relay.vio.txPkts.window
    let sent := min io.txAccepted relay.vio.txPkts.avail
    let cache := relay.vio.txPkts.advance sent
    if cache.used ≤ burstLen then
      .ok {
        relay := { relay.setTxPkts cache with
          stats := { relay.stats with
            dpdkTx := relay.stats.dpdkTx + UInt64.ofNat sent
            dpdkTxBytes := relay.stats.dpdkTxBytes + (burstBytes (pkts.take sent)).toUInt64 } }
        actions := [.txBurst pkts sent]
        ret := sent
      }
    else .error .assertFailed

/-- The "DPDK not ready" branch of `relay_vm2vf_traffic`; `tx_pkts_used` is kept. -/
def dropTxPkts (relay : Relay) (sent : Int) : Outcome :=
  if sent = -1 ∧ relay.vio.txPkts.avail ≠ 0 then {
    relay := { relay.setTxPkts { relay.vio.txPkts with avail := 0 } with
      stats := { relay.stats with
        dpdkDropUnavail := relay.stats.dpdkDropUnavail + UInt64.ofNat relay.vio.txPkts.avail } }
    actions := relay.vio.txPkts.freeAll
    ret := 0
  }
  else .skip relay

/-- Free the RX cache as both cleanup functions do, if it holds packets. -/
def clearRxPkts (relay : Relay) : Outcome :=
  if relay.dpdk.rxPkts.avail ≠ 0 then {
    relay := { relay.setRxPkts { relay.dpdk.rxPkts with avail := 0, used := 0 } with
      stats := { relay.stats with
        vioDropUnavail := relay.stats.vioDropUnavail + UInt64.ofNat relay.dpdk.rxPkts.avail } }
    actions := relay.dpdk.rxPkts.freeAll
    ret := 0
  }
  else .skip relay

/-- Free the TX cache as both cleanup functions do, if it holds packets. -/
def clearTxPkts (relay : Relay) : Outcome :=
  if relay.vio.txPkts.avail ≠ 0 then {
    relay := { relay.setTxPkts { relay.vio.txPkts with avail := 0, used := 0 } with
      stats := { relay.stats with
        dpdkDropUnavail := relay.stats.dpdkDropUnavail + UInt64.ofNat relay.vio.txPkts.avail } }
    actions := relay.vio.txPkts.freeAll
    ret := 0
  }
  else .skip relay

/-- `worker_remove_vf`: both caches are freed, then the main thread is signalled. -/
def workerRemoveVf (relay : Relay) : Outcome :=
  let rx := clearRxPkts relay
  let tx := clearTxPkts rx.relay
  ⟨tx.relay.setDpdkState .uninit, rx.actions ++ tx.actions, 0⟩

/-- The virtio half of the removal handshake in `relay_vm2vf_traffic`. -/
def releaseVirtio (relay : Relay) : Relay :=
  if relay.vio.state = .removing1 then
    if relay.dpdk.vf2vioCpu = -1 then relay.setVioState .uninit
    else relay.setVioState .removing2
  else relay

/-- The last phase of a VF removal in `relay_vm2vf_traffic`. -/
def finishVfRemoval (relay : Relay) : Outcome :=
  if relay.dpdk.state = .removing2 then workerRemoveVf relay else .skip relay

/-- Fetch a burst from the guest if no packets are buffered for the VF. -/
def fetchFromVm (relay : Relay) (io : VmToVfIO) : Except Fault Outcome :=
  if relay.vio.txPkts.avail = 0 then virtioRx relay io else .ok (.skip relay)

/-- Send to the VF if packets are buffered for it. -/
def sendToVf (relay : Relay) (io : VmToVfIO) : Except Fault Outcome :=
  if relay.vio.txPkts.avail ≠ 0 then dpdkTx relay io else .ok (.skip relay)

/-- `relay_vm2vf_traffic`. -/
def relayVm2vfTraffic (relay : Relay) (io : VmToVfIO) : Except Fault Outcome := do
  let rx ← fetchFromVm relay io
  let tx ← sendToVf rx.relay io
  let drop := dropTxPkts tx.relay tx.ret
  let removed := finishVfRemoval (releaseVirtio drop.relay)
  return {
    relay := removed.relay
    actions := rx.actions ++ tx.actions ++ drop.actions ++ removed.actions
    ret := if removed.relay.vio.state = .ready then 1 else 0
  }

/-- The index into `rx_q_lut` that `calc_mbuf_queue` derives from a header hash: by masking
if the number of enabled queues is a power of two, else by division.
-/
def lutIndex (vio : RelayVirtio) (hash : UInt32) : Except Fault Nat :=
  let active := UInt32.ofNat vio.rxQActive
  if vio.pow2queues then .ok (hash &&& (active - 1)).toNat
  else if active = 0 then .error .divByZero
  else .ok (hash % active).toNat

/-- `calc_mbuf_queue` on one packet: the selected table entry becomes its tag. -/
def calcMbufQueue (vio : RelayVirtio) (pkt : Mbuf) : Except Fault Mbuf := do
  let index ← lutIndex vio pkt.headerHash
  if index < maxMultiqueuePairs then
    return { pkt with fdirId := .queue (vio.rxQLut index) }
  else
    throw .outOfBounds

/-- The size of the burst that `dpdk_rx` requests from the VF. -/
def tryRcv (relay : Relay) (io : VfToVmIO) : Nat :=
  if relay.vio.lmPending then burstLen else min io.availEntries burstLen

/-- `dpdk_rx`: a received burst is tagged only while several queues are enabled. The logged
packets are the ones stored in `rx_pkts`.
-/
def dpdkRx (relay : Relay) (io : VfToVmIO) : Except Fault Outcome := do
  if relay.dpdk.state ≠ .ready then return ⟨relay, [], -1⟩
  let rcvd := io.received.take (tryRcv relay io)
  let pkts ← if relay.vio.rxQBitmap > 1 then rcvd.mapM (calcMbufQueue relay.vio) else .ok rcvd
  return {
    relay := { relay.setRxPkts (relay.dpdk.rxPkts.receive pkts) with
      stats := { relay.stats with
        dpdkRx := relay.stats.dpdkRx + UInt64.ofNat pkts.length
        dpdkRxBytes := relay.stats.dpdkRxBytes + (burstBytes pkts).toUInt64 } }
    actions := [.rxBurst pkts]
    ret := pkts.length
  }

/-- The batching loop of `virtio_tx`: `q_pkts[q][q_len[q]++] = pkts[i]`, where both arrays
have `rx_q_active` rows and the row is the packet's tag.
-/
def batchPkts (active : Nat) : List Mbuf → (Nat → List Mbuf) → Except Fault (Nat → List Mbuf)
  | [], qPkts => .ok qPkts
  | pkt :: pkts, qPkts =>
      let q := pkt.fdirId.value
      if q < active then batchPkts active pkts (Function.update qPkts q (qPkts q ++ [pkt]))
      else .error .outOfBounds

/-- The write-back loop of `virtio_tx`: `while (j > sent) { j--; pkts[k++] = q_pkts[i][j]; }`.
`pos` is the position of `pkts[k]` in the cache; the new position is returned too.
-/
def putBack (queue : List Mbuf) (sent : Nat) : Nat → (Nat → Mbuf) → Nat → (Nat → Mbuf) × Nat
  | 0, buf, pos => (buf, pos)
  | j + 1, buf, pos =>
      if j + 1 > sent then
        putBack queue sent j (Function.update buf pos (queue.getD j (buf pos))) (pos + 1)
      else (buf, pos)

/-- State of the send loop of `virtio_tx`: the cache memory, the position of `pkts[k]`, the
statistics, and the calls made so far.
-/
structure SendState where
  buf : Nat → Mbuf
  pos : Nat
  stats : RelayStats
  actions : List Action

/-- One round of the send loop: enqueue the batch of queue `i` on vhost queue `i * 2`, put
the rest back into the cache, and free what the guest has copied.
-/
def sendQueue (io : VfToVmIO) (qPkts : Nat → List Mbuf) (s : SendState) (i : Nat) : SendState :=
  if qPkts i = [] then s
  else
    let sent := min (io.enqueueAccepted (i * 2)) (qPkts i).length
    let back := putBack (qPkts i) sent (qPkts i).length s.buf s.pos
    {
      buf := back.1
      pos := back.2
      stats := { s.stats with
        vioTx := s.stats.vioTx + UInt64.ofNat sent
        vioTxBytes := s.stats.vioTxBytes + (burstBytes ((qPkts i).take sent)).toUInt64 }
      actions := s.actions ++ [.enqueueBurst (i * 2) (qPkts i) sent]
        ++ ((qPkts i).take sent).reverse.map .free
    }

/-- `virtio_tx` with more than one RX queue enabled. -/
def virtioTxMulti (relay : Relay) (io : VfToVmIO) : Except Fault Outcome := do
  let cache := relay.dpdk.rxPkts
  let qPkts ← batchPkts relay.vio.rxQActive cache.window fun _ => []
  let s := (List.range relay.vio.rxQActive).foldl (sendQueue io qPkts)
    ⟨cache.pkts, cache.used, relay.stats, []⟩
  return {
    relay := { relay.setRxPkts { cache with pkts := s.buf, avail := s.pos - cache.used } with
      stats := s.stats }
    actions := s.actions
    ret := 0
  }

/-- `virtio_tx` with a single RX queue. -/
def virtioTxSingle (relay : Relay) (io : VfToVmIO) : Except Fault Outcome :=
  let pkts := relay.dpdk.rxPkts.window
  let sent := min (io.enqueueAccepted 0) relay.dpdk.rxPkts.avail
  let cache := relay.dpdk.rxPkts.advance sent
  if cache.used ≤ burstLen then
    .ok {
      relay := { relay.setRxPkts cache with
        stats := { relay.stats with
          vioTx := relay.stats.vioTx + UInt64.ofNat sent
          vioTxBytes := relay.stats.vioTxBytes + (burstBytes (pkts.take sent)).toUInt64 } }
      actions := .enqueueBurst 0 pkts sent :: (pkts.take sent).reverse.map .free
      ret := 0
    }
  else .error .assertFailed

/-- `virtio_tx`; the freeing loops count `sent` down, so it returns 0 or -1. -/
def virtioTx (relay : Relay) (io : VfToVmIO) : Except Fault Outcome :=
  if relay.vio.state ≠ .ready then .ok ⟨relay, [], -1⟩
  else if relay.vio.rxQBitmap > 1 then virtioTxMulti relay io
  else virtioTxSingle relay io

/-- The "Virtio not ready" branch of `relay_vf2vm_traffic`; `rx_pkts_used` is kept. -/
def dropRxPkts (relay : Relay) (sent : Int) : Outcome :=
  if sent = -1 ∧ relay.dpdk.rxPkts.avail ≠ 0 then {
    relay := { relay.setRxPkts { relay.dpdk.rxPkts with avail := 0 } with
      stats := { relay.stats with
        vioDropUnavail := relay.stats.vioDropUnavail + UInt64.ofNat relay.dpdk.rxPkts.avail } }
    actions := relay.dpdk.rxPkts.freeAll
    ret := 0
  }
  else .skip relay

/-- `worker_remove_virtio`: both caches are freed, then the main thread is signalled. -/
def workerRemoveVirtio (relay : Relay) : Outcome :=
  let rx := clearRxPkts relay
  let tx := clearTxPkts rx.relay
  ⟨tx.relay.setVioState .uninit, rx.actions ++ tx.actions, 0⟩

/-- The last phase of a virtio removal in `relay_vf2vm_traffic`. -/
def finishVirtioRemoval (relay : Relay) : Outcome :=
  if relay.vio.state = .removing2 then workerRemoveVirtio relay else .skip relay

/-- The VF half of the removal handshake in `relay_vf2vm_traffic`. -/
def releaseVf (relay : Relay) : Relay :=
  if relay.dpdk.state = .removing1 then
    if relay.vio.vio2vfCpu = -1 then relay.setDpdkState .uninit
    else relay.setDpdkState .removing2
  else relay

/-- Fetch a burst from the VF if no packets are buffered for the guest. -/
def fetchFromVf (relay : Relay) (io : VfToVmIO) : Except Fault Outcome :=
  if relay.dpdk.rxPkts.avail = 0 then dpdkRx relay io else .ok (.skip relay)

/-- Send to the guest if packets are buffered for it. -/
def sendToVm (relay : Relay) (io : VfToVmIO) : Except Fault Outcome :=
  if relay.dpdk.rxPkts.avail ≠ 0 then virtioTx relay io else .ok (.skip relay)

/-- `relay_vf2vm_traffic`. -/
def relayVf2vmTraffic (relay : Relay) (io : VfToVmIO) : Except Fault Outcome := do
  let rx ← fetchFromVf relay io
  let tx ← sendToVm rx.relay io
  let drop := dropRxPkts tx.relay tx.ret
  let removed := finishVirtioRemoval drop.relay
  let relay := releaseVf removed.relay
  return {
    relay := relay
    actions := rx.actions ++ tx.actions ++ drop.actions ++ removed.actions
    ret := if relay.dpdk.state = .ready then 1 else 0
  }

end VirtioForwarder
