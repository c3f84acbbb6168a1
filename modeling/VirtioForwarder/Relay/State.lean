import Mathlib.Algebra.GroupWithZero.Nat
import VirtioForwarder.Library.Window

/-! The relay record shared by the worker threads and the control threads.
Every relay joins one vhost-user guest (the virtio side) with one VF or bond (the DPDK
side) and buffers at most one burst of packets for each direction.
-/

namespace VirtioForwarder

/-- `BURST_LEN`: slots of a packet cache and packets requested by one burst call. -/
def burstLen : Nat := 32

/-- `MAX_MULTIQUEUE_PAIRS`: entries of the queue lookup table. -/
def maxMultiqueuePairs : Nat := 32

/-- The 16-bit `hash.fdir.id` of an mbuf, with the party that wrote it last.
The code only reads the value; the constructor records where it comes from.
-/
inductive FdirId
  | driver (value : UInt16)
  | queue (number : Nat)
  deriving DecidableEq, Repr

/-- The number that the code reads from `hash.fdir.id`. -/
def FdirId.value : FdirId → Nat
  | .driver value => value.toNat
  | .queue number => number

/-- One packet buffer. `headerHash` is the value that `calc_eth_header_hash` computes from
the packet's headers; the hash function itself belongs to DPDK.
-/
structure Mbuf where
  addr : Nat
  pktLen : UInt32
  headerHash : UInt32
  fdirId : FdirId
  deriving DecidableEq, Repr

/-- Bytes of a burst, added up in a 32-bit `unsigned` as the statistics code does. -/
def burstBytes (pkts : List Mbuf) : UInt32 :=
  pkts.foldl (fun bytes pkt => bytes + pkt.pktLen) 0

/-- A packet cache: `tx_pkts` or `rx_pkts` with its `avail` and `used` counters. -/
structure PktCache where
  pkts : Nat → Mbuf
  avail : Nat
  used : Nat

/-- The buffered packets: cache slots `used` up to `used + avail`. -/
def PktCache.window (cache : PktCache) : List Mbuf :=
  Window.slice cache.pkts cache.used cache.avail

/-- A burst received into the start of the cache. -/
def PktCache.receive (cache : PktCache) (burst : List Mbuf) : PktCache :=
  { pkts := Window.store cache.pkts 0 burst, avail := burst.length, used := 0 }

/-- The first `sent` buffered packets have left the cache. -/
def PktCache.advance (cache : PktCache) (sent : Nat) : PktCache :=
  { cache with avail := cache.avail - sent, used := cache.used + sent }

/-- A received burst is exactly the new window. -/
@[simp]
theorem PktCache.window_receive (cache : PktCache) (burst : List Mbuf)
    : (cache.receive burst).window = burst := by
  simp [PktCache.window, PktCache.receive]

/-- The window has `avail` packets. -/
@[simp]
theorem PktCache.length_window (cache : PktCache) : cache.window.length = cache.avail := by
  simp [PktCache.window]

/-- A cache without available packets has an empty window. -/
theorem PktCache.window_eq_nil {cache : PktCache} (h : cache.avail = 0)
    : cache.window = [] := by
  simp [PktCache.window, h]

/-- Sent packets leave at the front of the window. -/
theorem PktCache.window_advance (cache : PktCache) {sent : Nat} (h : sent ≤ cache.avail)
    : (cache.advance sent).window = cache.window.drop sent := by
  simp [PktCache.window, PktCache.advance, Window.drop_slice _ h]

/-- `vio_state_t`. -/
inductive VioState
  | uninit
  | ready
  | removing1
  | removing2
  deriving DecidableEq, Repr

/-- `dpdk_state_t`. -/
inductive DpdkState
  | uninit
  | added
  | ready
  | removing1
  | removing2
  deriving DecidableEq, Repr

/-- `struct relay_virtio`; `mempool` is a pool handle, with `none` for `NULL`. -/
structure RelayVirtio where
  vio2vfCpu : Int
  maxQueuePairs : Nat
  rxQBitmap : BitVec 64
  txQBitmap : BitVec 64
  rxQActive : Nat
  rxQLut : Nat → Nat
  txQRr : Nat
  pow2queues : Bool
  state : VioState
  vioDev : Int
  mempool : Option Nat
  mempoolSocketId : Int
  txPkts : PktCache
  lmPending : Bool

/-- `struct relay_dpdk`. -/
structure RelayDpdk where
  vf2vioCpu : Int
  state : DpdkState
  isBond : Bool
  numSlaves : Nat
  dpdkPort : Nat
  pciDbdf : List Char
  rxPkts : PktCache

/-- `struct relay_stats`: 64-bit counters, which wrap around. -/
structure RelayStats where
  vioRx : UInt64
  vioRxBytes : UInt64
  dpdkTx : UInt64
  dpdkTxBytes : UInt64
  dpdkDropFull : UInt64
  dpdkDropUnavail : UInt64
  dpdkRx : UInt64
  dpdkRxBytes : UInt64
  vioTx : UInt64
  vioTxBytes : UInt64
  vioDropFull : UInt64
  vioDropUnavail : UInt64
  deriving DecidableEq, Repr

/-- `vio_vf_relay_t`. -/
structure Relay where
  id : Nat
  vio : RelayVirtio
  dpdk : RelayDpdk
  stats : RelayStats
  useJumbo : Bool

/-- Counters of a relay that has not forwarded anything. -/
def RelayStats.zero : RelayStats :=
  ⟨0, 0, 0, 0, 0, 0, 0, 0, 0, 0, 0, 0⟩

/-- An empty cache over zeroed memory; its slots hold the null mbuf. -/
def PktCache.empty : PktCache :=
  { pkts := fun _ => ⟨0, 0, 0, .driver 0⟩, avail := 0, used := 0 }

/-- The relay `id` as `virtio_forwarders_initialize` leaves it: zeroed memory, then both
CPUs unassigned, no pool, and the memory socket and jumbo setting of the configuration.
-/
def Relay.initial (id : Nat) (socketId : Int) (useJumbo : Bool) : Relay where
  id := id
  vio :=
    { vio2vfCpu := -1, maxQueuePairs := 0, rxQBitmap := 0, txQBitmap := 0, rxQActive := 0
      rxQLut := fun _ => 0, txQRr := 0, pow2queues := false, state := .uninit, vioDev := 0
      mempool := none, mempoolSocketId := socketId, txPkts := .empty, lmPending := false }
  dpdk :=
    { vf2vioCpu := -1, state := .uninit, isBond := false, numSlaves := 0, dpdkPort := 0
      pciDbdf := [], rxPkts := .empty }
  stats := .zero
  useJumbo := useJumbo

/-- Replace the cache of packets on their way from the guest to the VF. -/
def Relay.setTxPkts (relay : Relay) (cache : PktCache) : Relay :=
  { relay with vio := { relay.vio with txPkts := cache } }

/-- Replace the cache of packets on their way from the VF to the guest. -/
def Relay.setRxPkts (relay : Relay) (cache : PktCache) : Relay :=
  { relay with dpdk := { relay.dpdk with rxPkts := cache } }

/-- Write `vio.state`. -/
def Relay.setVioState (relay : Relay) (state : VioState) : Relay :=
  { relay with vio := { relay.vio with state := state } }

/-- Write `dpdk.state`. -/
def Relay.setDpdkState (relay : Relay) (state : DpdkState) : Relay :=
  { relay with dpdk := { relay.dpdk with state := state } }

end VirtioForwarder
