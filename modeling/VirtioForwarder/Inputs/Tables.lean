import VirtioForwarder.Sockets.Operations

/-! Programs that handle external inputs. Relay numbers of inputs are signed here, and an
access to an entry of a table is an instruction of its own, so that a number outside the table
can be told apart.
-/

namespace VirtioForwarder

open Program

/-- The arrays of `struct stats_response_buffer`. -/
inductive StatsArray
  | workerStats
  | relayState
  | cpu
  | vf
  | vhost
  | vfToVm
  | vmToVf
  | relayStatePtrs
  deriving DecidableEq, Repr

/-- The tables with `MAX_RELAYS` entries. -/
inductive RelayTable
  | relayCpus
  | staticRelays
  | virtioVfRelays
  | relayPrevCounters
  | relayIfnameMap
  | stats (array : StatsArray)
  deriving DecidableEq, Repr

/-- One access while an input is handled: to an entry of a table, or one of an operation. -/
inductive InputInstr
  | entry (table : RelayTable) (index : Int)
  | daemon (access : SockInstr)
  deriving DecidableEq, Repr

/-- An operation fails, an assertion of a handler does, or an access was outside its table and
nothing is known about what follows.
-/
inductive InputFault
  | daemon (fault : SockFault)
  | assertion
  | outside (table : RelayTable) (index : Int)
  deriving DecidableEq, Repr

/-- A program that handles an input. -/
abbrev InputProg (α : Type) := Prog InputInstr Int Daemon InputFault α

/-- Access entry `index` of a table. -/
def atEntry (settings : Settings) (table : RelayTable) (index : Int) : InputProg Unit := do
  .perform (.entry table index) fun _ _ => ()
  if 0 ≤ index ∧ index < settings.maxRelays then return
  else .fail (.outside table index)

/-- An operation on the daemon as a part of the handling of an input. -/
def onDaemon {α : Type} (p : SockProg α) : InputProg α :=
  p.embed .daemon id .daemon

/-- The entry of `virtio_vf_relays` or of `relay_ifname_map` that an access concerns. Calls to
drivers and reads of the workers or of all relays concern none.
-/
def SockInstr.relayEntry : SockInstr → Option Nat
  | .control _ (.read .workers) | .control _ (.read .relays) => none
  | .control id (.read _) | .control id (.write _) => some id
  | .control _ (.flagWorker _) | .control _ (.call _) | .control _ .logTimeout => none
  | .writeMap id _ | .vringStateChange id _ => some id
  | .readMap | .vhost _ => none

/-- An access of an operation that stays inside the tables. -/
def SockInstr.InTables (settings : Settings) (access : SockInstr) : Prop :=
  ∀ id, access.relayEntry = some id → id < settings.maxRelays

/-- An access that stays inside the tables. -/
def InputInstr.InTables (settings : Settings) : InputInstr → Prop
  | .entry _ index => 0 ≤ index ∧ index < settings.maxRelays
  | .daemon access => access.InTables settings

section Rules

variable {settings : Settings} {α : Type}

/-- A control program on a relay of the table stays inside the tables. -/
theorem all_onRelay {id : Nat} (below : id < settings.maxRelays) (p : Control α)
    : (onRelay id p).All (SockInstr.InTables settings) fun _ => True := by
  refine (onRelay_all id p).mono ?_ fun _ _ => trivial
  rintro _ ⟨access, rfl⟩ entry concerns
  have same : entry = id := by
    cases access with
    | read field => cases field <;> simp_all [SockInstr.relayEntry]
    | write | flagWorker | call | logTimeout => simp_all [SockInstr.relayEntry]
  rwa [same]

theorem all_onDaemon {p : SockProg α} (h : p.All (SockInstr.InTables settings) fun _ => True)
    : (onDaemon p).All (InputInstr.InTables settings) fun _ => True :=
  Prog.All.embed h

theorem all_atEntry {table : RelayTable} {index : Int}
    : (atEntry settings table index).All (InputInstr.InTables settings) (fun _ => True)
      ↔ 0 ≤ index ∧ index < settings.maxRelays := by
  constructor
  · intro all
    exact all.1
  · intro inside
    refine ⟨inside, fun _ _ => ?_⟩
    change Prog.All _ _ (if 0 ≤ index ∧ index < settings.maxRelays then _ else _)
    rw [if_pos inside]
    trivial

theorem steady_atEntry {table : RelayTable} {index : Int} (answer : Int) (seen : Daemon)
    (inside : 0 ≤ index ∧ index < settings.maxRelays)
    : (atEntry settings table index).steady answer seen = .ok () := by
  change Prog.steady answer seen (if 0 ≤ index ∧ index < settings.maxRelays then _ else _) = _
  rw [if_pos inside]
  rfl

end Rules

end VirtioForwarder
