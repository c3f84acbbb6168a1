import VirtioForwarder.Ovsdb.Monitor

/-! The monitor tracks the Interface table: after the output of a session has been processed,
the VFs of exactly the interfaces that enable virtio are attached, unless a modification goes
from an id that looks like no change to an interface that does not enable virtio.
-/

namespace VirtioForwarder

open Program CText

-----------------------------------------------------------------------------------------
-- Sessions
-----------------------------------------------------------------------------------------

/-- The Interface table: `external_ids` by the names of the interfaces. -/
abbrev InterfaceTable := List Char → Option ExternalIds

/-- A change of the table as the session reports it. The old row of a modification may leave
the name out.
-/
inductive InterfaceEvent
  | initial (name : OvsString) (externalIds : ExternalIds)
  | insert (name : OvsString) (externalIds : ExternalIds)
  | delete (name : OvsString)
  | modify (name : OvsString) (externalIds : ExternalIds) (shown : Option OvsString)

/-- The interface that changes. -/
def InterfaceEvent.interface : InterfaceEvent → List Char
  | .initial name _ | .insert name _ | .delete name | .modify name _ _ => name.text

/-- The rows that are printed for a change and the table after it; `none` if the table does not
allow it.
-/
def InterfaceEvent.apply (event : InterfaceEvent) (table : InterfaceTable)
    : Option (List Row × InterfaceTable) :=
  match event, table event.interface with
  | .initial name ids, none =>
      some ([⟨.initial, some name, ids⟩], Function.update table name.text (some ids))
  | .insert name ids, none =>
      some ([⟨.insert, some name, ids⟩], Function.update table name.text (some ids))
  | .delete name, some ids =>
      some ([⟨.delete, some name, ids⟩], Function.update table name.text none)
  | .modify name ids shown, some old =>
      some ([⟨.old, shown, old⟩, ⟨.new, some name, ids⟩], Function.update table name.text (some ids))
  | _, _ => none

/-- The rows of a sequence of changes and the table after them. -/
def replay : InterfaceTable → List InterfaceEvent → Option (List Row × InterfaceTable)
  | table, [] => some ([], table)
  | table, event :: events =>
      (event.apply table).bind fun (rows, next) =>
        (replay next events).map fun (more, last) => (rows ++ more, last)

/-- The devices of the interfaces that enable virtio, by the numbers of their VFs. -/
def InterfaceTable.Wants (table : InterfaceTable) (ethtool : List Char → EthtoolRead)
    (id : Nat) (dbdf : List Char) : Prop :=
  ∃ name ids,
    table name = some ids ∧ (idsConfig ids).virtioEnabled = true
    ∧ getVfPcieFromNetdev (ethtool name) = some ⟨dbdf, id⟩

/-- The VFs of different interfaces have different numbers. -/
def DistinctVfs (ethtool : List Char → EthtoolRead) (names : Set (List Char)) : Prop :=
  ∀ name ∈ names, ∀ name' ∈ names, ∀ vf vf',
    getVfPcieFromNetdev (ethtool name) = some vf → getVfPcieFromNetdev (ethtool name') = some vf'
    → vf.vf = vf'.vf → name = name'

/-- The id of a row that enables virtio is taken for no change, as it is -1 as an `int`. -/
def Row.LooksUnchanged (row : Row) : Prop :=
  row.portConfig.virtioEnabled = true ∧ row.portConfig.virtioId % 2 ^ 32 = 2 ^ 32 - 1

/-- A row may come before another one: an old row that looks unchanged does not come before a
new row that does not enable virtio.
-/
def Row.Precedes (row next : Row) : Prop :=
  row.action = .old → next.action = .new → row.LooksUnchanged
  → next.portConfig.virtioEnabled = true

-----------------------------------------------------------------------------------------
-- The table and the devices
-----------------------------------------------------------------------------------------

/-- What the changes of a table are. -/
theorem InterfaceEvent.apply_cases {event : InterfaceEvent} {table next : InterfaceTable}
    {rows : List Row} (h : event.apply table = some (rows, next))
    : (∃ name ids action,
        event.interface = name.text ∧ (action = .initial ∨ action = .insert)
        ∧ table name.text = none ∧ rows = [⟨action, some name, ids⟩]
        ∧ next = Function.update table name.text (some ids))
      ∨ (∃ name ids,
        event.interface = name.text ∧ table name.text = some ids
        ∧ rows = [⟨.delete, some name, ids⟩] ∧ next = Function.update table name.text none)
      ∨ ∃ name old ids shown,
        event.interface = name.text ∧ table name.text = some old
        ∧ rows = [⟨.old, shown, old⟩, ⟨.new, some name, ids⟩]
        ∧ next = Function.update table name.text (some ids) := by
  unfold InterfaceEvent.apply at h
  split at h
  · rename_i name ids absent
    obtain ⟨rfl, rfl⟩ := Prod.mk.inj (Option.some.inj h)
    exact Or.inl ⟨name, ids, .initial, rfl, Or.inl rfl, absent, rfl, rfl⟩
  · rename_i name ids absent
    obtain ⟨rfl, rfl⟩ := Prod.mk.inj (Option.some.inj h)
    exact Or.inl ⟨name, ids, .insert, rfl, Or.inr rfl, absent, rfl, rfl⟩
  · rename_i name ids present
    obtain ⟨rfl, rfl⟩ := Prod.mk.inj (Option.some.inj h)
    exact Or.inr (Or.inl ⟨name, ids, rfl, present, rfl, rfl⟩)
  · rename_i name ids shown old present
    obtain ⟨rfl, rfl⟩ := Prod.mk.inj (Option.some.inj h)
    exact Or.inr (Or.inr ⟨name, old, ids, shown, rfl, present, rfl, rfl⟩)
  · cases h

/-- An entry of the table enables virtio. -/
def enables (entry : Option ExternalIds) : Bool :=
  entry.any fun ids => (idsConfig ids).virtioEnabled

/-- The devices are those of the table, whose interfaces have the given names. -/
structure Tracks (ethtool : List Char → EthtoolRead) (names : Set (List Char))
    (table : InterfaceTable) (devices : Nat → Option (List Char)) : Prop where
  named : ∀ name, table name ≠ none → name ∈ names
  wanted : ∀ id dbdf, devices id = some dbdf ↔ table.Wants ethtool id dbdf

section Table

variable {ethtool : List Char → EthtoolRead} {names : Set (List Char)} {table : InterfaceTable}
  {devices : Nat → Option (List Char)} {name : List Char} {vf : SriovInfo}

theorem Tracks.named_update (tracks : Tracks ethtool names table devices) (member : name ∈ names)
    (entry : Option ExternalIds)
    : ∀ other, Function.update table name entry other ≠ none → other ∈ names := by
  intro other present
  rcases eq_or_ne other name with rfl | away
  · exact member
  · rw [Function.update_of_ne away] at present
    exact tracks.named other present

theorem InterfaceTable.wants_iff {id : Nat} {dbdf : List Char}
    : table.Wants ethtool id dbdf
      ↔ ∃ name, enables (table name) = true
          ∧ getVfPcieFromNetdev (ethtool name) = some ⟨dbdf, id⟩ := by
  constructor
  · rintro ⟨name, ids, entry, enabled, lookup⟩
    exact ⟨name, by simpa [enables, entry] using enabled, lookup⟩
  · rintro ⟨name, enabled, lookup⟩
    obtain ⟨ids, entry, enabled⟩ := (Option.any_eq_true _ _).mp enabled
    exact ⟨name, ids, entry, enabled, lookup⟩

theorem Tracks.name_of_vf (tracks : Tracks ethtool names table devices)
    (distinct : DistinctVfs ethtool names) (member : name ∈ names)
    (lookup : getVfPcieFromNetdev (ethtool name) = some vf) {other dbdf : List Char}
    (enabled : enables (table other) = true)
    (found : getVfPcieFromNetdev (ethtool other) = some ⟨dbdf, vf.vf⟩)
    : other = name := by
  have present : table other ≠ none := by
    intro absent
    rw [absent] at enabled
    cases enabled
  exact distinct other (tracks.named other present) name member _ _ found lookup rfl

/-- The devices follow a new entry of the table. -/
theorem Tracks.update (tracks : Tracks ethtool names table devices) (entry : Option ExternalIds)
    (distinct : DistinctVfs ethtool names) (member : name ∈ names)
    (lookup : getVfPcieFromNetdev (ethtool name) = some vf)
    : Tracks ethtool names (Function.update table name entry)
        (Function.update devices vf.vf (if enables entry then some vf.dbdf else none)) := by
  refine ⟨tracks.named_update member entry, fun id dbdf => ?_⟩
  rw [InterfaceTable.wants_iff]
  rcases eq_or_ne id vf.vf with rfl | away
  · -- the relay of this interface: no other interface has the same number
    rw [Function.update_self]
    constructor
    · intro attached
      split at attached
      · rename_i enabled
        cases Option.some.inj attached
        exact ⟨name, by rwa [Function.update_self], lookup⟩
      · cases attached
    · rintro ⟨other, enabled, found⟩
      rcases eq_or_ne other name with rfl | different
      · rw [Function.update_self] at enabled
        rw [lookup] at found
        rw [if_pos enabled, congrArg SriovInfo.dbdf (Option.some.inj found)]
      · rw [Function.update_of_ne different] at enabled
        exact absurd (tracks.name_of_vf distinct member lookup enabled found) different
  · rw [Function.update_of_ne away, tracks.wanted, InterfaceTable.wants_iff]
    have elsewhere {other : List Char}
        (found : getVfPcieFromNetdev (ethtool other) = some ⟨dbdf, id⟩) : other ≠ name := by
      rintro rfl
      rw [lookup] at found
      exact away (congrArg SriovInfo.vf (Option.some.inj found)).symm
    constructor
    · rintro ⟨other, enabled, found⟩
      exact ⟨other, by rwa [Function.update_of_ne (elsewhere found)], found⟩
    · rintro ⟨other, enabled, found⟩
      rw [Function.update_of_ne (elsewhere found)] at enabled
      exact ⟨other, enabled, found⟩

/-- An interface that does not enable virtio has no device. -/
theorem Tracks.idle (tracks : Tracks ethtool names table devices)
    (distinct : DistinctVfs ethtool names) (member : name ∈ names)
    (lookup : getVfPcieFromNetdev (ethtool name) = some vf) (off : enables (table name) = false)
    : devices vf.vf = none := by
  cases attached : devices vf.vf with
  | none => rfl
  | some dbdf =>
      obtain ⟨other, enabled, found⟩ := InterfaceTable.wants_iff.mp ((tracks.wanted _ _).mp attached)
      rw [tracks.name_of_vf distinct member lookup enabled found, off] at enabled
      cases enabled

/-- Nothing changes with an entry that does not enable virtio, as the one before it. -/
theorem Tracks.ignore (tracks : Tracks ethtool names table devices) {entry : Option ExternalIds}
    (member : name ∈ names) (before : enables (table name) = false) (after : enables entry = false)
    : Tracks ethtool names (Function.update table name entry) devices := by
  refine ⟨tracks.named_update member entry, fun id dbdf => ?_⟩
  rw [tracks.wanted, InterfaceTable.wants_iff, InterfaceTable.wants_iff]
  have same (other : List Char) : enables (Function.update table name entry other)
      = enables (table other) := by
    rcases eq_or_ne other name with rfl | away
    · rw [Function.update_self, before, after]
    · rw [Function.update_of_ne away]
  simp only [same]

end Table

-----------------------------------------------------------------------------------------
-- Rows
-----------------------------------------------------------------------------------------

section Rows

variable {settings : Settings} {ethtool : List Char → EthtoolRead} {names : Set (List Char)}
  {admits : SockInstr → Int → Daemon → Prop} {daemon : Daemon} {table : InterfaceTable}
  {devices : Nat → Option (List Char)}

theorem wp_anything {α : Type} (p : SockProg α)
    : wp sockAccesses (sockContract admits) p (fun _ _ => True) daemon := by
  induction p generalizing daemon with
  | ret a => trivial
  | fail e => trivial
  | instr i next ih => exact fun _ _ _ _ _ => ⟨trivial, trivial, ih _ _⟩

/-- A call without a failure is followed by the others. -/
theorem processCalls_cons {call : RowCall} {calls : List RowCall} {virtioIdChange : Int}
    {post : Daemon → Prop}
    (h : wp sockAccesses (sockContract admits)
      (processExternalIds settings ethtool call virtioIdChange)
      (fun result d => result.2 = []
        → wp sockAccesses (sockContract admits) (processCalls settings ethtool calls result.1)
            (fun failures d => failures = [] → post d) d) daemon)
    : wp sockAccesses (sockContract admits)
        (processCalls settings ethtool (call :: calls) virtioIdChange)
        (fun failures d => failures = [] → post d) daemon := by
  refine wp.bind (h.mono fun result d outcome => ?_)
  by_cases none : result.2 = []
  · exact wp.bind ((outcome none).mono fun failures d held none =>
      held (List.append_eq_nil_iff.mp none).2)
  · exact wp.bind ((wp_anything _).mono fun failures d _ nothing =>
      absurd (List.append_eq_nil_iff.mp nothing).1 none)

/-- A new interface. -/
theorem processExternalIds_insert {action : RowAction} {name : OvsString} {ids : ExternalIds}
    {virtioIdChange : Int} (kind : action = .initial ∨ action = .insert)
    (distinct : DistinctVfs ethtool names) (member : name.text ∈ names)
    (absent : table name.text = none) (tracks : Tracks ethtool names table devices)
    (held : daemon.Holds devices)
    : wp sockAccesses (sockContract admits)
        (processExternalIds settings ethtool (Row.call ⟨action, some name, ids⟩) virtioIdChange)
        (fun result d => result.2 = []
          → result.1 = virtioIdChange
            ∧ ∃ after, Tracks ethtool names (Function.update table name.text (some ids)) after
                ∧ d.Holds after) daemon := by
  by_cases enabled : (idsConfig ids).virtioEnabled = true
  · have branch : (action = .insert ∨ action = .initial) := kind.symm
    simp only [processExternalIds, Row.call, Row.nameText_shown, Row.portConfig, enabled,
      RowAction.token_inj, branch, and_self, if_true]
    cases lookup : getVfPcieFromNetdev (ethtool name.text) with
    | none =>
        intro clean
        cases clean
    | some vfinfo =>
        refine wp.bind ((addNetdev_holds (getVfPcieFromNetdev_short lookup) held).mono
          fun failures d outcome clean => ?_)
        obtain ⟨device, attached, held⟩ := outcome
        have followed := tracks.update (some ids) distinct member lookup
        rw [show enables (some ids) = true from enabled, if_pos rfl, ← attached clean] at followed
        exact ⟨rfl, _, followed, held⟩
  · have nothing : processExternalIds settings ethtool (Row.call ⟨action, some name, ids⟩)
        virtioIdChange = return (virtioIdChange, []) := by
      rcases kind with rfl | rfl <;>
        simp [processExternalIds, Row.call, Row.portConfig, enabled]
    rw [nothing]
    refine fun _ => ⟨rfl, devices, tracks.ignore member (by simp [enables, absent]) ?_, held⟩
    simpa [enables] using enabled

/-- An interface that is deleted. -/
theorem processExternalIds_delete {name : OvsString} {ids : ExternalIds} {virtioIdChange : Int}
    (distinct : DistinctVfs ethtool names) (member : name.text ∈ names)
    (present : table name.text = some ids) (tracks : Tracks ethtool names table devices)
    (held : daemon.Holds devices)
    : wp sockAccesses (sockContract admits)
        (processExternalIds settings ethtool (Row.call ⟨.delete, some name, ids⟩) virtioIdChange)
        (fun result d => result.2 = []
          → result.1 = virtioIdChange
            ∧ ∃ after, Tracks ethtool names (Function.update table name.text none) after
                ∧ d.Holds after) daemon := by
  by_cases enabled : (idsConfig ids).virtioEnabled = true
  · simp only [processExternalIds, Row.call, Row.nameText_shown, Row.portConfig, enabled,
      RowAction.token_inj, reduceCtorEq, or_self, and_false, if_false, and_self, if_true]
    cases lookup : getVfPcieFromNetdev (ethtool name.text) with
    | none =>
        intro clean
        cases clean
    | some vfinfo =>
        refine wp.bind ((removeNetdev_holds held).mono fun failures d outcome clean => ?_)
        obtain ⟨device, gone, held⟩ := outcome
        have followed := tracks.update none distinct member lookup
        rw [if_neg (by simp [enables]), ← gone clean] at followed
        exact ⟨rfl, _, followed, held⟩
  · have nothing : processExternalIds settings ethtool (Row.call ⟨.delete, some name, ids⟩)
        virtioIdChange = return (virtioIdChange, []) := by
      simp [processExternalIds, Row.call, Row.portConfig, enabled]
    rw [nothing]
    refine fun _ => ⟨rfl, devices, tracks.ignore member ?_ rfl, held⟩
    simpa [enables, present] using enabled

/-- What an old row leaves in `virtio_id_change`. -/
def oldChange (ids : ExternalIds) : Int :=
  if (idsConfig ids).virtioEnabled then (idsConfig ids).virtioId.bmod (2 ^ 32) else -1

theorem processExternalIds_old {shown : Option OvsString} {ids : ExternalIds}
    {virtioIdChange : Int}
    : processExternalIds settings ethtool (Row.call ⟨.old, shown, ids⟩) virtioIdChange
      = return (oldChange ids, []) := by
  simp [processExternalIds, Row.call, Row.portConfig, oldChange]

/-- An interface that is modified, after its old row. -/
theorem processExternalIds_new {name : OvsString} {old ids : ExternalIds}
    (distinct : DistinctVfs ethtool names) (member : name.text ∈ names)
    (present : table name.text = some old) (tracks : Tracks ethtool names table devices)
    (held : daemon.Holds devices)
    (precedes : oldChange old = -1 → (idsConfig old).virtioEnabled = true
      → (idsConfig ids).virtioEnabled = true)
    : wp sockAccesses (sockContract admits)
        (processExternalIds settings ethtool (Row.call ⟨.new, some name, ids⟩) (oldChange old))
        (fun result d => result.2 = []
          → result.1 = -1
            ∧ ∃ after, Tracks ethtool names (Function.update table name.text (some ids)) after
                ∧ d.Holds after) daemon := by
  simp only [processExternalIds, Row.call, Row.nameText_shown, RowAction.token_inj, reduceCtorEq,
    or_self, and_false, if_false, if_true]
  cases lookup : getVfPcieFromNetdev (ethtool name.text) with
  | none =>
      intro clean
      cases clean
  | some vfinfo =>
      refine (processNew_holds (getVfPcieFromNetdev_short lookup) held).mono
        fun result d outcome clean => ?_
      obtain ⟨change, device, attached, held⟩ := outcome
      refine ⟨change, _, ?_, held⟩
      have followed := tracks.update (some ids) distinct member lookup
      have same : device = if enables (some ids) then some vfinfo.dbdf else none := by
        rw [attached clean]
        by_cases enabled : (idsConfig ids).virtioEnabled = true
        · simp [Row.portConfig, enables, enabled]
        · have off : (idsConfig ids).virtioEnabled = false := by simpa using enabled
          have idle (unchanged : oldChange old = -1) : devices vfinfo.vf = none := by
            refine tracks.idle distinct member lookup ?_
            by_contra on
            rw [present, Bool.not_eq_false] at on
            exact enabled (precedes unchanged on)
          simpa [Row.portConfig, enables, off] using idle
      rwa [← same] at followed

theorem oldChange_eq_neg_one {ids : ExternalIds} (unchanged : oldChange ids = -1)
    (enabled : (idsConfig ids).virtioEnabled = true)
    : (idsConfig ids).virtioId % 2 ^ 32 = 2 ^ 32 - 1 := by
  rw [oldChange, if_pos enabled, Int.bmod] at unchanged
  split at unchanged <;> omega

/-- The calls of a session follow the table, by induction on its changes: between two of them
`virtio_id_change` is -1.
-/
theorem processCalls_tracks {events : List InterfaceEvent} {rows : List Row}
    {last : InterfaceTable} (replayed : replay table events = some (rows, last))
    (chain : rows.IsChain Row.Precedes) (distinct : DistinctVfs ethtool names)
    (members : ∀ event ∈ events, event.interface ∈ names)
    (tracks : Tracks ethtool names table devices) (held : daemon.Holds devices)
    : wp sockAccesses (sockContract admits)
        (processCalls settings ethtool (rows.map Row.call) (-1))
        (fun failures d => failures = []
          → ∃ after, Tracks ethtool names last after ∧ d.Holds after) daemon := by
  induction events generalizing table rows devices daemon with
  | nil =>
      obtain ⟨rfl, rfl⟩ := Prod.mk.inj (Option.some.inj replayed)
      exact fun _ => ⟨devices, tracks, held⟩
  | cons event events ih =>
      obtain ⟨⟨first, next⟩, applied, rest⟩ := Option.bind_eq_some_iff.mp replayed
      obtain ⟨⟨more, final⟩, replayed, same⟩ := Option.map_eq_some_iff.mp rest
      obtain ⟨rfl, rfl⟩ := Prod.mk.inj same
      have later : ∀ event ∈ events, event.interface ∈ names :=
        fun event member => members event (List.mem_cons_of_mem _ member)
      have member := members event List.mem_cons_self
      have chained := (List.isChain_append.mp chain).2.1
      rw [List.map_append]
      rcases event.apply_cases applied with
        ⟨name, ids, action, interface, kind, absent, rfl, rfl⟩
        | ⟨name, ids, interface, present, rfl, rfl⟩
        | ⟨name, old, ids, shown, interface, present, rfl, rfl⟩
      · rw [interface] at member
        rw [List.map_singleton, List.singleton_append]
        refine processCalls_cons ((processExternalIds_insert kind distinct member absent tracks
          held).mono fun result d outcome clean => ?_)
        obtain ⟨unchanged, after, tracks, held⟩ := outcome clean
        rw [unchanged]
        exact ih replayed chained later tracks held
      · rw [interface] at member
        rw [List.map_singleton, List.singleton_append]
        refine processCalls_cons ((processExternalIds_delete distinct member present tracks
          held).mono fun result d outcome clean => ?_)
        obtain ⟨unchanged, after, tracks, held⟩ := outcome clean
        rw [unchanged]
        exact ih replayed chained later tracks held
      · rw [interface] at member
        rw [List.map_cons, List.map_singleton, List.cons_append, List.singleton_append]
        refine processCalls_cons ?_
        rw [processExternalIds_old]
        intro _
        have precedes (unchanged : oldChange old = -1)
            (enabled : (idsConfig old).virtioEnabled = true)
            : (idsConfig ids).virtioEnabled = true :=
          (List.isChain_cons_cons.mp chain).1 rfl rfl
            ⟨enabled, oldChange_eq_neg_one unchanged enabled⟩
        refine processCalls_cons ((processExternalIds_new distinct member present tracks held
          precedes).mono fun result d outcome clean => ?_)
        obtain ⟨unchanged, after, tracks, held⟩ := outcome clean
        rw [unchanged]
        exact ih replayed chained later tracks held

end Rows

-----------------------------------------------------------------------------------------
-- Sessions
-----------------------------------------------------------------------------------------

/-- The output of a session, and what the arrays of the monitor hold at first. -/
structure OvsdbSession where
  stack : Nat → List Char
  pipe : Pipe
  buf : List Char
  buffers : RowBuffers

/-- The monitor with the workers as its environment. -/
def monitorSystem (settings : Settings) (ethtool : List Char → EthtoolRead)
    : System OvsdbSession SockInstr Int Daemon SockFault Daemon Event (List MonitorFailure) where
  exec _ := SockInstr.exec
  obs daemon := daemon
  env := Daemon.event settings
  code session :=
    parseOvsdbClient settings ethtool session.stack session.pipe session.buf session.buffers

/-- A single session, with any answers. -/
def oneSession : Policy Unit OvsdbSession SockInstr Int Daemon where
  instr _ _ _ _ := True
  call _ _ _ := False

/-- The session begins in an empty forwarder. -/
def monitored (settings : Settings) (ethtool : List Char → EthtoolRead) (useJumbo : Bool)
    (initialized : Nat → Bool) (session : OvsdbSession)
    : Config Unit OvsdbSession SockInstr Int Daemon SockFault Daemon (List MonitorFailure) :=
  ⟨⟨World.initial settings useJumbo initialized, fun _ => none⟩,
    fun _ => (session, (monitorSystem settings ethtool).code session)⟩

theorem exists_row {rows : List Row} {lines : List (List Char)} {line : List Char}
    (printed : List.Forall₂ Row.PrintedAs rows lines) (member : line ∈ lines)
    : ∃ row : Row, row.PrintedAs line := by
  induction printed with
  | nil => cases member
  | cons first _ ih =>
      rcases List.mem_cons.mp member with rfl | member
      · exact ⟨_, first⟩
      · exact ih member

/-- The lines that are printed for rows, with blank lines in between, lead to their calls. -/
theorem clientCalls_printed {rows : List Row} {lines : List (List Char)} (stack : Nat → List Char)
    (sizes : List Nat) (buf : List Char) (buffers : RowBuffers)
    (printed : List.Forall₂ Row.PrintedAs rows (lines.filter (· ≠ [])))
    (short : ∀ line ∈ lines, line.length < maxRead - 1)
    : clientCalls stack ⟨unlines lines, sizes⟩ buf buffers = rows.map Row.call := by
  let call (line : List Char) : RowCall := (parseRow [] (line ++ ['\x00']) ⟨[], [], []⟩).1
  have found {row : Row} {line : List Char} (printed : row.PrintedAs line)
      : call line = row.call := Row.isolated printed [] [] _
  have rowOf {line : List Char} (member : line ∈ lines) (some : line ≠ [])
      : ∃ row : Row, row.PrintedAs line := by
    exact exists_row printed (List.mem_filter.mpr ⟨member, by simpa using some⟩)
  have plain : ∀ line ∈ lines, PlainRow line := by
    intro line member
    by_cases blank : line = []
    · rw [blank]
      exact ⟨List.not_mem_nil, List.not_mem_nil⟩
    · obtain ⟨row, printed⟩ := rowOf member blank
      exact (Row.plain printed).1
  have isolated : ∀ line ∈ lines, line ≠ [] → Isolated line (call line) := by
    intro line member some
    obtain ⟨row, printed⟩ := rowOf member some
    rw [found printed]
    exact Row.isolated printed
  have fitting : lines.filter passedOn = lines.filter (· ≠ []) := by
    refine List.filter_congr fun line member => ?_
    simp [passedOn, short line member]
  rw [clientCalls_rows stack sizes buf buffers plain isolated, fitting]
  have same : List.Forall₂ (· = ·) (rows.map Row.call) ((lines.filter (· ≠ [])).map call) := by
    rw [List.forall₂_map_left_iff, List.forall₂_map_right_iff]
    exact printed.imp fun row line printed => (found printed).symm
  rw [List.forall₂_eq_eq_eq] at same
  exact same.symm

/-- **Tracking**: the output of a session from an empty forwarder, in any reads, leaves the VFs
of exactly the interfaces attached that enable virtio, if no step fails, the rows fit into the
buffer, and no old row that looks unchanged comes before a new row without virtio.
-/
theorem attached_vfs_track_interfaces {settings : Settings} {ethtool : List Char → EthtoolRead}
    {useJumbo : Bool} {initialized : Nat → Bool} {events : List InterfaceEvent} {rows : List Row}
    {table : InterfaceTable} {lines : List (List Char)} {session : OvsdbSession}
    (replayed : replay (fun _ => none) events = some (rows, table))
    (printed : List.Forall₂ Row.PrintedAs rows (lines.filter (· ≠ [])))
    (output : session.pipe.pending = unlines lines)
    (short : ∀ line ∈ lines, line.length < maxRead - 1) (chain : rows.IsChain Row.Precedes)
    (distinct : DistinctVfs ethtool {name | ∃ event ∈ events, event.interface = name})
    {config : Config Unit OvsdbSession SockInstr Int Daemon SockFault Daemon (List MonitorFailure)}
    (run : Run (monitorSystem settings ethtool) oneSession
      (monitored settings ethtool useJumbo initialized session) config)
    {op : OvsdbSession} (returned : config.running () = (op, .ret []))
    : ∀ id dbdf, config.state.devices id = some dbdf ↔ table.Wants ethtool id dbdf := by
  obtain ⟨stack, ⟨pending, sizes⟩, buf, buffers⟩ := session
  dsimp only at output
  subst output
  have empty : Daemon.Holds ⟨World.initial settings useJumbo initialized, fun _ => none⟩
      fun _ => none := by
    refine ⟨fun id => ⟨Nat.zero_le _, fun active => ?_⟩, funext fun id => if_neg fun active => ?_⟩
    · rcases active with ready | added
      · cases ready
      · cases added
    · rcases active with ready | added
      · cases ready
      · cases added
  have tracks : Tracks ethtool {name | ∃ event ∈ events, event.interface = name} (fun _ => none)
      fun _ => none :=
    ⟨fun name present => absurd rfl present, fun id dbdf =>
      ⟨nofun, fun ⟨_, _, present, _⟩ => nomatch present⟩⟩
  let post (failures : List MonitorFailure) (daemon : Daemon) : Prop :=
    failures = []
    → ∃ after,
        Tracks ethtool {name | ∃ event ∈ events, event.interface = name} table after
        ∧ daemon.Holds after
  have stable (failures : List MonitorFailure) ⦃before after : Daemon⦄
      (tended : before.Tended after) (held : post failures before) : post failures after := by
    intro clean
    obtain ⟨devices, tracks, tidy, same⟩ := held clean
    refine ⟨devices, tracks, fun id => tending_tidy (tended.relays id) (tidy id), ?_⟩
    rw [tended.devices, same]
  have spec : wp sockAccesses (sockContract (oneSession.instr ⟨stack, ⟨unlines lines, sizes⟩, buf,
      buffers⟩)) (parseOvsdbClient settings ethtool stack ⟨unlines lines, sizes⟩ buf buffers) post
      ⟨World.initial settings useJumbo initialized, fun _ => none⟩ := by
    rw [parseOvsdbClient, clientCalls_printed stack sizes buf buffers printed short]
    exact processCalls_tracks replayed chain distinct (fun event member => ⟨event, member, rfl⟩)
      tracks empty
  have outcome := (Run.solo (monitorSystem settings ethtool) Daemon.Tended (fun _ => True)
    (fun _ _ _ called => called) .refl (fun _ _ _ => Daemon.Tended.trans)
    (fun _ _ _ happened => Daemon.tended_event happened) stable spec run).1 _ _ returned rfl
  obtain ⟨devices, tracks, held⟩ := outcome
  rw [held.devices]
  exact tracks.wanted

instance (session : OvsdbSession) (i : SockInstr) (answer : Int) (daemon : Daemon)
    : Decidable (oneSession.instr session i answer daemon) :=
  .isTrue trivial

instance (thread : Unit) (session : OvsdbSession) (daemon : Daemon)
    : Decidable (oneSession.call thread session daemon) :=
  .isFalse id

/-- An interface. -/
def eth1 : OvsString := ⟨.bare "eth1".toList, by decide⟩

/-- A value of `external_ids` with an id of two digits. -/
def forwarderIds (first second : Char)
    (valid : (OvsForm.quoted [(false, first), (false, second)]).Valid) : ExternalIds :=
  [(⟨.bare "virtio_forwarder".toList, by decide⟩,
    ⟨.quoted [(false, first), (false, second)], valid⟩)]

/-- The same VF for every interface. -/
def oneVf : List Char → EthtoolRead :=
  fun _ => ⟨"bus-info: NFP 0 VF0.0 0000:05:08.0\n".toList, []⟩

/-- A session whose output comes in one read. -/
def wholeSession (lines : List (List Char)) : OvsdbSession :=
  ⟨fun _ => [], ⟨unlines lines, [(unlines lines).length]⟩, [], ⟨[], [], []⟩⟩

/-- A row of an interface with a bare name. -/
theorem interface_printed {name : OvsString} {action : RowAction} {ids : ExternalIds}
    {shown : List Char} (bare : ∀ c ∈ name.print, c ≠ ',' ∧ c ≠ '"')
    (csv : CsvField (printIds ids) shown)
    : Row.PrintedAs ⟨action, some name, ids⟩
        ("7,".toList ++ (action.token ++ (',' :: (name.print ++ (',' :: shown))))) := by
  have token : ∀ c ∈ action.token, c ≠ ',' ∧ c ≠ '"' := by
    have plain : action.token.all (fun c => c ≠ ',' ∧ c ≠ '"') = true := by
      cases action <;> decide
    simpa using plain
  exact ⟨"7".toList, _, _, _, shown, ⟨by decide, by simp⟩, .bare (by simp), .bare token,
    .bare bare, csv, rfl⟩

theorem eth1_printed {action : RowAction} {ids : ExternalIds} {shown : List Char}
    (csv : CsvField (printIds ids) shown)
    : Row.PrintedAs ⟨action, some eth1, ids⟩
        ("7,".toList ++ (action.token ++ (',' :: (eth1.print ++ (',' :: shown))))) :=
  interface_printed (by simp [eth1, OvsString.print]) csv

theorem noIds_printed : CsvField (printIds []) "\x7b\x7d".toList := by
  have plain : ∀ c ∈ printIds [], c ≠ ',' ∧ c ≠ '"' := by
    simp [printIds, printPairs]
  exact .bare plain

/-- A second interface. -/
def eth2 : OvsString := ⟨.bare "eth2".toList, by decide⟩

theorem eth2_printed {action : RowAction} {ids : ExternalIds} {shown : List Char}
    (csv : CsvField (printIds ids) shown)
    : Row.PrintedAs ⟨action, some eth2, ids⟩
        ("7,".toList ++ (action.token ++ (',' :: (eth2.print ++ (',' :: shown))))) :=
  interface_printed (by simp [eth2, OvsString.print]) csv

/-- Three relays with two workers. -/
def threeRelays : Settings := { twoWorkers with maxRelays := 3, relaysFit := by decide }

/-- A VF for each of the two interfaces. -/
def twoVfs (name : List Char) : EthtoolRead :=
  if name = eth1.text then ⟨"bus-info: NFP 0 VF0.0 0000:05:08.0\n".toList, []⟩
  else ⟨"bus-info: NFP 0 VF0.1 0000:05:08.1\n".toList, []⟩

/-- Two interfaces enable virtio; the first one gets another id, and the second one goes. -/
def changedAndDeleted : List InterfaceEvent :=
  [.initial eth1 (forwarderIds '1' '0' (by decide)),
    .insert eth2 (forwarderIds '2' '0' (by decide)),
    .modify eth1 (forwarderIds '1' '1' (by decide)) (some eth1), .delete eth2]

/-- What the session prints for the two interfaces. -/
def changedAndDeletedLines : List (List Char) :=
  ["7,initial,eth1,\"\x7bvirtio_forwarder=\"\"10\"\"\x7d\"".toList,
    "7,insert,eth2,\"\x7bvirtio_forwarder=\"\"20\"\"\x7d\"".toList,
    "7,old,eth1,\"\x7bvirtio_forwarder=\"\"10\"\"\x7d\"".toList,
    "7,new,eth1,\"\x7bvirtio_forwarder=\"\"11\"\"\x7d\"".toList,
    "7,delete,eth2,\"\x7bvirtio_forwarder=\"\"20\"\"\x7d\"".toList]

/-- Witness: the first VF is attached again, and the second one is gone. -/
theorem changed_interface_attached
    : ∃ config,
        Run (monitorSystem threeRelays twoVfs) oneSession
          (monitored threeRelays twoVfs false (fun _ => true) (wholeSession changedAndDeletedLines))
          config
        ∧ config.state.devices 0 = some "0000:05:08.0".toList ∧ config.state.devices 1 = none := by
  let removed (id : Nat) : List (Choice Unit OvsdbSession Int Event) :=
    [.env (.vm2vf id ⟨[], 0⟩), .env (.vf2vm id ⟨0, [], fun _ => 0⟩)]
  obtain ⟨config, run, reached⟩ := Run.of_follow (monitorSystem threeRelays twoVfs) oneSession
    (monitored threeRelays twoVfs false (fun _ => true) (wholeSession changedAndDeletedLines))
    (answered () (List.replicate 8 0 ++ 1 :: List.replicate 23 0 ++ 1 :: List.replicate 5 0
        ++ 1 :: List.replicate 27 0) ++ removed 0
      ++ answered () (List.replicate 26 0 ++ 1 :: List.replicate 27 0) ++ removed 1
      ++ answered () (List.replicate 18 0))
    (fun c => (c.running ()).2.value? = some [])
    (by decide +kernel)
  have returned := Prog.eq_ret_of_value? (decide_eq_true_eq.mp reached)
  have printed : List.Forall₂ Row.PrintedAs
      [⟨.initial, some eth1, forwarderIds '1' '0' (by decide)⟩,
        ⟨.insert, some eth2, forwarderIds '2' '0' (by decide)⟩,
        ⟨.old, some eth1, forwarderIds '1' '0' (by decide)⟩,
        ⟨.new, some eth1, forwarderIds '1' '1' (by decide)⟩,
        ⟨.delete, some eth2, forwarderIds '2' '0' (by decide)⟩]
      (changedAndDeletedLines.filter (· ≠ [])) :=
    .cons (eth1_printed .quoted) (.cons (eth2_printed .quoted) (.cons (eth1_printed .quoted)
      (.cons (eth1_printed .quoted) (.cons (eth2_printed .quoted) .nil))))
  have first : getVfPcieFromNetdev (twoVfs eth1.text) = some ⟨"0000:05:08.0".toList, 0⟩ := by
    decide +kernel
  have second : getVfPcieFromNetdev (twoVfs eth2.text) = some ⟨"0000:05:08.1".toList, 1⟩ := by
    decide +kernel
  have distinct : DistinctVfs twoVfs {name | ∃ event ∈ changedAndDeleted, event.interface = name} := by
    have known : ∀ name, (∃ event ∈ changedAndDeleted, event.interface = name)
        → name = eth1.text ∨ name = eth2.text := by
      rintro name ⟨event, member, rfl⟩
      simp only [changedAndDeleted, List.mem_cons, List.not_mem_nil, or_false] at member
      rcases member with rfl | rfl | rfl | rfl
      · exact Or.inl rfl
      · exact Or.inr rfl
      · exact Or.inl rfl
      · exact Or.inr rfl
    intro name member name' member' vf vf' found found' same
    rcases known name member with rfl | rfl <;> rcases known name' member' with rfl | rfl
    · rfl
    · cases first.symm.trans found
      cases second.symm.trans found'
      cases same
    · cases second.symm.trans found
      cases first.symm.trans found'
      cases same
    · rfl
  have chain : List.IsChain Row.Precedes
      [⟨.initial, some eth1, forwarderIds '1' '0' (by decide)⟩,
        ⟨.insert, some eth2, forwarderIds '2' '0' (by decide)⟩,
        ⟨.old, some eth1, forwarderIds '1' '0' (by decide)⟩,
        ⟨.new, some eth1, forwarderIds '1' '1' (by decide)⟩,
        ⟨.delete, some eth2, forwarderIds '2' '0' (by decide)⟩] := by
    simp only [List.isChain_cons_cons, List.isChain_singleton, and_true]
    exact ⟨nofun, nofun, fun _ _ _ => by decide +kernel, nofun⟩
  have tracked := @attached_vfs_track_interfaces _ _ _ _ changedAndDeleted _ _ _ _ rfl printed rfl
    (by decide) chain distinct _ run _ (Prod.ext rfl returned)
  refine ⟨config, run, (tracked 0 _).mpr ?_, Option.eq_none_iff_forall_ne_some.mpr ?_⟩
  · exact ⟨eth1.text, forwarderIds '1' '1' (by decide), rfl, by decide +kernel, first⟩
  · intro dbdf held
    obtain ⟨name, ids, present, _, found⟩ := (tracked 1 dbdf).mp held
    by_cases last : name = eth2.text
    · subst last
      rw [Function.update_self] at present
      cases present
    · by_cases other : name = eth1.text
      · subst other
        cases first.symm.trans found
      · rw [Function.update_of_ne last, Function.update_of_ne other, Function.update_of_ne last,
          Function.update_of_ne other] at present
        cases present

/-- An interface with the id -1 is modified to have no id: its VF stays attached. -/
theorem disabled_interface_stays_attached
    : ¬ ∀ (settings : Settings) (ethtool : List Char → EthtoolRead) (useJumbo : Bool)
        (initialized : Nat → Bool) (events : List InterfaceEvent) (rows : List Row)
        (table : InterfaceTable) (lines : List (List Char)) (session op : OvsdbSession)
        (config : Config Unit OvsdbSession SockInstr Int Daemon SockFault Daemon
          (List MonitorFailure)),
        replay (fun _ => none) events = some (rows, table)
        → List.Forall₂ Row.PrintedAs rows (lines.filter (· ≠ []))
        → session.pipe.pending = unlines lines
        → (∀ line ∈ lines, line.length < maxRead - 1)
        → DistinctVfs ethtool {name | ∃ event ∈ events, event.interface = name}
        → Run (monitorSystem settings ethtool) oneSession
            (monitored settings ethtool useJumbo initialized session) config
        → config.running () = (op, .ret [])
        → ∀ id dbdf, config.state.devices id = some dbdf ↔ table.Wants ethtool id dbdf := by
  intro claim
  let lines := ["7,initial,eth1,\"\x7bvirtio_forwarder=\"\"-1\"\"\x7d\"".toList,
    "7,old,eth1,\"\x7bvirtio_forwarder=\"\"-1\"\"\x7d\"".toList, "7,new,eth1,\x7b\x7d".toList]
  obtain ⟨config, run, reached⟩ := Run.of_follow (monitorSystem twoWorkers oneVf) oneSession
    (monitored twoWorkers oneVf false (fun _ => true) (wholeSession lines))
    (answered () (List.replicate 8 0 ++ 1 :: List.replicate 21 0))
    (fun c => (c.running ()).2.value? = some []
      && c.state.devices 0 = some "0000:05:08.0".toList)
    (by decide +kernel)
  simp only [Bool.and_eq_true, decide_eq_true_eq] at reached
  have printed : List.Forall₂ Row.PrintedAs
      [⟨.initial, some eth1, forwarderIds '-' '1' (by decide)⟩,
        ⟨.old, some eth1, forwarderIds '-' '1' (by decide)⟩, ⟨.new, some eth1, []⟩]
      (lines.filter (· ≠ [])) :=
    .cons (eth1_printed .quoted) (.cons (eth1_printed .quoted)
      (.cons (eth1_printed noIds_printed) .nil))
  have distinct : DistinctVfs oneVf {name | ∃ event ∈
      [InterfaceEvent.initial eth1 (forwarderIds '-' '1' (by decide)), .modify eth1 [] (some eth1)],
      event.interface = name} := by
    rintro name ⟨event, member, rfl⟩ name' ⟨event', member', rfl⟩ _ _ _ _ _
    simp only [List.mem_cons, List.not_mem_nil, or_false] at member member'
    rcases member with rfl | rfl <;> rcases member' with rfl | rfl <;> rfl
  obtain ⟨name, ids, present, enabled, _⟩ := (claim twoWorkers oneVf false (fun _ => true)
    [.initial eth1 (forwarderIds '-' '1' (by decide)), .modify eth1 [] (some eth1)] _ _ lines
    (wholeSession lines) _ config rfl printed rfl (by decide) distinct run
    (Prod.ext rfl (Prog.eq_ret_of_value? reached.1)) 0 _).mp reached.2
  rcases eq_or_ne name eth1.text with rfl | away
  · rw [Function.update_self] at present
    cases Option.some.inj present
    exact absurd enabled (by decide +kernel)
  · rw [Function.update_of_ne away, Function.update_of_ne away] at present
    cases present

end VirtioForwarder
