import VirtioForwarder.Inputs.CommandLine
import VirtioForwarder.Service.CoreSched
import VirtioForwarder.Service.PortControl
import VirtioForwarder.Service.Stats

/-! Relay numbers from outside. Every input that can name a relay is handled by a program of
accesses to the tables with `MAX_RELAYS` entries; exactly which inputs lead outside them.
-/

namespace VirtioForwarder

open Program CText

/-- An input from outside the daemon; an option for a static VF comes after other entries. -/
inductive ExternalInput
  | virtioCpu (arg : List Char)
  | staticVf (entries : List StaticRelayEntry) (arg : List Char)
  | portControl (pc : PortControlRequest)
  | coreSched (pc : CoreSchedRequest)
  | stats (pc : StatsRequest)
  deriving DecidableEq, Repr

/-- The assignments of `cmdline_set_vf_cpu`, one token after another. -/
def assignCpus (settings : Settings) : List CpuAssignment → InputProg Unit
  | [] => return
  | assignment :: assignments => do
      atEntry settings .relayCpus assignment.virtio
      atEntry settings .relayCpus assignment.virtio
      assignCpus settings assignments

/-- The `unsigned` that an `int` is converted to. -/
def asUnsigned (value : Int) : Nat := (value % 2 ^ 32).toNat

/-- The step of `init_static_vfs` for entry `w`. -/
def initStaticVf (settings : Settings) (w : Nat) (entry : StaticRelayEntry) : InputProg Unit := do
  atEntry settings .staticRelays w
  let id := asUnsigned entry.virtioId
  let _ ← onDaemon (onRelay id (addVf2 settings entry.pciDbdf id false))
  return

/-- `cmdline_add_static_vf`, and what becomes of the entry when the daemon starts. -/
def handleStaticVf (settings : Settings) (deviceExists : List Char → Bool)
    (entries : List StaticRelayEntry) (arg : List Char)
    : InputProg Unit :=
  if entries.length ≥ settings.maxRelays then return
  else do
    atEntry settings .staticRelays entries.length
    match cmdlineAddStaticVf settings deviceExists entries arg with
    | .error _ => return
    | .ok after =>
        match after.getLast? with
        | none => return
        | some entry => initStaticVf settings entries.length entry

/-- How an input is handled; `deviceExists` is the test that a device is in sysfs. -/
def ExternalInput.handling (settings : Settings) (conf : SocketConf)
    (deviceExists : List Char → Bool)
    : ExternalInput → InputProg Unit
  | .virtioCpu arg => assignCpus settings (cmdlineSetVfCpus settings arg).1
  | .staticVf entries arg => handleStaticVf settings deviceExists entries arg
  | .portControl pc => do
      let _ ← onDaemon (handlePortControlRequest settings conf pc)
      return
  | .coreSched pc => do
      let _ ← handleCoreSchedRequest settings pc
      return
  | .stats pc => do
      let _ ← handleStatsRequest settings pc
      return

/-- The input passes the check of its numbers, if there is one before it is handled. -/
def ExternalInput.Accepted (settings : Settings) (deviceExists : List Char → Bool)
    : ExternalInput → Prop
  | .virtioCpu arg => (cmdlineSetVfCpus settings arg).2 = .ok ()
  | .staticVf entries arg =>
      ∃ after, cmdlineAddStaticVf settings deviceExists entries arg = .ok after
  | .coreSched pc => validateCoreSchedRequest settings pc = true
  | .portControl _ | .stats _ => True

/-- The condition on inputs: a `--virtio-cpu` option does not name relay `MAX_RELAYS`, and the
entries that a core scheduler update comes to name relays of the table.
-/
def ExternalInput.NamesRelays (settings : Settings) : ExternalInput → Prop
  | .virtioCpu arg =>
      ∀ token ∈ tokens ';' arg, ∀ assignment,
        scanCpuSpecifier token = some assignment → assignment.virtio ≠ settings.maxRelays
  | .coreSched pc => pc.op = .update → relaysInTable settings false pc.relayCpuMap
  | .staticVf _ _ | .portControl _ | .stats _ => True

section Handling

variable {settings : Settings} {conf : SocketConf} {deviceExists : List Char → Bool}

theorem cmdlineSetVfCpu_accepts {token : List Char} {assignment : CpuAssignment}
    (accepted : cmdlineSetVfCpu settings token = .ok assignment)
    : scanCpuSpecifier token = some assignment ∧ assignment.virtio ≤ settings.maxRelays := by
  unfold cmdlineSetVfCpu at accepted
  split at accepted
  · cases accepted
  · rename_i scanned
    split at accepted
    · cases accepted
    · rename_i small
      split at accepted
      · cases accepted
      · cases accepted
        exact ⟨scanned, not_lt.mp small⟩

/-- The assignments of an accepted option are inside the table if and only if no token names
relay `MAX_RELAYS`, by induction on the tokens.
-/
theorem setVfCpus_below_iff {args : List (List Char)}
    (accepted : (setVfCpus settings args).2 = .ok ())
    : (∀ assignment ∈ (setVfCpus settings args).1, assignment.virtio < settings.maxRelays)
      ↔ ∀ token ∈ args, ∀ assignment,
          scanCpuSpecifier token = some assignment → assignment.virtio ≠ settings.maxRelays := by
  induction args with
  | nil => simp [setVfCpus]
  | cons token args ih =>
      simp only [setVfCpus] at accepted ⊢
      cases made : cmdlineSetVfCpu settings token with
      | error error => simp [made] at accepted
      | ok assignment =>
          simp only [made] at accepted ⊢
          obtain ⟨scanned, small⟩ := cmdlineSetVfCpu_accepts made
          rw [List.forall_mem_cons, List.forall_mem_cons, ih accepted]
          refine and_congr_left fun _ => ?_
          constructor
          · intro below other same
            rw [scanned] at same
            cases same
            omega
          · intro different
            have := different assignment scanned
            omega

theorem assignCpus_all {assignments : List CpuAssignment}
    : (assignCpus settings assignments).All (InputInstr.InTables settings) (fun _ => True)
      ↔ ∀ assignment ∈ assignments, assignment.virtio < settings.maxRelays := by
  induction assignments with
  | nil => simp [assignCpus, pure, Prog.All]
  | cons assignment assignments ih =>
      simp only [assignCpus, List.forall_mem_cons, ← ih]
      constructor
      · intro all
        have inside := all_atEntry.mp all.of_bind
        refine ⟨Int.ofNat_lt.mp inside.2, ?_⟩
        have second := all.of_bind_steady (steady_atEntry 0 (.unused settings) inside)
        exact second.of_bind_steady (steady_atEntry 0 (.unused settings) inside)
      · rintro ⟨below, rest⟩
        refine (all_atEntry_of_lt below).bind fun _ => ?_
        exact (all_atEntry_of_lt below).bind fun _ => rest

-----------------------------------------------------------------------------------------
-- Port control and static VFs
-----------------------------------------------------------------------------------------

/-- Operations that refuse a number above the table stay inside. -/
theorem all_onRelay_of_checked {id : Nat} {p q : Control Int} {err : Int}
    (checked : p = if id ≥ settings.maxRelays then return err else q)
    : (onRelay id p).All (SockInstr.InTables settings) fun _ => True := by
  by_cases above : id ≥ settings.maxRelays
  · rw [checked, if_pos above]
    trivial
  · exact all_onRelay (not_le.mp above) p

theorem addVf2_all {dbdf : List Char} {id : Nat} {conditional : Bool}
    : (onRelay id (addVf2 settings dbdf id conditional)).All (SockInstr.InTables settings)
        fun _ => True :=
  all_onRelay_of_checked rfl

theorem bondAdd_all {slaves : List (List Char)} {name : List Char} {id : Nat}
    : (onRelay id (bondAdd settings slaves name id)).All (SockInstr.InTables settings)
        fun _ => True :=
  all_onRelay_of_checked rfl

theorem removeVf2_all {dbdf : List Char} {id : Nat} {conditional : Bool}
    : (onRelay id (removeVf2 settings dbdf id conditional)).All (SockInstr.InTables settings)
        fun _ => True :=
  all_onRelay_of_checked rfl

theorem removeVirtio_all {id : Nat}
    : (onRelay id (removeVirtio settings id)).All (SockInstr.InTables settings) fun _ => True :=
  all_onRelay_of_checked rfl

/-- An access that concerns no entry. -/
theorem all_perform_of_none {α : Type} {access : SockInstr} {value : Int → Daemon → α}
    (free : access.relayEntry = none)
    : (Prog.perform access value : SockProg α).All (SockInstr.InTables settings)
        fun _ => True := by
  refine .perform fun id concerns => ?_
  rw [free] at concerns
  cases concerns

theorem getRelayForSock_all {path : Option (List Char)}
    : (getRelayForSock settings path).All (SockInstr.InTables settings) fun _ => True := by
  unfold getRelayForSock
  refine Prog.All.bind (all_perform_of_none rfl) fun map => ?_
  split
  · trivial
  · split <;> trivial

theorem find_range_below {p : Nat → Bool} {id : Nat}
    (found : (List.range settings.maxRelays).find? p = some id)
    : id < settings.maxRelays :=
  List.mem_range.mp (List.mem_of_find?_eq_some found)

theorem getRelayForSock_returns {path : Option (List Char)}
    : (getRelayForSock settings path).Returns fun found =>
        ∀ id, found = some id → id < settings.maxRelays := by
  unfold getRelayForSock
  refine .bind fun map => ?_
  split
  · exact fun id found => find_range_below found
  · split
    · trivial
    · exact nofun

theorem vhost_all {call : VhostCall}
    : (vhost call).All (SockInstr.InTables settings) fun _ => True :=
  all_perform_of_none rfl

theorem clearStaleSocket_all {path : List Char}
    : (clearStaleSocket conf path).All (SockInstr.InTables settings) fun _ => True := by
  unfold clearStaleSocket
  split
  · trivial
  · refine vhost_all.bind fun found => ?_
    split
    · trivial
    · refine vhost_all.bind fun socket => ?_
      split
      · trivial
      · exact vhost_all.bind fun _ => trivial

theorem writeMap_all {id : Nat} {path : Option (List Char)} (below : id < settings.maxRelays)
    : (writeMap id path).All (SockInstr.InTables settings) fun _ => True := by
  refine .perform fun entry concerns => ?_
  cases concerns
  exact below

theorem registerRelaySocket_all {path : List Char} {id : Nat} (below : id < settings.maxRelays)
    : (registerRelaySocket conf path id).All (SockInstr.InTables settings) fun _ => True := by
  unfold registerRelaySocket
  refine clearStaleSocket_all.bind fun usable => ?_
  split
  · trivial
  · refine Prog.All.bind (all_perform_of_none rfl) fun map => ?_
    split
    · trivial
    · refine vhost_all.bind fun registered => ?_
      split
      · trivial
      · refine vhost_all.bind fun started => ?_
        split
        · trivial
        · refine (writeMap_all below).bind fun _ => ?_
          split
          · refine vhost_all.bind fun owner => ?_
            split <;> trivial
          · trivial

theorem deregisterSocket_all {path : Option (List Char)}
    : (deregisterSocket settings path).All (SockInstr.InTables settings) fun _ => True := by
  unfold deregisterSocket
  refine vhost_all.bind fun err => ?_
  refine getRelayForSock_all.bind_returns getRelayForSock_returns fun found below => ?_
  cases found with
  | none => trivial
  | some id =>
      refine Prog.All.bind (all_perform_of_none rfl) fun map => ?_
      split
      · exact (writeMap_all (below id rfl)).bind fun _ => trivial
      · trivial

theorem portByName_all {dev : Option (List Char)}
    : (portByName dev).All (SockInstr.InTables settings) fun _ => True := by
  cases dev with
  | none => trivial
  | some name => exact all_perform_of_none (rfl : (SockInstr.control 0 (.call (.portByName name))).relayEntry = none)

theorem addPairDevice_all {slaves : List (List Char)} {name : Option (List Char)}
    {conditional : Bool} {id : Nat}
    : (addPairDevice settings slaves name conditional id).All (SockInstr.InTables settings)
        fun _ => True := by
  unfold addPairDevice
  split
  · refine addVf2_all.bind fun err => ?_
    split <;> trivial
  · refine bondAdd_all.bind fun err => ?_
    split <;> trivial
  · trivial

theorem virtioAddSockDevPair_all {vhostPath : Option (List Char)} {slaves : List (List Char)}
    {name : Option (List Char)} {conditional : Bool}
    : (virtioAddSockDevPair settings conf vhostPath slaves name conditional).All
        (SockInstr.InTables settings) fun _ => True := by
  cases vhostPath with
  | none => trivial
  | some path =>
      refine portByName_all.bind fun port => ?_
      split
      · trivial
      · refine getRelayForSock_all.bind fun found => ?_
        split
        · trivial
        · have free : (virtioGetFreeRelayId settings).Returns fun found =>
              ∀ id, found = some id → id < settings.maxRelays :=
            fun _ _ id found => find_range_below found
          refine Prog.All.bind_returns (all_perform_of_none rfl) free fun found below => ?_
          cases found with
          | none => trivial
          | some id =>
              refine addPairDevice_all.bind fun err => ?_
              split
              · trivial
              · refine (registerRelaySocket_all (below id rfl)).bind fun registered => ?_
                split
                · trivial
                · refine removeVf2_all.bind fun _ => ?_
                  exact deregisterSocket_all.bind fun _ => trivial

theorem findPair_all {vhostPath : Option (List Char)} {dev : List Char}
    : (findPair settings vhostPath dev).All (SockInstr.InTables settings) fun _ => True := by
  cases vhostPath with
  | none => exact all_perform_of_none rfl
  | some path => exact getRelayForSock_all.bind fun _ => trivial

theorem findPair_returns {vhostPath : Option (List Char)} {dev : List Char}
    : (findPair settings vhostPath dev).Returns fun found =>
        ∀ pair, found = some pair → pair.1 < settings.maxRelays := by
  cases vhostPath with
  | none =>
      intro answer daemon pair found
      obtain ⟨id, there, rfl⟩ := Option.map_eq_some_iff.mp found
      exact find_range_below there
  | some path =>
      refine getRelayForSock_returns.bind_returns fun found below pair same => ?_
      obtain ⟨id, there, rfl⟩ := Option.map_eq_some_iff.mp same
      exact below id there

theorem virtioRemoveSockDevPair_all {vhostPath : Option (List Char)} {dev : List Char}
    {room : Nat} {conditional : Bool}
    : (virtioRemoveSockDevPair settings vhostPath dev room conditional).All
        (SockInstr.InTables settings) fun _ => True := by
  unfold virtioRemoveSockDevPair
  split
  · trivial
  · refine findPair_all.bind_returns findPair_returns fun found below => ?_
    cases found with
    | none => trivial
    | some pair =>
        obtain ⟨id, path⟩ := pair
        refine (all_onRelay (below _ rfl) _).bind fun relay => ?_
        dsimp only
        split
        · trivial
        · split
          · trivial
          · refine removeVirtio_all.bind fun _ => ?_
            refine deregisterSocket_all.bind fun err => ?_
            split
            · trivial
            · refine removeVf2_all.bind fun err => ?_
              split <;> trivial

theorem virtioQueryPci_all {vhostPath : Option (List Char)}
    : (virtioQueryPci settings vhostPath).All (SockInstr.InTables settings) fun _ => True := by
  cases vhostPath with
  | none => trivial
  | some path =>
      refine getRelayForSock_all.bind_returns getRelayForSock_returns fun found below => ?_
      cases found with
      | none => trivial
      | some id => exact (all_onRelay (below id rfl) _).bind fun _ => trivial

/-- No port control request makes an access outside the tables. -/
theorem handlePortControlRequest_all (pc : PortControlRequest)
    : (handlePortControlRequest settings conf pc).All (SockInstr.InTables settings)
        fun _ => True := by
  unfold handlePortControlRequest
  split
  · trivial
  · split
    · trivial
    · split
      · unfold portControlHandleAdd
        split
        · trivial
        · exact addVf2_all.bind fun _ => trivial
        · exact bondAdd_all.bind fun _ => trivial
      · exact removeVf2_all.bind fun _ => trivial
      · exact virtioAddSockDevPair_all.bind fun _ => trivial
      · exact virtioRemoveSockDevPair_all.bind fun _ => trivial
      · exact virtioQueryPci_all.bind fun _ => trivial
      · trivial

/-- No static VF makes an access outside the tables: a negative number becomes a large one. -/
theorem handleStaticVf_all (entries : List StaticRelayEntry) (arg : List Char)
    : (handleStaticVf settings deviceExists entries arg).All (InputInstr.InTables settings)
        fun _ => True := by
  unfold handleStaticVf
  split
  · trivial
  · rename_i room
    have place := not_le.mp room
    refine (all_atEntry_of_lt place).bind fun _ => ?_
    split
    · trivial
    · split
      · trivial
      · refine (all_atEntry_of_lt place).bind fun _ => ?_
        exact (all_onDaemon addVf2_all).bind fun _ => trivial

/-- A core scheduler request that is valid stays inside if and only if its update does. -/
theorem handleCoreSchedRequest_all {pc : CoreSchedRequest}
    (valid : validateCoreSchedRequest settings pc = true)
    : (handleCoreSchedRequest settings pc).All (InputInstr.InTables settings) (fun _ => True)
      ↔ (pc.op = .update → relaysInTable settings false pc.relayCpuMap) := by
  unfold handleCoreSchedRequest
  rw [valid]
  cases op : pc.op with
  | update =>
      simp only [Bool.not_true, Bool.false_eq_true, if_false, forall_const]
      exact updateRelays_all .initial pc.relayCpuMap
  | getEalCores =>
      simp only [Bool.not_true, Bool.false_eq_true, if_false, reduceCtorEq, false_imp_iff,
        iff_true]
      split <;> trivial
  | other value =>
      simp only [Bool.not_true, Bool.false_eq_true, if_false, reduceCtorEq, false_imp_iff,
        iff_true]
      trivial

end Handling

/-- **Relay numbers from outside**: handling an accepted input stays inside the tables with
`MAX_RELAYS` entries, whatever is answered and observed, if and only if the input names relays
of the table where they are not checked or checked with `>`.
-/
theorem handling_in_tables_iff {settings : Settings} {conf : SocketConf}
    {deviceExists : List Char → Bool} {input : ExternalInput}
    (accepted : input.Accepted settings deviceExists)
    : (input.handling settings conf deviceExists).All (InputInstr.InTables settings)
        (fun _ => True)
      ↔ input.NamesRelays settings := by
  cases input with
  | virtioCpu arg => exact assignCpus_all.trans (setVfCpus_below_iff accepted)
  | staticVf entries arg => exact iff_of_true (handleStaticVf_all entries arg) trivial
  | portControl pc =>
      refine iff_of_true ?_ trivial
      exact (all_onDaemon (handlePortControlRequest_all pc)).bind fun _ => trivial
  | coreSched pc =>
      constructor
      · intro all
        exact (handleCoreSchedRequest_all accepted).mp all.of_bind
      · intro names
        exact ((handleCoreSchedRequest_all accepted).mpr names).bind fun _ => trivial
  | stats pc =>
      refine iff_of_true ?_ trivial
      exact (handleStatsRequest_all pc).bind fun _ => trivial

/-- Witness: the option `0:1` is accepted and names relay 0. -/
theorem first_relay_option_in_tables
    : (cmdlineSetVfCpus twoWorkers "0:1".toList).1 = [⟨0, 1, 1⟩]
      ∧ ((ExternalInput.virtioCpu "0:1".toList).handling twoWorkers ⟨false, false⟩
          fun _ => true).All (InputInstr.InTables twoWorkers) fun _ => True := by
  have names : (ExternalInput.virtioCpu "0:1".toList).NamesRelays twoWorkers := by
    intro token member assignment scanned
    have single : tokens ';' "0:1".toList = ["0:1".toList] := by decide
    rw [single, List.mem_singleton] at member
    subst member
    have read : scanCpuSpecifier "0:1".toList = some ⟨0, 1, 1⟩ := by decide
    cases read.symm.trans scanned
    decide
  have accepted : (ExternalInput.virtioCpu "0:1".toList).Accepted twoWorkers fun _ => true := rfl
  exact ⟨by decide, (handling_in_tables_iff accepted).mpr names⟩

/-- An update of relay -1 passes the check and is carried out. -/
theorem negative_relay_number_leaves_table
    : ¬ ∀ (settings : Settings) (conf : SocketConf) (deviceExists : List Char → Bool)
        (input : ExternalInput),
        input.Accepted settings deviceExists
        → (input.handling settings conf deviceExists).All (InputInstr.InTables settings)
            fun _ => True := by
  intro claim
  have all := claim twoWorkers ⟨false, false⟩ (fun _ => true)
    (.coreSched ⟨.update, [⟨-1, 0, 1⟩]⟩) rfl
  have update : (updateRelays twoWorkers .initial [⟨-1, 0, 1⟩]).All
      (InputInstr.InTables twoWorkers) fun _ => True := all.of_bind
  have inside := migrateRelayNumber_all.mp update.of_bind
  exact absurd inside.1 (by decide)

end VirtioForwarder
