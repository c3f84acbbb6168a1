import VirtioForwarder.Control.RoundTrip
import VirtioForwarder.Inputs.MainOptions

/-! What the daemon starts with. Whatever the arguments are, if `main` goes on, then the relays that
are pinned have workers on their CPUs, and the settings are those that the results about the
control operations ask for.
-/

namespace VirtioForwarder

open CText Getopt

-----------------------------------------------------------------------------------------
-- Arguments that are accepted
-----------------------------------------------------------------------------------------

section Accepted

variable {σ : Type} {P : ParserState σ → Prop}

theorem getElem?_of_findOption {opts : List (CmdlineOpt σ)} {c : Char} {opt : CmdlineOpt σ} {i : Nat}
    (found : findOption opts c = some (opt, i))
    : opts[i]? = some opt :=
  List.mem_zipIdx_iff_getElem?.mp (List.mem_of_find?_eq_some found)

/-- A callback that returns 0, with the checks after it, keeps what is kept. -/
def Keeping (P : ParserState σ → Prop) (opts : List (CmdlineOpt σ)) : Prop :=
  ∀ (i : Nat) (opt : CmdlineOpt σ) (state : ParserState σ) (arg : Option (List Char)),
    opts[i]? = some opt → P state → (opt.func state.value arg i).1 = 0 →
    P ((state.called (opt.func state.value arg i).2 ⟨i, arg⟩).check opt i)

theorem Keeping.handleResult {opts : List (CmdlineOpt σ)} (keeping : Keeping P opts)
    {flags : BitVec 32} {result : Result} {state after : ParserState σ} (before : P state)
    (handled : handleResult opts flags result state = (none, after))
    : P after := by
  unfold VirtioForwarder.handleResult at handled
  cases found : findOption opts result.returned with
  | none =>
      rw [found] at handled
      dsimp only at handled
      split at handled
      · split at handled
        · cases handled
          exact before
        · split at handled
          · cases handled
            exact before
          · cases handled
      · cases handled
      · cases handled
  | some entry =>
      obtain ⟨opt, i⟩ := entry
      rw [found] at handled
      dsimp only at handled
      split at handled
      · cases handled
      · rename_i accepted
        cases handled
        exact keeping i opt state _ (getElem?_of_findOption found) before (not_not.mp accepted)

/-- What is kept holds at the end, by induction on the results. -/
theorem Keeping.handleAll {opts : List (CmdlineOpt σ)} (keeping : Keeping P opts)
    {flags : BitVec 32} {results : List Result} {state after : ParserState σ} (before : P state)
    (handled : handleAll opts flags results state = (none, after))
    : P after := by
  induction results generalizing state with
  | nil =>
      cases handled
      exact before
  | cons result results ih =>
      rw [VirtioForwarder.handleAll] at handled
      cases step : VirtioForwarder.handleResult opts flags result state with
      | mk error next =>
          rw [step] at handled
          cases error with
          | none => exact ih (keeping.handleResult before step) handled
          | some error => cases handled

/-- Arguments that are accepted leave a state in which the checks are passed. -/
theorem Keeping.accepted {opts : List (CmdlineOpt σ)} (keeping : Keeping P opts)
    (table : OptionTable opts) {value : σ} {argv : List (List Char)} {flags : BitVec 32}
    (start : P (.start value)) (accepted : (cmdlineParser opts value argv flags).ret = 0)
    : ∃ state,
        P state
        ∧ (cmdlineParser opts value argv flags).value = state.value
        ∧ (cmdlineParser opts value argv flags).calls = state.calls
        ∧ (state.mandatoryCheck = mandatoryBitmap opts ∨ state.terminateCheck = true) := by
  cases handled
      : VirtioForwarder.handleAll opts flags (scanArgs (getoptOptions opts) argv).1 (.start value)
    with
  | mk error state =>
      cases error with
      | some error =>
          rw [cmdlineParser_error table handled] at accepted
          cases accepted
      | none =>
          rw [cmdlineParser_done table handled] at accepted ⊢
          refine ⟨state, keeping.handleAll start handled, ?_⟩
          unfold finishParse at accepted ⊢
          split at accepted
          · cases accepted
          · rename_i complete
            have checked
                : state.mandatoryCheck = mandatoryBitmap opts ∨ state.terminateCheck = true := by
              by_cases mandatory : state.mandatoryCheck = mandatoryBitmap opts
              · exact Or.inl mandatory
              · exact Or.inr (by simpa [mandatory] using complete)
            rw [if_neg complete]
            split
            · exact ⟨rfl, rfl, checked⟩
            · exact ⟨rfl, rfl, checked⟩

end Accepted

-----------------------------------------------------------------------------------------
-- What the callbacks keep
-----------------------------------------------------------------------------------------

/-- The relay has no CPUs, or two that are below 64. -/
def RelayCpus.Chosen (cpus : RelayCpus) : Prop :=
  ∃ vio2vf vf2vio : Nat, vio2vf < 64 ∧ vf2vio < 64 ∧ cpus = ⟨vio2vf, vf2vio⟩

/-- The address is shorter than its array, or it fills it, as `%20s` reads as many characters as it
has: its zero byte comes to stand behind it, and the string goes on with the number of the relay.
-/
def StaticRelayEntry.AddressStored (entry : StaticRelayEntry) : Prop :=
  entry.pciDbdf.length < 20
  ∨ ∃ word virtio, word.length = 20 ∧ entry.virtioId = asInt32 virtio
      ∧ entry.pciDbdf = word ++ terminatedBytes virtio

/-- CPUs are only chosen for relays that there are, and the static entries are within their range. -/
structure VhostConf.InRange (maxRelays : Nat) (conf : VhostConf) : Prop where
  cpus : ∀ id,
    conf.relayCpus id = ⟨-1, -1⟩ ∨ id < maxRelays ∧ (conf.relayCpus id).Chosen
  few : conf.staticRelays.length ≤ maxRelays
  ids : ∀ entry ∈ conf.staticRelays, entry.virtioId < maxRelays
  addresses : ∀ entry ∈ conf.staticRelays, entry.AddressStored

/-- Every text is shorter than its array, but for the addresses of the static relays. -/
structure MainConf.TextsFit (conf : MainConf) : Prop where
  pidpath : conf.pidpath.length < 100
  ovsdbSockPath : conf.ovsdbSockPath.length < 128
  zmqConfigEp : conf.zmqConfigEp.length < 1024
  zmqPortControlEp : conf.zmqPortControlEp.length < 1024
  zmqStatsEp : conf.zmqStatsEp.length < 1024
  zmqCoreSchedEp : conf.zmqCoreSchedEp.length < 1024
  hugeDir : conf.dpdkCfg.hugeDir.length < 32
  vfioVfToken : conf.dpdkCfg.vfioVfToken.length < 37
  socketPath : conf.vhostConf.socketPath.length < 128
  socketName : conf.vhostConf.socketName.length < 32
  vhostUsername : conf.vhostConf.vhostUsername.length < 32
  vhostGroupname : conf.vhostConf.vhostGroupname.length < 32

/-- What holds after every option. -/
structure MainConf.Kept (env : Surroundings) (conf : MainConf) : Prop where
  relays : conf.vhostConf.InRange env.maxRelays
  texts : conf.TextsFit
  scheduled : conf.useZmqCoreSched = true → conf.useZmqStats = true
  jumbo : conf.dpdkCfg.useJumbo = conf.vhostConf.useJumbo
  tso : conf.dpdkCfg.enableTso = conf.vhostConf.enableTso

theorem stored_lt {size : Nat} (some : 0 < size) (text : List Char)
    : (stored size text).length < size := by
  have short : (stored size text).length ≤ size - 1 := List.length_take_le _ _
  omega

/-- The callback keeps it when it returns 0. -/
def OptionCallback.Keeps (env : Surroundings) (func : OptionCallback) : Prop :=
  ∀ conf arg i, conf.Kept env → (func conf arg i).1 = 0 → (func conf arg i).2.Kept env

section Callbacks

variable {env : Surroundings}

theorem keeps_withArg {func : MainConf → List Char → Int × MainConf}
    (keeps : ∀ conf arg, conf.Kept env → (func conf arg).1 = 0 → (func conf arg).2.Kept env)
    : (withArg func).Keeps env := by
  rintro conf (_ | arg) _ kept accepted
  · cases accepted
  · exact keeps conf arg kept accepted

theorem keeps_always {change : MainConf → Option (List Char) → MainConf}
    (keeps : ∀ conf arg, conf.Kept env → (change conf arg).Kept env)
    : (always change).Keeps env :=
  fun conf arg _ kept _ => keeps conf arg kept

theorem setDirectory_keeps {assign : MainConf → List Char → MainConf}
    (keeps : ∀ conf arg, conf.Kept env → (assign conf arg).Kept env)
    : (setDirectory env assign).Keeps env := by
  refine keeps_withArg fun conf arg kept accepted => ?_
  cases there : env.statDirectory arg with
  | none => simp [there] at accepted
  | some directory =>
      cases directory with
      | false => simp [there] at accepted
      | true => exact keeps conf arg kept

theorem endpoint_lt {current : List Char} (fits : current.length < 1024) (arg : Option (List Char))
    : (endpoint current arg).length < 1024 := by
  cases arg with
  | none => exact fits
  | some arg => exact stored_lt (by decide) arg

theorem ownerName_lt (arg : Option (List Char)) : (ownerName arg).length < 32 := by
  cases arg with
  | none => exact Nat.zero_lt_succ 31
  | some arg => exact stored_lt (by decide) arg

theorem terminatedBytes_length (value : Nat) : (terminatedBytes value).length ≤ 4 := by
  rw [terminatedBytes, List.length_map]
  exact (List.takeWhile_prefix _).length_le

theorem entryDbdf_stored {word : List Char} (short : word.length ≤ 20) (virtio : Nat)
    : StaticRelayEntry.AddressStored ⟨entryDbdf word virtio, asInt32 virtio⟩ := by
  by_cases fits : word.length < 20
  · exact Or.inl (by simp [entryDbdf, fits])
  · exact Or.inr ⟨word, virtio, by omega, rfl, by simp [entryDbdf, fits]⟩

/-- The two stores for a relay, and those behind the array. -/
theorem VhostConf.InRange.assign {conf : VhostConf} (h : conf.InRange env.maxRelays)
    {assignment : CpuAssignment} (vf2vio : assignment.vf2vioCpu < 64)
    (vio2vf : assignment.vio2vfCpu < 64)
    : (conf.assign env.maxRelays assignment).InRange env.maxRelays := by
  unfold VhostConf.assign
  split
  · rename_i inside
    refine ⟨fun id => ?_, h.few, h.ids, h.addresses⟩
    by_cases same : id = assignment.virtio
    · subst same
      refine Or.inr ⟨inside, assignment.vio2vfCpu, assignment.vf2vioCpu, vio2vf, vf2vio, ?_⟩
      exact Function.update_self _ _ _
    · simpa only [Function.update_of_ne same] using h.cpus id
  · cases entries : conf.staticRelays with
    | nil =>
        exact ⟨h.cpus, Nat.zero_le _, nofun, nofun⟩
    | cons first rest =>
        have ids := h.ids
        have addresses := h.addresses
        have few := h.few
        rw [entries] at ids addresses few
        obtain ⟨firstId, ids⟩ := List.forall_mem_cons.mp ids
        refine ⟨h.cpus, ?_, ?_, ?_⟩
        · simpa using few
        · exact List.forall_mem_cons.mpr ⟨firstId, ids⟩
        · refine List.forall_mem_cons.mpr ⟨Or.inl ?_, (List.forall_mem_cons.mp addresses).2⟩
          exact (terminatedBytes_length assignment.vf2vioCpu).trans_lt (by decide)

theorem VhostConf.InRange.assignAll {assignments : List CpuAssignment} {conf : VhostConf}
    (h : conf.InRange env.maxRelays)
    (small : ∀ assignment ∈ assignments, assignment.vf2vioCpu < 64 ∧ assignment.vio2vfCpu < 64)
    : (assignments.foldl (VhostConf.assign env.maxRelays) conf).InRange env.maxRelays := by
  induction assignments generalizing conf with
  | nil => exact h
  | cons assignment assignments ih =>
      obtain ⟨first, rest⟩ := List.forall_mem_cons.mp small
      exact ih (h.assign first.1 first.2) rest

/-- The stores leave the other fields alone. -/
theorem assignAll_rest (maxRelays : Nat) (assignments : List CpuAssignment) (conf : VhostConf)
    : ∃ cpus entries,
        assignments.foldl (VhostConf.assign maxRelays) conf
        = { conf with relayCpus := cpus, staticRelays := entries } := by
  induction assignments generalizing conf with
  | nil => exact ⟨conf.relayCpus, conf.staticRelays, rfl⟩
  | cons assignment assignments ih =>
      obtain ⟨cpus, entries, rest⟩ := ih (conf.assign maxRelays assignment)
      refine ⟨cpus, entries, rest.trans ?_⟩
      unfold VhostConf.assign
      split
      · rfl
      · rfl

theorem cmdlineSetVfCpu_small {settings : Settings} {token : List Char} {assignment : CpuAssignment}
    (accepted : cmdlineSetVfCpu settings token = .ok assignment)
    : assignment.vf2vioCpu < 64 ∧ assignment.vio2vfCpu < 64 := by
  unfold cmdlineSetVfCpu at accepted
  split at accepted
  · cases accepted
  · split at accepted
    · cases accepted
    · split at accepted
      · cases accepted
      · rename_i small
        cases accepted
        omega

theorem setVfCpus_small (settings : Settings) (args : List (List Char))
    : ∀ assignment ∈ (setVfCpus settings args).1,
        assignment.vf2vioCpu < 64 ∧ assignment.vio2vfCpu < 64 := by
  induction args with
  | nil => intro assignment member; cases member
  | cons token rest ih =>
      intro assignment member
      rw [setVfCpus] at member
      cases made : cmdlineSetVfCpu settings token with
      | error error => simp [made] at member
      | ok first =>
          simp only [made, List.mem_cons] at member
          rcases member with rfl | member
          · exact cmdlineSetVfCpu_small made
          · exact ih assignment member

theorem cmdlineSetVfCpusOption_keeps : (cmdlineSetVfCpusOption env).Keeps env := by
  refine keeps_withArg fun conf arg kept _ => ?_
  have inRange := kept.relays.assignAll (setVfCpus_small env.limits (tokens ';' arg))
  obtain ⟨cpus, entries, rest⟩ :=
    assignAll_rest env.maxRelays (setVfCpus env.limits (tokens ';' arg)).1 conf.vhostConf
  dsimp only [cmdlineSetVfCpus]
  rw [rest] at inRange ⊢
  exact { kept with relays := inRange, texts := { kept.texts with } }

theorem cmdlineAddStaticVfOption_keeps : (cmdlineAddStaticVfOption env).Keeps env := by
  refine keeps_withArg fun conf arg kept accepted => ?_
  dsimp only at accepted ⊢
  split at accepted
  · rename_i entries added
    obtain ⟨_, _, word, _, virtio, _, room, _, scanned, _, small, rfl⟩ :=
      cmdlineAddStaticVf_accepts added
    refine { kept with relays := ⟨kept.relays.cpus, ?_, ?_, ?_⟩, texts := { kept.texts with } }
    · rw [List.length_append]
      exact room
    · intro entry member
      rcases List.mem_append.mp member with member | member
      · exact kept.relays.ids entry member
      · cases List.mem_singleton.mp member
        exact small
    · intro entry member
      rcases List.mem_append.mp member with member | member
      · exact kept.relays.addresses entry member
      · cases List.mem_singleton.mp member
        exact entryDbdf_stored (scanWord_length scanned) virtio
  · cases accepted

theorem cmdlineSetVfioVfToken_keeps : (cmdlineSetVfioVfToken env).Keeps env := by
  refine keeps_withArg fun conf arg kept _ => ?_
  dsimp only
  split
  · exact { kept with texts := { kept.texts with } }
  · split
    · exact { kept with texts := { kept.texts with } }
    · exact { kept with texts := { kept.texts with vfioVfToken := stored_lt (by decide) _ } }

/-- Every option of the table keeps it, in the order of the table. -/
theorem opts_keep : ∀ opt ∈ opts env, OptionCallback.Keeps env opt.func := by
  simp only [opts, List.forall_mem_cons, List.not_mem_nil, false_implies, implies_true, and_true]
  refine ⟨?cpus, ?masterLcore, ?nodaemon, ?loglevel, ?pidPath, ?hugeDir, ?ovsdbSock, ?zmqConfigEp,
    ?zmqPortControlEp, ?zmqStatsEp, ?zmqCoreSchedEp, ?ipc, ?vhostUsername, ?vhostGroupname,
    ?vhostPath, ?vhostSocket, cmdlineSetVfCpusOption_keeps, ?enableJumbo, ?enableMrgbuf,
    cmdlineAddStaticVfOption_keeps, cmdlineSetVfioVfToken_keeps, ?vhostuserClient, ?zeroCopy,
    ?enableTso, ?dynamicSockets, ?sameNuma, ?version⟩
  case cpus =>
    exact keeps_withArg fun _ _ kept _ =>
      { kept with relays := { kept.relays with }, texts := { kept.texts with } }
  case masterLcore =>
    exact keeps_withArg fun _ _ kept _ => { kept with texts := { kept.texts with } }
  case nodaemon => exact keeps_always fun _ _ kept => { kept with texts := { kept.texts with } }
  case loglevel => exact keeps_withArg fun _ _ kept _ => { kept with texts := { kept.texts with } }
  case pidPath =>
    exact setDirectory_keeps fun _ arg kept =>
      { kept with texts := { kept.texts with pidpath := stored_lt (by decide) arg } }
  case hugeDir =>
    exact setDirectory_keeps fun _ arg kept =>
      { kept with texts := { kept.texts with hugeDir := stored_lt (by decide) arg } }
  case ovsdbSock =>
    exact keeps_withArg fun _ arg kept _ =>
      { kept with texts := { kept.texts with ovsdbSockPath := stored_lt (by decide) arg } }
  case zmqConfigEp =>
    exact keeps_always fun _ arg kept =>
      { kept with
        texts := { kept.texts with zmqConfigEp := endpoint_lt kept.texts.zmqConfigEp arg } }
  case zmqPortControlEp =>
    exact keeps_always fun _ arg kept =>
      { kept with
        texts :=
          { kept.texts with zmqPortControlEp := endpoint_lt kept.texts.zmqPortControlEp arg } }
  case zmqStatsEp =>
    exact keeps_always fun _ arg kept =>
      { kept with
        texts := { kept.texts with zmqStatsEp := endpoint_lt kept.texts.zmqStatsEp arg },
        scheduled := fun _ => rfl }
  case zmqCoreSchedEp =>
    exact keeps_always fun _ arg kept =>
      { kept with
        texts := { kept.texts with zmqCoreSchedEp := endpoint_lt kept.texts.zmqCoreSchedEp arg },
        scheduled := fun _ => rfl }
  case ipc => exact keeps_always fun _ _ kept => { kept with texts := { kept.texts with } }
  case vhostUsername =>
    exact keeps_always fun _ arg kept =>
      { kept with
        relays := { kept.relays with },
        texts := { kept.texts with vhostUsername := ownerName_lt arg } }
  case vhostGroupname =>
    exact keeps_always fun _ arg kept =>
      { kept with
        relays := { kept.relays with },
        texts := { kept.texts with vhostGroupname := ownerName_lt arg } }
  case vhostPath =>
    exact keeps_withArg fun _ arg kept _ =>
      { kept with
        relays := { kept.relays with },
        texts := { kept.texts with socketPath := stored_lt (by decide) arg } }
  case vhostSocket =>
    exact keeps_withArg fun _ arg kept _ =>
      { kept with
        relays := { kept.relays with },
        texts := { kept.texts with socketName := stored_lt (by decide) arg } }
  case enableJumbo =>
    exact keeps_always fun _ _ kept =>
      { kept with relays := { kept.relays with }, texts := { kept.texts with }, jumbo := rfl }
  case enableTso =>
    exact keeps_always fun _ _ kept =>
      { kept with relays := { kept.relays with }, texts := { kept.texts with }, tso := rfl }
  all_goals
    exact keeps_always fun _ _ kept =>
      { kept with relays := { kept.relays with }, texts := { kept.texts with } }

end Callbacks

-----------------------------------------------------------------------------------------
-- The settings
-----------------------------------------------------------------------------------------

/-- The bitmap is what the last argument of the option for the workers has left, which was accepted
and leaves the same whatever the bitmap was before.
-/
def MainConf.WorkersGiven (conf : MainConf) (calls : List CallbackCall) : Prop :=
  ∃ earlier arg later,
    calls = earlier ++ ⟨0, some arg⟩ :: later ∧ (∀ call ∈ later, call.index ≠ 0)
    ∧ ∀ before, cmdlineSetCpus before arg = (0, conf.vhostConf.workerCoreBitmap)

theorem cmdlineSetCpus_accepted {bitmap : BitVec 64} {arg : List Char}
    (accepted : (cmdlineSetCpus bitmap arg).1 = 0) (before : BitVec 64)
    : cmdlineSetCpus before arg = (0, (cmdlineSetCpus bitmap arg).2) := by
  unfold cmdlineSetCpus at accepted ⊢
  split at accepted
  · dsimp only
    split at accepted
    · cases accepted
    · rename_i hex
      rw [if_neg hex, if_neg hex]
      exact Prod.ext accepted rfl
  · dsimp only
    split at accepted
    · cases accepted
    · rename_i list
      rw [if_neg list, if_neg list]
      exact Prod.ext accepted rfl

/-- What holds while the options are read: the checks of the parser tell that the workers were given
or the version was asked for.
-/
structure Reading (env : Surroundings) (state : ParserState MainConf) : Prop where
  kept : state.value.Kept env
  given : state.mandatoryCheck.getLsbD 0 = true → state.value.WorkersGiven state.calls
  version : state.terminateCheck = true → state.value.showVersion = true

theorem initial_kept (env : Surroundings) : MainConf.initial.Kept env where
  relays := ⟨fun _ => Or.inl rfl, Nat.zero_le _, nofun, nofun⟩
  texts := by constructor <;> decide
  scheduled := nofun
  jumbo := rfl
  tso := rfl

/-- The callback leaves the workers alone, and the version stays asked for. -/
def OptionCallback.Leaves (func : OptionCallback) : Prop :=
  ∀ conf arg i,
    (func conf arg i).2.vhostConf.workerCoreBitmap = conf.vhostConf.workerCoreBitmap
    ∧ (conf.showVersion = true → (func conf arg i).2.showVersion = true)

theorem leaves_withArg {func : MainConf → List Char → Int × MainConf}
    (leaves : ∀ conf arg,
      (func conf arg).2.vhostConf.workerCoreBitmap = conf.vhostConf.workerCoreBitmap
      ∧ (func conf arg).2.showVersion = conf.showVersion)
    : (withArg func).Leaves := by
  rintro conf (_ | arg) _
  · exact ⟨rfl, id⟩
  · exact ⟨(leaves conf arg).1, fun asked => (leaves conf arg).2.trans asked⟩

theorem leaves_always {change : MainConf → Option (List Char) → MainConf}
    (leaves : ∀ conf arg,
      (change conf arg).vhostConf.workerCoreBitmap = conf.vhostConf.workerCoreBitmap
      ∧ (conf.showVersion = true → (change conf arg).showVersion = true))
    : (always change).Leaves :=
  fun conf arg _ => leaves conf arg

theorem setDirectory_leaves {env : Surroundings} {assign : MainConf → List Char → MainConf}
    (leaves : ∀ conf arg,
      (assign conf arg).vhostConf.workerCoreBitmap = conf.vhostConf.workerCoreBitmap
      ∧ (assign conf arg).showVersion = conf.showVersion)
    : (setDirectory env assign).Leaves := by
  refine leaves_withArg fun conf arg => ?_
  split
  · exact leaves conf arg
  · exact ⟨rfl, rfl⟩
  · exact ⟨rfl, rfl⟩

theorem cmdlineSetVfCpusOption_leaves (env : Surroundings) : (cmdlineSetVfCpusOption env).Leaves := by
  refine leaves_withArg fun conf arg => ?_
  obtain ⟨cpus, entries, rest⟩ :=
    assignAll_rest env.maxRelays (setVfCpus env.limits (tokens ';' arg)).1 conf.vhostConf
  dsimp only [cmdlineSetVfCpus]
  rw [rest]
  exact ⟨rfl, rfl⟩

theorem cmdlineAddStaticVfOption_leaves (env : Surroundings)
    : (cmdlineAddStaticVfOption env).Leaves := by
  refine leaves_withArg fun conf arg => ?_
  dsimp only
  split
  · exact ⟨rfl, rfl⟩
  · exact ⟨rfl, rfl⟩

/-- Only the first option is mandatory. -/
theorem opts_optional (env : Surroundings) : ∀ opt ∈ (opts env).tail, opt.mandatory = false := by
  simp [opts, CmdlineOpt.mandatory]

/-- The options behind the first leave the workers alone. -/
theorem opts_leave (env : Surroundings)
    : ∀ opt ∈ (opts env).tail, OptionCallback.Leaves opt.func := by
  simp only [opts, List.tail_cons, List.forall_mem_cons, List.not_mem_nil, false_implies,
    implies_true, and_true]
  refine ⟨?masterLcore, ?nodaemon, ?loglevel, ?pidPath, ?hugeDir, ?ovsdbSock, ?zmqConfigEp,
    ?zmqPortControlEp, ?zmqStatsEp, ?zmqCoreSchedEp, ?ipc, ?vhostUsername, ?vhostGroupname,
    ?vhostPath, ?vhostSocket, cmdlineSetVfCpusOption_leaves env, ?enableJumbo, ?enableMrgbuf,
    cmdlineAddStaticVfOption_leaves env, ?vfioVfToken, ?vhostuserClient, ?zeroCopy, ?enableTso,
    ?dynamicSockets, ?sameNuma, ?version⟩
  case version => exact leaves_always fun _ _ => ⟨rfl, fun _ => rfl⟩
  case pidPath => exact setDirectory_leaves fun _ _ => ⟨rfl, rfl⟩
  case hugeDir => exact setDirectory_leaves fun _ _ => ⟨rfl, rfl⟩
  case masterLcore => exact leaves_withArg fun _ _ => ⟨rfl, rfl⟩
  case loglevel => exact leaves_withArg fun _ _ => ⟨rfl, rfl⟩
  case ovsdbSock => exact leaves_withArg fun _ _ => ⟨rfl, rfl⟩
  case vhostPath => exact leaves_withArg fun _ _ => ⟨rfl, rfl⟩
  case vhostSocket => exact leaves_withArg fun _ _ => ⟨rfl, rfl⟩
  case vfioVfToken => exact leaves_withArg fun _ _ => ⟨rfl, rfl⟩
  all_goals exact leaves_always fun _ _ => ⟨rfl, id⟩

/-- The only option that ends the program asks for the version. -/
theorem opts_terminate (env : Surroundings)
    : ∀ opt ∈ opts env, opt.terminate = true →
        ∀ conf arg i, (opt.func conf arg i).2.showVersion = true := by
  simp only [opts, List.forall_mem_cons, List.not_mem_nil, false_implies, implies_true, and_true,
    CmdlineOpt.terminate]
  simp [cmdlineShowVersion, always]

theorem optionTable_opts (env : Surroundings) : OptionTable (opts env) where
  few := by simp [opts]
  distinct := by simp [opts]
  unreserved := by simp [opts]

theorem reading_keeping (env : Surroundings) : Keeping (Reading env) (opts env) := by
  intro i opt state arg member reading accepted
  have inside := List.mem_of_getElem? member
  have kept := opts_keep opt inside state.value arg i reading.kept accepted
  have version (leaves : state.value.showVersion = true →
        (opt.func state.value arg i).2.showVersion = true)
      (ends : (state.terminateCheck || opt.terminate) = true)
      : (opt.func state.value arg i).2.showVersion = true := by
    rcases Bool.or_eq_true_iff.mp ends with before | now
    · exact leaves (reading.version before)
    · exact opts_terminate env opt inside now state.value arg i
  cases i with
  | zero =>
      obtain rfl : opt = ⟨"cpus".toList, 'C', 1, cmdlineSetCpusOption, .required⟩ :=
        (Option.some.inj member).symm
      cases arg with
      | none => cases accepted
      | some arg =>
          exact ⟨kept, fun _ => ⟨state.calls, arg, [], rfl, nofun, cmdlineSetCpus_accepted accepted⟩,
            version id⟩
  | succ i =>
      have behind := List.mem_of_getElem? ((List.getElem?_tail ..).trans member)
      obtain ⟨bitmap, asked⟩ := opts_leave env opt behind state.value arg (i + 1)
      refine ⟨kept, fun bit => ?_, version asked⟩
      have before : state.mandatoryCheck.getLsbD 0 = true := by
        simpa [ParserState.check, ParserState.called, opts_optional env opt behind] using bit
      obtain ⟨earlier, given, later, calls, last, same⟩ := reading.given before
      refine ⟨earlier, given, later ++ [⟨i + 1, arg⟩], ?_, ?_, fun before => ?_⟩
      · simp [ParserState.check, ParserState.called, calls]
      · simpa [or_imp, forall_and] using last
      · exact (same before).trans (Prod.ext rfl bitmap.symm)

theorem mandatory_opts (env : Surroundings) : (mandatoryBitmap (opts env)).getLsbD 0 = true := by
  rw [getLsbD_mandatoryBitmap (optionTable_opts env).few]
  exact ⟨_, rfl, rfl⟩

/-- The settings of the control operations. -/
def MainConf.settings (env : Surroundings) (numaNode : Nat → Int) (conf : MainConf) : Settings where
  maxRelays := env.maxRelays
  relayCpus := conf.vhostConf.relayCpus
  workerCoreBitmap := conf.vhostConf.workerCoreBitmap
  numaNode := numaNode
  relaysFit := env.relaysFit

/-- A relay that is pinned has its two CPUs among a set. -/
def VhostConf.PinnedTo (conf : VhostConf) (cpus : BitVec 64) : Prop :=
  ∀ id, conf.relayCpus id = ⟨-1, -1⟩
    ∨ ∃ vio2vf vf2vio : Nat,
        conf.relayCpus id = ⟨vio2vf, vf2vio⟩ ∧ InBitmap cpus vio2vf ∧ InBitmap cpus vf2vio

theorem inBitmap_of_shiftedOne {bitmap : BitVec 64} {cpu : Nat} (small : cpu < 64)
    (some : (shiftedOne cpu &&& bitmap != 0#64) = true)
    : InBitmap bitmap cpu := by
  by_contra absent
  have apart : shiftedOne cpu &&& bitmap = 0#64 := by
    rw [and_eq_zero_iff_disjoint]
    intro i bit member
    have same : i = cpu := by
      have count : ((cpu : Int) % 64).toNat = cpu := by omega
      rw [InBitmap, shiftedOne, count, BitVec.getLsbD_shiftLeft, BitVec.getLsbD_one] at bit
      simp only [Bool.and_eq_true, decide_eq_true_eq, Bool.not_eq_true', decide_eq_false_iff_not]
        at bit
      omega
    exact absent (same ▸ member)
  rw [apart] at some
  exact absurd some (by decide)

theorem VhostConf.InRange.pinnedTo {maxRelays : Nat} {conf : VhostConf} (h : conf.InRange maxRelays)
    (listed : (List.range maxRelays).all conf.cpusListed = true)
    : conf.PinnedTo conf.workerCoreBitmap := by
  intro id
  refine (h.cpus id).imp_right fun ⟨inside, vio2vf, vf2vio, small, small', chosen⟩ => ?_
  have passes := List.all_eq_true.mp listed id (List.mem_range.mpr inside)
  rw [VhostConf.cpusListed, chosen, Bool.or_eq_true, Bool.and_eq_true] at passes
  rcases passes with absent | ⟨first, second⟩
  · have negative : (vf2vio : Int) = -1 := eq_of_beq absent
    omega
  · exact ⟨vio2vf, vf2vio, chosen, inBitmap_of_shiftedOne small second,
      inBitmap_of_shiftedOne small' first⟩

theorem VhostConf.PinnedTo.mono {conf : VhostConf} {first second : BitVec 64}
    (h : conf.PinnedTo first) (subset : ∀ i, InBitmap first i → InBitmap second i)
    : conf.PinnedTo second :=
  fun id => (h id).imp_right fun ⟨vio2vf, vf2vio, chosen, left, right⟩ =>
    ⟨vio2vf, vf2vio, chosen, subset vio2vf left, subset vf2vio right⟩

/-- The state that the options have left. -/
theorem reading_accepted {env : Surroundings} {argv : List (List Char)}
    (accepted : (cmdlineParser (opts env) .initial argv 0).ret = 0)
    (plain : (cmdlineParser (opts env) .initial argv 0).value.showVersion = false)
    : (cmdlineParser (opts env) .initial argv 0).value.Kept env
      ∧ (cmdlineParser (opts env) .initial argv 0).value.WorkersGiven
          (cmdlineParser (opts env) .initial argv 0).calls := by
  have start : Reading env (.start .initial) := ⟨initial_kept env, nofun, nofun⟩
  obtain ⟨state, reading, same, calls, checked⟩ :=
    (reading_keeping env).accepted (optionTable_opts env) start accepted
  rw [same] at plain ⊢
  rw [calls]
  rcases checked with mandatory | ends
  · exact ⟨reading.kept, reading.given (mandatory ▸ mandatory_opts env)⟩
  · rw [reading.version ends] at plain
    cases plain

/-- What is known when the daemon goes on. -/
theorem startUp_eq_ok {env : Surroundings} {argv : List (List Char)} {conf : MainConf}
    (started : startUp env argv = .ok conf)
    : conf.Kept env
      ∧ conf.WorkersGiven (cmdlineParser (opts env) .initial argv 0).calls
      ∧ (List.range env.maxRelays).all conf.vhostConf.cpusListed = true
      ∧ conf.dpdkCfg.coreBitmap = conf.vhostConf.workerCoreBitmap := by
  unfold startUp at started
  dsimp only at started
  split at started
  · cases started
  · rename_i accepted
    split at started
    · cases started
    · rename_i plain
      split at started
      · rename_i listed
        cases started
        obtain ⟨kept, given⟩ := reading_accepted (not_not.mp accepted)
          (Bool.eq_false_of_not_eq_true plain)
        exact ⟨{ kept with texts := { kept.texts with } }, given, listed, rfl⟩
      · cases started

/-- For all arguments with which the daemon goes on: the workers are those of the last argument that
was given for them, and each relay has no CPUs, or two that have workers. The EAL is started with
these workers only if the CPUs are there, and the settings are those that the control operations
rely on. The static relays are within their range, and all other texts are shorter than their
arrays.
-/
theorem startUp_settles {env : Surroundings} {argv : List (List Char)} {conf : MainConf}
    (started : startUp env argv = .ok conf)
    : conf.Kept env
      ∧ conf.WorkersGiven (cmdlineParser (opts env) .initial argv 0).calls
      ∧ conf.vhostConf.PinnedTo conf.vhostConf.workerCoreBitmap
      ∧ (∀ cpu, checkCores conf.dpdkCfg cpu = .ok () → conf.vhostConf.PinnedTo cpu.cpubitmap)
      ∧ (∀ rteEalInit cpu stack,
          dpdkEalInitialize rteEalInit conf.dpdkCfg cpu stack = some 0
          → conf.vhostConf.PinnedTo cpu.cpubitmap)
      ∧ ∀ numaNode, (conf.settings env numaNode).CpusConfigured := by
  obtain ⟨kept, given, listed, cores⟩ := startUp_eq_ok started
  have pinned := kept.relays.pinnedTo listed
  have there (cpu : CpuInfo) (checked : checkCores conf.dpdkCfg cpu = .ok ())
      : conf.vhostConf.PinnedTo cpu.cpubitmap :=
    pinned.mono (cores ▸ ((checkCores_eq_ok _ cpu).mp checked).1)
  refine ⟨kept, given, pinned, there, fun rteEalInit cpu stack initialized => ?_,
    fun numaNode id => ?_⟩
  · obtain ⟨argv, made, _⟩ := dpdkEalInitialize_eq_zero_iff.mp initialized
    exact there cpu (checkCores_of_ealArguments made)
  · rcases kept.relays.cpus id with none | ⟨_, vio2vf, vf2vio, _, small, chosen⟩
    · exact Or.inl (congrArg RelayCpus.vf2vioCpu none)
    · have chosen := congrArg RelayCpus.vf2vioCpu chosen
      exact Or.inr (chosen ▸ ⟨Int.natCast_nonneg vf2vio, Int.ofNat_lt.mpr small⟩)

/-- Two relays are pinned, one of them twice, by an option and its short form. -/
theorem startUp_settles_two_pins
    : ∃ (env : Surroundings) (conf : MainConf),
        startUp env (["p", "-C", "1,2", "-c", "3:1,2;4:1", "-c", "4:2"].map String.toList) = .ok conf
        ∧ conf.vhostConf.relayCpus 4 = ⟨2, 2⟩
        ∧ conf.WorkersGiven (cmdlineParser (opts env) .initial
            (["p", "-C", "1,2", "-c", "3:1,2;4:1", "-c", "4:2"].map String.toList) 0).calls
        ∧ conf.vhostConf.PinnedTo conf.vhostConf.workerCoreBitmap := by
  have started : ∃ conf, startUp ⟨32, by decide, fun _ => none, id⟩
      (["p", "-C", "1,2", "-c", "3:1,2;4:1", "-c", "4:2"].map String.toList) = .ok conf
      ∧ conf.vhostConf.relayCpus 4 = ⟨2, 2⟩ := by
    refine ⟨_, rfl, ?_⟩
    decide
  obtain ⟨conf, started, pin⟩ := started
  have settled := startUp_settles started
  exact ⟨_, conf, started, pin, settled.2.1, settled.2.2.1⟩

end VirtioForwarder
