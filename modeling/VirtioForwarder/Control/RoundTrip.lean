import VirtioForwarder.Control.Detach

/-! A device that was added can be removed under the name it was added with, exactly if the
name fits `pci_dbdf`. Between operations every relay is tidy, whatever came before.
-/

namespace VirtioForwarder

open Program

-----------------------------------------------------------------------------------------
-- Tidy relays
-----------------------------------------------------------------------------------------

/-- `cmdline_set_vf_cpu` only accepts CPUs below 64; a CPU that is not configured is -1. -/
def Settings.CpusConfigured (settings : Settings) : Prop :=
  ∀ id, (settings.relayCpus id).vf2vioCpu = -1 ∨ CpuIndex (settings.relayCpus id).vf2vioCpu

/-- The search for the idlest worker only considers the entries of `worker_threads`. -/
theorem naiveGetIdlestWorker_lt (settings : Settings) (world : World) (node : Int)
    : naiveGetIdlestWorker settings world node < maxCpus := by
  have search (cpus : List Nat) (below : ∀ cpu ∈ cpus, cpu < maxCpus)
      (best : Option (Nat × Nat)) (found : ∀ load index, best = some (load, index) → index < maxCpus)
      (step : Option (Nat × Nat) → Nat → Option (Nat × Nat))
      (choice : ∀ best cpu, step best cpu = best ∨ ∃ load, step best cpu = some (load, cpu))
      : ∀ load index, cpus.foldl step best = some (load, index) → index < maxCpus := by
    induction cpus generalizing best with
    | nil => exact found
    | cons cpu cpus ih =>
        apply ih fun other member => below other (List.mem_cons_of_mem _ member)
        intro load index chosen
        rcases choice best cpu with same | ⟨load', taken⟩
        · exact found load index (same ▸ chosen)
        · cases Option.some.inj (taken.symm.trans chosen)
          exact below cpu List.mem_cons_self
  unfold naiveGetIdlestWorker
  dsimp only
  split
  · decide
  · rename_i load index chosen
    refine Int.ofNat_lt.mpr (search (List.range maxCpus) (fun _ => List.mem_range.mp) none nofun _
      (fun best cpu => ?_) load index chosen)
    split
    · exact Or.inl rfl
    · split
      · exact Or.inl rfl
      · split
        · exact Or.inl rfl
        · cases best with
          | none => exact Or.inr ⟨_, rfl⟩
          | some pair =>
              dsimp only
              split
              · exact Or.inr ⟨_, rfl⟩
              · exact Or.inl rfl

section Tidying

variable {settings : Settings} {id : Nat} {admits : Instr → Int → World → Prop} {world : World}

/-- The chosen worker is an entry of `worker_threads`. -/
theorem findVf2virtioCpu_index (configured : settings.CpusConfigured) {P : Relay → Prop}
    (tending : Tending P) (anyCpu : ∀ cpu relay, P relay → P ((Write.vf2vioCpu cpu).apply relay))
    (h : P (world.relays id))
    : wp (accesses id) (soloContract admits fun _ => True) (findVf2virtioCpu settings id)
        (fun _ s => P (s.relays id) ∧ CpuIndex (s.relays id).dpdk.vf2vioCpu) world := by
  have store {s : World} {cpu : Int} (index : CpuIndex cpu) (held : P (s.relays id))
      : wp (accesses id) (soloContract admits fun _ => True) (assign (.vf2vioCpu cpu))
          (fun _ s => P (s.relays id) ∧ CpuIndex (s.relays id).dpdk.vf2vioCpu) s := by
    refine wp_assign tending.stable held fun s _ _ held _ => ⟨trivial, trivial, ?_⟩
    rw [World.relays_modifyRelay_self]
    exact ⟨anyCpu cpu _ held, index⟩
  have idlest : (findIdlestCpu settings id).Returns CpuIndex := by
    intro answer seen
    change Prog.Returns CpuIndex (if naiveGetIdlestWorker .. ≥ 0 then _ else _)
    split
    · rename_i found
      exact ⟨found, naiveGetIdlestWorker_lt ..⟩
    · trivial
  unfold findVf2virtioCpu
  dsimp only
  split
  · rename_i conf
    exact store ((configured id).resolve_left conf) h
  · have left : wp (accesses id) (soloContract admits fun _ => True) (leaveVf2virtioCpu id)
        (fun _ s => P (s.relays id)) world := by
      refine wp_see_bind tending h fun s held => ?_
      dsimp only
      split
      · exact held
      · refine wp.bind ((wp_flag (fun _ => trivial) tending held).mono fun _ s flagged => ?_)
        refine wp_assign tending.stable flagged.1 fun s _ _ held _ => ⟨trivial, trivial, ?_⟩
        rw [World.relays_modifyRelay_self]
        exact anyCpu (-1) _ held
    refine wp.bind (left.mono fun _ s held => ?_)
    have found : wp (accesses id) (soloContract admits fun _ => True) (findIdlestCpu settings id)
        (fun _ s => P (s.relays id)) s :=
      wp_tend (findIdlestCpu_inert settings id).observing.repooling.aborting.sparing tending held
    exact wp.bind ((found.returns idlest).mono fun cpu s held => store held.1 held.2)

theorem tidy_of_index {relay : Relay}
    (h : relay.dpdk.pciDbdf.length ≤ 19 ∧ CpuIndex relay.dpdk.vf2vioCpu)
    : relay.Tidy :=
  ⟨h.1, fun _ => h.2⟩

theorem tending_index : Tending fun relay =>
    relay.dpdk.pciDbdf.length ≤ 19 ∧ CpuIndex relay.dpdk.vf2vioCpu :=
  (tending_pciDbdf (List.length · ≤ 19)).and (tending_vf2vioCpu CpuIndex)

theorem startAddedVf_tidy (configured : settings.CpusConfigured)
    (tidy : (world.relays id).Tidy)
    : wp (accesses id) (soloContract admits fun _ => True) (startAddedVf settings id)
        (fun _ s => (s.relays id).Tidy) world := by
  refine wp_see_bind tending_tidy tidy fun s tidy => ?_
  split
  · exact tidy
  · refine wp.bind ((findVf2virtioCpu_index configured (tending_pciDbdf (List.length · ≤ 19))
      (fun _ _ short => short) tidy.pciDbdf).mono fun _ s held => ?_)
    refine wp_see_bind tending_index held fun s held => ?_
    refine wp_tend_bind tending_index held (.perform trivial) fun err s held => ?_
    split
    · exact tidy_of_index held
    · refine wp_tend_bind tending_index held (.perform trivial) fun _ s held => ?_
      refine wp_set_bind (fun relay =>
          relay.dpdk.pciDbdf.length ≤ 19 ∧ CpuIndex relay.dpdk.vf2vioCpu)
        tending_index held (fun _ held => held) fun s held => ?_
      refine wp_see_bind tending_index held fun s held => ?_
      exact (wp_flag (fun _ => trivial) tending_index held).mono fun _ s flagged =>
        tidy_of_index flagged.1

theorem findVirtio2vfCpu_sparing (settings : Settings) (id : Nat)
    : (findVirtio2vfCpu settings id).All Instr.SparesDevice fun _ => True := by
  have flags (cpu : Int) : (flagWorker cpu).All Instr.SparesDevice fun _ => True :=
    (flagWorker_inert cpu).observing.repooling.aborting.sparing
  have leaving : (leaveVirtio2vfCpu id).All Instr.SparesDevice fun _ => True := by
    refine .bind (.perform trivial) fun relay => ?_
    dsimp only
    split
    · trivial
    · exact .bind (flags _) fun _ => .perform trivial
  unfold findVirtio2vfCpu
  dsimp only
  split
  · exact .perform trivial
  · exact .bind leaving fun _ =>
      .bind (findIdlestCpu_inert settings id).observing.repooling.aborting.sparing fun _ =>
        .perform trivial

theorem addVirtio_tidy (configured : settings.CpusConfigured) {virtionet : Int}
    (tidy : (world.relays id).Tidy)
    : wp (accesses id) (soloContract admits fun _ => True) (addVirtio settings virtionet id)
        (fun _ s => (s.relays id).Tidy) world := by
  unfold addVirtio
  split
  · exact tidy
  · refine wp_see_bind tending_tidy tidy fun s tidy => ?_
    split
    · exact tidy
    · refine wp_tend_bind tending_tidy tidy (.perform trivial) fun _ s tidy => ?_
      refine wp_tend_bind tending_tidy tidy (.perform trivial) fun _ s tidy => ?_
      refine wp_tend_bind tending_tidy tidy (.perform trivial) fun rings s tidy => ?_
      refine wp_tend_bind tending_tidy tidy (.perform trivial) fun _ s tidy => ?_
      dsimp only
      split
      · exact tidy
      · refine wp_tend_bind tending_tidy tidy (.perform trivial) fun node s tidy => ?_
        refine wp_tend_bind tending_tidy tidy (alignMempool_aborting ..).sparing
          fun aligned s tidy => ?_
        split
        · exact tidy
        · refine wp_tend_bind tending_tidy tidy (findVirtio2vfCpu_sparing ..) fun _ s tidy => ?_
          refine wp_see_bind tending_tidy tidy fun s tidy => ?_
          split
          · exact tidy
          · refine wp_tend_bind tending_tidy tidy (.perform trivial) fun _ s tidy => ?_
            refine wp_see_bind tending_tidy tidy fun s tidy => ?_
            refine wp.bind ((wp_flag (fun _ => trivial) tending_tidy tidy).mono
              fun _ s flagged => ?_)
            exact wp.bind ((startAddedVf_tidy configured flagged.1).mono fun _ s tidy => tidy)

theorem removeVirtio_tidy (tidy : (world.relays id).Tidy)
    : wp (accesses id) (soloContract admits fun _ => True) (removeVirtio settings id)
        (fun _ s => (s.relays id).Tidy) world :=
  removeVirtio_keeps tending_tidy
    (fun _ tidy ready => ⟨tidy.pciDbdf, fun _ => tidy.cpu (Or.inl ready)⟩) tidy

theorem removeVf2_tidy {dbdf : List Char} {conditional : Bool} (tidy : (world.relays id).Tidy)
    : wp (accesses id) (soloContract admits fun _ => True) (removeVf2 settings dbdf id conditional)
        (fun _ s => (s.relays id).Tidy) world := by
  by_cases active : (world.relays id).Active
  · by_cases below : id < settings.maxRelays
    · by_cases name : (world.relays id).dpdk.pciDbdf = dbdf
      · exact (removeVf2_detaches below tidy active name).mono fun _ _ detached => detached.2.1
      · exact (removeVf2_mismatch below tending_tidy tidy active name).mono fun _ _ kept => kept.2
    · unfold removeVf2
      rw [if_pos (not_lt.mp below)]
      exact tidy
  · exact (removeVf2_inactive tending_tidy tidy active).mono fun _ _ kept => kept.2

/-- A removal that succeeds leaves no device attached. -/
theorem removeVf2_gone {dbdf : List Char} {conditional : Bool} (tidy : (world.relays id).Tidy)
    : wp (accesses id) (soloContract admits fun _ => True) (removeVf2 settings dbdf id conditional)
        (fun err s => (s.relays id).Tidy
          ∧ (err = 0 → id < settings.maxRelays ∧ ¬ (s.relays id).Active)) world := by
  by_cases below : id < settings.maxRelays
  · by_cases active : (world.relays id).Active
    · by_cases name : (world.relays id).dpdk.pciDbdf = dbdf
      · exact (removeVf2_detaches below tidy active name).mono fun _ _ detached =>
          ⟨detached.2.1, fun _ => ⟨below, detached.1⟩⟩
      · refine (removeVf2_mismatch below tending_tidy tidy active name).mono fun err _ kept => ?_
        exact ⟨kept.2, fun ok => absurd (kept.1.symm.trans ok) (by decide)⟩
    · refine (removeVf2_inactive (tending_tidy.and tending_inactive) ⟨tidy, active⟩ active).mono
        fun _ _ kept => ?_
      exact ⟨kept.2.1, fun _ => ⟨below, kept.2.2⟩⟩
  · unfold removeVf2
    rw [if_pos (not_lt.mp below)]
    exact ⟨tidy, fun ok => absurd ok (by decide)⟩

theorem migrateRelayCpus_tidy {newVirtio2vfCpu newVf2virtioCpu : Int}
    (tidy : (world.relays id).Tidy)
    : wp (accesses id) (soloContract admits fun _ => True)
        (migrateRelayCpus settings id newVirtio2vfCpu newVf2virtioCpu)
        (fun _ s => (s.relays id).Tidy) world := by
  have workers (cpu : Int)
      : (lookWorker cpu).All Instr.SparesDevice fun _ => True := by
    unfold lookWorker
    split
    · exact .perform trivial
    · refine .bind (.perform trivial) fun stray => ?_
      split <;> trivial
  have flags (cpu : Int) : (flagWorker cpu).All Instr.SparesDevice fun _ => True :=
    (flagWorker_inert cpu).observing.repooling.aborting.sparing
  have virtio : (moveVirtio2vf id newVirtio2vfCpu).All Instr.SparesDevice fun _ => True := by
    refine .bind (workers _) fun worker => ?_
    split
    · trivial
    · refine .bind (.perform trivial) fun relay => ?_
      split
      · trivial
      · refine .bind (.perform trivial) fun relay => ?_
        split
        · trivial
        · refine .bind (.perform trivial) fun relay => ?_
          exact .bind (.perform trivial) fun _ => .bind (flags _) fun _ => flags _
  unfold migrateRelayCpus
  dsimp only
  generalize (if settings.workerCoreBitmap = 0 then (1 : BitVec 64) else 0) = notBitmap
  split
  · exact tidy
  · refine wp_tend_bind tending_tidy tidy virtio fun _ s tidy => ?_
    refine wp.bind (wp.mono (?_ : wp _ _ (moveVf2virtio id newVf2virtioCpu)
      (fun _ s => (s.relays id).Tidy) s) fun _ s tidy => tidy)
    by_cases index : CpuIndex newVf2virtioCpu
    · refine wp_tend_bind tending_tidy tidy (workers _) fun worker s tidy => ?_
      split
      · exact tidy
      · refine wp_tend_bind tending_tidy tidy
          (vfInitialized_observing id).repooling.aborting.sparing fun used s tidy => ?_
        split
        · exact tidy
        · refine wp_see_bind tending_tidy tidy fun s tidy => ?_
          split
          · exact tidy
          · refine wp_see_bind tending_tidy tidy fun s tidy => ?_
            refine wp_set_bind (fun relay =>
                relay.dpdk.pciDbdf.length ≤ 19 ∧ CpuIndex relay.dpdk.vf2vioCpu)
              tending_tidy tidy (fun _ tidy => ⟨tidy.pciDbdf, index⟩) fun s held => ?_
            refine wp.bind ((wp_flag (fun _ => trivial) tending_index held).mono
              fun _ s flagged => ?_)
            exact (wp_flag (fun _ => trivial) tending_index flagged.1).mono fun _ s flagged =>
              tidy_of_index flagged.1
    · unfold moveVf2virtio lookWorker
      rw [if_neg (show ¬ (0 ≤ newVf2virtioCpu ∧ newVf2virtioCpu < maxCpus) from index), bind_assoc]
      refine wp_tend_bind tending_tidy tidy (.perform trivial) fun stray s tidy => ?_
      split
      · exact tidy
      · trivial

/-- Every control operation keeps its relay tidy. -/
theorem Op.code_tidy (configured : settings.CpusConfigured) (op : Op)
    (tidy : (world.relays op.relay).Tidy)
    : wp (accesses op.relay) (soloContract admits fun _ => True) (op.code settings)
        (fun _ s => (s.relays op.relay).Tidy) world := by
  cases op with
  | addVf2 dbdf id => exact (addVf2_tidy tidy).mono fun _ _ tidy => tidy.1
  | bondAdd slaves name id => exact (bondAdd_tidy tidy).mono fun _ _ tidy => tidy.1
  | removeVf2 dbdf id => exact removeVf2_tidy tidy
  | addVirtio virtionet id => exact addVirtio_tidy configured tidy
  | removeVirtio id => exact removeVirtio_tidy tidy
  | migrateRelayCpus id => exact migrateRelayCpus_tidy tidy

end Tidying

-----------------------------------------------------------------------------------------
-- Histories
-----------------------------------------------------------------------------------------

/-- Control operations that run one at a time, with any answers. -/
def anyAnswers : Policy Unit Op Instr Int World where
  instr _ _ _ _ := True
  call _ _ _ := True

/-- All relays are tidy. -/
def World.Tidy (world : World) : Prop := ∀ id, (world.relays id).Tidy

/-- An operation on relay `id` that keeps its relay tidy keeps all relays tidy. -/
theorem wp_tidy {p : Control Int} {admits : Instr → Int → World → Prop} {id : Nat}
    {world : World} {post : Int → World → Prop} (h : world.Tidy)
    (here : wp (accesses id) (soloContract admits fun _ => True) p
      (fun value s => (s.relays id).Tidy ∧ post value s) world)
    : wp (accesses id) (soloContract admits fun _ => True) p
        (fun value s => s.Tidy ∧ post value s) world := by
  have stable : (soloContract admits fun _ => True).Stable
      fun s => ∀ other ≠ id, (s.relays other).Tidy :=
    fun s s' later _ tidy other away => tending_tidy (later other) (tidy other away)
  have step (i : Instr) (answer : Int) (s : World) (tidy : ∀ other ≠ id, (s.relays other).Tidy)
      : ∀ other ≠ id, ((i.exec id answer s).relays other).Tidy := by
    intro other away
    rw [Instr.relays_exec_of_ne away]
    exact tidy other away
  refine (here.frame stable step fun other _ => h other).mono fun value s outcome => ?_
  obtain ⟨⟨mine, post⟩, others⟩ := outcome
  refine ⟨fun other => ?_, post⟩
  rcases eq_or_ne other id with rfl | away
  · exact mine
  · exact others other away

/-- The control operations keep the relays tidy. -/
def tidyOutline (settings : Settings) (configured : settings.CpusConfigured)
    : Outline (controlSystem settings) anyAnswers where
  inv _ := True
  rely _ s s' := ∀ id, (s.relays id).Tended (s'.relays id)
  guar _ _ _ := True
  done _ _ _ := World.Tidy
  fault _ := True
  refl _ _ _ := .refl _
  trans _ _ _ _ first second id := (first id).trans (second id)
  stable _ _ _ _ _ later _ tidy id := tending_tidy (later id) (tidy id)
  others _ _ different := absurd rfl different
  env _ _ _ _ happened := ⟨trivial, fun _ => Event.tended happened⟩
  ops _ op s _ _ _ _ tidy := by
    have here : wp (accesses op.relay) (soloContract (anyAnswers.instr op) fun _ => True)
        (op.code settings) (fun _ s => (s.relays op.relay).Tidy ∧ True) s :=
      (op.code_tidy configured (tidy op.relay)).mono fun _ _ tidy => ⟨tidy, trivial⟩
    exact (wp_tidy tidy here).mono fun _ _ tidy => tidy.1

/-- After any history of control operations the relays are tidy. -/
theorem tidy_of_history {settings : Settings} (configured : settings.CpusConfigured)
    {useJumbo : Bool} {initialized : Nat → Bool}
    {config : Config Unit Op Instr Int World Abort World Int}
    (history : Run (controlSystem settings) anyAnswers
      (idleDaemon settings useJumbo initialized) config)
    {op : Op} {value : Int} (idle : config.running () = (op, .ret value))
    : config.state.Tidy := by
  have first : (tidyOutline settings configured).Good
      (idleDaemon settings useJumbo initialized) := by
    refine ⟨trivial, fun _ id => ⟨Nat.zero_le _, fun active => ?_⟩⟩
    rcases active with ready | added
    · cases ready
    · cases added
  exact (history.good first).returned idle

-----------------------------------------------------------------------------------------
-- One operation after another
-----------------------------------------------------------------------------------------

/-- One operation is called in a world. -/
def called (settings : Settings) (world : World) (op : Op)
    : Config Unit Op Instr Int World Abort World Int :=
  ⟨world, fun _ => (op, op.code settings)⟩

/-- A single operation beside the workers, with any answers. -/
def undisturbed : Policy Unit Op Instr Int World where
  instr _ _ _ _ := True
  call _ _ _ := False

/-- A single operation whose driver calls succeed and whose waits end in time. -/
def succeeding : Policy Unit Op Instr Int World where
  instr _ i answer _ := ¬ i.Fails answer
  call _ _ _ := False

/-- What a single operation is proved to do, it does in every run. -/
theorem Run.single {settings : Settings} {policy : Policy Unit Op Instr Int World}
    (op : Op) (post : Int → World → Prop) (fault : Abort → Prop)
    (alone : ∀ t op s, ¬ policy.call t op s) {world : World}
    (stable : ∀ value ⦃s s'⦄, (∀ id, (s.relays id).Tended (s'.relays id))
      → post value s → post value s')
    (spec : ∀ op', wp (accesses op.relay) (soloContract (policy.instr op') fault)
      (op.code settings) post world)
    {config : Config Unit Op Instr Int World Abort World Int}
    (run : Run (controlSystem settings) policy (called settings world op) config)
    : (∀ op' value, config.running () = (op', .ret value) → post value config.state)
      ∧ ∀ op' error, config.running () = (op', .fail error) → fault error := by
  exact Run.solo (controlSystem settings)
    (fun s s' => ∀ id, (s.relays id).Tended (s'.relays id)) fault alone (fun _ _ => .refl _)
    (fun _ _ _ first second id => (first id).trans (second id))
    (fun _ _ _ happened => Event.tended happened) stable (spec op) run

/-- The operation adds a device under a name to a relay. -/
def Op.Adds (name : List Char) (id : Nat) : Op → Prop
  | .addVf2 dbdf relay _ => dbdf = name ∧ relay = id
  | .bondAdd _ bond relay => bond = name ∧ relay = id
  | _ => False

/-- After a successful add the device is attached under its stored name to a valid relay. -/
theorem attached_of_add {settings : Settings} {world : World} (tidy : world.Tidy) {add : Op}
    {name : List Char} {id : Nat} (adds : add.Adds name id)
    {added : Config Unit Op Instr Int World Abort World Int}
    (adding : Run (controlSystem settings) undisturbed (called settings world add) added)
    (ok : added.running () = (add, .ret 0))
    : id < settings.maxRelays
      ∧ (added.state.relays id).Tidy
      ∧ (added.state.relays id).Active
      ∧ (added.state.relays id).dpdk.pciDbdf = storedDbdf name := by
  have kept : Tending fun relay =>
      (relay.Tidy ∧ relay.Active) ∧ relay.dpdk.pciDbdf = storedDbdf name :=
    (tending_tidy.and tending_active).and (tending_pciDbdf (· = storedDbdf name))
  have finish {p : Control Int} (code : add.code settings = p) (relay : add.relay = id)
      (below : p.Returns fun err => err = 0 → id < settings.maxRelays)
      (spec : ∀ op', wp (accesses id) (soloContract (undisturbed.instr op') fun _ => True) p
        (fun err s => (s.relays id).Tidy
          ∧ (err = 0 → (s.relays id).Active
            ∧ (s.relays id).dpdk.pciDbdf = storedDbdf name)) world)
      : id < settings.maxRelays
        ∧ (added.state.relays id).Tidy
        ∧ (added.state.relays id).Active
        ∧ (added.state.relays id).dpdk.pciDbdf = storedDbdf name := by
    subst relay code
    have result := (Run.single add (fun err s => (err = 0 → add.relay < settings.maxRelays)
      ∧ (err = 0 → ((s.relays add.relay).Tidy ∧ (s.relays add.relay).Active)
        ∧ (s.relays add.relay).dpdk.pciDbdf = storedDbdf name)) (fun _ => True) (fun _ _ _ => id)
      (fun value s s' later held => ⟨held.1, fun ok => kept (later _) (held.2 ok)⟩)
      (fun op' => ((spec op').returns below).mono fun err s outcome =>
        ⟨outcome.1, fun ok => ⟨⟨outcome.2.1, (outcome.2.2 ok).1⟩, (outcome.2.2 ok).2⟩⟩)
      adding).1 _ _ ok
    obtain ⟨⟨tidy, active⟩, stored⟩ := result.2 rfl
    exact ⟨result.1 rfl, tidy, active, stored⟩
  cases add with
  | addVf2 dbdf relay conditional =>
      obtain ⟨rfl, rfl⟩ := adds
      refine finish (p := addVf2 settings dbdf relay conditional) rfl rfl ?_
        fun _ => addVf2_tidy (tidy _)
      unfold addVf2
      split
      · exact fun ok => absurd ok (by decide)
      · exact .of_forall (fun _ _ => by omega) _
  | bondAdd slaves bond relay =>
      obtain ⟨rfl, rfl⟩ := adds
      refine finish (p := bondAdd settings slaves bond relay) rfl rfl ?_
        fun _ => bondAdd_tidy (tidy _)
      unfold bondAdd
      split
      · exact fun ok => absurd ok (by decide)
      · exact .of_forall (fun _ _ => by omega) _
  | removeVf2 | addVirtio | removeVirtio | migrateRelayCpus => exact adds.elim

/-- The device of relay `id` is found under a name and removed under it: with driver calls
that succeed and workers that respond, `remove_vf2` does not abort, returns 0 and leaves the
relay as before the device was attached.
-/
def World.RemovableUnder (settings : Settings) (name : List Char) (id : Nat) (world : World)
    : Prop :=
  virtioRelayHasDevice settings world id name = true
  ∧ ∀ conditional removed,
      Run (controlSystem settings) succeeding
        (called settings world (.removeVf2 name id conditional)) removed
      → (∀ op error, removed.running () ≠ (op, .fail error))
        ∧ ∀ op value,
            removed.running () = (op, .ret value)
            → value = 0 ∧ (removed.state.relays id).Restored

/-- After any history, a device that is added under a name can be removed under it exactly if
the name has at most 19 characters: `pci_dbdf` holds no more.
-/
theorem removable_under_same_name_iff {settings : Settings} (configured : settings.CpusConfigured)
    {useJumbo : Bool} {initialized : Nat → Bool}
    {rest added : Config Unit Op Instr Int World Abort World Int}
    (history : Run (controlSystem settings) anyAnswers
      (idleDaemon settings useJumbo initialized) rest)
    {op add : Op} {value : Int} (idle : rest.running () = (op, .ret value))
    {name : List Char} {id : Nat} (adds : add.Adds name id)
    (adding : Run (controlSystem settings) undisturbed (called settings rest.state add) added)
    (ok : added.running () = (add, .ret 0))
    : added.state.RemovableUnder settings name id ↔ name.length ≤ 19 := by
  obtain ⟨below, tidy, active, stored⟩ :=
    attached_of_add (tidy_of_history configured history idle) adds adding ok
  constructor
  · rintro ⟨found, _⟩
    simp only [virtioRelayHasDevice, not_le.mpr below, if_false, pciDbdfEqual,
      decide_eq_true_eq] at found
    rw [found, stored]
    exact storedDbdf_length name
  · intro short
    have whole : (added.state.relays id).dpdk.pciDbdf = name :=
      stored.trans (List.take_of_length_le short)
    refine ⟨?_, fun conditional removed removing => ?_⟩
    · simp [virtioRelayHasDevice, below, pciDbdfEqual, whole]
    · have certain (op : Op) : ¬ Failing (succeeding.instr op) := by
        rintro ⟨i, answer, s, admitted, fails⟩
        exact admitted fails
      have clean (op : Op)
          : wp (accesses id) (soloContract (succeeding.instr op) fun _ => False)
              ((Op.removeVf2 name id conditional).code settings)
              (fun value s => value = 0 ∧ (s.relays id).Restored) added.state :=
        (removeVf2_detaches below tidy active whole).mono fun err s detached => by
          obtain ⟨_, _, restored, failing⟩ := detached
          have zero : err = 0 := by
            by_contra failed
            exact certain op (failing failed)
          exact ⟨zero, restored zero⟩
      have outcome := Run.single (.removeVf2 name id conditional)
        (fun value s => value = 0 ∧ (s.relays id).Restored)
        (fun _ => False) (fun _ _ _ forbidden => forbidden)
        (fun value s s' later held => ⟨held.1, tending_restored (later id) held.2⟩)
        clean removing
      exact ⟨fun op error => outcome.2 op error, outcome.1⟩

instance (op : Op) (i : Instr) (answer : Int) (world : World)
    : Decidable (undisturbed.instr op i answer world) :=
  .isTrue trivial

instance (thread : Unit) (op : Op) (world : World)
    : Decidable (undisturbed.call thread op world) :=
  .isFalse id

/-- Witness: a VF is added in the initial state under a name of twelve characters. -/
theorem vf_removable_under_pci_address
    : "0000:05:08.0".toList.length ≤ 19
      ∧ ∃ added : Config Unit Op Instr Int World Abort World Int,
          added.running () = (.addVf2 "0000:05:08.0".toList 0 true, .ret 0)
          ∧ added.state.RemovableUnder twoWorkers "0000:05:08.0".toList 0 := by
  obtain ⟨added, adding, reached⟩ := Run.of_follow (controlSystem twoWorkers) undisturbed
    (called twoWorkers (World.initial twoWorkers false fun _ => true)
      (.addVf2 "0000:05:08.0".toList 0 true))
    (answered () (List.replicate 8 0 ++ 1 :: List.replicate 21 0))
    (fun c => (c.running ()).1 = .addVf2 "0000:05:08.0".toList 0 true
      && (c.running ()).2.value? = some 0)
    (by decide +kernel)
  simp only [Bool.and_eq_true, decide_eq_true_eq] at reached
  have ok : added.running () = (.addVf2 "0000:05:08.0".toList 0 true, .ret 0) :=
    Prod.ext reached.1 (Prog.eq_ret_of_value? reached.2)
  have short : "0000:05:08.0".toList.length ≤ 19 := by decide
  have adds : (Op.addVf2 "0000:05:08.0".toList 0 true).Adds "0000:05:08.0".toList 0 := ⟨rfl, rfl⟩
  exact ⟨short, added, ok,
    (removable_under_same_name_iff (fun _ => Or.inl rfl)
      (.start : Run (controlSystem twoWorkers) anyAnswers
        (idleDaemon twoWorkers false fun _ => true) _) rfl adds adding ok).mpr short⟩

/-- A bond whose name has 20 characters is not even found under it. -/
theorem bond_not_removable_under_long_name
    : ¬ ∀ (settings : Settings) (useJumbo : Bool) (initialized : Nat → Bool)
        (rest added : Config Unit Op Instr Int World Abort World Int) (op add : Op)
        (value : Int) (name : List Char) (id : Nat),
        settings.CpusConfigured
        → Run (controlSystem settings) anyAnswers (idleDaemon settings useJumbo initialized) rest
        → rest.running () = (op, .ret value)
        → add.Adds name id
        → name.length < 64
        → Run (controlSystem settings) undisturbed (called settings rest.state add) added
        → added.running () = (add, .ret 0)
        → added.state.RemovableUnder settings name id := by
  intro claim
  obtain ⟨added, adding, reached⟩ := Run.of_follow (controlSystem twoWorkers) undisturbed
    (called twoWorkers (World.initial twoWorkers false fun _ => true)
      (.bondAdd ["0000:05:08.0".toList, "0000:05:08.1".toList] "net_bonding_tenants0".toList 0))
    (answered () ([0, 0, 1, -1, -1, 0, 1] ++ List.replicate 57 0))
    (fun c => (c.running ()).1 = .bondAdd ["0000:05:08.0".toList, "0000:05:08.1".toList]
        "net_bonding_tenants0".toList 0
      && (c.running ()).2.value? = some 0
      && !virtioRelayHasDevice twoWorkers c.state 0 "net_bonding_tenants0".toList)
    (by decide +kernel)
  simp only [Bool.and_eq_true, decide_eq_true_eq, Bool.not_eq_true'] at reached
  have adds : (Op.bondAdd ["0000:05:08.0".toList, "0000:05:08.1".toList]
      "net_bonding_tenants0".toList 0).Adds "net_bonding_tenants0".toList 0 := ⟨rfl, rfl⟩
  have found := claim twoWorkers false (fun _ => true) (idleDaemon twoWorkers false fun _ => true)
    added _ _ _ "net_bonding_tenants0".toList 0 (fun _ => Or.inl rfl) .start rfl adds
    (by decide) adding (Prod.ext reached.1.1 (Prog.eq_ret_of_value? reached.1.2))
  exact Bool.false_ne_true (reached.2.symm.trans found.1)

end VirtioForwarder
