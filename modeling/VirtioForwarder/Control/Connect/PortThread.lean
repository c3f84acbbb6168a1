import VirtioForwarder.Control.Connect.AccessOrder

/-! `virtio_forwarder_add_vf2` of the port control thread keeps to its part of a connection. -/

namespace VirtioForwarder

open Program

/-- `add_vf2` has not decided yet. -/
def VfFresh (order : List Access) : Prop :=
  .vfReadsVio ∉ order ∧ .vfPublishes ∉ order

/-- `add_vf2` has read `vio.state`, and has decided on the state that it will publish. -/
structure VfDecided (state : DpdkState) (order : List Access) : Prop where
  fresh : .vfPublishes ∉ order
  read : .vfReadsVio ∈ order
  decision
    : state = .ready
        ∧ .virtioPublishes ∈ order
        ∧ ¬ [.vfReadsVio, .virtioPublishes].Sublist order
      ∨ state = .added
        ∧ (.virtioPublishes ∈ order → [.vfReadsVio, .virtioPublishes].Sublist order)

/-- A VF that will be published as ready has its port started. -/
def VfPrepared (port : Nat) (state : DpdkState) (s : World × List Access) : Prop :=
  VfDecided state s.2 ∧ (state = .ready → s.1.started port = true)

theorem PortRely.keeps_vf {w : Nat} {before after : World × List Access}
    (rely : PortRely w before after) {access : Access}
    (h : access ≠ .virtioPublishes ∧ access ≠ .virtioReadsVf)
    : access ∈ after.2 ↔ access ∈ before.2 := by
  obtain ⟨latest, ordered, ofVirtio, _⟩ := rely.order
  rw [ordered, List.mem_append, or_iff_left]
  exact fun new => (ofVirtio access new).elim h.1 h.2

theorem PortRely.decided {w : Nat} {before after : World × List Access}
    (rely : PortRely w before after) {state : DpdkState} (h : VfDecided state before.2)
    : VfDecided state after.2 := by
  refine ⟨fun new => h.fresh ((rely.keeps_vf (by decide)).mp new),
    (rely.keeps_vf (by decide)).mpr h.read, ?_⟩
  obtain ⟨latest, ordered, _, once⟩ := rely.order
  rcases h.decision with ⟨rfl, published, later⟩ | ⟨rfl, earlier⟩
  · refine Or.inl ⟨rfl, by simp [ordered, published], fun new => ?_⟩
    rw [ordered] at new
    exact later (sublist_of_append new rfl (once published))
  · refine Or.inr ⟨rfl, fun published => ?_⟩
    rw [ordered] at published ⊢
    rcases List.mem_append.mp published with old | new
    · exact (earlier old).trans (List.sublist_append_left ..)
    · exact List.Sublist.append (List.singleton_sublist.mpr h.read) (List.singleton_sublist.mpr new)

theorem VfDecided.published {state : DpdkState} {order : List Access} (h : VfDecided state order)
    (ready : state = .ready)
    : .virtioPublishes ∈ order := by
  rcases h.decision with ⟨_, published, _⟩ | ⟨added, _⟩
  · exact published
  · cases ready.symm.trans added

/-- The write of `dpdk.state` that publishes the VF. -/
theorem ConnectInv.publish {w : Nat} {s : World × List Access} (inv : ConnectInv w s) {port : Nat}
    {state : DpdkState} (prepared : VfPrepared port state s)
    (here : (s.1.relays w).dpdk.dpdkPort = port)
    : ConnectInv w (s.1.modifyRelay w (Write.dpdkState state).apply, s.2 ++ [.vfPublishes])
      ∧ VhostRely w s
          (s.1.modifyRelay w (Write.dpdkState state).apply, s.2 ++ [.vfPublishes]) := by
  obtain ⟨⟨fresh, read, decision⟩, started⟩ := prepared
  have written := World.relays_modifyRelay_self s.1 w (Write.dpdkState state).apply
  have virtio : .virtioPublishes ∈ s.2 ++ [.vfPublishes] ↔ .virtioPublishes ∈ s.2 := by simp
  have there : .vfPublishes ∈ s.2 ++ [.vfPublishes] := by simp
  refine ⟨⟨?_, fun h => absurd there h, fun _ => ?_, fun added => ?_, fun ready => ?_⟩, ?_⟩
  · simp only [written, virtio]
    exact inv.vio
  · rw [written]
    exact decision.symm.imp And.left And.left
  · rw [written] at added
    have added : state = .added := added
    rcases decision with ⟨ready, _⟩ | ⟨_, earlier⟩
    · cases ready.symm.trans added
    · refine ⟨List.mem_append_left _ read, fun published => ?_⟩
      exact (earlier (virtio.mp published)).trans (List.sublist_append_left ..)
  · rw [written] at ready ⊢
    have ready : state = .ready := ready
    rcases decision with ⟨_, published, later⟩ | ⟨added, _⟩
    · refine ⟨virtio.mpr published, ?_, fun crossed => ?_⟩
      · have up := started ready
        rw [← here] at up
        exact up
      · exact later (sublist_of_append crossed.1 rfl (by decide))
    · cases ready.symm.trans added
  · exact ⟨fun h => absurd h fresh, [.vfPublishes], rfl, by simp, Or.inr (by simp)⟩

section Port

variable {settings : Settings} {w : Nat} {dbdf : List Char} {conditional : Bool} {α : Type}
  {s : World × List Access}

theorem vfFresh_stable
    : (ConnectThread.port.contract settings w (.addVf2 dbdf w conditional)).Stable
        fun s => VfFresh s.2 :=
  fun _ _ rely _ h =>
    ⟨fun new => h.1 ((PortRely.keeps_vf rely (by decide)).mp new),
      fun new => h.2 ((PortRely.keeps_vf rely (by decide)).mp new)⟩

theorem vfDecided_stable (state : DpdkState)
    : (ConnectThread.port.contract settings w (.addVf2 dbdf w conditional)).Stable
        fun s => VfDecided state s.2 :=
  fun _ _ rely _ => PortRely.decided rely

theorem vfPrepared_stable (port : Nat) (state : DpdkState)
    : (ConnectThread.port.contract settings w (.addVf2 dbdf w conditional)).Stable
        (VfPrepared port state) :=
  fun _ _ rely _ h => ⟨PortRely.decided rely h.1, fun ready =>
    PortRely.started rely (h.1.published ready) port (h.2 ready)⟩

theorem vfPublished_stable
    : (ConnectThread.port.contract settings w (.addVf2 dbdf w conditional)).Stable
        fun s => .vfPublishes ∈ s.2 :=
  fun _ _ rely _ h => (PortRely.keeps_vf rely (by decide)).mpr h

/-- Until the VF is published, what only depends on the order survives quiet accesses. -/
theorem QuietProg.wp_port {p : Control α} (quiet : QuietProg p) {known : List Access → Prop}
    (fresh : ∀ order, known order → .vfPublishes ∉ order)
    (stable : (ConnectThread.port.contract settings w (.addVf2 dbdf w conditional)).Stable
      fun s => known s.2)
    (h : known s.2)
    : wp (recordedAccesses w (.addVf2 dbdf w conditional))
        (ConnectThread.port.contract settings w (.addVf2 dbdf w conditional)) p
        (fun _ s => known s.2) s := by
  refine quiet.wp (fun _ _ => trivial) stable (fun i hi s answer inv held _ => ?_) h
  have unrecorded := Access.of_quiet (.addVf2 dbdf w conditional) hi
  have same := hi.steady.sameStates w answer s.1
  simp only [unrecorded, Option.toList_none, List.append_nil]
  obtain ⟨inv', guar⟩ := ConnectInv.of_unpublished inv (fresh _ held)
    (i.exec w answer s.1) [] (by simp) same.vioState same.dpdkState
  rw [List.append_nil] at inv' guar
  exact ⟨inv', guar, held⟩

/-- The decision depends on whether `add_virtio` has published the guest. -/
theorem startOrStop_wp_port (port : Nat) (h : VfFresh s.2)
    : wp (recordedAccesses w (.addVf2 dbdf w conditional))
        (ConnectThread.port.contract settings w (.addVf2 dbdf w conditional))
        (startOrStop w port)
        (fun state s => ∃ decided, state = some decided ∧ VfPrepared port decided s) s := by
  refine wp.bind (wp.perform vfFresh_stable h fun s _ inv fresh _ => ?_)
  obtain ⟨inv', guar⟩ := ConnectInv.of_unpublished inv fresh.2 s.1 [.vfReadsVio] (by simp)
    rfl rfl
  refine ⟨inv', guar, ?_⟩
  have read : .vfReadsVio ∈ s.2 ++ [.vfReadsVio] := by simp
  have unpublished : .vfPublishes ∉ s.2 ++ [.vfReadsVio] := by simpa using fresh.2
  split
  · rename_i ready
    have published : .virtioPublishes ∈ s.2 := by
      by_contra absent
      rw [inv.vio, if_neg absent] at ready
      cases ready
    -- the guest was published before this first look at it
    have later : ¬ [.vfReadsVio, .virtioPublishes].Sublist (s.2 ++ [.vfReadsVio]) := fun h =>
      fresh.1 ((sublist_of_append h rfl (by decide)).subset (by simp))
    have decided : VfDecided .ready (s.2 ++ [.vfReadsVio]) :=
      ⟨unpublished, read, Or.inl ⟨rfl, List.mem_append_left _ published, later⟩⟩
    refine wp.bind (wp.perform (vfDecided_stable .ready) decided fun s answer inv decided ok => ?_)
    have success : answer = 0 := of_decide_eq_true (ok _ rfl)
    obtain ⟨inv', guar⟩ := ConnectInv.of_unpublished inv decided.fresh
      ((DriverCall.devStart port).apply answer s.1) [] (by simp)
      (by rw [DriverCall.relays_apply]) (by rw [DriverCall.relays_apply])
    refine ⟨inv', guar, ?_⟩
    rw [if_neg (not_not.mpr success)]
    refine ⟨.ready, rfl, ?_, fun _ => ?_⟩
    · change VfDecided .ready (s.2 ++ [])
      rwa [List.append_nil]
    · simp [Instr.exec, DriverCall.apply, success]
  · rename_i unready
    have absent : .virtioPublishes ∉ s.2 ++ [.vfReadsVio] := by
      intro published
      have published : .virtioPublishes ∈ s.2 := by simpa using published
      rw [inv.vio, if_pos published] at unready
      exact unready rfl
    have decided : VfDecided .added (s.2 ++ [.vfReadsVio]) :=
      ⟨unpublished, read, Or.inr ⟨rfl, fun published => absurd published absent⟩⟩
    refine wp.bind ((QuietProg.wp_port (drive_pooling _).quiet (fun _ h => h.fresh)
      (vfDecided_stable .added) decided).mono fun _ s decided => ?_)
    exact ⟨.added, rfl, decided, nofun⟩

/-- Publishing the VF: its port is known, then the state is written. -/
theorem publishVf_wp_port (port : Nat) (state : DpdkState) (h : VfPrepared port state s)
    : wp (recordedAccesses w (.addVf2 dbdf w conditional))
        (ConnectThread.port.contract settings w (.addVf2 dbdf w conditional))
        (publishVf settings w dbdf port state false 0)
        (fun _ s => .vfPublishes ∈ s.2) s := by
  have same (s s' : World × List Access) (h : Unnoticed w s s')
      : VfPrepared port state s → VfPrepared port state s' := by
    rw [VfPrepared, VfPrepared, h.order, h.started]
    exact id
  have stable' : (ConnectThread.port.contract settings w (.addVf2 dbdf w conditional)).Stable
      fun s => VfPrepared port state s ∧ (s.1.relays w).dpdk.dpdkPort = port :=
    fun _ _ rely inv h => ⟨vfPrepared_stable port state rely inv h.1,
      (PortRely.dpdkPort rely).trans h.2⟩
  have same' (s s' : World × List Access) (h : Unnoticed w s s')
      (held : VfPrepared port state s ∧ (s.1.relays w).dpdk.dpdkPort = port)
      : VfPrepared port state s' ∧ (s'.1.relays w).dpdk.dpdkPort = port :=
    ⟨same s s' h held.1, h.states.dpdkPort.trans held.2⟩
  have published (s s' : World × List Access) (h : Unnoticed w s s')
      : .vfPublishes ∈ s.2 → .vfPublishes ∈ s'.2 := by
    rw [h.order]
    exact id
  refine wp_private_bind (.perform trivial) (vfPrepared_stable port state) same h
    fun _ s prepared => ?_
  refine wp.bind (wp.perform (vfPrepared_stable port state) prepared
    fun s _ inv prepared _ => ?_)
  have written := World.relays_modifyRelay_self s.1 w (Write.dpdkPort port).apply
  obtain ⟨inv', guar⟩ := ConnectInv.of_unpublished inv prepared.1.fresh
    (s.1.modifyRelay w (Write.dpdkPort port).apply) [] (by simp) (by rw [written]; rfl)
    (by rw [written]; rfl)
  refine ⟨inv', guar, ?_⟩
  have known : VfPrepared port state (s.1.modifyRelay w (Write.dpdkPort port).apply, s.2 ++ [])
      ∧ ((s.1.modifyRelay w (Write.dpdkPort port).apply).relays w).dpdk.dpdkPort = port := by
    rw [List.append_nil, written]
    exact ⟨prepared, rfl⟩
  refine wp_private_bind (.perform trivial) stable' same' known fun _ s known => ?_
  refine wp_private_bind (findVf2virtioCpu_assigning ..).isPrivate stable' same' known
    fun _ s known => ?_
  refine wp.bind (wp.perform stable' known fun s _ inv known _ => ?_)
  obtain ⟨inv', guar⟩ := inv.publish known.1 known.2
  refine ⟨inv', guar, ?_⟩
  have there : .vfPublishes ∈ s.2 ++ [.vfPublishes] := by simp
  refine wp_private_bind (.perform trivial) vfPublished_stable published there
    fun _ s there => ?_
  refine wp_private_bind (.perform trivial) vfPublished_stable published there
    fun _ s there => ?_
  refine wp_private_bind (.perform ⟨by decide, by decide⟩) vfPublished_stable published there
    fun _ s there => ?_
  exact wp_private (flagWorker_assigning _).isPrivate vfPublished_stable published there

/-- `add_vf2` returns 0 only after it has published the VF. -/
theorem addVf2_wp_port (h : VfFresh s.2)
    : wp (recordedAccesses w (.addVf2 dbdf w conditional))
        (ConnectThread.port.contract settings w (.addVf2 dbdf w conditional))
        (addVf2 settings dbdf w conditional)
        (fun value s => value = 0 → .vfPublishes ∈ s.2) s := by
  unfold addVf2
  split
  · exact fun failed => absurd failed (by decide)
  · refine wp.bind (wp.perform vfFresh_stable h fun s _ inv fresh _ => ?_)
    obtain ⟨inv', guar⟩ := ConnectInv.of_unpublished inv fresh.2 s.1 [] (by simp) rfl rfl
    refine ⟨inv', guar, ?_⟩
    rw [if_neg (not_not.mpr (inv.unpublished fresh.2))]
    have fresh : VfFresh (s.2 ++ []) := by rwa [List.append_nil]
    refine wp.bind (wp.mono (wp.returns (QuietProg.wp_port (initVf_pooling ..).quiet (fun _ h => h.2)
      vfFresh_stable fresh) (initVf_returns settings w dbdf)) fun result s outcome => ?_)
    obtain ⟨failed, fresh⟩ := outcome
    split
    · rename_i err port
      exact fun ok => absurd ok (failed err port rfl)
    · rename_i port
      refine wp.bind (wp.bind ((startOrStop_wp_port port fresh).mono fun state s decided => ?_))
      obtain ⟨decided, rfl, prepared⟩ := decided
      refine wp.bind ((publishVf_wp_port port decided prepared).mono fun _ s published => ?_)
      exact fun _ => published

end Port

end VirtioForwarder
