import VirtioForwarder.Control.Connect.AccessOrder

/-! `virtio_forwarder_add_virtio` of the vhost thread keeps to its part of a connection. -/

namespace VirtioForwarder

open Program

/-- `add_virtio` has published the guest and not yet looked for a VF. -/
def GuestPublished (order : List Access) : Prop :=
  .virtioPublishes ∈ order ∧ ¬ [.virtioPublishes, .virtioReadsVf].Sublist order

/-- `add_virtio` has found an added VF that it has to start. -/
structure VfFound (w : Nat) (s : World × List Access) : Prop where
  added : (s.1.relays w).dpdk.state = .added
  published : .vfPublishes ∈ s.2
  looked : [.virtioPublishes, .virtioReadsVf].Sublist s.2
  before : ¬ [.virtioPublishes, .virtioReadsVf, .vfPublishes].Sublist s.2

/-- `add_virtio` has looked for a VF; one that is still added was published later. -/
structure GuestSettled (w : Nat) (s : World × List Access) : Prop where
  looked : [.virtioPublishes, .virtioReadsVf].Sublist s.2
  late
    : (s.1.relays w).dpdk.state = .added
      → [.virtioPublishes, .virtioReadsVf, .vfPublishes].Sublist s.2

theorem VhostRely.keeps_virtio {w : Nat} {before after : World × List Access}
    (rely : VhostRely w before after) {access : Access}
    (h : access ≠ .vfReadsVio ∧ access ≠ .vfPublishes)
    : access ∈ after.2 ↔ access ∈ before.2 := by
  obtain ⟨latest, ordered, ofVf, _⟩ := rely.order
  rw [ordered, List.mem_append, or_iff_left]
  exact fun new => (ofVf access new).elim h.1 h.2

theorem VhostRely.guestPublished {w : Nat} {before after : World × List Access}
    (rely : VhostRely w before after) (h : GuestPublished before.2)
    : GuestPublished after.2 := by
  refine ⟨(rely.keeps_virtio (by decide)).mpr h.1, fun looked => h.2 ?_⟩
  obtain ⟨latest, ordered, ofVf, _⟩ := rely.order
  rw [ordered] at looked
  exact sublist_of_append looked rfl fun new => (ofVf _ new).elim nofun nofun

/-- Once the VF is published the port control thread changes nothing of it. -/
theorem VhostRely.vfFound {w : Nat} {before after : World × List Access}
    (rely : VhostRely w before after) (h : VfFound w before)
    : VfFound w after := by
  obtain ⟨same, _, _⟩ := rely.published h.published
  obtain ⟨latest, ordered, _, changed⟩ := rely.order
  have empty : latest = [] := List.self_eq_append_right.mp (same.symm.trans ordered)
  refine ⟨?_, same ▸ h.published, same ▸ h.looked, same ▸ h.before⟩
  rcases changed with unchanged | new
  · exact unchanged.trans h.added
  · simp [empty] at new

theorem VhostRely.guestSettled {w : Nat} {before after : World × List Access}
    (rely : VhostRely w before after) (h : GuestSettled w before)
    : GuestSettled w after := by
  obtain ⟨latest, ordered, _, changed⟩ := rely.order
  refine ⟨?_, fun added => ?_⟩
  · rw [ordered]
    exact h.looked.trans (List.sublist_append_left ..)
  · rw [ordered]
    rcases changed with same | new
    · exact (h.late (same ▸ added)).trans (List.sublist_append_left ..)
    · exact List.Sublist.append h.looked (List.singleton_sublist.mpr new)

/-- `add_virtio` publishes the guest. -/
theorem ConnectInv.connect {w : Nat} {s : World × List Access} (inv : ConnectInv w s)
    (fresh : .virtioPublishes ∉ s.2)
    : ConnectInv w
        (s.1.modifyRelay w (Write.vioState .ready).apply, s.2 ++ [Access.virtioPublishes])
      ∧ PortRely w s
          (s.1.modifyRelay w (Write.vioState .ready).apply, s.2 ++ [Access.virtioPublishes])
      ∧ GuestPublished (s.2 ++ [Access.virtioPublishes]) := by
  have written := World.relays_modifyRelay_self s.1 w (Write.vioState .ready).apply
  have there : Access.virtioPublishes ∈ s.2 ++ [Access.virtioPublishes] := by simp
  have vf : Access.vfPublishes ∈ s.2 ++ [Access.virtioPublishes] ↔ Access.vfPublishes ∈ s.2 := by
    simp
  refine ⟨⟨?_, ?_, ?_, fun added => ?_, fun ready => ?_⟩, ?_, there, fun looked => ?_⟩
  · simp only [written, if_pos there]
    rfl
  · simp only [written, vf]
    exact inv.unpublished
  · simp only [written, vf]
    exact inv.published
  · rw [written] at added
    have read := (inv.added added).1
    refine ⟨List.mem_append_left _ read, fun _ => ?_⟩
    exact List.Sublist.append (List.singleton_sublist.mpr read) (List.Sublist.refl _)
  · rw [written] at ready
    exact absurd (inv.ready ready).1 fresh
  · refine ⟨by rw [written]; rfl, fun h => absurd h fresh, [.virtioPublishes], rfl, by simp, ?_⟩
    exact fun h => absurd h fresh
  · have before := sublist_of_append looked rfl (by decide)
    exact fresh (before.subset (by simp))

/-- `add_virtio` looks for a VF. -/
theorem ConnectInv.look {w : Nat} {s : World × List Access} (inv : ConnectInv w s)
    (published : GuestPublished s.2)
    : ConnectInv w (s.1, s.2 ++ [Access.virtioReadsVf])
      ∧ PortRely w s (s.1, s.2 ++ [Access.virtioReadsVf])
      ∧ [Access.virtioPublishes, .virtioReadsVf].Sublist (s.2 ++ [Access.virtioReadsVf])
      ∧ ¬ [Access.virtioPublishes, .virtioReadsVf, .vfPublishes].Sublist
          (s.2 ++ [Access.virtioReadsVf]) := by
  have notLate : ¬ [Access.virtioPublishes, .virtioReadsVf, .vfPublishes].Sublist
      (s.2 ++ [Access.virtioReadsVf]) := by
    intro late
    have before := sublist_of_append late rfl (by decide)
    exact published.2 ((by decide : [_, _].Sublist [_, _, _]).trans before)
  have others {access : Access} (h : access ≠ .virtioReadsVf)
      : access ∈ s.2 ++ [.virtioReadsVf] ↔ access ∈ s.2 := by
    simp [h]
  refine ⟨⟨?_, ?_, ?_, fun added => ?_, fun ready => ?_⟩, ?_, ?_, notLate⟩
  · simp only [others (by decide : Access.virtioPublishes ≠ .virtioReadsVf)]
    exact inv.vio
  · rw [others (by decide)]
    exact inv.unpublished
  · rw [others (by decide)]
    exact inv.published
  · obtain ⟨read, earlier⟩ := inv.added added
    refine ⟨List.mem_append_left _ read, fun _ => ?_⟩
    exact (earlier published.1).trans (List.sublist_append_left ..)
  · obtain ⟨there, started, _⟩ := inv.ready ready
    exact ⟨List.mem_append_left _ there, started, fun crossed => notLate crossed.2⟩
  · exact ⟨rfl, fun _ _ => id, [.virtioReadsVf], rfl, by simp, by simp⟩
  · exact List.Sublist.append (List.singleton_sublist.mpr published.1) (List.Sublist.refl _)

/-- The port of an added VF is started. -/
theorem ConnectInv.start {w : Nat} {s : World × List Access} (inv : ConnectInv w s)
    (added : (s.1.relays w).dpdk.state = .added) (port : Nat)
    : ConnectInv w ((DriverCall.devStart port).apply 0 s.1, s.2)
      ∧ PortRely w s ((DriverCall.devStart port).apply 0 s.1, s.2) := by
  refine ⟨⟨inv.vio, inv.unpublished, inv.published, inv.added, fun ready => ?_⟩, rfl, ?_,
    [], by simp, by simp, by simp⟩
  · cases added.symm.trans ready
  · intro _ other up
    by_cases same : other = port
    · simp [DriverCall.apply, same]
    · simpa [DriverCall.apply, same] using up

/-- An added VF whose port has been started becomes ready. -/
theorem ConnectInv.makeReady {w : Nat} {s : World × List Access} (inv : ConnectInv w s)
    (found : VfFound w s) (started : s.1.started (s.1.relays w).dpdk.dpdkPort = true)
    : ConnectInv w (s.1.modifyRelay w (Write.dpdkState .ready).apply, s.2)
      ∧ PortRely w s (s.1.modifyRelay w (Write.dpdkState .ready).apply, s.2)
      ∧ GuestSettled w (s.1.modifyRelay w (Write.dpdkState .ready).apply, s.2) := by
  have written := World.relays_modifyRelay_self s.1 w (Write.dpdkState .ready).apply
  refine ⟨⟨?_, fun h => absurd found.published h, ?_, ?_, ?_⟩, ?_, found.looked, ?_⟩
  · simp only [written]
    exact inv.vio
  · rw [written]
    exact fun _ => Or.inr rfl
  · rw [written]
    exact nofun
  · rw [written]
    refine fun _ => ⟨found.looked.subset (by simp), started, fun crossed => ?_⟩
    exact found.before crossed.2
  · refine ⟨by rw [written]; rfl, fun _ _ => id, [], by simp, by simp, by simp⟩
  · rw [written]
    exact nofun

section Vhost

variable {settings : Settings} {w : Nat} {virtionet : Int} {α : Type} {s : World × List Access}

theorem unconnected_stable
    : (ConnectThread.vhost.contract settings w (.addVirtio virtionet w)).Stable
        fun s => .virtioPublishes ∉ s.2 :=
  fun _ _ rely _ h new => h ((VhostRely.keeps_virtio rely (by decide)).mp new)

/-- Until the guest is published, steady accesses keep it unpublished. -/
theorem AssertingProg.wp_vhost {p : Control α} (steady : AssertingProg p)
    (h : .virtioPublishes ∉ s.2)
    : wp (recordedAccesses w (.addVirtio virtionet w))
        (ConnectThread.vhost.contract settings w (.addVirtio virtionet w)) p
        (fun _ s => .virtioPublishes ∉ s.2) s := by
  refine steady.wp (fun _ _ => trivial) unconnected_stable (fun i hi s answer inv fresh _ => ?_) h
  have ofVirtio := Access.of_steady virtionet w hi
  obtain ⟨inv', guar⟩ := ConnectInv.of_unconnected inv fresh (i.exec w answer s.1) _ ofVirtio
    (hi.sameStates w answer s.1)
  refine ⟨inv', guar, fun new => ?_⟩
  rcases List.mem_append.mp new with old | new
  · exact fresh old
  · cases ofVirtio _ new

theorem wp_steady_bind {β : Type} {p : Control α} {next : α → Control β}
    {post : β → World × List Access → Prop} (steady : AssertingProg p)
    (h : .virtioPublishes ∉ s.2)
    (rest : ∀ a (s : World × List Access), .virtioPublishes ∉ s.2
      → wp (recordedAccesses w (.addVirtio virtionet w))
          (ConnectThread.vhost.contract settings w (.addVirtio virtionet w)) (next a) post s)
    : wp (recordedAccesses w (.addVirtio virtionet w))
        (ConnectThread.vhost.contract settings w (.addVirtio virtionet w)) (p >>= next) post s :=
  wp.bind ((steady.wp_vhost h).mono rest)

theorem Unnoticed.vfFound {s s' : World × List Access} (same : Unnoticed w s s')
    (h : VfFound w s)
    : VfFound w s' := by
  refine ⟨same.states.dpdkState.trans h.added, ?_, ?_, ?_⟩
  · exact same.order ▸ h.published
  · exact same.order ▸ h.looked
  · exact same.order ▸ h.before

theorem Unnoticed.guestSettled {s s' : World × List Access} (same : Unnoticed w s s')
    (h : GuestSettled w s)
    : GuestSettled w s' := by
  refine ⟨same.order ▸ h.looked, fun added => ?_⟩
  rw [same.states.dpdkState] at added
  exact same.order ▸ h.late added

/-- The port of the VF that was found is started. -/
def VfStarted (w : Nat) (s : World × List Access) : Prop :=
  VfFound w s ∧ s.1.started (s.1.relays w).dpdk.dpdkPort = true

theorem Unnoticed.vfStarted {s s' : World × List Access} (same : Unnoticed w s s')
    (h : VfStarted w s)
    : VfStarted w s' := by
  refine ⟨same.vfFound h.1, ?_⟩
  rw [same.started, same.states.dpdkPort]
  exact h.2

theorem vfFound_stable
    : (ConnectThread.vhost.contract settings w (.addVirtio virtionet w)).Stable (VfFound w) :=
  fun _ _ rely _ => VhostRely.vfFound rely

theorem vfStarted_stable
    : (ConnectThread.vhost.contract settings w (.addVirtio virtionet w)).Stable
        (VfStarted w) := by
  intro _ _ rely inv h
  obtain ⟨_, port, started⟩ := VhostRely.published rely h.1.published
  refine ⟨vfFound_stable rely inv h.1, ?_⟩
  rw [port, started]
  exact h.2

theorem guestSettled_stable
    : (ConnectThread.vhost.contract settings w (.addVirtio virtionet w)).Stable
        (GuestSettled w) :=
  fun _ _ rely _ => VhostRely.guestSettled rely

/-- A successful start of the VF that was found. -/
theorem devStart_wp_vhost {port : Nat} (h : VfFound w s)
    (known : (s.1.relays w).dpdk.dpdkPort = port)
    : wp (recordedAccesses w (.addVirtio virtionet w))
        (ConnectThread.vhost.contract settings w (.addVirtio virtionet w))
        (drive (.devStart port)) (fun answer s => answer = 0 ∧ VfStarted w s) s := by
  -- nobody moves a published VF to another port
  have stable : (ConnectThread.vhost.contract settings w (.addVirtio virtionet w)).Stable
      fun s => VfFound w s ∧ (s.1.relays w).dpdk.dpdkPort = port :=
    fun _ _ rely inv h => ⟨vfFound_stable rely inv h.1,
      (VhostRely.published rely h.1.published).2.1.trans h.2⟩
  refine wp.perform stable ⟨h, known⟩ fun s answer inv found ok => ?_
  have success : answer = 0 := of_decide_eq_true (ok _ rfl)
  subst success
  obtain ⟨inv', guar⟩ := ConnectInv.start inv found.1.added port
  have executed
      : (recordedAccesses w (.addVirtio virtionet w)).exec (.call (.devStart port)) 0 s
        = ((DriverCall.devStart port).apply 0 s.1, s.2) :=
    Prod.ext rfl (List.append_nil _)
  rw [executed]
  obtain ⟨⟨added, published, looked, before⟩, known⟩ := found
  exact ⟨inv', guar, rfl, ⟨added, published, looked, before⟩,
    by simp [DriverCall.apply, known]⟩

/-- A VF whose port is started is made ready, and its worker is flagged. -/
theorem makeReady_wp_vhost (h : VfStarted w s)
    : wp (recordedAccesses w (.addVirtio virtionet w))
        (ConnectThread.vhost.contract settings w (.addVirtio virtionet w))
        (do
          assign (.dpdkState .ready)
          flagWorker (← look w .vf2vioCpu).dpdk.vf2vioCpu)
        (fun _ s => GuestSettled w s) s := by
  refine wp.bind (wp.perform vfStarted_stable h fun s answer inv ready _ => ?_)
  obtain ⟨inv', guar, settled⟩ := ConnectInv.makeReady inv ready.1 ready.2
  have executed
      : (recordedAccesses w (.addVirtio virtionet w)).exec (.write (.dpdkState .ready)) answer s
        = (s.1.modifyRelay w (Write.dpdkState .ready).apply, s.2) :=
    Prod.ext rfl (List.append_nil _)
  rw [executed]
  refine ⟨inv', guar, ?_⟩
  refine wp.bind (wp_read (by decide) guestSettled_stable settled fun s settled => ?_)
  exact wp_private (flagWorker_assigning _).isPrivate guestSettled_stable
    (fun _ _ => Unnoticed.guestSettled) settled

/-- The VF that is found is started, unless it is published only later. -/
theorem startAddedVf_wp_vhost (h : GuestPublished s.2)
    : wp (recordedAccesses w (.addVirtio virtionet w))
        (ConnectThread.vhost.contract settings w (.addVirtio virtionet w))
        (startAddedVf settings w) (fun _ s => GuestSettled w s) s := by
  refine wp.bind (wp.perform (fun _ _ rely _ => VhostRely.guestPublished rely) h
    fun s _ inv published _ => ?_)
  obtain ⟨inv', guar, looked, notLate⟩ := ConnectInv.look inv published
  refine ⟨inv', guar, ?_⟩
  split
  · rename_i notAdded
    exact ⟨looked, fun added => absurd added notAdded⟩
  · rename_i added
    have added := not_not.mp added
    have found : VfFound w (s.1, s.2 ++ [.virtioReadsVf]) := by
      refine ⟨added, ?_, looked, notLate⟩
      by_contra unpublished
      cases added.symm.trans (inv'.unpublished unpublished)
    refine wp_private_bind (findVf2virtioCpu_assigning ..).isPrivate vfFound_stable
      (fun _ _ => Unnoticed.vfFound) found fun _ s found => ?_
    refine wp.bind (wp_read (by decide) vfFound_stable found fun s found => ?_)
    refine wp.bind ((devStart_wp_vhost found rfl).mono fun answer s started => ?_)
    rw [if_neg (not_not.mpr started.1)]
    refine wp_private_bind (.perform trivial) vfStarted_stable
      (fun _ _ => Unnoticed.vfStarted) started.2 fun _ s started => ?_
    exact makeReady_wp_vhost started

/-- `add_virtio` returns 0 only after it has looked for a VF. -/
theorem addVirtio_wp_vhost (h : .virtioPublishes ∉ s.2)
    : wp (recordedAccesses w (.addVirtio virtionet w))
        (ConnectThread.vhost.contract settings w (.addVirtio virtionet w))
        (addVirtio settings virtionet w) (fun value s => value = 0 → GuestSettled w s) s := by
  have failed (s : World × List Access) : (-1 : Int) = 0 → GuestSettled w s :=
    fun h => absurd h (by decide)
  unfold addVirtio
  split
  · exact failed _
  · refine wp.bind (wp.perform unconnected_stable h fun s _ inv fresh _ => ?_)
    obtain ⟨inv', guar⟩ := ConnectInv.of_unconnected inv fresh s.1 [] (by simp) ⟨rfl, rfl, rfl⟩
    refine ⟨inv', guar, ?_⟩
    have fresh : .virtioPublishes ∉ s.2 ++ [] := by rwa [List.append_nil]
    split
    · exact failed _
    · refine wp_steady_bind (.perform trivial) fresh fun _ s fresh => ?_
      refine wp_steady_bind (.perform trivial) fresh fun _ s fresh => ?_
      refine wp_steady_bind (.perform trivial) fresh fun rings s fresh => ?_
      refine wp_steady_bind (.perform trivial) fresh fun _ s fresh => ?_
      split
      · exact failed _
      · refine wp_steady_bind (.perform trivial) fresh fun newnode s fresh => ?_
        refine wp_steady_bind (alignMempool_aborting ..).asserting fresh fun ok s fresh => ?_
        split
        · exact failed _
        · refine wp_private_bind (findVirtio2vfCpu_assigning ..).isPrivate unconnected_stable
            (fun _ _ same => same.order ▸ id) fresh fun _ s fresh => ?_
          refine wp_steady_bind (.perform trivial) fresh fun relay s fresh => ?_
          dsimp only
          split
          · exact failed _
          · refine wp.bind (wp.perform unconnected_stable fresh fun s _ inv fresh _ => ?_)
            obtain ⟨inv', guar, published⟩ := ConnectInv.connect inv fresh
            refine ⟨inv', guar, ?_⟩
            have stable
                : (ConnectThread.vhost.contract settings w (.addVirtio virtionet w)).Stable
                    fun s => GuestPublished s.2 :=
              fun _ _ rely _ => VhostRely.guestPublished rely
            refine wp.bind (wp_read (by decide) stable published fun s published => ?_)
            refine wp_private_bind (flagWorker_assigning _).isPrivate stable
              (fun _ _ same => same.order ▸ id) published fun _ s published => ?_
            exact wp.bind ((startAddedVf_wp_vhost published).mono fun _ s settled _ => settled)

end Vhost

end VirtioForwarder
