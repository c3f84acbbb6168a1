import VirtioForwarder.Control.Frame

/-! The scan of `virtio_rx` for the next enabled TX pair, in all runs of the vhost callbacks.
The scan ends exactly if some pair that it visits is enabled. The callbacks keep the bitmap
apart from `vio.state`, so a ready guest need not have such a pair.
-/

namespace VirtioForwarder

open Program Bits

-----------------------------------------------------------------------------------------
-- The scan
-----------------------------------------------------------------------------------------

/-- Some TX pair that the scan of `virtio_rx` visits is enabled. Without any queue pair the
scan still visits pair 0.
-/
def RelayVirtio.TxEnabled (vio : RelayVirtio) : Prop :=
  ∃ pair < max 1 vio.maxQueuePairs, vio.txQBitmap.getLsbD pair = true

instance (vio : RelayVirtio) : Decidable vio.TxEnabled :=
  inferInstanceAs (Decidable (∃ pair < max 1 vio.maxQueuePairs, _))

/-- Rounds of the scan from position `rr` until it visits `pair`. -/
def roundsTo (maxQueuePairs pair rr : Nat) : Nat :=
  if rr < pair then pair - rr
  else if rr < maxQueuePairs then maxQueuePairs - rr + pair
  else 1 + pair

/-- Every round that does not visit the pair comes closer to it; the wrap to 0 has all of
`pair` still ahead.
-/
theorem roundsTo_next {maxQueuePairs pair rr next : Nat} (below : pair < max 1 maxQueuePairs)
    (position : (if rr + 1 ≥ maxQueuePairs then 0 else rr + 1) = next) (away : next ≠ pair)
    : roundsTo maxQueuePairs pair next < roundsTo maxQueuePairs pair rr := by
  unfold roundsTo
  grind

/-- The scan ends at an enabled pair at the latest, by induction on the rounds left. -/
theorem advanceTxQRr_isSome {bitmap : BitVec 64} {maxQueuePairs pair rounds rr : Nat}
    (below : pair < max 1 maxQueuePairs) (enabled : bitmap.getLsbD pair = true)
    (enough : roundsTo maxQueuePairs pair rr ≤ rounds)
    : (advanceTxQRr bitmap maxQueuePairs rounds rr).isSome = true := by
  induction rounds generalizing rr with
  | zero =>
      unfold roundsTo at enough
      split at enough
      · omega
      · split at enough <;> omega
  | succ rounds ih =>
      unfold advanceTxQRr
      dsimp only
      generalize position : (if rr + 1 ≥ maxQueuePairs then 0 else rr + 1) = next
      by_cases here : bitmap.getLsbD next = true
      · simp [here]
      · rw [if_neg here]
        have away : next ≠ pair := by
          rintro rfl
          exact here enabled
        have closer := roundsTo_next below position away
        apply ih
        omega

/-- A scan that ends has visited an enabled pair. -/
theorem enabled_of_advanceTxQRr {bitmap : BitVec 64} {maxQueuePairs rounds rr next : Nat}
    (h : advanceTxQRr bitmap maxQueuePairs rounds rr = some next)
    : next < max 1 maxQueuePairs ∧ bitmap.getLsbD next = true := by
  induction rounds generalizing rr with
  | zero => cases h
  | succ rounds ih =>
      unfold advanceTxQRr at h
      dsimp only at h
      generalize position : (if rr + 1 ≥ maxQueuePairs then 0 else rr + 1) = visited at h
      by_cases here : bitmap.getLsbD visited = true
      · rw [if_pos here] at h
        cases Option.some.inj h
        refine ⟨?_, here⟩
        split at position <;> omega
      · rw [if_neg here] at h
        exact ih h

/-- The scan ends exactly if it visits an enabled pair, and then within the rounds that
`virtioRx` gives it.
-/
theorem scan_ends_iff (vio : RelayVirtio)
    : (∃ rounds next,
        advanceTxQRr vio.txQBitmap vio.maxQueuePairs rounds vio.txQRr = some next)
      ↔ vio.TxEnabled := by
  constructor
  · rintro ⟨rounds, next, ended⟩
    exact ⟨next, enabled_of_advanceTxQRr ended⟩
  · rintro ⟨pair, below, enabled⟩
    exact ⟨_, Option.isSome_iff_exists.mp (advanceTxQRr_isSome below enabled (Nat.le_refl _))⟩

/-- With an enabled pair `virtio_rx` returns. -/
theorem virtioRx_returns {relay : Relay} (h : relay.vio.TxEnabled) (io : VmToVfIO)
    : ∃ out, virtioRx relay io = .ok out := by
  obtain ⟨pair, below, enabled⟩ := h
  have enough : roundsTo relay.vio.maxQueuePairs pair relay.vio.txQRr
      ≤ relay.vio.maxQueuePairs + 1 := by
    unfold roundsTo
    split
    · omega
    · split <;> omega
  obtain ⟨next, ended⟩ := Option.isSome_iff_exists.mp (advanceTxQRr_isSome below enabled enough)
  unfold virtioRx
  dsimp only
  split
  · exact ⟨_, rfl⟩
  · rw [ended]
    exact ⟨_, rfl⟩

-----------------------------------------------------------------------------------------
-- The callbacks
-----------------------------------------------------------------------------------------

/-- Every ready guest has a TX pair at which the scan ends. -/
def World.ReadyEnabled (world : World) : Prop :=
  ∀ id, (world.relays id).vio.state = .ready → (world.relays id).vio.TxEnabled

/-- The scan of a relay is left as it is. -/
structure Relay.SameScan (before after : Relay) : Prop where
  vioState : after.vio.state = .ready → before.vio.state = .ready
  txQBitmap : after.vio.txQBitmap = before.vio.txQBitmap
  maxQueuePairs : after.vio.maxQueuePairs = before.vio.maxQueuePairs

theorem Relay.SameScan.refl (relay : Relay) : relay.SameScan relay :=
  ⟨fun ready => ready, rfl, rfl⟩

theorem Relay.SameScan.enabled {before after : Relay} (same : before.SameScan after)
    (h : before.vio.state = .ready → before.vio.TxEnabled) (ready : after.vio.state = .ready)
    : after.vio.TxEnabled := by
  obtain ⟨pair, below, enabled⟩ := h (same.vioState ready)
  refine ⟨pair, ?_, ?_⟩
  · rwa [same.maxQueuePairs]
  · rwa [same.txQBitmap]

theorem World.ReadyEnabled.of_sameScan {before after : World} (h : before.ReadyEnabled)
    (same : ∀ id, (before.relays id).SameScan (after.relays id))
    : after.ReadyEnabled :=
  fun id => (same id).enabled (h id)

/-- A relay changes to one with a scan that ends, or is not ready. -/
theorem World.ReadyEnabled.modify {world : World} (h : world.ReadyEnabled) {id : Nat}
    {f : Relay → Relay}
    (here : (f (world.relays id)).vio.state = .ready → (f (world.relays id)).vio.TxEnabled)
    : (world.modifyRelay id f).ReadyEnabled := by
  intro other
  rcases eq_or_ne other id with rfl | away
  · rw [World.relays_modifyRelay_self]
    exact here
  · rw [World.relays_modifyRelay_of_ne world f away]
    exact h other

/-- A ring notification leaves a ready guest a TX pair for the scan: it does not disable the
last one. Its queue id is one for which the shift of the bitmap is defined.
-/
def Event.LeavesTxPair (event : Event) (world : World) : Prop :=
  match event with
  | .vringStateChange id change =>
      change.queueId < 128
      ∧ ((world.relays id).vio.state = .ready
        → change.queueId % 2 = 1
        → change.enable = false
        → ∃ pair < max 1 (world.relays id).vio.maxQueuePairs,
            pair ≠ change.queueId / 2
            ∧ (world.relays id).vio.txQBitmap.getLsbD pair = true)
  | _ => True

instance (event : Event) (world : World) : Decidable (event.LeavesTxPair world) :=
  match event with
  | .vringStateChange _ _ => inferInstanceAs (Decidable (_ ∧ (_ → _ → _ → ∃ pair < _, _)))
  | .vm2vf _ _ | .vf2vm _ _ | .updateThread _ | .setLmPending _ => .isTrue trivial

/-- A notification that leaves a TX pair keeps the scan of a ready guest finite. -/
theorem vringStateChange_enabled {relay : Relay} {change : VringChange}
    (shift : change.queueId < 128)
    (leaves : change.queueId % 2 = 1 → change.enable = false
      → ∃ pair < max 1 relay.vio.maxQueuePairs,
          pair ≠ change.queueId / 2 ∧ relay.vio.txQBitmap.getLsbD pair = true)
    (h : relay.vio.TxEnabled)
    : (vringStateChange relay change.queueId change.enable).vio.TxEnabled := by
  have fits : change.queueId / 2 < 64 := by omega
  unfold vringStateChange RelayVirtio.deriveQueues RelayVirtio.TxEnabled
  dsimp only
  by_cases tx : change.queueId % 2 = 1
  · simp only [tx, if_true, getLsbD_assignBit fits]
    cases enable : change.enable with
    | true =>
        obtain ⟨pair, below, enabled⟩ := h
        refine ⟨pair, below, ?_⟩
        split
        · rfl
        · exact enabled
    | false =>
        obtain ⟨pair, below, away, enabled⟩ := leaves tx enable
        refine ⟨pair, below, ?_⟩
        rwa [if_neg away]
  · simp only [tx, if_false]
    exact h

/-- Events that leave a TX pair keep the scan of every ready guest finite, and no event
makes a guest ready.
-/
theorem Event.readyEnabled {settings : Settings} {event : Event} {world after : World}
    (h : world.ReadyEnabled) (leaves : event.LeavesTxPair world)
    (happened : event.apply settings world = some after)
    : after.ReadyEnabled := by
  have iteration {id : Nat} {relay : Relay} (same : SameSetup (world.relays id) relay)
      (served : (world.relays id).Served relay)
      : (world.modifyRelay id fun _ => relay).ReadyEnabled := by
    refine h.modify (Relay.SameScan.enabled ?_ (h id))
    have state := served.vioState
    obtain ⟨_, _, _, ⟨_, _, _, _, rfl⟩, rfl⟩ := same
    exact ⟨fun ready => by grind, rfl, rfl⟩
  cases event with
  | vm2vf id io =>
      simp only [Event.apply] at happened
      split at happened
      · rename_i out returned
        cases Option.some.inj happened
        have effect := relayVm2vfTraffic_effect returned
        exact iteration effect.setup effect.served
      · cases happened
  | vf2vm id io =>
      simp only [Event.apply] at happened
      split at happened
      · rename_i out returned
        cases Option.some.inj happened
        have effect := relayVf2vmTraffic_effect returned
        exact iteration effect.setup effect.served
      · cases happened
  | updateThread cpu =>
      cases Option.some.inj happened
      exact h
  | vringStateChange id change =>
      cases Option.some.inj happened
      refine h.modify fun ready => ?_
      have before : (world.relays id).vio.state = .ready := by
        unfold VirtioForwarder.vringStateChange RelayVirtio.deriveQueues at ready
        dsimp only at ready
        split at ready <;> exact ready
      exact vringStateChange_enabled leaves.1 (leaves.2 before) (h id before)
  | setLmPending id =>
      cases Option.some.inj happened
      exact h.modify (h id)

/-- Accesses that leave `vio.state` alone. -/
def Instr.KeepsVioState : Instr → Prop
  | .write (.vioState _) => False
  | _ => True

/-- Accesses that leave the scan alone. -/
def Instr.SparesScan : Instr → Prop
  | .write (.vioState _) | .write (.maxQueuePairs _) | .write (.txQBitmap _) => False
  | _ => True

theorem Instr.Steady.keepsVioState {instr : Instr} (h : instr.Steady) : instr.KeepsVioState := by
  cases instr with
  | write assignment =>
      cases assignment with
      | vioState => exact h.elim
      | _ => trivial
  | _ => trivial

theorem Instr.Assigning.sparesScan {instr : Instr} (h : instr.Assigning) : instr.SparesScan := by
  cases instr with
  | write assignment =>
      cases assignment with
      | vioState | maxQueuePairs | txQBitmap => exact h.elim
      | _ => trivial
  | _ => trivial

theorem Instr.SparesScan.keepsVioState {instr : Instr} (h : instr.SparesScan)
    : instr.KeepsVioState := by
  cases instr with
  | write assignment =>
      cases assignment with
      | vioState => exact h.elim
      | _ => trivial
  | _ => trivial

theorem Instr.KeepsVioState.vioState {instr : Instr} (h : instr.KeepsVioState) (id : Nat)
    (answer : Int) (world : World)
    : ((instr.exec id answer world).relays id).vio.state = (world.relays id).vio.state := by
  cases instr with
  | write assignment =>
      change ((world.modifyRelay id assignment.apply).relays id).vio.state = _
      rw [World.relays_modifyRelay_self]
      cases assignment with
      | vioState => exact h.elim
      | _ => rfl
  | call request =>
      change ((request.apply answer world).relays id).vio.state = _
      rw [DriverCall.relays_apply]
  | _ => rfl

theorem Instr.SparesScan.sameScan {instr : Instr} (h : instr.SparesScan) (id : Nat)
    (answer : Int) (world : World) (other : Nat)
    : (world.relays other).SameScan ((instr.exec id answer world).relays other) := by
  rcases eq_or_ne other id with rfl | away
  · refine ⟨fun ready => (h.keepsVioState.vioState other answer world).symm.trans ready, ?_, ?_⟩
    all_goals
      cases instr with
      | write assignment =>
          simp only [Instr.exec, World.relays_modifyRelay_self]
          cases assignment with
          | vioState | maxQueuePairs | txQBitmap => exact h.elim
          | _ => rfl
      | call request => simp only [Instr.exec, DriverCall.relays_apply]
      | _ => rfl
  · rw [Instr.relays_exec_of_ne away]
    exact .refl _

section Operations

variable {settings : Settings} {policy : Policy Unit Op Instr Int World} {op : Op} {id : Nat}
  {world : World} {α : Type}

/-- What the callbacks rely on: the workers make no guest ready. -/
def World.NoneReadied (before after : World) : Prop :=
  ∀ id, (after.relays id).vio.state = .ready → (before.relays id).vio.state = .ready

/-- The contract of a callback. -/
abbrev scanContract (policy : Policy Unit Op Instr Int World) (op : Op)
    : Contract Instr Int Abort World :=
  ⟨World.ReadyEnabled, World.NoneReadied, fun _ _ => True, policy.instr op, fun _ => True⟩

/-- The guest of relay `id` is not ready. -/
def World.Unready (id : Nat) (world : World) : Prop :=
  (world.relays id).vio.state ≠ .ready

theorem unready_stable : (scanContract policy op).Stable (World.Unready id) :=
  fun _ _ later _ unready ready => unready (later id ready)

/-- While the guest is not ready, every access that leaves its state alone is harmless. -/
theorem wp_unready {p : Control α} (all : p.All Instr.KeepsVioState fun _ => True)
    (h : world.Unready id)
    : wp (accesses id) (scanContract policy op) p (fun _ => World.Unready id) world := by
  refine all.wp (fun _ _ => trivial) unready_stable (fun i keeps s answer inv unready _ => ?_) h
  have state := keeps.vioState id answer s
  have stays : (i.exec id answer s).Unready id := fun ready => unready (state.symm.trans ready)
  refine ⟨fun other ready => ?_, trivial, stays⟩
  rcases eq_or_ne other id with rfl | away
  · exact absurd ready stays
  · change ((i.exec id answer s).relays other).vio.TxEnabled
    change ((i.exec id answer s).relays other).vio.state = .ready at ready
    rw [Instr.relays_exec_of_ne away] at ready ⊢
    exact inv other ready

theorem wp_unready_bind {β : Type} {p : Control α} {next : α → Control β}
    {post : β → World → Prop} (h : world.Unready id)
    (all : p.All Instr.KeepsVioState fun _ => True)
    (rest : ∀ a s, s.Unready id → wp (accesses id) (scanContract policy op) (next a) post s)
    : wp (accesses id) (scanContract policy op) (p >>= next) post world :=
  wp.bind ((wp_unready all h).mono rest)

/-- Accesses that leave the scan alone are always harmless. -/
theorem wp_sparing {p : Control α} (all : p.All Instr.SparesScan fun _ => True)
    : wp (accesses id) (scanContract policy op) p (fun _ _ => True) world :=
  all.wp (fun _ _ => trivial) (fun _ _ _ _ h => h)
    (fun _ spares s answer inv _ _ =>
      ⟨inv.of_sameScan (spares.sameScan id answer s), trivial, trivial⟩)
    trivial

theorem startAddedVf_sparing (settings : Settings) (id : Nat)
    : (startAddedVf settings id).All Instr.SparesScan fun _ => True := by
  have flags (cpu : Int) : (flagWorker cpu).All Instr.SparesScan fun _ => True :=
    (flagWorker_assigning cpu).mono (fun _ => Instr.Assigning.sparesScan) fun _ _ => trivial
  refine .bind (.perform trivial) fun relay => ?_
  split
  · trivial
  · refine .bind ((findVf2virtioCpu_assigning ..).mono (fun _ => Instr.Assigning.sparesScan)
      fun _ _ => trivial) fun _ => ?_
    refine .bind (.perform trivial) fun relay => .bind (.perform trivial) fun err => ?_
    split
    · trivial
    · exact .bind (.perform trivial) fun _ => .bind (.perform trivial) fun _ =>
        .bind (.perform trivial) fun _ => flags _

/-- `add_virtio` sets the scan up before it makes the guest ready, and only makes a guest
ready that the policy lets it.
-/
theorem addVirtio_scan {virtionet : Int}
    (readies : ∀ answer s, policy.instr op (.write (.vioState .ready)) answer s
      → (s.relays id).vio.TxEnabled)
    : wp (accesses id) (scanContract policy op) (addVirtio settings virtionet id)
        (fun _ _ => True) world := by
  unfold addVirtio
  split
  · trivial
  · refine wp.bind (wp_look_only (fun _ => trivial) fun s _ => ?_)
    split
    · trivial
    · rename_i uninit
      have unready : s.Unready id := by
        intro ready
        exact uninit fun uninit => VioState.noConfusion (uninit.symm.trans ready)
      refine wp_unready_bind unready (.perform trivial) fun _ s unready => ?_
      refine wp_unready_bind unready (.perform trivial) fun _ s unready => ?_
      refine wp_unready_bind unready (.perform trivial) fun rings s unready => ?_
      refine wp_unready_bind unready (.perform trivial) fun _ s unready => ?_
      dsimp only
      split
      · trivial
      · refine wp_unready_bind unready (.perform trivial) fun node s unready => ?_
        refine wp_unready_bind unready ((alignMempool_aborting ..).asserting.mono
          (fun _ => Instr.Steady.keepsVioState) fun _ _ => trivial) fun aligned s unready => ?_
        split
        · trivial
        · refine wp_unready_bind unready ((findVirtio2vfCpu_assigning ..).mono
            (fun _ assigning => assigning.sparesScan.keepsVioState) fun _ _ => trivial)
            fun _ s unready => ?_
          refine wp_unready_bind unready (.perform trivial) fun relay s unready => ?_
          split
          · trivial
          · refine wp.bind (wp_assign unready_stable unready fun s answer inv unready admitted => ?_)
            refine ⟨inv.modify fun _ => readies answer s admitted, trivial, ?_⟩
            refine wp_sparing (.bind (.perform trivial) fun relay => .bind ?_ fun _ =>
              .bind (startAddedVf_sparing ..) fun _ => trivial)
            exact (flagWorker_assigning _).mono (fun _ => Instr.Assigning.sparesScan)
              fun _ _ => trivial

/-- `remove_virtio` clears the bitmaps only after the guest has stopped being ready. -/
theorem removeVirtio_scan
    : wp (accesses id) (scanContract policy op) (removeVirtio settings id)
        (fun _ _ => True) world := by
  have observing {β : Type} {p : Control β} (h : ObservingProg p)
      : p.All Instr.KeepsVioState fun _ => True :=
    h.mono (fun _ observes => observes.steady.keepsVioState) fun _ _ => trivial
  have waits : (waitVirtioReleased id).All Instr.KeepsVioState fun _ => True := by
    refine .bind (observing (waitReleased_observing ..)) fun result => ?_
    obtain ⟨_, pollsLeft⟩ := result
    dsimp only
    split
    · exact .perform trivial
    · trivial
  have flags (cpu : Int) : (flagWorker cpu).All Instr.KeepsVioState fun _ => True :=
    observing (flagWorker_inert cpu).observing
  have stops : (stopVfOrFreePool id).All Instr.KeepsVioState fun _ => True := by
    refine .bind (.perform trivial) fun relay => ?_
    split
    · exact .bind (.perform trivial) fun _ => .bind (.perform trivial) fun _ =>
        .bind (.perform trivial) fun _ => .bind (.perform trivial) fun _ => flags _
    · exact .bind (.perform trivial) fun _ => .bind (.perform trivial) fun _ => .perform trivial
  unfold removeVirtio
  split
  · trivial
  · refine wp.bind (wp_look_only (fun _ => trivial) fun s _ => ?_)
    split
    · trivial
    · have always : (scanContract policy op).Stable fun _ => True := fun _ _ _ _ h => h
      refine wp.bind (wp_assign always trivial fun s _ inv _ _ => ?_)
      refine ⟨inv.modify nofun, trivial, ?_⟩
      have unready : (s.modifyRelay id (Write.vioState .removing1).apply).Unready id := by
        rw [World.Unready, World.relays_modifyRelay_self]
        nofun
      refine wp_unready_bind unready waits fun _ s unready => ?_
      refine wp_unready_bind unready (.perform trivial) fun relay s unready => ?_
      refine wp_unready_bind unready (.perform trivial) fun _ s unready => ?_
      refine wp_unready_bind unready (.perform trivial) fun _ s unready => ?_
      refine wp_unready_bind unready (.perform trivial) fun _ s unready => ?_
      refine wp_unready_bind unready (flags _) fun _ s unready => ?_
      exact wp_unready_bind unready stops fun _ _ _ => trivial

end Operations

-----------------------------------------------------------------------------------------
-- Runs
-----------------------------------------------------------------------------------------

/-- The operations of the vhost callbacks. -/
def Op.OfGuest : Op → Prop
  | .addVirtio _ _ | .removeVirtio _ => True
  | _ => False

instance : (op : Op) → Decidable op.OfGuest
  | .addVirtio _ _ | .removeVirtio _ => .isTrue trivial
  | .addVf2 _ _ _ | .bondAdd _ _ _ | .removeVf2 _ _ _ | .migrateRelayCpus _ _ _ => .isFalse id

/-- Runs of the vhost callbacks, with any answers. -/
def guestCalls : Policy Unit Op Instr Int World where
  instr _ _ _ _ := True
  call _ op _ := op.OfGuest

/-- Runs of the vhost callbacks in which a guest becomes ready only with a TX pair for the
scan.
-/
def enabledGuests : Policy Unit Op Instr Int World where
  instr op i _ world :=
    i = .write (.vioState .ready) → (world.relays op.relay).vio.TxEnabled
  call _ op _ := op.OfGuest

/-- The callbacks keep the scan of every ready guest finite. -/
def scanOutline (settings : Settings)
    : Outline ((controlSystem settings).guarded Event.LeavesTxPair) enabledGuests where
  inv := World.ReadyEnabled
  rely _ := World.NoneReadied
  guar _ _ _ := True
  done _ _ _ _ := True
  fault _ := True
  refl _ _ _ ready := ready
  trans _ _ _ _ first second id ready := first id (second id ready)
  stable _ _ _ _ _ _ _ _ := trivial
  others _ _ different := absurd rfl different
  env event s s' inv happened := by
    obtain ⟨leaves, happened⟩ := System.guarded_env happened
    refine ⟨Event.readyEnabled inv leaves happened, fun _ id ready => ?_⟩
    have state := (Event.served happened id).vioState
    grind
  ops _ op s _ _ _ called _ := by
    cases op with
    | addVirtio virtionet id => exact addVirtio_scan fun answer s admitted => admitted rfl
    | removeVirtio id => exact removeVirtio_scan
    | addVf2 | bondAdd | removeVf2 | migrateRelayCpus => exact called.elim

/-- In every run of `add_virtio`, `vring_state_change` and `remove_virtio` calls, with workers
that go on all the time, the scan of every ready guest ends, if a guest becomes ready only
with an enabled TX pair below `max_queue_pairs` and no notification disables the last such
pair of a ready guest.
-/
theorem scan_ends_in_enabled_runs (settings : Settings) (useJumbo : Bool)
    (initialized : Nat → Bool) {config : Config Unit Op Instr Int World Abort World Int}
    (run : Run ((controlSystem settings).guarded Event.LeavesTxPair) enabledGuests
      (idleDaemon settings useJumbo initialized) config)
    {id : Nat} (ready : (config.state.relays id).vio.state = .ready)
    : (∃ rounds next,
        advanceTxQRr (config.state.relays id).vio.txQBitmap
          (config.state.relays id).vio.maxQueuePairs rounds (config.state.relays id).vio.txQRr
        = some next)
      ∧ ∀ io, ∃ out, virtioRx (config.state.relays id) io = .ok out := by
  have first : (scanOutline settings).Good (idleDaemon settings useJumbo initialized) :=
    ⟨fun _ ready => VioState.noConfusion ready, fun _ => trivial⟩
  have enabled : (config.state.relays id).vio.TxEnabled := (run.good first).1 id ready
  exact ⟨(scan_ends_iff _).mpr enabled, virtioRx_returns enabled⟩

instance (op : Op) (i : Instr) (answer : Int) (world : World)
    : Decidable (enabledGuests.instr op i answer world) :=
  inferInstanceAs (Decidable (_ → _))

instance (thread : Unit) (op : Op) (world : World)
    : Decidable (enabledGuests.call thread op world) :=
  inferInstanceAs (Decidable op.OfGuest)

instance (op : Op) (i : Instr) (answer : Int) (world : World)
    : Decidable (guestCalls.instr op i answer world) :=
  .isTrue trivial

instance (thread : Unit) (op : Op) (world : World)
    : Decidable (guestCalls.call thread op world) :=
  inferInstanceAs (Decidable op.OfGuest)

/-- A guest enables its only queue pair and connects with two rings. -/
def pairConnects : List (Choice Unit Op Int Event) :=
  .env (.vringStateChange 0 ⟨0, true⟩) :: .env (.vringStateChange 0 ⟨1, true⟩)
  :: .call () (.addVirtio 7 0)
  :: answered () ([0, 0, 0, 2, 0, 0, 0, 1] ++ List.replicate 10 0)

/-- Witness: the guest of relay 0 is connected with its queue pair enabled. -/
theorem scan_ends_after_connect
    : ∃ config : Config Unit Op Instr Int World Abort World Int,
        Run ((controlSystem twoWorkers).guarded Event.LeavesTxPair) enabledGuests
          (idleDaemon twoWorkers false fun _ => true) config
        ∧ (config.state.relays 0).vio.state = .ready
        ∧ ∀ io, ∃ out, virtioRx (config.state.relays 0) io = .ok out := by
  obtain ⟨config, run, reached⟩ := Run.of_follow
    ((controlSystem twoWorkers).guarded Event.LeavesTxPair) enabledGuests
    (idleDaemon twoWorkers false fun _ => true) pairConnects
    (fun c => (c.state.relays 0).vio.state = .ready) (by decide +kernel)
  have ready := of_decide_eq_true reached
  exact ⟨config, run, ready,
    (scan_ends_in_enabled_runs twoWorkers false (fun _ => true) run ready).2⟩

/-- The same guest then disables its TX ring, and the next scan never ends. -/
theorem scan_hangs_after_disable
    : ¬ ∀ (settings : Settings) (useJumbo : Bool) (initialized : Nat → Bool)
        (config : Config Unit Op Instr Int World Abort World Int) (id : Nat),
        Run (controlSystem settings) guestCalls (idleDaemon settings useJumbo initialized) config
        → (config.state.relays id).vio.state = .ready
        → ∃ rounds next,
            advanceTxQRr (config.state.relays id).vio.txQBitmap
              (config.state.relays id).vio.maxQueuePairs rounds
              (config.state.relays id).vio.txQRr
            = some next := by
  intro claim
  obtain ⟨config, run, reached⟩ := Run.of_follow (controlSystem twoWorkers) guestCalls
    (idleDaemon twoWorkers false fun _ => true)
    (pairConnects ++ [.env (.vringStateChange 0 ⟨1, false⟩)])
    (fun c => (c.state.relays 0).vio.state = .ready
      && !decide (c.state.relays 0).vio.TxEnabled)
    (by decide +kernel)
  simp only [Bool.and_eq_true, decide_eq_true_eq, Bool.not_eq_true', decide_eq_false_iff_not]
    at reached
  obtain ⟨ready, disabled⟩ := reached
  exact disabled ((scan_ends_iff _).mp (claim twoWorkers false (fun _ => true) config 0 run ready))

end VirtioForwarder
