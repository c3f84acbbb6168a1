import VirtioForwarder.Control.Migration.Windows

/-! The removal beside a migration: it finds a worker wherever it flags one, and leaves no
worker on a side that is not in use any more.
-/

namespace VirtioForwarder

open Program

/-- What an assignment makes of the views. -/
def Write.onViews (write : Write) (views : Views) : Views :=
  match write with
  | .vioState state =>
      Function.update views .guest { views .guest with used := state = .ready }
  | .dpdkState state =>
      Function.update views .vf { views .vf with used := state = .ready ∨ state = .added }
  | .vio2vfCpu cpu => Function.update views .guest { views .guest with cpu := cpu }
  | .vf2vioCpu cpu => Function.update views .vf { views .vf with cpu := cpu }
  | _ => views

theorem viewsOf_write (w : Nat) (write : Write) (s : World × Windows)
    : viewsOf w (s.1.modifyRelay w write.apply, s.2) = write.onViews (viewsOf w s) := by
  funext side
  simp only [viewsOf, World.relays_modifyRelay_self]
  cases write <;> cases side <;> rfl

/-- The contract of the removal. -/
abbrev removerContract (w : Nat) (op : Op) : Contract Instr Int Abort (World × Windows) where
  inv s := ∀ side, (viewsOf w s side).Staffed
  rely s s' := ∀ side, (viewsOf w s side).Moved (viewsOf w s' side)
  guar s s' := ∀ side, (viewsOf w s side).Spared (viewsOf w s' side)
  admits := orderlyMigrations.instr op
  fault _ := False

/-- How the accesses of an operation run beside the windows. -/
abbrev windowAccesses (settings : Settings) (op : Op)
    : Machine Instr Int World (World × Windows) :=
  ⟨(migrationSystem settings).exec op, (migrationSystem settings).obs⟩

section Rules

variable {settings : Settings} {w : Nat} {op : Op} {s : World × Windows} {α β : Type}
  {known : Views → Prop}

/-- A removal does not touch the windows. -/
theorem exec_removal (removal : op.Removes w) (i : Instr) (answer : Int) (s : World × Windows)
    : (migrationSystem settings).exec op i answer s = (i.exec w answer s.1, s.2) := by
  cases op with
  | removeVirtio id =>
      cases removal
      rfl
  | removeVf2 dbdf id conditional =>
      cases removal
      rfl
  | addVf2 | bondAdd | addVirtio | migrateRelayCpus => exact removal.elim

/-- What the migration leaves of the views. -/
abbrev MovedStable (known : Views → Prop) : Prop :=
  ∀ ⦃before after : Views⦄, (∀ side, (before side).Moved (after side)) → known before → known after

/-- Plain accesses of the removal keep whatever is known of the views. -/
theorem wp_remover_plain (removal : op.Removes w) {p : Control α}
    (plain : p.All Instr.Plain fun _ => False) (stable : MovedStable known)
    (h : known (viewsOf w s))
    : wp (windowAccesses settings op) (removerContract w op) p
        (fun _ s => known (viewsOf w s)) s := by
  refine plain.wp nofun (fun _ _ later _ held => stable later held) ?_ h
  intro i hi s answer inv held _
  have same : viewsOf w ((migrationSystem settings).exec op i answer s) = viewsOf w s := by
    rw [exec_removal removal]
    exact viewsOf_of_sameControl (hi.sameControl w answer s.1 w) rfl
  simp only [same]
  exact ⟨inv, fun side => .refl _, held⟩

theorem wp_remover_plain_bind (removal : op.Removes w) {p : Control α} {next : α → Control β}
    {post : β → World × Windows → Prop} (plain : p.All Instr.Plain fun _ => False)
    (stable : MovedStable known) (h : known (viewsOf w s))
    (rest : ∀ a s, known (viewsOf w s)
      → wp (windowAccesses settings op) (removerContract w op) (next a) post s)
    : wp (windowAccesses settings op) (removerContract w op) (p >>= next) post s :=
  wp.bind ((wp_remover_plain removal plain stable h).mono fun a s held => rest a s held)

/-- The removal reads the relay and learns from it. -/
theorem wp_remover_look (removal : op.Removes w) {field : Field} {next : Relay → Control β}
    {post : β → World × Windows → Prop} (stable : MovedStable known) (h : known (viewsOf w s))
    (rest : ∀ s, (∀ side, (viewsOf w s side).Staffed) → known (viewsOf w s)
      → wp (windowAccesses settings op) (removerContract w op) (next (s.1.relays w)) post s)
    : wp (windowAccesses settings op) (removerContract w op) (look w field >>= next) post s := by
  intro s' later inv answer _
  have same : (migrationSystem settings).exec op (.read field) answer s' = s' :=
    exec_removal removal ..
  change (removerContract w op).inv ((migrationSystem settings).exec op (.read field) answer s')
    ∧ (removerContract w op).guar s' ((migrationSystem settings).exec op (.read field) answer s')
    ∧ wp _ _ _ _ ((migrationSystem settings).exec op (.read field) answer s')
  rw [same]
  exact ⟨inv, fun side => .refl _, rest s' inv (stable later h)⟩

/-- The removal assigns a field. -/
theorem wp_remover_assign (removal : op.Removes w) {write : Write} {next : Unit → Control β}
    {post : β → World × Windows → Prop} (known' : Views → Prop) (stable : MovedStable known)
    (h : known (viewsOf w s))
    (step : ∀ views : Views, (∀ side, (views side).Staffed) → known views
      → (∀ side : Side, write = side.setCpu (-1) → ¬ (views side).window.Open)
      → (∀ side, (write.onViews views side).Staffed)
        ∧ (∀ side, (views side).Spared (write.onViews views side))
        ∧ known' (write.onViews views))
    (rest : ∀ s, known' (viewsOf w s)
      → wp (windowAccesses settings op) (removerContract w op) (next ()) post s)
    : wp (windowAccesses settings op) (removerContract w op) (assign write >>= next) post s := by
  intro s' later inv answer admitted
  have written : viewsOf w ((migrationSystem settings).exec op (.write write) answer s')
      = write.onViews (viewsOf w s') := by
    rw [exec_removal removal]
    exact viewsOf_write w write s'
  obtain ⟨staffed, spared, held⟩ := step (viewsOf w s') inv (stable later h)
    fun side same => admitted.2 side (congrArg Instr.write same)
  refine ⟨?_, ?_, rest _ ?_⟩
  · intro side
    change (viewsOf w ((migrationSystem settings).exec op (.write write) answer s') side).Staffed
    rw [written]
    exact staffed side
  · intro side
    change (viewsOf w s' side).Spared
      (viewsOf w ((migrationSystem settings).exec op (.write write) answer s') side)
    rw [written]
    exact spared side
  · change known' (viewsOf w ((migrationSystem settings).exec op (.write write) answer s'))
    rw [written]
    exact held

/-- A worker that exists is flagged. -/
theorem flagWorker_plain {cpu : Int} (index : CpuIndex cpu)
    : (flagWorker cpu).All Instr.Plain fun _ => False := by
  unfold flagWorker
  rw [if_pos (show 0 ≤ cpu ∧ cpu < maxCpus from index)]
  exact .perform trivial

end Rules

-----------------------------------------------------------------------------------------
-- The steps of a removal
-----------------------------------------------------------------------------------------

/-- Both sides are cleared. -/
def Views.Cleared (views : Views) : Prop := ∀ side, (views side).Cleared

/-- A side is in use, the other one is cleared. -/
def Views.InUse (side : Side) (views : Views) : Prop :=
  (views side).used ∧ ∀ other ≠ side, (views other).Cleared

/-- A side is not in use any more and still has its worker. -/
def Views.Leaving (side : Side) (views : Views) : Prop :=
  (¬ (views side).used ∧ CpuIndex (views side).cpu) ∧ ∀ other ≠ side, (views other).Cleared

theorem movedStable_cleared : MovedStable Views.Cleared :=
  fun _ _ moved h side => (moved side).cleared (h side)

theorem movedStable_inUse (side : Side) : MovedStable (Views.InUse side) :=
  fun _ _ moved h =>
    ⟨(moved side).used.mpr h.1, fun other away => (moved other).cleared (h.2 other away)⟩

theorem movedStable_leaving (side : Side) : MovedStable (Views.Leaving side) := by
  intro before after moved h
  refine ⟨⟨fun used => h.1.1 ((moved side).used.mp used), (moved side).index h.1.2⟩, ?_⟩
  exact fun other away => (moved other).cleared (h.2 other away)

theorem Views.Cleared.inUse {views : Views} (h : views.Cleared) (side : Side)
    (used : (views side).used)
    : views.InUse side :=
  ⟨used, fun other _ => h other⟩

theorem Views.InUse.cleared {views : Views} {side : Side} (h : views.InUse side)
    : views.Cleared := by
  intro other
  rcases eq_or_ne other side with rfl | away
  · exact fun unused => absurd h.1 unused
  · exact h.2 other away

section Steps

variable {views : Views} {side : Side} {view : SideView}

/-- One side changes, and the removal keeps to its contract. -/
theorem update_views (view : SideView) (staffed : ∀ other, (views other).Staffed)
    (here : view.Staffed)
    (spared : (views side).Spared view)
    : (∀ other, (Function.update views side view other).Staffed)
      ∧ ∀ other, (views other).Spared (Function.update views side view other) := by
  constructor
  · rw [Function.forall_update_iff views fun _ view => view.Staffed]
    exact ⟨here, fun other _ => staffed other⟩
  · rw [Function.forall_update_iff views fun other view => (views other).Spared view]
    exact ⟨spared, fun other _ => .refl _⟩

theorem update_away {P : SideView → Prop} (h : ∀ other ≠ side, P (views other))
    : ∀ other ≠ side, P (Function.update views side view other) := by
  intro other away
  rw [Function.update_of_ne away]
  exact h other away

/-- The state of a side in use is written. -/
theorem state_step {used : Prop} (staffed : ∀ other, (views other).Staffed)
    (h : views.InUse side)
    : (∀ other, (Function.update views side { views side with used := used } other).Staffed)
      ∧ (∀ other, (views other).Spared
          (Function.update views side { views side with used := used } other))
      ∧ (¬ used
        → Views.Leaving side (Function.update views side { views side with used := used }))
      ∧ (used
        → Views.InUse side (Function.update views side { views side with used := used })) := by
  have index : CpuIndex (views side).cpu := staffed side (Or.inl h.1)
  obtain ⟨staffed', spared⟩ := update_views { views side with used := used } staffed
    (fun _ => index) ⟨rfl, fun _ => rfl⟩
  refine ⟨staffed', spared, fun unused => ⟨?_, update_away h.2⟩,
    fun still => ⟨?_, update_away h.2⟩⟩
  · rw [Function.update_self]
    exact ⟨unused, index⟩
  · rwa [Function.update_self]

/-- The worker of a side is taken away while the window is not open. -/
theorem clear_step (staffed : ∀ other, (views other).Staffed) (h : views.Leaving side)
    (closed : ¬ (views side).window.Open)
    : (∀ other, (Function.update views side { views side with cpu := -1 } other).Staffed)
      ∧ (∀ other, (views other).Spared
          (Function.update views side { views side with cpu := -1 } other))
      ∧ Views.Cleared (Function.update views side { views side with cpu := -1 }) := by
  obtain ⟨staffed', spared⟩ := update_views { views side with cpu := -1 } staffed
    (fun busy => (busy.elim h.1.1 closed).elim) ⟨rfl, fun opened => absurd opened closed⟩
  refine ⟨staffed', spared, ?_⟩
  unfold Views.Cleared
  rw [Function.forall_update_iff views fun _ view => view.Cleared]
  exact ⟨fun _ => ⟨rfl, closed⟩, h.2⟩

end Steps

-----------------------------------------------------------------------------------------
-- The removals
-----------------------------------------------------------------------------------------

section Removals

variable {settings : Settings} {w : Nat} {op : Op} {s : World × Windows}

theorem look_plain (id : Nat) (field : Field) : (look id field).All Instr.Plain fun _ => False :=
  .perform trivial

theorem drive_plain (call : DriverCall) : (drive call).All Instr.Plain fun _ => False :=
  .perform trivial

theorem waitReleased_plain (id : Nat) (field : Field) (released : Relay → Bool) (polls : Nat)
    : (waitReleased id field released polls).All Instr.Plain fun _ => False :=
  (waitReleased_all id field released polls).mono (fun _ observing => observing.steady.plain)
    fun _ never => never

/-- The last part of the removal of a guest: the VF keeps its worker. -/
theorem stopVfOrFreePool_cleared (removal : op.Removes w) (h : (viewsOf w s).Cleared)
    : wp (windowAccesses settings op) (removerContract w op) (stopVfOrFreePool w)
        (fun _ s => (viewsOf w s).Cleared) s := by
  unfold stopVfOrFreePool
  refine wp_remover_look removal movedStable_cleared h fun s _ h => ?_
  split
  · rename_i ready
    have used : (viewsOf w s).InUse .vf := h.inUse .vf (Or.inl ready)
    refine wp_remover_plain_bind removal (look_plain ..) (movedStable_inUse .vf) used
      fun relay s used => ?_
    refine wp_remover_plain_bind removal (drive_plain _) (movedStable_inUse .vf) used
      fun _ s used => ?_
    refine wp_remover_assign removal (Views.InUse .vf) (movedStable_inUse .vf) used
      (fun views staffed used _ => ?_) fun s used => ?_
    · obtain ⟨staffed, spared, _, still⟩ := state_step staffed used
      exact ⟨staffed, spared, still (Or.inr rfl)⟩
    · refine wp_remover_look removal (movedStable_inUse .vf) used fun s staffed used => ?_
      have index : CpuIndex (s.1.relays w).dpdk.vf2vioCpu := staffed .vf (Or.inl used.1)
      exact (wp_remover_plain removal (flagWorker_plain index) (movedStable_inUse .vf)
        used).mono fun _ _ used => used.cleared
  · refine wp_remover_plain removal ?_ movedStable_cleared h
    exact .bind (look_plain ..) fun _ => .bind (drive_plain _) fun _ => .perform trivial

/-- A guest that is removed leaves no worker behind. -/
theorem removeVirtio_cleared (op : Op) (removal : op.Removes w) (h : (viewsOf w s).Cleared)
    : wp (windowAccesses settings op) (removerContract w op) (removeVirtio settings w)
        (fun _ s => (viewsOf w s).Cleared) s := by
  unfold removeVirtio
  split
  · exact h
  · refine wp_remover_look removal movedStable_cleared h fun s _ h => ?_
    split
    · exact h
    · rename_i connected
      have used : (viewsOf w s).InUse .guest := h.inUse .guest (not_not.mp connected)
      refine wp_remover_assign removal (Views.Leaving .guest) (movedStable_inUse .guest) used
        (fun views staffed used _ => ?_) fun s leaving => ?_
      · obtain ⟨staffed, spared, left, _⟩ := state_step staffed used
        exact ⟨staffed, spared, left nofun⟩
      · have waiting : (waitVirtioReleased w).All Instr.Plain fun _ => False := by
          refine .bind (waitReleased_plain ..) fun polls => ?_
          dsimp only
          split
          · exact .perform trivial
          · trivial
        refine wp_remover_plain_bind removal waiting (movedStable_leaving .guest) leaving
          fun _ s leaving => ?_
        refine wp_remover_look removal (movedStable_leaving .guest) leaving
          fun s _ leaving => ?_
        have index : CpuIndex (s.1.relays w).vio.vio2vfCpu := leaving.1.2
        refine wp_remover_assign removal Views.Cleared (movedStable_leaving .guest) leaving
          (fun views staffed leaving closed => ?_) fun s' cleared => ?_
        · exact clear_step staffed leaving (closed .guest rfl)
        · refine wp_remover_plain_bind removal (.perform trivial) movedStable_cleared cleared
            fun _ _ cleared => ?_
          refine wp_remover_plain_bind removal (.perform trivial) movedStable_cleared cleared
            fun _ _ cleared => ?_
          refine wp_remover_plain_bind removal (flagWorker_plain index) movedStable_cleared
            cleared fun _ _ cleared => ?_
          exact wp.bind (stopVfOrFreePool_cleared removal cleared)

/-- The VF is looked at twice, and in use if one of the looks says so. -/
theorem vfActive_tellsUse (removal : op.Removes w) (h : (viewsOf w s).Cleared)
    : wp (windowAccesses settings op) (removerContract w op) (vfActive w)
        (fun active s => (viewsOf w s).Cleared ∧ (active = true → (viewsOf w s).InUse .vf))
        s := by
  unfold vfActive
  refine wp_remover_look removal movedStable_cleared h fun s _ h => ?_
  split
  · rename_i ready
    exact ⟨h, fun _ => h.inUse .vf (Or.inl ready)⟩
  · refine wp_remover_look removal movedStable_cleared h fun s _ h => ?_
    refine ⟨h, fun added => ?_⟩
    exact h.inUse .vf (Or.inr (of_decide_eq_true added))

/-- `stop_vm2vf_thread` waits until the VF is released; it does not give up. -/
theorem stopVm2vfThread_releases (removal : op.Removes w) (vf : ∀ id, op ≠ .removeVirtio id)
    (used : (viewsOf w s).InUse .vf)
    : wp (windowAccesses settings op) (removerContract w op) (stopVm2vfThread w)
        (fun err s => err = 0 ∧ (viewsOf w s).Leaving .vf) s := by
  unfold stopVm2vfThread
  refine wp_remover_look removal (movedStable_inUse .vf) used fun s staffed used => ?_
  have index : CpuIndex (s.1.relays w).dpdk.vf2vioCpu := staffed .vf (Or.inl used.1)
  rw [if_neg (not_lt.mpr index.1)]
  refine wp_remover_assign removal (Views.Leaving .vf) (movedStable_inUse .vf) used
    (fun views staffed used _ => ?_) fun s leaving => ?_
  · obtain ⟨staffed, spared, left, _⟩ := state_step staffed used
    exact ⟨staffed, spared, left (by simp)⟩
  · refine wp_remover_plain_bind removal (waitReleased_plain ..) (movedStable_leaving .vf) leaving
      fun _ s leaving => ?_
    refine wp_remover_look removal (movedStable_leaving .vf) leaving fun s _ leaving => ?_
    split
    · exact ⟨rfl, leaving⟩
    · intro s' _ _ answer admitted
      obtain ⟨id, same⟩ := admitted.1 rfl
      exact absurd same (vf id)

/-- A VF that is removed leaves no worker behind. -/
theorem detachDevice_cleared (removal : op.Removes w) (vf : ∀ id, op ≠ .removeVirtio id)
    (used : (viewsOf w s).InUse .vf)
    : wp (windowAccesses settings op) (removerContract w op) (detachDevice w)
        (fun _ s => (viewsOf w s).Cleared) s := by
  unfold detachDevice
  refine wp_remover_look removal (movedStable_inUse .vf) used fun s _ used => ?_
  refine wp.bind ((stopVm2vfThread_releases removal vf used).mono fun err s stopped => ?_)
  obtain ⟨rfl, leaving⟩ := stopped
  rw [if_neg (not_not.mpr rfl)]
  refine wp_remover_look removal (movedStable_leaving .vf) leaving fun s _ leaving => ?_
  have index : CpuIndex (s.1.relays w).dpdk.vf2vioCpu := leaving.1.2
  refine wp_remover_assign removal Views.Cleared (movedStable_leaving .vf) leaving
    (fun views staffed leaving closed => ?_) fun s' cleared => ?_
  · exact clear_step staffed leaving (closed .vf rfl)
  · refine wp_remover_plain removal ?_ movedStable_cleared cleared
    refine .bind (flagWorker_plain index) fun _ => ?_
    refine .bind ((releaseDevice_sure ..).mono (fun _ inert => inert.quiet.steady.plain)
      fun _ never => never) fun err => ?_
    split
    · trivial
    · refine .bind (.perform trivial) fun _ => .bind (.perform trivial) fun _ => ?_
      refine .bind (.perform trivial) fun _ => .bind (.perform trivial) fun _ => ?_
      refine .bind ?_ fun _ => trivial
      refine .bind (look_plain ..) fun relay => ?_
      split
      · exact .bind (look_plain ..) fun _ => .bind (drive_plain _) fun _ => .perform trivial
      · trivial

/-- `virtio_forwarder_remove_vf2` leaves both sides cleared. -/
theorem removeVf2_cleared (op : Op) (removal : op.Removes w) (vf : ∀ id, op ≠ .removeVirtio id)
    {dbdf : List Char} {conditional : Bool} (h : (viewsOf w s).Cleared)
    : wp (windowAccesses settings op) (removerContract w op)
        (removeVf2 settings dbdf w conditional) (fun _ s => (viewsOf w s).Cleared) s := by
  unfold removeVf2
  split
  · exact h
  · refine wp.bind ((vfActive_tellsUse removal h).mono fun active s outcome => ?_)
    obtain ⟨h, used⟩ := outcome
    split
    · rename_i active
      refine wp_remover_look removal (movedStable_inUse .vf) (used active) fun s _ used => ?_
      split
      · exact detachDevice_cleared removal vf used
      · exact used.cleared
    · split <;> exact h

end Removals

end VirtioForwarder
