import VirtioForwarder.Control.Settled

/-! Attaching and removing a VF or a bond keeps all relays settled. -/

namespace VirtioForwarder

open Program

section Operations

variable {settings : Settings} {policy : Policy Unit Op Instr Int World} {strict : Prop}
  {op : Op} {id : Nat} {world : World}

/-- No VF is attached, and the other direction is safe. -/
def World.Detached (settings : Settings) (strict : Prop) (id : Nat) (world : World) : Prop :=
  world.VioSafe settings strict id ∧ (world.relays id).dpdk.state = .uninit

theorem detached_persistent : Persistent settings (World.Detached settings strict id) :=
  vioSafe_persistent.and (persistent_of_eased (fun relay => relay.dpdk.state = .uninit)
    fun _ _ => Relay.Eased.dpdkUninit)

/-- The state that `configure_dev_with_virtio` decides on fits the guest. -/
def World.Decided (settings : Settings) (strict : Prop) (id : Nat) (state : DpdkState)
    (world : World) : Prop :=
  world.Detached settings strict id
  ∧ (state = .added ∨ state = .ready ∧ (world.relays id).vio.state = .ready)

theorem decided_persistent (state : DpdkState)
    : Persistent settings (World.Decided settings strict id state) :=
  detached_persistent.and (persistent_of_eased
    (fun relay => state = .added ∨ state = .ready ∧ relay.vio.state = .ready)
    fun _ _ eased h => h.imp_right fun ready => ⟨ready.1, eased.vioReady.mpr ready.2⟩)

theorem startOrStop_wp {port : Nat}
    (h : world.During settings strict id (World.Detached settings strict id))
    : wp (accesses id) (aloneContract settings policy op) (startOrStop id port)
        (fun state => World.During settings strict id fun s =>
          s.Detached settings strict id
          ∧ ∀ decided, state = some decided → s.Decided settings strict id decided) world := by
  refine wp.bind (wp_alone_look detached_persistent h fun s _ held => ?_)
  split
  · rename_i ready
    have decided : s.During settings strict id (World.Decided settings strict id .ready) :=
      ⟨held.1, held.2, Or.inr ⟨rfl, ready⟩⟩
    refine wp_alone_bind (drive_pooling _).quiet.plain (decided_persistent .ready) decided
      fun err s held => ?_
    split
    · exact ⟨held.1, held.2.1, nofun⟩
    · exact ⟨held.1, held.2.1, fun state same => Option.some.inj same ▸ held.2⟩
  · refine wp_alone_bind (drive_pooling _).quiet.plain detached_persistent held fun _ s held => ?_
    refine ⟨held.1, held.2, fun state same => ?_⟩
    cases Option.some.inj same
    exact ⟨held.2, Or.inl rfl⟩

/-- A VF is published that fits the guest, but its worker does not know of it yet. -/
def World.Published (settings : Settings) (strict : Prop) (id : Nat) (world : World) : Prop :=
  world.VioSafe settings strict id
  ∧ ((world.relays id).dpdk.state = .ready → (world.relays id).vio.state = .ready)

theorem published_persistent : Persistent settings (World.Published settings strict id) :=
  vioSafe_persistent.and (persistent_of_eased
    (fun relay => relay.dpdk.state = .ready → relay.vio.state = .ready)
    fun _ _ eased h ready => eased.vioReady.mpr (h (eased.dpdkReady.mp ready)))

/-- The worker of a published VF is flagged, and the relay is settled. -/
theorem flagVf_wp
    (h : world.During settings strict id (World.Published settings strict id))
    : wp (accesses id) (aloneContract settings policy op)
        (do flagWorker (← look id .vf2vioCpu).dpdk.vf2vioCpu)
        (fun _ => World.Settled settings strict) world := by
  refine (wp_alone_flagVf published_persistent h).mono fun _ s flagged => ?_
  obtain ⟨⟨elsewhere, vio, fits⟩, watched⟩ := flagged
  refine World.During.settled ⟨elsewhere, fun ready => ?_, fun _ _ _ => watched, vio⟩
  exact ⟨fits ready, watched.1⟩

/-- The VF is published with a worker, which is flagged at the end. -/
theorem publishVf_wp {dbdf : List Char} {port numSlaves : Nat} {isBond : Bool}
    {state : DpdkState}
    (h : world.During settings strict id (World.Decided settings strict id state))
    : wp (accesses id) (aloneContract settings policy op)
        (publishVf settings id dbdf port state isBond numSlaves)
        (fun _ => World.Settled settings strict) world := by
  refine wp_alone_bind (assign_plain trivial) (decided_persistent state) h fun _ s held => ?_
  refine wp_alone_bind (assign_plain trivial) (decided_persistent state) held fun _ s held => ?_
  refine wp_alone_bind (assign_plain trivial) (decided_persistent state) held fun _ s held => ?_
  refine wp.bind ((findVf2virtioCpu_wp (decided_persistent state) (fun s h => Or.inl h.1.2)
    (fun s cpu h => ?_) held).mono fun _ s held => ?_)
  · refine ⟨⟨h.1.1.modify _ (fun h => h) rfl, ?_⟩, ?_⟩
    · rw [World.relays_modifyRelay_self]
      exact h.1.2
    · rw [World.relays_modifyRelay_self]
      exact h.2
  · refine wp.bind ((wp_alone_assign (World.Published settings strict id)
      ((decided_persistent state).and (vf2vioCpu_persistent id (· ≠ -1))) held
      (fun s sound h => ?_)
      fun s _ h => ?_).mono fun _ s held => ?_)
    · refine ⟨fun _ => sound.caches (Or.inr (Or.inl h.1.1.2)), fun _ _ => h.2, sound.vio2vf⟩
    · refine ⟨h.1.1.1.modify _ (fun h => h) rfl, ?_⟩
      rw [World.relays_modifyRelay_self]
      intro ready
      rcases h.1.2 with added | connected
      · cases added.symm.trans ready
      · exact connected.2
    · refine wp_alone_bind (assign_plain trivial) published_persistent held fun _ s held => ?_
      refine wp_alone_bind (assign_plain trivial) published_persistent held fun _ s held => ?_
      exact flagVf_wp held

theorem World.Detached.settledAt (h : world.Detached settings strict id)
    : world.SettledAt settings strict id :=
  ⟨fun ready => (nomatch h.2.symm.trans ready), fun _ _ used => absurd h.2 used, h.1⟩

/-- On an error no VF is attached. -/
theorem configureDevWithVirtio_wp {dbdf : List Char} {port numSlaves : Nat} {isBond : Bool}
    (h : world.During settings strict id (World.Detached settings strict id))
    : wp (accesses id) (aloneContract settings policy op)
        (configureDevWithVirtio settings id dbdf port isBond numSlaves)
        (fun err s => err = 0 ∧ s.Settled settings strict
          ∨ err ≠ 0 ∧ s.During settings strict id (World.Detached settings strict id)) world := by
  refine wp.bind ((startOrStop_wp h).mono fun state s held => ?_)
  cases state with
  | none => exact Or.inr ⟨by decide, held.1, held.2.1⟩
  | some decided =>
      refine wp.bind ((publishVf_wp ⟨held.1, held.2.2 decided rfl⟩).mono fun _ s settled => ?_)
      exact Or.inl ⟨rfl, settled⟩

theorem addVf2_wp {dbdf : List Char} {conditional : Bool} (h : world.Settled settings strict)
    : wp (accesses id) (aloneContract settings policy op) (addVf2 settings dbdf id conditional)
        (fun _ => World.Settled settings strict) world := by
  unfold addVf2
  split
  · exact h
  · refine wp.bind (wp_alone_look settledAt_persistent h.during fun s _ held => ?_)
    split
    · split
      · exact held.settled
      · refine wp_alone_bind (conditionalAddOk_observing ..).plain settledAt_persistent held
          fun ok s held => ?_
        split <;> exact held.settled
    · rename_i uninit
      have detached : s.During settings strict id (World.Detached settings strict id) :=
        ⟨held.1, held.2.vio, not_not.mp uninit⟩
      refine wp_alone_bind (initVf_pooling ..).quiet.plain detached_persistent detached
        fun result s held => ?_
      cases result with
      | error failure => exact (held.mono World.Detached.settledAt).settled
      | ok port =>
          refine wp.bind ((configureDevWithVirtio_wp held).mono fun err s outcome => ?_)
          rcases outcome with ⟨rfl, settled⟩ | ⟨failed, held⟩
          · exact settled
          · rw [if_neg failed]
            refine wp_alone_bind (cleanupEthDev_sure _).inert.plain detached_persistent held
              fun _ s held => ?_
            exact (held.mono World.Detached.settledAt).settled

/-- The assertions of `migrate_mempool` hold if no VF is ready and a side is missing. -/
theorem migrateMempool_wp {known : World → Prop} (persistent : Persistent settings known)
    (idle : ∀ s, known s → (s.relays id).dpdk.state ≠ .ready
      ∧ ((s.relays id).vio.state = .uninit ∨ (s.relays id).dpdk.state = .uninit))
    {newnode : Int} {size : Nat} (h : world.During settings strict id known)
    : wp (accesses id) (aloneContract settings policy op) (migrateMempool id newnode size)
        (fun _ => World.During settings strict id known) world := by
  refine wp_alone_bind (look_observing ..).plain persistent h fun relay s held => ?_
  refine wp_alone_bind (allocMempool_inert ..).plain persistent held fun pool s held => ?_
  cases pool with
  | none => exact held
  | some newPool =>
      refine wp.bind (wp_alone_look persistent held fun s _ held => ?_)
      rw [if_neg (idle s held.2).1]
      refine wp.bind (wp_alone_look persistent held fun s sound held => ?_)
      have empty : (s.relays id).dpdk.rxPkts.avail = 0 := by
        rcases (idle s held.2).2 with uninit | uninit
        · exact (sound.caches (Or.inl uninit)).2
        · exact (sound.caches (Or.inr (Or.inl uninit))).2
      rw [if_neg (not_not.mpr empty)]
      exact (swapMempool_repooling ..).plain.wp_alone persistent held

theorem bondAdd_wp {slaves : List (List Char)} {name : List Char}
    (h : world.Settled settings strict)
    : wp (accesses id) (aloneContract settings policy op) (bondAdd settings slaves name id)
        (fun _ => World.Settled settings strict) world := by
  have undo {s : World} (ports : List (Option Nat)) (rc : Int)
      (held : s.During settings strict id (World.Detached settings strict id))
      : wp (accesses id) (aloneContract settings policy op) (deconfigureBond name ports rc)
          (fun _ => World.Settled settings strict) s :=
    ((deconfigureBond_inert ..).plain.wp_alone detached_persistent held).mono
      fun _ _ held => (held.mono World.Detached.settledAt).settled
  unfold bondAdd
  split
  · exact h
  · refine wp.bind (wp_alone_look settledAt_persistent h.during fun s _ held => ?_)
    split
    · exact held.settled
    · rename_i uninit
      have held : s.During settings strict id (World.Detached settings strict id) :=
        ⟨held.1, held.2.vio, not_not.mp uninit⟩
      refine wp_alone_bind (look_observing ..).plain detached_persistent held fun relay s held => ?_
      refine wp_alone_bind (drive_pooling _).quiet.plain detached_persistent held fun created s held => ?_
      split
      · exact (held.mono World.Detached.settledAt).settled
      · refine wp_alone_bind (slaveInUse_inert _).plain detached_persistent held
          fun inUse s held => ?_
        split
        · exact undo _ _ held
        · refine wp.bind ((migrateMempool_wp detached_persistent (fun s detached => ?_)
            held).mono fun _ s held => ?_)
          · exact ⟨by simp [detached.2], Or.inr detached.2⟩
          · refine wp_alone_bind (devQueueConfigure_pooling ..).quiet.plain detached_persistent held
              fun err s held => ?_
            split
            · exact undo _ _ held
            · refine wp_alone_bind (addSlaves_pooling ..).quiet.plain detached_persistent held
                fun result s held => ?_
              dsimp only
              split
              · exact undo _ _ held
              · refine wp.bind ((configureDevWithVirtio_wp held).mono fun err s outcome => ?_)
                rcases outcome with ⟨rfl, settled⟩ | ⟨failed, held⟩
                · exact settled
                · rw [if_pos failed]
                  exact undo _ _ held

/-- A VF is attached to a settled relay. -/
def World.Attached (settings : Settings) (strict : Prop) (id : Nat) (world : World) : Prop :=
  world.SettledAt settings strict id
  ∧ ((world.relays id).dpdk.state = .ready ∨ (world.relays id).dpdk.state = .added)

theorem attached_persistent : Persistent settings (World.Attached settings strict id) :=
  settledAt_persistent.and (persistent_of_eased
    (fun relay => relay.dpdk.state = .ready ∨ relay.dpdk.state = .added)
    fun _ _ eased => Or.imp eased.dpdkReady.mpr eased.dpdkAdded.mpr)

theorem vfActive_wp_alone
    (h : world.During settings strict id fun s => s.SettledAt settings strict id)
    : wp (accesses id) (aloneContract settings policy op) (vfActive id)
        (fun active s => s.During settings strict id (fun s => s.SettledAt settings strict id)
          ∧ (active = true → s.Attached settings strict id)) world := by
  refine wp.bind (wp_alone_look settledAt_persistent h fun s _ held => ?_)
  split
  · rename_i ready
    exact ⟨held, fun _ => ⟨held.2, Or.inl ready⟩⟩
  · refine wp.bind (wp_alone_look settledAt_persistent held fun s _ held => ?_)
    exact ⟨held, fun added => ⟨held.2, Or.inr (of_decide_eq_true added)⟩⟩

/-- The workers have released the VF, unless it had no worker. -/
def World.Released (settings : Settings) (strict : Prop) (id : Nat) (cpu : Int) (world : World)
    : Prop :=
  world.VioSafe settings strict id
  ∧ ((world.relays id).dpdk.state = .uninit ∨ (world.relays id).dpdk.state = .added ∧ cpu < 0)

theorem released_persistent (cpu : Int)
    : Persistent settings (World.Released settings strict id cpu) :=
  vioSafe_persistent.and (persistent_of_eased
    (fun relay => relay.dpdk.state = .uninit ∨ relay.dpdk.state = .added ∧ cpu < 0)
    fun _ _ eased => Or.imp eased.dpdkUninit (And.imp_left eased.dpdkAdded.mpr))

/-- Without timeouts `stop_vm2vf_thread` returns when the workers have released the VF. -/
theorem stopVm2vfThread_wp_alone
    (noTimeout : ∀ op answer world, ¬ policy.instr op .logTimeout answer world)
    (h : world.During settings strict id (World.Attached settings strict id))
    : wp (accesses id) (aloneContract settings policy op) (stopVm2vfThread id)
        (fun err s => err = 0
          ∧ s.During settings strict id fun s =>
              s.Released settings strict id (s.relays id).dpdk.vf2vioCpu) world := by
  refine wp.bind (wp_alone_look attached_persistent h fun s _ held => ?_)
  split
  · rename_i unassigned
    obtain ⟨elsewhere, settled, ready | added⟩ := held
    · exact absurd (settled.ready ready).2 (not_le.mpr unassigned)
    · exact ⟨rfl, elsewhere, settled.vio, Or.inr ⟨added, unassigned⟩⟩
  · rename_i assigned
    refine wp.bind ((wp_alone_assign (World.VioSafe settings strict id)
      (attached_persistent.and (vf2vioCpu_persistent id (· ≠ -1)))
      ⟨held.1, held.2, by omega⟩ (fun s sound h => ?_) fun s _ h => ?_).mono fun _ s held => ?_)
    · refine ⟨fun idle => ?_, fun _ _ => h.2, sound.vio2vf⟩
      rcases idle with idle | idle | idle
      · exact sound.caches (Or.inl idle)
      · cases idle
      · cases idle
    · exact h.1.1.vio.modify _ (fun h => h) rfl
    · refine wp_alone_bind (waitReleased_observing ..).plain vioSafe_persistent held
        fun _ s held => ?_
      refine wp.bind (wp_alone_look vioSafe_persistent held fun s _ held => ?_)
      split
      · rename_i uninit
        exact ⟨rfl, held.1, held.2, Or.inl uninit⟩
      · -- a wait that gives up would log that
        exact wp.bind fun _ _ _ answer logged => absurd logged (noTimeout _ _ _)

theorem detachDevice_wp_alone
    (noTimeout : ∀ op answer world, ¬ policy.instr op .logTimeout answer world)
    (h : world.During settings strict id (World.Attached settings strict id))
    : wp (accesses id) (aloneContract settings policy op) (detachDevice id)
        (fun _ => World.Settled settings strict) world := by
  refine wp_alone_bind (look_observing ..).plain attached_persistent h fun relay s held => ?_
  refine wp.bind ((stopVm2vfThread_wp_alone noTimeout held).mono fun err s stopped => ?_)
  obtain ⟨rfl, held⟩ := stopped
  rw [if_neg (by decide)]
  refine wp.bind (wp_alone_look (fun s s' calm h => ?_) held fun s _ held => ?_)
  · rw [(calm.relays id).vf2vioCpu]
    exact released_persistent _ calm h
  · have held : s.During settings strict id
        (World.Released settings strict id (s.relays id).dpdk.vf2vioCpu) := ⟨held.1, held.2⟩
    generalize (s.relays id).dpdk.vf2vioCpu = cpu at held ⊢
    refine wp.bind ((wp_alone_assign (World.Released settings strict id cpu)
      (released_persistent cpu) held (fun s sound h => ?_) fun s _ h => ?_).mono
      fun _ s held => ?_)
    · exact sound.setVf2vioCpu (h.2.imp_right And.left) (-1)
    · refine ⟨h.1.modify _ (fun h => h) rfl, ?_⟩
      rw [World.relays_modifyRelay_self]
      exact h.2
    · refine wp.bind ((wp_alone_flag (released_persistent cpu) held).mono fun _ s flagged => ?_)
      obtain ⟨⟨elsewhere, vio, released⟩, watched⟩ := flagged
      -- a VF without a worker is no longer possible: the worker was flagged
      have held : s.During settings strict id (World.Detached settings strict id) :=
        ⟨elsewhere, vio, released.resolve_right fun h => absurd watched.1 (not_le.mpr h.2)⟩
      have settled {s : World}
          (held : s.During settings strict id (World.Detached settings strict id))
          : s.Settled settings strict :=
        (held.mono World.Detached.settledAt).settled
      refine wp_alone_bind (releaseDevice_sure ..).inert.plain detached_persistent held
        fun err s held => ?_
      split
      · exact settled held
      · refine wp_alone_bind (assign_plain trivial) detached_persistent held fun _ s held => ?_
        refine wp_alone_bind (assign_plain trivial) detached_persistent held fun _ s held => ?_
        refine wp_alone_bind (assign_plain trivial) detached_persistent held fun _ s held => ?_
        refine wp_alone_bind (assign_plain trivial) detached_persistent held fun _ s held => ?_
        refine wp_alone_bind (freePoolUnlessConnected_repooling id).plain detached_persistent held
          fun _ s held => ?_
        exact settled held

theorem removeVf2_wp_alone {dbdf : List Char} {conditional : Bool}
    (noTimeout : ∀ op answer world, ¬ policy.instr op .logTimeout answer world)
    (h : world.Settled settings strict)
    : wp (accesses id) (aloneContract settings policy op)
        (removeVf2 settings dbdf id conditional)
        (fun _ => World.Settled settings strict) world := by
  unfold removeVf2
  split
  · exact h
  · refine wp.bind ((vfActive_wp_alone h.during).mono fun active s outcome => ?_)
    obtain ⟨held, attached⟩ := outcome
    split
    · rename_i isActive
      have held : s.During settings strict id (World.Attached settings strict id) :=
        ⟨held.1, attached isActive⟩
      refine wp_alone_bind (look_observing ..).plain attached_persistent held fun relay s held => ?_
      split
      · exact detachDevice_wp_alone noTimeout held
      · exact (held.mono And.left).settled
    · split <;> exact held.settled

end Operations

end VirtioForwarder
