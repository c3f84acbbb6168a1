import VirtioForwarder.Control.Pools.Queues

/-! A VF that is in use has its packet buffers in the pool of its relay.
The pool is allocated, swapped and freed by five operations. Each of them keeps the pool of
an attached VF, unless a guest is disconnected from a VF that was not started, a swap cannot
set up the receive queue again, or a probed device has no port.
-/

namespace VirtioForwarder

open Program

section Operations

variable {settings : Settings} {w : Nat} {policy : Policy Unit Op Instr Int World} {op : Op}
  {world : World}

theorem addSlaves_wp_pool {bond : Nat} {ports : Set Nat} {found : List (Option Nat)}
    {slaves : List (List Char)} (h : world.Stocked w ports)
    : wp (accesses w) (poolContract w policy op) (addSlaves settings w bond found slaves)
        (fun _ => World.Stocked w ports) world := by
  induction slaves generalizing world found with
  | nil => exact h
  | cons slave slaves ih =>
      refine wp.bind ((initVf_wp_pool False.elim h).mono fun result s initialized => ?_)
      cases result with
      | error failure => exact initialized.1
      | ok port =>
          exact wp_pool_bind (.perform trivial) stocked_retained initialized.1
            fun _ s held => ih held

theorem bondAdd_wp_pool {slaves : List (List Char)} {name : List Char}
    (created : ∀ node answer s, policy.instr op (.call (.bondCreate name node)) answer s
      → answer < settings.maxRelays)
    (h : world.Held w True)
    : wp (accesses w) (poolContract w policy op) (bondAdd settings slaves name w)
        (fun _ => World.Held w True) world := by
  have deconfigured {ports : Set Nat} {s : World} {found : List (Option Nat)} {rc : Int}
      (held : s.Stocked w ports)
      : wp (accesses w) (poolContract w policy op) (deconfigureBond name found rc)
          (fun _ => World.Held w True) s :=
    (deconfigureBond_inert ..).poolNeutral.wp_pool held_retained (held.held True)
  unfold bondAdd
  split
  · exact h
  · refine wp.bind (wp_pool_look held_retained h fun s held => ?_)
    split
    · exact held
    · rename_i uninit
      have stocked := held.stocked (World.off_of_uninit (not_not.mp uninit))
      refine wp_pool_bind (look_observing ..).poolNeutral stocked_retained stocked
        fun relay s held => ?_
      refine wp_pool_ask trivial stocked_retained (created _) held
        fun answer s bounded held => ?_
      split
      · exact held.held True
      · rename_i nonneg
        have small : answer.toNat % 2 ^ 16 < 256 := by
          have := settings.relaysFit
          omega
        dsimp only
        refine wp_pool_bind (slaveInUse_inert _).poolNeutral stocked_retained held
          fun inUse s held => ?_
        split
        · exact deconfigured held
        · refine wp.bind ((migrateMempool_wp_pool False.elim False.elim (held.held False)).mono
            fun _ s held => ?_)
          -- whether or not the pool was swapped, the bond has none of it yet
          refine wp.bind ((devQueueConfigure_wp_pool (held.stocked held.off)).mono
            fun err s configured => ?_)
          split
          · exact deconfigured configured.1
          · rename_i ok
            refine wp.bind ((addSlaves_wp_pool (configured.2 (not_not.mp ok))).mono
              fun added s held => ?_)
            split
            · exact deconfigured held
            · refine wp.bind ((configureDevWithVirtio_wp_pool held (Set.mem_insert ..) small).mono
                fun err s held => ?_)
              split
              · exact (deconfigureBond_inert ..).poolNeutral.wp_pool held_retained held
              · exact held

/-- The relay gives up its pool while the VF is not in use. -/
theorem dropPool_wp (h : world.Held w False)
    : wp (accesses w) (poolContract w policy op)
        (do
          let pool := (← look w .mempool).vio.mempool
          let _ ← drive (.poolFree pool)
          assign (.mempool none))
        (fun _ => World.Held w False) world := by
  refine wp.bind (wp_pool_look held_retained h fun s held => ?_)
  dsimp only
  generalize mine : (s.relays w).vio.mempool = pool
  refine wp.bind (wp_pool_drive (held_retained.and (mempool_retained (· = pool))) ⟨held, mine⟩
    fun s answer held _ => ?_)
  obtain ⟨held, mine⟩ := held
  have off : ((DriverCall.poolFree pool).apply answer s).Off w := by
    unfold World.Off
    rw [DriverCall.relays_apply]
    exact held.off
  have retained : Retained w fun s =>
      s.Off w ∧ ∀ other, s.freed other = true → other < s.nextPool := by
    refine off_retained.and fun before after kept fresh => ?_
    rw [kept.freed]
    exact fun other freed => (fresh other freed).trans_le kept.nextPool
  refine wp_pool_assign retained ⟨off, held.sound.fresh_poolFree mine answer⟩ fun s held => ?_
  refine ⟨⟨held.2, ?_⟩, Or.inl (held.1.modify rfl)⟩
  rw [World.relays_modifyRelay_self]
  exact nofun

/-- `stop_vm2vf_thread` takes the VF out of use, unless the VF has no worker. -/
theorem stopVm2vfThread_wp_pool (h : world.Held w True)
    : wp (accesses w) (poolContract w policy op) (stopVm2vfThread w)
        (fun _ s => s.Held w True ∧ (s.Off w ∨ (s.relays w).dpdk.vf2vioCpu < 0)) world := by
  refine wp.bind (wp_pool_look held_retained h fun s held => ?_)
  split
  · rename_i none
    exact ⟨held, Or.inr none⟩
  · refine wp.bind (wp_pool_assign held_retained held fun s held => ?_)
    have off : (s.modifyRelay w (Write.dpdkState .removing1).apply).Off w := by
      unfold World.Off
      rw [World.relays_modifyRelay_self]
      exact ⟨nofun, nofun⟩
    have rest : PoolNeutralProg (do
        let _ ← waitReleased w .dpdkState (·.dpdk.state = .uninit) 20
        if (← look w .dpdkState).dpdk.state = .uninit then return 0
        logTimeout
        return 5 : Control Int) := by
      refine .bind (waitReleased_observing ..).poolNeutral fun _ => ?_
      refine .bind (look_observing ..).poolNeutral fun relay => ?_
      split
      · trivial
      · exact .bind (.perform trivial) fun _ => trivial
    have leaving : (s.modifyRelay w (Write.dpdkState .removing1).apply).Held w False :=
      ⟨held.sound.modify rfl, Or.inl off⟩
    refine (rest.wp_pool held_retained leaving).mono fun _ s held => ?_
    exact ⟨held.mono False.elim, Or.inl held.off⟩

theorem detachDevice_wp_pool (h : world.Held w True)
    : wp (accesses w) (poolContract w policy op) (detachDevice w) (fun _ => World.Held w True)
        world := by
  refine wp_pool_bind (look_observing ..).poolNeutral held_retained h fun relay s held => ?_
  refine wp.bind ((stopVm2vfThread_wp_pool held).mono fun err s stopped => ?_)
  split
  · exact stopped.1
  · have stable : (poolContract w policy op).Stable fun s =>
        s.Held w True ∧ (s.Off w ∨ (s.relays w).dpdk.vf2vioCpu < 0) := by
      intro before after rely _ h
      refine ⟨held_retained rely.1 h.1, h.2.imp (off_retained rely.1) fun none => ?_⟩
      rwa [rely.2.vf2vioCpu]
    refine wp.bind (wp_look (fun _ => trivial) stable stopped fun s _ held => ?_)
    dsimp only
    generalize (s.relays w).dpdk.vf2vioCpu = cpu at held
    obtain ⟨held, off | none⟩ := held
    · refine wp_pool_bind (.perform trivial) held_retained ⟨held.sound, Or.inl off⟩
        fun _ s (held : s.Held w False) => ?_
      refine wp_pool_bind (flagWorker_inert _).poolNeutral held_retained held fun _ s held => ?_
      refine wp_pool_bind (releaseDevice_sure ..).inert.poolNeutral held_retained held
        fun err s held => ?_
      split
      · exact held.mono False.elim
      · refine wp.bind (wp_pool_assign held_retained held fun s held => ?_)
        replace held : (s.modifyRelay w (Write.dpdkPort 65535).apply).Held w False :=
          ⟨held.sound.modify rfl, Or.inl (held.off.modify rfl)⟩
        refine wp_pool_bind (.perform trivial) held_retained held fun _ s held => ?_
        refine wp_pool_bind (.perform trivial) held_retained held fun _ s held => ?_
        refine wp_pool_bind (.perform trivial) held_retained held fun _ s held => ?_
        refine wp.bind (wp.bind (wp_pool_look held_retained held fun s held => ?_))
        split
        · exact (dropPool_wp held).mono fun _ s held => held.mono False.elim
        · exact held.mono False.elim
    · -- the worker that is to be flagged does not exist
      refine wp_pool_bind (.perform trivial) held_retained held fun _ s _ => ?_
      rw [flagWorker, if_neg (by omega)]
      trivial

theorem removeVf2_wp_pool {dbdf : List Char} {conditional : Bool} (h : world.Held w True)
    : wp (accesses w) (poolContract w policy op) (removeVf2 settings dbdf w conditional)
        (fun _ => World.Held w True) world := by
  unfold removeVf2
  split
  · exact h
  · refine wp_pool_bind (vfActive_observing w).poolNeutral held_retained h fun active s held => ?_
    split
    · refine wp_pool_bind (look_observing ..).poolNeutral held_retained held
        fun relay s held => ?_
      split
      · exact detachDevice_wp_pool held
      · exact held
    · split <;> exact held

/-- A VF that is in use keeps its pool when its state changes. -/
theorem World.Held.setState (h : world.Held w True) (inUse : ¬ world.Off w) (state : DpdkState)
    : (world.modifyRelay w (Write.dpdkState state).apply).Held w True := by
  obtain ⟨_, small, backed⟩ := h.backed.resolve_left inUse
  have here : ((world.modifyRelay w (Write.dpdkState state).apply).relays w).dpdk.dpdkPort
      = (world.relays w).dpdk.dpdkPort := by
    rw [World.relays_modifyRelay_self]
    rfl
  refine ⟨h.sound.modify rfl, Or.inr ⟨trivial, ?_, ?_⟩⟩
  · rwa [here]
  · rw [here]
    exact backed.modify rfl

theorem startAddedVf_wp_pool (h : world.Held w True)
    : wp (accesses w) (poolContract w policy op) (startAddedVf settings w)
        (fun _ => World.Held w True) world := by
  have retained : Retained w fun s => s.Held w True ∧ (s.relays w).dpdk.state = .added :=
    held_retained.and added_retained
  refine wp.bind (wp_pool_look held_retained h fun s held => ?_)
  split
  · exact held
  · rename_i added
    refine wp_pool_bind (findVf2virtioCpu_assigning ..).poolNeutral retained
      ⟨held, not_not.mp added⟩ fun _ s held => ?_
    refine wp_pool_bind (look_observing ..).poolNeutral retained held fun relay s held => ?_
    refine wp_pool_bind (.perform trivial) retained held fun err s held => ?_
    split
    · exact held.1
    · refine wp_pool_bind (.perform trivial) retained held fun _ s held => ?_
      refine wp.bind (wp_pool_assign retained held fun s held => ?_)
      have started := held.1.setState (fun off => off.1 held.2) .ready
      refine wp_pool_bind (look_observing ..).poolNeutral held_retained started
        fun relay s held => ?_
      exact (flagWorker_inert _).poolNeutral.wp_pool held_retained held

/-- The pool for a guest: a relay without a pool has no VF in use. -/
theorem alignMempool_wp_pool {newnode : Int}
    (infoGet : ∀ port answer s, policy.instr op (.call (.devInfoGet port)) answer s
      → answer = 0)
    (txSetup : ∀ port node answer s, policy.instr op (.call (.txQueueSetup port node)) answer s
      → answer = 0)
    (h : world.Held w True)
    : wp (accesses w) (poolContract w policy op) (alignMempool w newnode)
        (fun _ => World.Held w True) world := by
  have store {s : World} {pool : Nat} {node : Int} (held : s.Held w False)
      (spare : s.Spare w pool)
      : wp (accesses w) (poolContract w policy op) (do
          assign (.mempool (some pool))
          assign (.mempoolSocketId node)
          return true) (fun _ => World.Held w True) s := by
    refine wp.bind (wp_pool_assign (held_retained.and (spare_retained pool)) ⟨held, spare⟩
      fun s held => ?_)
    obtain ⟨held, handedOut, live, _⟩ := held
    replace held : (s.modifyRelay w (Write.mempool (some pool)).apply).Held w True :=
      ⟨.setMempool held.sound.fresh handedOut live, Or.inl (held.off.modify rfl)⟩
    exact wp_pool_bind (.perform trivial) held_retained held fun _ s held => held
  refine wp.bind (wp_pool_look held_retained h fun s held => ?_)
  split
  · rename_i absent
    -- a VF in use would have a pool
    have off : s.Held w False := by
      refine ⟨held.sound, Or.inl (held.backed.resolve_right fun backed => ?_)⟩
      have present := backed.2.2.1
      rw [Option.isNone_iff_eq_none.mp absent] at present
      cases present
    refine wp.bind ((allocMempool_wp_pool held_retained (fun _ held => held.sound) off).mono
      fun pool s allocated => ?_)
    obtain ⟨held, spare⟩ := allocated
    cases pool with
    | some pool => exact store held (spare pool rfl)
    | none =>
        refine wp.bind ((allocMempool_wp_pool held_retained (fun _ held => held.sound) held).mono
          fun pool s allocated => ?_)
        obtain ⟨held, spare⟩ := allocated
        cases pool with
        | some pool => exact store held (spare pool rfl)
        | none => exact held.mono False.elim
  · refine wp_pool_bind (look_observing ..).poolNeutral held_retained held fun relay s held => ?_
    split
    · refine wp_pool_bind (look_observing ..).poolNeutral held_retained held
        fun relay s held => ?_
      exact wp.bind ((migrateMempool_wp_pool (fun _ => infoGet) (fun _ => txSetup) held).mono
        fun _ s held => held)
    · exact held

theorem addVirtio_wp_pool {virtionet : Int}
    (infoGet : ∀ port answer s, policy.instr op (.call (.devInfoGet port)) answer s
      → answer = 0)
    (txSetup : ∀ port node answer s, policy.instr op (.call (.txQueueSetup port node)) answer s
      → answer = 0)
    (h : world.Held w True)
    : wp (accesses w) (poolContract w policy op) (addVirtio settings virtionet w)
        (fun _ => World.Held w True) world := by
  unfold addVirtio
  split
  · exact h
  · refine wp_pool_bind (look_observing ..).poolNeutral held_retained h fun relay s held => ?_
    split
    · exact held
    · refine wp_pool_bind (.perform trivial) held_retained held fun _ s held => ?_
      refine wp_pool_bind (.perform trivial) held_retained held fun _ s held => ?_
      refine wp_pool_bind (.perform trivial) held_retained held fun rings s held => ?_
      refine wp_pool_bind (.perform trivial) held_retained held fun _ s held => ?_
      split
      · exact held
      · refine wp_pool_bind (.perform trivial) held_retained held fun newnode s held => ?_
        refine wp.bind ((alignMempool_wp_pool infoGet txSetup held).mono fun ok s held => ?_)
        split
        · exact held
        · refine wp_pool_bind (findVirtio2vfCpu_assigning ..).poolNeutral held_retained held
            fun _ s held => ?_
          refine wp_pool_bind (look_observing ..).poolNeutral held_retained held
            fun relay s held => ?_
          dsimp only
          split
          · exact held
          · refine wp_pool_bind (.perform trivial) held_retained held fun _ s held => ?_
            refine wp_pool_bind (look_observing ..).poolNeutral held_retained held
              fun relay s held => ?_
            refine wp_pool_bind (flagWorker_inert _).poolNeutral held_retained held
              fun _ s held => ?_
            exact wp.bind ((startAddedVf_wp_pool held).mono fun _ s held => held)

/-- `remove_virtio` stops a started VF; a pool that it frees is not in use. -/
theorem stopVfOrFreePool_wp_pool
    (h : world.Held w True ∧ (world.relays w).dpdk.state ≠ .added)
    : wp (accesses w) (poolContract w policy op) (stopVfOrFreePool w)
        (fun _ => World.Held w True) world := by
  have retained : Retained w fun s => s.Held w True ∧ (s.relays w).dpdk.state = .ready :=
    held_retained.and ready_retained
  refine wp.bind (wp_pool_look (held_retained.and notAdded_retained) h fun s held => ?_)
  split
  · rename_i ready
    refine wp_pool_bind (look_observing ..).poolNeutral retained ⟨held.1, ready⟩
      fun relay s held => ?_
    refine wp_pool_bind (.perform trivial) retained held fun _ s held => ?_
    refine wp.bind (wp_pool_assign retained held fun s held => ?_)
    have stopped := held.1.setState (fun off => off.2 held.2) .added
    refine wp_pool_bind (look_observing ..).poolNeutral held_retained stopped
      fun relay s held => ?_
    exact (flagWorker_inert _).poolNeutral.wp_pool held_retained held
  · -- neither added nor ready: nothing uses the pool that is freed
    rename_i notReady
    exact (dropPool_wp ⟨held.1.sound, Or.inl ⟨held.2, notReady⟩⟩).mono
      fun _ s held => held.mono False.elim

theorem removeVirtio_wp_pool (h : world.Held w True)
    (started : (world.relays w).vio.state = .ready → (world.relays w).dpdk.state ≠ .added)
    : wp (accesses w) (poolContract w policy op) (removeVirtio settings w)
        (fun _ => World.Held w True) world := by
  have stable : (poolContract w policy op).Stable fun s =>
      s.Held w True ∧ ((s.relays w).vio.state = .ready → (s.relays w).dpdk.state ≠ .added) := by
    intro before after rely _ h
    refine ⟨held_retained rely.1 h.1, fun ready added => ?_⟩
    have same := rely.2.vioState
    exact h.2 (by grind) (rely.1.added.mp added)
  have retained : Retained w fun s => s.Held w True ∧ (s.relays w).dpdk.state ≠ .added :=
    held_retained.and notAdded_retained
  unfold removeVirtio
  split
  · exact h
  · refine wp.bind (wp_look (fun _ => trivial) stable ⟨h, started⟩ fun s _ held => ?_)
    split
    · exact held.1
    · rename_i ready
      replace held : s.Held w True ∧ (s.relays w).dpdk.state ≠ .added :=
        ⟨held.1, held.2 (not_not.mp ready)⟩
      refine wp_pool_bind (.perform trivial) retained held fun _ s held => ?_
      refine wp_pool_bind ?_ retained held fun _ s held => ?_
      · refine .bind (waitReleased_observing ..).poolNeutral fun polls => ?_
        dsimp only
        split
        · exact .perform trivial
        · trivial
      · refine wp_pool_bind (look_observing ..).poolNeutral retained held fun relay s held => ?_
        refine wp_pool_bind (.perform trivial) retained held fun _ s held => ?_
        refine wp_pool_bind (.perform trivial) retained held fun _ s held => ?_
        refine wp_pool_bind (.perform trivial) retained held fun _ s held => ?_
        refine wp_pool_bind (flagWorker_inert _).poolNeutral retained held fun _ s held => ?_
        exact wp.bind ((stopVfOrFreePool_wp_pool held).mono fun _ s held => held)

end Operations

/-- The operation that only moves a relay to other CPUs. -/
def Op.movesCpus : Op → Bool
  | .migrateRelayCpus _ _ _ => true
  | _ => false

/-- A new bond has a port number like any port. -/
def Instr.bondInRange (settings : Settings) : Instr → Int → Bool
  | .call (.bondCreate _ _), answer => answer < settings.maxRelays
  | _, _ => true

/-- Runs of the operations that attach and detach VFs and guests, all on relay `w`. -/
def relayRuns (settings : Settings) (w : Nat) : Policy Unit Op Instr Int World where
  instr _ i answer _ := i.bondInRange settings answer = true
  call _ op _ := op.relay = w ∧ op.movesCpus = false

/-- The device that `add_vf2` has probed has a port, and the calls with which `add_virtio`
sets up the receive queue of an added VF again do not fail before that queue's.
-/
def Op.passesPool (settings : Settings) : Op → Instr → Int → Bool
  | .addVf2 _ _ _, .call (.nextMatchingDev _), answer => 0 ≤ answer ∧ answer < settings.maxRelays
  | .addVirtio _ _, .call (.devInfoGet _), answer => answer = 0
  | .addVirtio _ _, .call (.txQueueSetup _ _), answer => answer = 0
  | _, _, _ => true

/-- Runs that always pass the pool, and in which no guest is disconnected from a VF that is
attached but not started.
-/
def pooledRuns (settings : Settings) (w : Nat) : Policy Unit Op Instr Int World where
  instr op i answer world :=
    (relayRuns settings w).instr op i answer world ∧ op.passesPool settings i answer = true
  call thread op world :=
    (relayRuns settings w).call thread op world
    ∧ (op = .removeVirtio w
      → ¬ ((world.relays w).vio.state = .ready ∧ (world.relays w).dpdk.state = .added))

/-- One control thread that works on relay `w`. -/
def poolOutline (settings : Settings) (w : Nat)
    : Outline (controlSystem settings) (pooledRuns settings w) where
  inv _ := True
  rely _ before after := before.Kept w after ∧ (before.relays w).Served (after.relays w)
  guar _ _ _ := True
  done _ _ _ := World.Held w True
  fault _ := True
  refl _ world := ⟨.refl w world, .refl _⟩
  trans _ _ _ _ hl hr := ⟨hl.1.trans hr.1, hl.2.trans hr.2⟩
  stable _ _ _ _ _ rely _ := held_retained rely.1
  others _ _ different := absurd rfl different
  env _ _ _ _ happened := ⟨trivial, fun _ => ⟨Event.kept happened w, Event.served happened w⟩⟩
  ops _ op s _ _ _ called held := by
    obtain ⟨⟨rfl, lifecycle⟩, started⟩ := called
    cases op with
    | addVf2 =>
        exact addVf2_wp_pool (fun _ _ admitted => of_decide_eq_true admitted.2) held
    | bondAdd =>
        exact bondAdd_wp_pool (fun _ _ _ admitted => of_decide_eq_true admitted.1) held
    | removeVf2 => exact removeVf2_wp_pool held
    | addVirtio =>
        exact addVirtio_wp_pool (fun _ _ _ admitted => of_decide_eq_true admitted.2)
          (fun _ _ _ _ admitted => of_decide_eq_true admitted.2) held
    | removeVirtio =>
        exact removeVirtio_wp_pool held fun ready added => started rfl ⟨ready, added⟩
    | migrateRelayCpus => cases lifecycle

/-- A configured VF does not outlive its pool: after every operation on relay `w`, one at a
time and with any other answers of the drivers, a VF in use has the relay's pool, which is the
one last passed for the receive queue of its port and is not freed.
-/
theorem vf_keeps_pool_in_pooled_runs (settings : Settings) (useJumbo : Bool)
    (initialized : Nat → Bool) (w : Nat)
    {config : Config Unit Op Instr Int World Abort World Int}
    (run : Run (controlSystem settings) (pooledRuns settings w)
      (idleDaemon settings useJumbo initialized) config)
    {op : Op} {value : Int} (returned : config.running () = (op, .ret value))
    (inUse : (config.state.relays w).dpdk.state = .added
      ∨ (config.state.relays w).dpdk.state = .ready)
    : ∃ pool, (config.state.relays w).vio.mempool = some pool
      ∧ config.state.rxPool (config.state.relays w).dpdk.dpdkPort = some pool
      ∧ config.state.freed pool = false := by
  have unused : (idleDaemon settings useJumbo initialized).state.Held w True :=
    ⟨⟨nofun, nofun⟩, Or.inl (World.off_of_uninit rfl)⟩
  have good := run.good (o := poolOutline settings w) ⟨trivial, fun _ => unused⟩
  have held := good.returned returned
  rcases held.backed with off | ⟨_, _, present, passed⟩
  · exact (inUse.elim off.1 off.2).elim
  · obtain ⟨pool, mine⟩ := Option.isSome_iff_exists.mp present
    exact ⟨pool, mine, passed.trans mine, (held.sound.owned pool mine).2⟩

instance (settings : Settings) (w : Nat) (op : Op) (i : Instr) (answer : Int) (world : World)
    : Decidable ((relayRuns settings w).instr op i answer world) :=
  inferInstanceAs (Decidable (_ = _))

instance (settings : Settings) (w : Nat) (thread : Unit) (op : Op) (world : World)
    : Decidable ((relayRuns settings w).call thread op world) :=
  inferInstanceAs (Decidable (_ ∧ _))

instance (settings : Settings) (w : Nat) (op : Op) (i : Instr) (answer : Int) (world : World)
    : Decidable ((pooledRuns settings w).instr op i answer world) :=
  inferInstanceAs (Decidable (_ ∧ _))

instance (settings : Settings) (w : Nat) (thread : Unit) (op : Op) (world : World)
    : Decidable ((pooledRuns settings w).call thread op world) :=
  inferInstanceAs (Decidable (_ ∧ (_ → ¬ (_ ∧ _))))

/-- A VF is attached, with the first pool. -/
def attachedVf : List (Choice Unit Op Int Event) :=
  .call () (.addVf2 [] 0 false) :: answered () (List.replicate 8 0 ++ 1 :: List.replicate 21 0)

/-- Witness: the pool is swapped for one near the guest that connects, and the VF is started. -/
theorem vf_keeps_pool_after_swap
    : ∃ config : Config Unit Op Instr Int World Abort World Int,
        Run (controlSystem twoWorkers) (pooledRuns twoWorkers 0)
          (idleDaemon twoWorkers false fun _ => true) config
        ∧ (config.state.relays 0).dpdk.state = .ready
        ∧ config.state.freed 0 = true
        ∧ ∃ pool, (config.state.relays 0).vio.mempool = some pool
          ∧ config.state.rxPool (config.state.relays 0).dpdk.dpdkPort = some pool
          ∧ config.state.freed pool = false := by
  obtain ⟨config, run, reached⟩ := Run.of_follow (controlSystem twoWorkers)
    (pooledRuns twoWorkers 0) (idleDaemon twoWorkers false fun _ => true)
    (attachedVf ++ .call () (.addVirtio 7 0)
      :: answered () ([0, 0, 0, 2, 0, 0, 0, 0, 0, 0, 1] ++ List.replicate 34 0))
    (fun c => (c.running ()).2.value? = some 0
      && (c.state.relays 0).dpdk.state = .ready && c.state.freed 0)
    (by decide +kernel)
  simp only [Bool.and_eq_true, decide_eq_true_eq] at reached
  obtain ⟨⟨returned, ready⟩, freed⟩ := reached
  have kept := vf_keeps_pool_in_pooled_runs twoWorkers false (fun _ => true) 0 run
    (Prod.ext rfl (Prog.eq_ret_of_value? returned)) (Or.inr ready)
  exact ⟨config, run, ready, freed, kept⟩

/-- A guest connects to the VF, which cannot be started, and disconnects; the workers release
it. `remove_virtio` frees the pool, because the VF is not ready, but the VF is still added and
has that pool in its receive queue.
-/
theorem vf_outlives_pool_after_failed_start
    : ¬ ∀ (settings : Settings) (useJumbo : Bool) (initialized : Nat → Bool) (w : Nat)
        (config : Config Unit Op Instr Int World Abort World Int) (op : Op) (value : Int),
        Run (controlSystem settings) (relayRuns settings w)
          (idleDaemon settings useJumbo initialized) config
        → config.running () = (op, .ret value)
        → (config.state.relays w).dpdk.state = .added
          ∨ (config.state.relays w).dpdk.state = .ready
        → ∃ pool, (config.state.relays w).vio.mempool = some pool
          ∧ config.state.rxPool (config.state.relays w).dpdk.dpdkPort = some pool
          ∧ config.state.freed pool = false := by
  intro claim
  obtain ⟨config, run, reached⟩ := Run.of_follow (controlSystem twoWorkers)
    (relayRuns twoWorkers 0) (idleDaemon twoWorkers false fun _ => true)
    (attachedVf
      ++ .call () (.addVirtio 7 0)
        :: answered () ([0, 0, 0, 2, 0, -1] ++ List.replicate 16 0 ++ [-1])
      ++ .call () (.removeVirtio 0) :: answered () [0, 0]
      ++ [.env (.vm2vf 0 ⟨[], 0⟩), .env (.vf2vm 0 ⟨0, [], fun _ => 0⟩)]
      ++ answered () (List.replicate 10 0))
    (fun c => (c.running ()).2.value? = some 0
      && (c.state.relays 0).dpdk.state = .added && (c.state.relays 0).vio.mempool = none)
    (by decide +kernel)
  simp only [Bool.and_eq_true, decide_eq_true_eq] at reached
  obtain ⟨⟨returned, added⟩, freed⟩ := reached
  obtain ⟨pool, mine, _⟩ := claim twoWorkers false (fun _ => true) 0 config _ 0 run
    (Prod.ext rfl (Prog.eq_ret_of_value? returned)) (Or.inl added)
  rw [freed] at mine
  cases mine

end VirtioForwarder
