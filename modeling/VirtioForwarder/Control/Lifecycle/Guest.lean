import VirtioForwarder.Control.Lifecycle.Vf

/-! Connecting and disconnecting a guest and moving a relay keep all relays settled. -/

namespace VirtioForwarder

open Program

section Operations

variable {settings : Settings} {policy : Policy Unit Op Instr Int World} {strict : Prop}
  {op : Op} {id : Nat} {world : World}

/-- No guest is connected, and the other direction is safe. -/
def World.Disconnected (settings : Settings) (strict : Prop) (id : Nat) (world : World) : Prop :=
  world.VfSafe settings strict id ∧ (world.relays id).vio.state = .uninit

theorem disconnected_persistent : Persistent settings (World.Disconnected settings strict id) :=
  vfSafe_persistent.and (persistent_of_eased (fun relay => relay.vio.state = .uninit)
    fun _ _ => Relay.Eased.vioUninit)

theorem World.Disconnected.settledAt (h : world.Disconnected settings strict id)
    (idle : (world.relays id).dpdk.state ≠ .ready)
    : world.SettledAt settings strict id :=
  ⟨fun ready => absurd ready idle, h.1, fun _ _ used => absurd h.2 used⟩

/-- A wait that has not used up its polls has seen the state. -/
theorem waitReleased_wp {known : World → Prop} (persistent : Persistent settings known)
    {field : Field} {released : Relay → Bool} (polls : Nat)
    (h : world.During settings strict id known)
    : wp (accesses id) (aloneContract settings policy op) (waitReleased id field released polls)
        (fun result s => s.During settings strict id known
          ∧ (result.2 ≠ 0 → released (s.relays id) = true)) world := by
  induction polls generalizing world with
  | zero =>
      refine wp.bind (wp_alone_look persistent h fun s _ held => ?_)
      exact ⟨held, fun left => absurd rfl left⟩
  | succ polls ih =>
      refine wp.bind (wp_alone_look persistent h fun s _ held => ?_)
      split
      · rename_i seen
        exact ⟨held, fun _ => seen⟩
      · exact ih held

/-- The ready VF of a guest that has left is stopped, and stays with its worker. -/
theorem stopVfOrFreePool_wp_alone
    (h : world.During settings strict id (World.Disconnected settings strict id))
    : wp (accesses id) (aloneContract settings policy op) (stopVfOrFreePool id)
        (fun _ => World.Settled settings strict) world := by
  refine wp.bind (wp_alone_look disconnected_persistent h fun s _ held => ?_)
  split
  · rename_i ready
    have readyPersistent : Persistent settings fun s =>
        s.Disconnected settings strict id ∧ (s.relays id).dpdk.state = .ready :=
      disconnected_persistent.and (dpdkReady_persistent id)
    refine wp_alone_bind (look_observing ..).plain readyPersistent ⟨held.1, held.2, ready⟩
      fun relay s held => ?_
    refine wp_alone_bind (drive_pooling _).quiet.plain readyPersistent held fun _ s held => ?_
    refine wp.bind ((wp_alone_assign (fun s =>
      s.Disconnected settings strict id ∧ (s.relays id).dpdk.state = .added) readyPersistent held
      (fun s sound h => ?_) fun s _ h => ?_).mono fun _ s held => ?_)
    · exact ⟨fun _ => sound.caches (Or.inl h.1.2), fun _ added => absurd rfl added, sound.vio2vf⟩
    · refine ⟨⟨h.1.1.modify _ (fun _ unused => nomatch h.2.symm.trans unused) rfl, ?_⟩, ?_⟩
      · rw [World.relays_modifyRelay_self]
        exact h.1.2
      · rw [World.relays_modifyRelay_self]
        rfl
    · refine (wp_alone_flagVf (disconnected_persistent.and (dpdkAdded_persistent id)) held).mono fun _ s flagged => ?_
      have idle := flagged.1.2.2
      exact (flagged.1.mono fun h => h.1.settledAt (by simp [idle])).settled
  · rename_i idle
    have idlePersistent : Persistent settings fun s =>
        s.Disconnected settings strict id ∧ (s.relays id).dpdk.state ≠ .ready :=
      disconnected_persistent.and (dpdkNotReady_persistent id)
    refine wp_alone_bind (look_observing ..).plain idlePersistent ⟨held.1, held.2, idle⟩
      fun relay s held => ?_
    refine wp_alone_bind (drive_pooling _).quiet.plain idlePersistent held fun _ s held => ?_
    refine wp.mono (PlainProg.wp_alone (assign_plain trivial) idlePersistent held)
      fun _ s held => ?_
    exact (held.mono fun h => h.1.settledAt h.2).settled

theorem removeVirtio_wp_alone
    (noTimeout : ∀ op answer world, ¬ policy.instr op .logTimeout answer world)
    (h : world.Settled settings strict)
    : wp (accesses id) (aloneContract settings policy op) (removeVirtio settings id)
        (fun _ => World.Settled settings strict) world := by
  unfold removeVirtio
  split
  · exact h
  · refine wp.bind (wp_alone_look settledAt_persistent h.during fun s _ held => ?_)
    split
    · exact held.settled
    · rename_i connected
      refine wp.bind ((wp_alone_assign (World.VfSafe settings strict id)
        (settledAt_persistent.and (vioReady_persistent id)) ⟨held.1, held.2, not_not.mp connected⟩
        (fun s sound h => ?_) fun s _ h => ?_).mono fun _ s held => ?_)
      · refine ⟨fun idle => ?_, sound.vf2vio, fun _ => sound.vio2vf (by simp [h.2])⟩
        rcases idle with idle | idle
        · cases idle
        · exact sound.caches (Or.inr idle)
      · exact h.1.vf.modify _ (fun h => h) rfl
      · refine wp.bind (wp.bind ((waitReleased_wp vfSafe_persistent 20 held).mono
          fun result s waited => ?_))
        obtain ⟨held, seen⟩ := waited
        dsimp only
        split
        · exact fun _ _ _ answer logged => absurd logged (noTimeout _ _ _)
        · rename_i left
          have held : s.During settings strict id (World.Disconnected settings strict id) :=
            ⟨held.1, held.2, of_decide_eq_true (seen left)⟩
          refine wp_alone_bind (look_observing ..).plain disconnected_persistent held
            fun relay s held => ?_
          refine wp.bind ((wp_alone_assign (World.Disconnected settings strict id)
            disconnected_persistent held (fun s sound h => sound.setVio2vfCpu h.2 (-1))
            fun s _ h => ?_).mono fun _ s held => ?_)
          · refine ⟨h.1.modify _ (fun h => h) rfl, ?_⟩
            rw [World.relays_modifyRelay_self]
            exact h.2
          · refine wp_alone_bind (assign_plain trivial) disconnected_persistent held
              fun _ s held => ?_
            refine wp_alone_bind (assign_plain trivial) disconnected_persistent held
              fun _ s held => ?_
            refine wp_alone_bind (flagWorker_inert _).plain disconnected_persistent held
              fun _ s held => ?_
            exact wp.bind (stopVfOrFreePool_wp_alone held)

/-- No guest is connected and no VF is started. -/
def World.Waiting (settings : Settings) (strict : Prop) (id : Nat) (world : World) : Prop :=
  world.Disconnected settings strict id ∧ (world.relays id).dpdk.state ≠ .ready

theorem waiting_persistent : Persistent settings (World.Waiting settings strict id) :=
  disconnected_persistent.and (dpdkNotReady_persistent id)

theorem World.Waiting.settledAt (h : world.Waiting settings strict id)
    : world.SettledAt settings strict id :=
  h.1.settledAt h.2

theorem alignMempool_wp {newnode : Int}
    (h : world.During settings strict id (World.Waiting settings strict id))
    : wp (accesses id) (aloneContract settings policy op) (alignMempool id newnode)
        (fun _ => World.During settings strict id (World.Waiting settings strict id)) world := by
  have store (pool : Nat) (node : Int) : PlainProg (do
      assign (.mempool (some pool))
      assign (.mempoolSocketId node)
      return true) :=
    .bind (assign_plain trivial) fun _ => .bind (assign_plain trivial) fun _ => trivial
  refine wp_alone_bind (look_observing ..).plain waiting_persistent h fun relay s held => ?_
  split
  · refine wp_alone_bind (allocMempool_inert ..).plain waiting_persistent held
      fun pool s held => ?_
    cases pool with
    | some pool => exact (store ..).wp_alone waiting_persistent held
    | none =>
        refine wp_alone_bind (allocMempool_inert ..).plain waiting_persistent held
          fun pool s held => ?_
        cases pool with
        | some pool => exact (store ..).wp_alone waiting_persistent held
        | none => exact held
  · refine wp_alone_bind (look_observing ..).plain waiting_persistent held fun relay s held => ?_
    split
    · refine wp_alone_bind (look_observing ..).plain waiting_persistent held fun relay s held => ?_
      refine wp.bind ((migrateMempool_wp waiting_persistent (fun s waiting => ?_) held).mono
        fun _ s held => held)
      exact ⟨waiting.2, Or.inl waiting.1.2⟩
    · exact held

/-- A guest is connected and its worker flagged; no VF is started yet. -/
def World.Connected (settings : Settings) (strict : Prop) (id : Nat) (world : World) : Prop :=
  world.VioSafe settings strict id ∧ (world.relays id).vio.state = .ready

theorem connected_persistent : Persistent settings (World.Connected settings strict id) :=
  vioSafe_persistent.and (vioReady_persistent id)

theorem World.Connected.published (h : world.Connected settings strict id)
    : world.Published settings strict id :=
  ⟨h.1, fun _ => h.2⟩

/-- An added VF gets a worker and is started. If that fails, the worker is not flagged. -/
theorem startAddedVf_wp {virtionet : Int}
    (starts : strict → ∀ port answer world,
      policy.instr (.addVirtio virtionet id) (.call (.devStart port)) answer world
      → answer = 0 ∨ world.Watched id (world.relays id).dpdk.vf2vioCpu)
    (h : world.During settings strict id fun s =>
      s.Connected settings strict id ∧ s.SettledAt settings strict id)
    : wp (accesses id) (aloneContract settings policy (.addVirtio virtionet id))
        (startAddedVf settings id) (fun _ => World.Settled settings strict) world := by
  refine wp.bind (wp_alone_look (connected_persistent.and settledAt_persistent) h
    fun s _ held => ?_)
  split
  · exact (held.mono And.right).settled
  · rename_i added
    have held : s.During settings strict id fun s =>
        s.Connected settings strict id ∧ (s.relays id).dpdk.state = .added :=
      ⟨held.1, held.2.1, not_not.mp added⟩
    have persistent : Persistent settings fun s =>
        s.Connected settings strict id ∧ (s.relays id).dpdk.state = .added :=
      connected_persistent.and (dpdkAdded_persistent id)
    refine wp.bind ((findVf2virtioCpu_wp persistent (fun s h => Or.inr h.2)
      (fun s cpu h => ?_) held).mono fun _ s held => ?_)
    · refine ⟨⟨h.1.1.modify _ (fun h => h) rfl, ?_⟩, ?_⟩
      · rw [World.relays_modifyRelay_self]
        exact h.1.2
      · rw [World.relays_modifyRelay_self]
        exact h.2
    · have persistent' : Persistent settings fun s =>
          (s.Connected settings strict id ∧ (s.relays id).dpdk.state = .added)
          ∧ (s.relays id).dpdk.vf2vioCpu ≠ -1 :=
        persistent.and (vf2vioCpu_persistent id (· ≠ -1))
      refine wp_alone_bind (look_observing ..).plain persistent' held fun relay s held => ?_
      generalize relay.dpdk.dpdkPort = port
      refine wp.bind (wp_drive (fun _ _ calm _ => persistent'.during calm) held
        fun s answer inv held admitted => ?_)
      have plain : (Instr.call (.devStart port)).Plain := trivial
      have calm : s.Calm settings ((DriverCall.devStart port).apply answer s) :=
        plain.calm id answer s
      have held' := persistent'.during calm held
      refine ⟨fun other => (inv other).of_sameControl (plain.sameControl id answer s other),
        trivial, ?_⟩
      split
      · -- this path flags no worker, so the chosen one has to watch the relay already
        rename_i failed
        obtain ⟨elsewhere, ⟨connected, added⟩, _⟩ := held'
        refine World.During.settled ⟨elsewhere, fun ready => (nomatch added.symm.trans ready),
          fun hs below => ?_, connected.1⟩
        refine calm.vf id below fun _ => ?_
        exact (starts hs port answer s admitted).resolve_left failed
      · refine wp_alone_bind (assign_plain trivial) persistent' held' fun _ s held => ?_
        refine wp.bind ((wp_alone_assign (World.Connected settings strict id) persistent' held
          (fun s sound h => ?_) fun s _ h => ?_).mono fun _ s held => ?_)
        · exact ⟨fun _ => sound.caches (Or.inr (Or.inr h.1.2)), fun _ _ => h.2, sound.vio2vf⟩
        · refine ⟨h.1.1.1.modify _ (fun h => h) rfl, ?_⟩
          rw [World.relays_modifyRelay_self]
          exact h.1.1.2
        · exact flagVf_wp (held.mono World.Connected.published)

/-- The last part of `add_virtio`: the guest is published, and a VF that is there started. -/
theorem publishGuest_wp {virtionet : Int}
    (starts : strict → ∀ port answer world,
      policy.instr (.addVirtio virtionet id) (.call (.devStart port)) answer world
      → answer = 0 ∨ world.Watched id (world.relays id).dpdk.vf2vioCpu)
    (h : world.During settings strict id fun s =>
      s.Waiting settings strict id ∧ (s.relays id).vio.vio2vfCpu ≠ -1)
    : wp (accesses id) (aloneContract settings policy (.addVirtio virtionet id))
        (do
          assign (.vioState .ready)
          flagWorker (← look id .vio2vfCpu).vio.vio2vfCpu
          startAddedVf settings id
          return (0 : Int))
        (fun _ => World.Settled settings strict) world := by
  have persistent : Persistent settings fun s =>
      s.Waiting settings strict id ∧ (s.relays id).vio.vio2vfCpu ≠ -1 :=
    waiting_persistent.and (vio2vfCpu_persistent id (· ≠ -1))
  refine wp.bind ((wp_alone_assign (fun s => s.VfSafe settings strict id
    ∧ (s.relays id).vio.state = .ready ∧ (s.relays id).dpdk.state ≠ .ready)
    persistent h (fun s sound h => ?_) fun s _ h => ?_).mono fun _ s held => ?_)
  · exact ⟨fun _ => sound.caches (Or.inl h.1.1.2), sound.vf2vio, fun _ => h.2⟩
  · refine ⟨h.1.1.1.modify _ (fun h => h) rfl, ?_⟩
    rw [World.relays_modifyRelay_self]
    exact ⟨rfl, h.1.2⟩
  · refine wp_alone_flagVio_bind (vfSafe_persistent.and
      ((vioReady_persistent id).and (dpdkNotReady_persistent id))) held
      fun s held watched => ?_
    obtain ⟨elsewhere, vf, connected, idle⟩ := held
    refine wp.bind (startAddedVf_wp starts ⟨elsewhere, ⟨fun _ _ _ => watched, connected⟩,
      fun ready => absurd ready idle, vf, fun _ _ _ => watched⟩)

theorem addVirtio_wp_alone {virtionet : Int}
    (starts : strict → ∀ port answer world,
      policy.instr (.addVirtio virtionet id) (.call (.devStart port)) answer world
      → answer = 0 ∨ world.Watched id (world.relays id).dpdk.vf2vioCpu)
    (h : world.Settled settings strict)
    : wp (accesses id) (aloneContract settings policy (.addVirtio virtionet id))
        (addVirtio settings virtionet id) (fun _ => World.Settled settings strict) world := by
  have settled {s : World}
      (held : s.During settings strict id (World.Waiting settings strict id))
      : s.Settled settings strict :=
    (held.mono World.Waiting.settledAt).settled
  unfold addVirtio
  split
  · exact h
  · refine wp.bind (wp_alone_look settledAt_persistent h.during fun s _ held => ?_)
    split
    · exact held.settled
    · rename_i uninit
      have uninit := not_not.mp uninit
      have held : s.During settings strict id (World.Waiting settings strict id) := by
        refine ⟨held.1, ⟨held.2.vf, uninit⟩, fun ready => ?_⟩
        cases uninit.symm.trans (held.2.ready ready).1
      refine wp_alone_bind (assign_plain trivial) waiting_persistent held fun _ s held => ?_
      refine wp_alone_bind (assign_plain trivial) waiting_persistent held fun _ s held => ?_
      refine wp_alone_bind (drive_pooling _).quiet.plain waiting_persistent held fun rings s held => ?_
      refine wp_alone_bind (assign_plain trivial) waiting_persistent held fun _ s held => ?_
      split
      · exact settled held
      · refine wp_alone_bind (drive_pooling _).quiet.plain waiting_persistent held fun node s held => ?_
        refine wp.bind ((alignMempool_wp held).mono fun ok s held => ?_)
        split
        · exact settled held
        · refine wp.bind ((findVirtio2vfCpu_wp waiting_persistent (fun s h => h.1.2)
            (fun s cpu h => ?_) held).mono fun _ s held => ?_)
          · refine ⟨⟨h.1.1.modify _ (fun h => h) rfl, ?_⟩, ?_⟩
            · rw [World.relays_modifyRelay_self]
              exact h.1.2
            · rw [World.relays_modifyRelay_self]
              exact h.2
          · have persistent : Persistent settings fun s =>
                s.Waiting settings strict id ∧ (s.relays id).vio.vio2vfCpu ≠ -1 :=
              waiting_persistent.and (vio2vfCpu_persistent id (· ≠ -1))
            refine wp_alone_bind (look_observing ..).plain persistent held fun relay s held => ?_
            dsimp only
            split
            · exact settled (held.mono And.left)
            · exact publishGuest_wp starts held

theorem lookWorker_wp {known : World → Prop} (persistent : Persistent settings known) {cpu : Int}
    (h : world.During settings strict id known)
    : wp (accesses id) (aloneContract settings policy op) (lookWorker cpu)
        (fun worker s => s.During settings strict id known ∧ (worker.initialized = true → 0 ≤ cpu))
        world := by
  unfold lookWorker
  split
  · rename_i inRange
    refine wp.mono (PlainProg.wp_alone (.perform trivial) persistent h) fun _ s held => ?_
    exact ⟨held, fun _ => inRange.1⟩
  · refine wp_alone_bind (.perform trivial) persistent h fun stray s held => ?_
    split
    · exact ⟨held, nofun⟩
    · trivial

/-- The VM-to-VF direction has been moved to `cpu`, whose worker does not know of it yet. -/
def World.VioMoved (settings : Settings) (strict : Prop) (id : Nat) (cpu : Int) (world : World)
    : Prop :=
  (world.VfSafe settings strict id ∧ (world.relays id).vio.vio2vfCpu = cpu)
  ∧ ((world.relays id).dpdk.state = .ready
    → (world.relays id).vio.state = .ready ∧ 0 ≤ (world.relays id).dpdk.vf2vioCpu)

theorem vioMoved_persistent (cpu : Int)
    : Persistent settings (World.VioMoved settings strict id cpu) := by
  refine (vfSafe_persistent.and (vio2vfCpu_persistent id (· = cpu))).and ?_
  intro s s' calm h ready
  rw [(calm.relays id).vioReady, (calm.relays id).vf2vioCpu]
  exact h ((calm.relays id).dpdkReady.mp ready)

theorem moveVirtio2vf_wp {newCpu : Int}
    (h : world.During settings strict id fun s => s.SettledAt settings strict id)
    : wp (accesses id) (aloneContract settings policy op) (moveVirtio2vf id newCpu)
        (fun _ => World.During settings strict id fun s => s.SettledAt settings strict id)
        world := by
  refine wp.bind ((lookWorker_wp settledAt_persistent h).mono fun worker s looked => ?_)
  obtain ⟨held, running⟩ := looked
  split
  · exact held
  · rename_i initialized
    have nonneg := running (by simpa using initialized)
    refine wp.bind (wp_alone_look settledAt_persistent held fun s _ held => ?_)
    split
    · exact held
    · refine wp_alone_bind (look_observing ..).plain settledAt_persistent held fun relay s held => ?_
      split
      · exact held
      · refine wp_alone_bind (look_observing ..).plain settledAt_persistent held
          fun relay s held => ?_
        refine wp.bind ((wp_alone_assign (World.VioMoved settings strict id newCpu)
          settledAt_persistent held (fun s sound h => ?_) fun s _ h => ?_).mono fun _ s held => ?_)
        · exact ⟨sound.caches, sound.vf2vio, fun _ => (by omega : newCpu ≠ -1)⟩
        · refine ⟨⟨h.vf.modify _ (fun h => h) rfl, ?_⟩, ?_⟩
          · rw [World.relays_modifyRelay_self]
            rfl
          · rw [World.relays_modifyRelay_self]
            exact h.ready
        · refine wp_alone_bind (flagWorker_inert _).plain (vioMoved_persistent newCpu) held
            fun _ s held => ?_
          refine (wp_alone_flag (vioMoved_persistent newCpu) held).mono fun _ s flagged => ?_
          obtain ⟨⟨elsewhere, ⟨vf, rfl⟩, ready⟩, watched⟩ := flagged
          exact ⟨elsewhere, ready, vf, fun _ _ _ => watched⟩

theorem moveVf2virtio_wp {newCpu : Int}
    (h : world.During settings strict id fun s => s.SettledAt settings strict id)
    : wp (accesses id) (aloneContract settings policy op) (moveVf2virtio id newCpu)
        (fun _ => World.During settings strict id fun s => s.SettledAt settings strict id)
        world := by
  have persistent : Persistent settings fun s =>
      s.Published settings strict id ∧ (s.relays id).dpdk.vf2vioCpu = newCpu :=
    published_persistent.and (vf2vioCpu_persistent id (· = newCpu))
  refine wp.bind ((lookWorker_wp settledAt_persistent h).mono fun worker s looked => ?_)
  obtain ⟨held, running⟩ := looked
  split
  · exact held
  · rename_i initialized
    have nonneg := running (by simpa using initialized)
    refine wp_alone_bind (vfInitialized_observing id).plain settledAt_persistent held
      fun initialized s held => ?_
    split
    · exact held
    · refine wp_alone_bind (look_observing ..).plain settledAt_persistent held fun relay s held => ?_
      split
      · exact held
      · refine wp_alone_bind (look_observing ..).plain settledAt_persistent held
          fun relay s held => ?_
        refine wp.bind ((wp_alone_assign (fun s =>
          s.Published settings strict id ∧ (s.relays id).dpdk.vf2vioCpu = newCpu)
          settledAt_persistent held (fun s sound h => ?_) fun s _ h => ?_).mono fun _ s held => ?_)
        · exact ⟨sound.caches, fun _ _ => (by omega : newCpu ≠ -1), sound.vio2vf⟩
        · refine ⟨⟨h.vio.modify _ (fun h => h) rfl, ?_⟩, ?_⟩
          · rw [World.relays_modifyRelay_self]
            exact fun ready => (h.ready ready).1
          · rw [World.relays_modifyRelay_self]
            rfl
        · refine wp_alone_bind (flagWorker_inert _).plain persistent held fun _ s held => ?_
          refine (wp_alone_flag persistent held).mono fun _ s flagged => ?_
          obtain ⟨⟨elsewhere, published, rfl⟩, watched⟩ := flagged
          exact ⟨elsewhere, fun ready => ⟨published.2 ready, watched.1⟩, fun _ _ _ => watched,
            published.1⟩

theorem migrateRelayCpus_wp {newVirtio2vfCpu newVf2virtioCpu : Int}
    (h : world.Settled settings strict)
    : wp (accesses id) (aloneContract settings policy op)
        (migrateRelayCpus settings id newVirtio2vfCpu newVf2virtioCpu)
        (fun _ => World.Settled settings strict) world := by
  unfold migrateRelayCpus
  dsimp only
  generalize (if settings.workerCoreBitmap = 0 then (1 : BitVec 64) else 0) = notBitmap
  split
  · exact h
  · refine wp.bind ((moveVirtio2vf_wp h.during).mono fun _ s held => ?_)
    exact wp.bind ((moveVf2virtio_wp held).mono fun _ s held => held.settled)

end Operations

end VirtioForwarder
