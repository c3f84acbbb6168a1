import VirtioForwarder.Control.Frame

/-! Control operations that run one at a time while the workers go on. Between operations
every relay is settled: a ready VF has a connected guest, and every direction in use has a
worker that serves the relay or is flagged to look for it. At all times the relays are sound.
The rules below let an operation be followed from one deciding access to the next.
-/

namespace VirtioForwarder

open Program

/-- Packets are buffered only between a guest and a started VF, and a side on which packets
move has a worker.
-/
structure Relay.Sound (relay : Relay) : Prop where
  caches
    : relay.vio.state = .uninit ∨ relay.dpdk.state = .uninit ∨ relay.dpdk.state = .added
      → relay.vio.txPkts.avail = 0 ∧ relay.dpdk.rxPkts.avail = 0
  vf2vio
    : relay.dpdk.state ≠ .uninit → relay.dpdk.state ≠ .added → relay.dpdk.vf2vioCpu ≠ -1
  vio2vf : relay.vio.state ≠ .uninit → relay.vio.vio2vfCpu ≠ -1

theorem Relay.Sound.of_sameControl {before after : Relay} (h : before.Sound)
    (same : before.SameControl after)
    : after.Sound := by
  refine ⟨?_, ?_, ?_⟩
  · rw [same.vioState, same.dpdkState, same.txPkts, same.rxPkts]
    exact h.caches
  · rw [same.dpdkState, same.vf2vioCpu]
    exact h.vf2vio
  · rw [same.vioState, same.vio2vfCpu]
    exact h.vio2vf

/-- A packet for the VF that stays in the cache stays between a guest and a started VF. -/
theorem Relay.Sound.of_vm2vf {before after : Relay} (h : before.Sound)
    (effect : VmToVfEffect before after)
    : after.Sound := by
  have served := effect.served
  have vio := effect.vioState
  have dpdk := effect.dpdkState
  have hc := h.caches
  have hv := h.vf2vio
  have hg := h.vio2vf
  simp only [VioState.released] at vio
  refine ⟨fun idle => ⟨?_, ?_⟩, ?_, ?_⟩
  · by_contra buffered
    have ready : before.dpdk.state = .ready := by
      by_contra away
      exact buffered (effect.dropped away)
    have origin := effect.fetched buffered
    grind
  · by_cases removing : before.dpdk.state = .removing2
    · exact (effect.cleared removing).2
    · rw [effect.rxPkts removing]
      grind
  · rw [served.vf2vioCpu]
    grind
  · rw [served.vio2vfCpu]
    grind

theorem Relay.Sound.of_vf2vm {before after : Relay} (h : before.Sound)
    (effect : VfToVmEffect before after)
    : after.Sound := by
  have served := effect.served
  have vio := effect.vioState
  have dpdk := effect.dpdkState
  have hc := h.caches
  have hv := h.vf2vio
  have hg := h.vio2vf
  simp only [DpdkState.released] at dpdk
  refine ⟨fun idle => ⟨?_, ?_⟩, ?_, ?_⟩
  · by_cases removing : before.vio.state = .removing2
    · exact (effect.cleared removing).1
    · rw [effect.txPkts removing]
      grind
  · by_contra buffered
    have ready : before.vio.state = .ready := by
      by_contra away
      exact buffered (effect.dropped away)
    have origin := effect.fetched buffered
    grind
  · rw [served.vf2vioCpu]
    grind
  · rw [served.vio2vfCpu]
    grind

/-- Every event keeps every relay sound. -/
theorem Event.sound {settings : Settings} {event : Event} {world after : World}
    (h : ∀ id, (world.relays id).Sound) (happened : event.apply settings world = some after)
    (id : Nat)
    : (after.relays id).Sound := by
  rcases Event.apply_cases happened with
    ⟨target, relay, rfl, effect⟩ | ⟨cpu, rfl⟩ | ⟨target, f, rfl, same, _⟩
  · rcases eq_or_ne id target with rfl | other
    · rw [World.relays_modifyRelay_self]
      exact effect.elim (h id).of_vm2vf (h id).of_vf2vm
    · rw [World.relays_modifyRelay_of_ne world _ other]
      exact h id
  · exact h id
  · rcases eq_or_ne id target with rfl | other
    · rw [World.relays_modifyRelay_self]
      exact (h id).of_sameControl same
    · rw [World.relays_modifyRelay_of_ne world _ other]
      exact h id

/-- The worker on `cpu` serves relay `id` or is flagged to look for relays. -/
def World.Watched (world : World) (id : Nat) (cpu : Int) : Prop :=
  0 ≤ cpu
  ∧ ((world.workers cpu.toNat).needUpdate = true
    ∨ (world.workers cpu.toNat).activeRelays id = true)

/-- The VF-to-VM direction of relay `id` is not orphaned. -/
def World.VfWatched (world : World) (id : Nat) : Prop :=
  (world.relays id).dpdk.state ≠ .uninit → world.Watched id (world.relays id).dpdk.vf2vioCpu

/-- The VM-to-VF direction of relay `id` is not orphaned. -/
def World.VioWatched (world : World) (id : Nat) : Prop :=
  (world.relays id).vio.state ≠ .uninit → world.Watched id (world.relays id).vio.vio2vfCpu

/-- The CPUs of a relay stay, and its states change only on their way out. -/
structure Relay.Eased (before after : Relay) : Prop where
  vio2vfCpu : after.vio.vio2vfCpu = before.vio.vio2vfCpu
  vf2vioCpu : after.dpdk.vf2vioCpu = before.dpdk.vf2vioCpu
  vioState
    : after.vio.state = before.vio.state
      ∨ (before.vio.state = .removing1 ∨ before.vio.state = .removing2)
        ∧ (after.vio.state = .removing2 ∨ after.vio.state = .uninit)
  dpdkState
    : after.dpdk.state = before.dpdk.state
      ∨ (before.dpdk.state = .removing1 ∨ before.dpdk.state = .removing2)
        ∧ (after.dpdk.state = .removing2 ∨ after.dpdk.state = .uninit)

theorem Relay.Served.eased {before after : Relay} (h : before.Served after)
    : before.Eased after :=
  ⟨h.vio2vfCpu, h.vf2vioCpu, h.vioState, h.dpdkState⟩

theorem Relay.SameControl.eased {before after : Relay} (h : before.SameControl after)
    : before.Eased after :=
  ⟨h.vio2vfCpu, h.vf2vioCpu, Or.inl h.vioState, Or.inl h.dpdkState⟩

/-- What happens beside the deciding accesses of a control operation: workers' iterations
and updates, and accesses that leave the states and CPUs alone.
-/
structure World.Calm (settings : Settings) (before after : World) : Prop where
  relays : ∀ id, (before.relays id).Eased (after.relays id)
  vf : ∀ id < settings.maxRelays, before.VfWatched id → after.VfWatched id
  vio : ∀ id < settings.maxRelays, before.VioWatched id → after.VioWatched id

theorem Relay.Eased.trans {first middle last : Relay} (hl : first.Eased middle)
    (hr : middle.Eased last)
    : first.Eased last := by
  have vio := hl.vioState
  have vio' := hr.vioState
  have dpdk := hl.dpdkState
  have dpdk' := hr.dpdkState
  refine ⟨hr.vio2vfCpu.trans hl.vio2vfCpu, hr.vf2vioCpu.trans hl.vf2vioCpu, ?_, ?_⟩
  · grind
  · grind

theorem World.Calm.refl (settings : Settings) (world : World) : world.Calm settings world :=
  ⟨fun _ => ⟨rfl, rfl, Or.inl rfl, Or.inl rfl⟩, fun _ _ => id, fun _ _ => id⟩

theorem World.Calm.trans {settings : Settings} {first middle last : World}
    (hl : first.Calm settings middle) (hr : middle.Calm settings last)
    : first.Calm settings last :=
  ⟨fun id => (hl.relays id).trans (hr.relays id),
    fun id h watched => hr.vf id h (hl.vf id h watched),
    fun id h watched => hr.vio id h (hl.vio id h watched)⟩

/-- Watched directions stay watched if no flag and no bit is cleared. -/
theorem World.Calm.of_workers {settings : Settings} {before after : World}
    (relays : ∀ id, (before.relays id).Eased (after.relays id))
    (workers : ∀ id cpu, before.Watched id cpu → after.Watched id cpu)
    : before.Calm settings after := by
  refine ⟨relays, fun id _ watched used => ?_, fun id _ watched used => ?_⟩
  · rw [(relays id).vf2vioCpu]
    refine workers id _ (watched fun unused => ?_)
    have := (relays id).dpdkState
    grind
  · rw [(relays id).vio2vfCpu]
    refine workers id _ (watched fun unused => ?_)
    have := (relays id).vioState
    grind

theorem World.watched_of_workers {before after : World} (same : after.workers = before.workers)
    {id : Nat} {cpu : Int} (h : before.Watched id cpu)
    : after.Watched id cpu := by
  rwa [World.Watched, same]

/-- An update of a worker clears its flag, but sets the bits of the relays that use it. -/
theorem updateThread_calm (settings : Settings) (world : World) (cpu : Nat)
    : world.Calm settings (updateThread settings world cpu) := by
  have other {id : Nat} {c : Int} (h : c.toNat ≠ cpu) (watched : world.Watched id c)
      : (updateThread settings world cpu).Watched id c := by
    simpa [World.Watched, updateThread, Function.update_of_ne h] using watched
  refine ⟨fun _ => ⟨rfl, rfl, Or.inl rfl, Or.inl rfl⟩, ?_, ?_⟩
  · intro id below watched used
    have here := watched used
    by_cases same : (world.relays id).dpdk.vf2vioCpu.toNat = cpu
    · refine ⟨here.1, Or.inr ?_⟩
      have used : (world.relays id).dpdk.state ≠ .uninit := used
      have assigned : (world.relays id).dpdk.vf2vioCpu = cpu := by
        rw [← same, Int.toNat_of_nonneg here.1]
      simp [updateThread, below, used, assigned]
    · exact other same here
  · intro id below watched used
    have here := watched used
    by_cases same : (world.relays id).vio.vio2vfCpu.toNat = cpu
    · refine ⟨here.1, Or.inr ?_⟩
      have used : (world.relays id).vio.state ≠ .uninit := used
      have assigned : (world.relays id).vio.vio2vfCpu = cpu := by
        rw [← same, Int.toNat_of_nonneg here.1]
      simp [updateThread, below, used, assigned]
    · exact other same here

theorem Event.calm {settings : Settings} {event : Event} {world after : World}
    (h : event.apply settings world = some after)
    : world.Calm settings after := by
  have eased (id : Nat) := (Event.served h id).eased
  rcases Event.apply_cases h with ⟨_, _, rfl, _⟩ | ⟨cpu, rfl⟩ | ⟨_, _, rfl, _⟩
  · exact .of_workers eased fun _ _ => World.watched_of_workers rfl
  · exact updateThread_calm settings world cpu
  · exact .of_workers eased fun _ _ => World.watched_of_workers rfl

/-- Flagging a worker leaves every watched direction watched. -/
theorem Instr.watched (instr : Instr) (id : Nat) (answer : Int) (world : World) {other : Nat}
    {cpu : Int} (h : world.Watched other cpu)
    : (instr.exec id answer world).Watched other cpu := by
  cases instr with
  | flagWorker flagged =>
      by_cases same : cpu.toNat = flagged
      · exact ⟨h.1, Or.inl (by simp [Instr.exec, same])⟩
      · simpa [World.Watched, Instr.exec, Function.update_of_ne same] using h
  | call request => exact World.watched_of_workers (DriverCall.workers_apply ..) h
  | read | write | logTimeout => exact h

theorem Instr.Plain.calm {settings : Settings} {instr : Instr} (h : instr.Plain) (id : Nat)
    (answer : Int) (world : World)
    : world.Calm settings (instr.exec id answer world) :=
  .of_workers (fun other => (h.sameControl id answer world other).eased)
    fun _ _ => instr.watched id answer world

/-- With `strict`, the VF-to-VM direction of relay `id` is watched. -/
def World.VfSafe (settings : Settings) (strict : Prop) (id : Nat) (world : World) : Prop :=
  strict → id < settings.maxRelays → world.VfWatched id

/-- With `strict`, the VM-to-VF direction of relay `id` is watched. -/
def World.VioSafe (settings : Settings) (strict : Prop) (id : Nat) (world : World) : Prop :=
  strict → id < settings.maxRelays → world.VioWatched id

/-- A relay between two operations. With `strict`, none of its directions is orphaned. -/
structure World.SettledAt (settings : Settings) (strict : Prop) (world : World) (id : Nat)
    : Prop where
  ready
    : (world.relays id).dpdk.state = .ready
      → (world.relays id).vio.state = .ready ∧ 0 ≤ (world.relays id).dpdk.vf2vioCpu
  vf : world.VfSafe settings strict id
  vio : world.VioSafe settings strict id

/-- All relays but `id` are settled. -/
def World.Elsewhere (settings : Settings) (strict : Prop) (id : Nat) (world : World) : Prop :=
  ∀ other ≠ id, world.SettledAt settings strict other

/-- All relays are settled. -/
def World.Settled (settings : Settings) (strict : Prop) (world : World) : Prop :=
  ∀ id, world.SettledAt settings strict id

/-- An assertion that calm changes keep. -/
def Persistent (settings : Settings) (assertion : World → Prop) : Prop :=
  ∀ ⦃before after⦄, before.Calm settings after → assertion before → assertion after

theorem Persistent.and {settings : Settings} {left right : World → Prop}
    (hl : Persistent settings left) (hr : Persistent settings right)
    : Persistent settings fun world => left world ∧ right world :=
  fun _ _ calm h => ⟨hl calm h.1, hr calm h.2⟩

theorem Relay.Eased.dpdkReady {before after : Relay} (h : before.Eased after)
    : after.dpdk.state = .ready ↔ before.dpdk.state = .ready := by
  have := h.dpdkState
  grind

theorem Relay.Eased.vioReady {before after : Relay} (h : before.Eased after)
    : after.vio.state = .ready ↔ before.vio.state = .ready := by
  have := h.vioState
  grind

theorem Relay.Eased.dpdkAdded {before after : Relay} (h : before.Eased after)
    : after.dpdk.state = .added ↔ before.dpdk.state = .added := by
  have := h.dpdkState
  grind

theorem Relay.Eased.dpdkUninit {before after : Relay} (h : before.Eased after)
    (uninit : before.dpdk.state = .uninit)
    : after.dpdk.state = .uninit := by
  have := h.dpdkState
  grind

theorem Relay.Eased.vioUninit {before after : Relay} (h : before.Eased after)
    (uninit : before.vio.state = .uninit)
    : after.vio.state = .uninit := by
  have := h.vioState
  grind

section Persistence

variable {settings : Settings} {strict : Prop} {id : Nat}

theorem settledAt_persistent
    : Persistent settings fun world => world.SettledAt settings strict id := by
  intro before after calm h
  refine ⟨fun ready => ?_, fun hs below => ?_, fun hs below => ?_⟩
  · have eased := calm.relays id
    rw [eased.vioReady, eased.vf2vioCpu]
    exact h.ready (eased.dpdkReady.mp ready)
  · exact calm.vf id below (h.vf hs below)
  · exact calm.vio id below (h.vio hs below)

theorem elsewhere_persistent : Persistent settings (World.Elsewhere settings strict id) :=
  fun _ _ calm h other away => settledAt_persistent calm (h other away)

theorem vfSafe_persistent : Persistent settings (World.VfSafe settings strict id) :=
  fun _ _ calm h hs below => calm.vf id below (h hs below)

theorem vioSafe_persistent : Persistent settings (World.VioSafe settings strict id) :=
  fun _ _ calm h hs below => calm.vio id below (h hs below)

/-- A change of the other side leaves the VM-to-VF direction safe. -/
theorem World.VioSafe.modify {world : World} (h : world.VioSafe settings strict id)
    (f : Relay → Relay)
    (state : (f (world.relays id)).vio.state ≠ .uninit → (world.relays id).vio.state ≠ .uninit)
    (cpu : (f (world.relays id)).vio.vio2vfCpu = (world.relays id).vio.vio2vfCpu)
    : (world.modifyRelay id f).VioSafe settings strict id := by
  intro hs below used
  rw [World.relays_modifyRelay_self] at used ⊢
  rw [cpu]
  exact h hs below (state used)

theorem World.VfSafe.modify {world : World} (h : world.VfSafe settings strict id)
    (f : Relay → Relay)
    (state : (f (world.relays id)).dpdk.state ≠ .uninit → (world.relays id).dpdk.state ≠ .uninit)
    (cpu : (f (world.relays id)).dpdk.vf2vioCpu = (world.relays id).dpdk.vf2vioCpu)
    : (world.modifyRelay id f).VfSafe settings strict id := by
  intro hs below used
  rw [World.relays_modifyRelay_self] at used ⊢
  rw [cpu]
  exact h hs below (state used)

/-- What is known of a relay persists if it depends on the CPUs and on settled states. -/
theorem persistent_of_eased (known : Relay → Prop)
    (h : ∀ before after, before.Eased after → known before → known after)
    : Persistent settings fun world => known (world.relays id) :=
  fun _ _ calm => h _ _ (calm.relays id)

theorem vf2vioCpu_persistent (id : Nat) (known : Int → Prop)
    : Persistent settings fun world => known (world.relays id).dpdk.vf2vioCpu :=
  persistent_of_eased (fun relay => known relay.dpdk.vf2vioCpu)
    fun _ _ eased h => by rwa [eased.vf2vioCpu]

theorem vio2vfCpu_persistent (id : Nat) (known : Int → Prop)
    : Persistent settings fun world => known (world.relays id).vio.vio2vfCpu :=
  persistent_of_eased (fun relay => known relay.vio.vio2vfCpu)
    fun _ _ eased h => by rwa [eased.vio2vfCpu]

theorem dpdkReady_persistent (id : Nat)
    : Persistent settings fun world => (world.relays id).dpdk.state = .ready :=
  persistent_of_eased (fun relay => relay.dpdk.state = .ready) fun _ _ eased => eased.dpdkReady.mpr

theorem dpdkNotReady_persistent (id : Nat)
    : Persistent settings fun world => (world.relays id).dpdk.state ≠ .ready :=
  persistent_of_eased (fun relay => relay.dpdk.state ≠ .ready)
    fun _ _ eased away ready => away (eased.dpdkReady.mp ready)

theorem dpdkAdded_persistent (id : Nat)
    : Persistent settings fun world => (world.relays id).dpdk.state = .added :=
  persistent_of_eased (fun relay => relay.dpdk.state = .added) fun _ _ eased => eased.dpdkAdded.mpr

theorem vioReady_persistent (id : Nat)
    : Persistent settings fun world => (world.relays id).vio.state = .ready :=
  persistent_of_eased (fun relay => relay.vio.state = .ready) fun _ _ eased => eased.vioReady.mpr

/-- An access of an operation on relay `id` leaves the other relays settled. -/
theorem Instr.elsewhere (instr : Instr) (answer : Int) {world : World}
    (h : world.Elsewhere settings strict id)
    : (instr.exec id answer world).Elsewhere settings strict id := by
  intro other away
  have same := Instr.relays_exec_of_ne away instr answer world
  obtain ⟨ready, vf, vio⟩ := h other away
  refine ⟨by rwa [same], fun hs below used => ?_, fun hs below used => ?_⟩
  · rw [same] at used ⊢
    exact instr.watched id answer world (vf hs below used)
  · rw [same] at used ⊢
    exact instr.watched id answer world (vio hs below used)

end Persistence

/-- The contract of an operation that runs alone, while the workers go on. -/
def aloneContract (settings : Settings) (policy : Policy Unit Op Instr Int World) (op : Op)
    : Contract Instr Int Abort World where
  inv world := ∀ id, (world.relays id).Sound
  rely := World.Calm settings
  guar _ _ := True
  admits := policy.instr op
  fault := Abort.OfWorker

/-- During an operation on relay `id` the other relays are settled, and something is known. -/
def World.During (settings : Settings) (strict : Prop) (id : Nat) (known : World → Prop)
    (world : World) : Prop :=
  world.Elsewhere settings strict id ∧ known world

section Rules

variable {settings : Settings} {policy : Policy Unit Op Instr Int World} {strict : Prop}
  {op : Op} {id : Nat} {world : World} {α β : Type} {known : World → Prop}

theorem World.During.settled
    (h : world.During settings strict id fun s => s.SettledAt settings strict id)
    : world.Settled settings strict := by
  intro other
  rcases eq_or_ne other id with rfl | away
  · exact h.2
  · exact h.1 other away

theorem World.Settled.during (h : world.Settled settings strict)
    : world.During settings strict id fun s => s.SettledAt settings strict id :=
  ⟨fun other _ => h other, h id⟩

theorem World.During.mono {known' : World → Prop} (h : world.During settings strict id known)
    (weaker : known world → known' world)
    : world.During settings strict id known' :=
  ⟨h.1, weaker h.2⟩

theorem Persistent.during (h : Persistent settings known)
    : Persistent settings (World.During settings strict id known) :=
  elsewhere_persistent.and h

/-- Plain accesses keep what persists. -/
theorem PlainProg.wp_alone {p : Control α} (plain : PlainProg p)
    (persistent : Persistent settings known) (h : world.During settings strict id known)
    : wp (accesses id) (aloneContract settings policy op) p
        (fun _ => World.During settings strict id known) world := by
  refine plain.wp (fun _ h => h) (fun _ _ calm _ => persistent.during calm)
    (fun i hi s answer inv held _ => ?_) h
  refine ⟨fun other => ?_, trivial, persistent.during (hi.calm id answer s) held⟩
  exact (inv other).of_sameControl (hi.sameControl id answer s other)

theorem wp_alone_bind {p : Control α} {next : α → Control β} {post : β → World → Prop}
    (plain : PlainProg p) (persistent : Persistent settings known)
    (h : world.During settings strict id known)
    (rest : ∀ a s, s.During settings strict id known
      → wp (accesses id) (aloneContract settings policy op) (next a) post s)
    : wp (accesses id) (aloneContract settings policy op) (p >>= next) post world :=
  wp.bind ((plain.wp_alone persistent h).mono rest)

theorem wp_alone_look {field : Field} {post : Relay → World → Prop}
    (persistent : Persistent settings known) (h : world.During settings strict id known)
    (next : ∀ s, (s.relays id).Sound → s.During settings strict id known
      → post (s.relays id) s)
    : wp (accesses id) (aloneContract settings policy op) (look id field) post world :=
  wp_look (fun _ => trivial) (fun _ _ calm _ => persistent.during calm) h
    fun s inv held => next s (inv id) held

/-- Assigning a field: the relay has to stay sound, the other relays stay settled. -/
theorem wp_alone_assign {write : Write} (known' : World → Prop)
    (persistent : Persistent settings known) (h : world.During settings strict id known)
    (sound : ∀ s, (s.relays id).Sound → known s → (write.apply (s.relays id)).Sound)
    (next : ∀ s, (s.relays id).Sound → known s → known' (s.modifyRelay id write.apply))
    : wp (accesses id) (aloneContract settings policy op) (assign write)
        (fun _ => World.During settings strict id known') world := by
  refine wp_assign (fun _ _ calm _ => persistent.during calm) h fun s answer inv held _ => ?_
  refine ⟨fun other => ?_, trivial, Instr.elsewhere (.write write) answer held.1,
    next s (inv id) held.2⟩
  rcases eq_or_ne other id with rfl | away
  · rw [World.relays_modifyRelay_self]
    exact sound s (inv other) held.2
  · rw [World.relays_modifyRelay_of_ne s _ away]
    exact inv other

/-- Flagging the worker of `cpu` makes it watch every relay. -/
theorem wp_alone_flag {cpu : Int} (persistent : Persistent settings known)
    (h : world.During settings strict id known)
    : wp (accesses id) (aloneContract settings policy op) (flagWorker cpu)
        (fun _ s => s.During settings strict id known ∧ s.Watched id cpu) world := by
  unfold flagWorker
  split
  · rename_i inRange
    refine wp.perform (fun _ _ calm _ => persistent.during calm) h fun s answer inv held _ => ?_
    have plain : (Instr.flagWorker cpu.toNat).Plain := trivial
    refine ⟨fun other => ?_, trivial, persistent.during (plain.calm id answer s) held, ?_⟩
    · exact (inv other).of_sameControl (plain.sameControl id answer s other)
    · exact ⟨inRange.1, Or.inl (by simp [Instr.exec])⟩
  · trivial

/-- The worker of the VF-to-VM direction is flagged, whichever it is. -/
theorem wp_alone_flagVf (persistent : Persistent settings known)
    (h : world.During settings strict id known)
    : wp (accesses id) (aloneContract settings policy op)
        (do flagWorker (← look id .vf2vioCpu).dpdk.vf2vioCpu)
        (fun _ s => s.During settings strict id known
          ∧ s.Watched id (s.relays id).dpdk.vf2vioCpu) world := by
  refine wp.bind (wp_alone_look persistent h fun s _ held => ?_)
  generalize here : (s.relays id).dpdk.vf2vioCpu = cpu
  refine (wp_alone_flag (persistent.and (vf2vioCpu_persistent id (· = cpu)))
    ⟨held.1, held.2, here⟩).mono fun _ s flagged => ?_
  obtain ⟨⟨elsewhere, known, rfl⟩, watched⟩ := flagged
  exact ⟨⟨elsewhere, known⟩, watched⟩

/-- The worker of the VM-to-VF direction is flagged, whichever it is, and a program goes on. -/
theorem wp_alone_flagVio_bind {next : Control β} {post : β → World → Prop}
    (persistent : Persistent settings known) (h : world.During settings strict id known)
    (rest : ∀ s, s.During settings strict id known → s.Watched id (s.relays id).vio.vio2vfCpu
      → wp (accesses id) (aloneContract settings policy op) next post s)
    : wp (accesses id) (aloneContract settings policy op)
        (do
          flagWorker (← look id .vio2vfCpu).vio.vio2vfCpu
          next)
        post world := by
  refine wp.bind (wp_alone_look persistent h fun s _ held => ?_)
  generalize here : (s.relays id).vio.vio2vfCpu = cpu
  refine wp.bind ((wp_alone_flag (persistent.and (vio2vfCpu_persistent id (· = cpu)))
    ⟨held.1, held.2, here⟩).mono fun _ s flagged => ?_)
  obtain ⟨⟨elsewhere, known, rfl⟩, watched⟩ := flagged
  exact rest s ⟨elsewhere, known⟩ watched

end Rules

section Workers

variable {settings : Settings} {policy : Policy Unit Op Instr Int World} {strict : Prop}
  {op : Op} {id : Nat} {world : World} {known : World → Prop}

theorem findIdlestCpu_returns (settings : Settings) (id : Nat)
    : (findIdlestCpu settings id).Returns fun cpu => 0 ≤ cpu := by
  refine .bind fun cpu => ?_
  split
  · rename_i found
    exact found
  · trivial

theorem Relay.Sound.setVf2vioCpu {relay : Relay} (h : relay.Sound)
    (idle : relay.dpdk.state = .uninit ∨ relay.dpdk.state = .added) (cpu : Int)
    : ((Write.vf2vioCpu cpu).apply relay).Sound := by
  refine ⟨h.caches, fun used started => ?_, h.vio2vf⟩
  rcases idle with idle | idle
  · exact absurd idle used
  · exact absurd idle started

theorem Relay.Sound.setVio2vfCpu {relay : Relay} (h : relay.Sound)
    (idle : relay.vio.state = .uninit) (cpu : Int)
    : ((Write.vio2vfCpu cpu).apply relay).Sound :=
  ⟨h.caches, h.vf2vio, fun used => absurd idle used⟩

theorem leaveVf2virtioCpu_wp (persistent : Persistent settings known)
    (idle : ∀ s, known s
      → (s.relays id).dpdk.state = .uninit ∨ (s.relays id).dpdk.state = .added)
    (free : ∀ s cpu, known s → known (s.modifyRelay id (Write.vf2vioCpu cpu).apply))
    (h : world.During settings strict id known)
    : wp (accesses id) (aloneContract settings policy op) (leaveVf2virtioCpu id)
        (fun _ => World.During settings strict id known) world := by
  refine wp.bind (wp_alone_look persistent h fun s _ held => ?_)
  dsimp only
  split
  · exact held
  · refine wp_alone_bind (flagWorker_inert _).plain persistent held fun _ s held => ?_
    exact wp_alone_assign known persistent held
      (fun s sound held => sound.setVf2vioCpu (idle s held) (-1)) fun s _ held => free s _ held

/-- `find_vf2virtio_cpu` assigns a worker to a VF on which no packets move yet. -/
theorem findVf2virtioCpu_wp (persistent : Persistent settings known)
    (idle : ∀ s, known s
      → (s.relays id).dpdk.state = .uninit ∨ (s.relays id).dpdk.state = .added)
    (free : ∀ s cpu, known s → known (s.modifyRelay id (Write.vf2vioCpu cpu).apply))
    (h : world.During settings strict id known)
    : wp (accesses id) (aloneContract settings policy op) (findVf2virtioCpu settings id)
        (fun _ => World.During settings strict id
          fun s => known s ∧ (s.relays id).dpdk.vf2vioCpu ≠ -1) world := by
  have write {world : World} {cpu : Int} (assigned : cpu ≠ -1)
      (h : world.During settings strict id known)
      : wp (accesses id) (aloneContract settings policy op) (assign (.vf2vioCpu cpu))
          (fun _ => World.During settings strict id
            fun s => known s ∧ (s.relays id).dpdk.vf2vioCpu ≠ -1) world := by
    refine wp_alone_assign _ persistent h (fun s sound held => sound.setVf2vioCpu (idle s held) cpu)
      fun s _ held => ⟨free s cpu held, ?_⟩
    rw [World.relays_modifyRelay_self]
    exact assigned
  unfold findVf2virtioCpu
  dsimp only
  split
  · rename_i configured
    exact write configured h
  · refine wp.bind ((leaveVf2virtioCpu_wp persistent idle free h).mono fun _ s held => ?_)
    refine wp.bind ((((findIdlestCpu_inert settings id).plain.wp_alone persistent held).returns
      (findIdlestCpu_returns settings id)).mono fun cpu s found => ?_)
    have chosen := found.1
    exact write (by omega) found.2

theorem leaveVirtio2vfCpu_wp (persistent : Persistent settings known)
    (idle : ∀ s, known s → (s.relays id).vio.state = .uninit)
    (free : ∀ s cpu, known s → known (s.modifyRelay id (Write.vio2vfCpu cpu).apply))
    (h : world.During settings strict id known)
    : wp (accesses id) (aloneContract settings policy op) (leaveVirtio2vfCpu id)
        (fun _ => World.During settings strict id known) world := by
  refine wp.bind (wp_alone_look persistent h fun s _ held => ?_)
  dsimp only
  split
  · exact held
  · refine wp_alone_bind (flagWorker_inert _).plain persistent held fun _ s held => ?_
    exact wp_alone_assign known persistent held
      (fun s sound held => sound.setVio2vfCpu (idle s held) (-1)) fun s _ held => free s _ held

/-- `find_virtio2vf_cpu` assigns a worker to a guest that is not connected yet. -/
theorem findVirtio2vfCpu_wp (persistent : Persistent settings known)
    (idle : ∀ s, known s → (s.relays id).vio.state = .uninit)
    (free : ∀ s cpu, known s → known (s.modifyRelay id (Write.vio2vfCpu cpu).apply))
    (h : world.During settings strict id known)
    : wp (accesses id) (aloneContract settings policy op) (findVirtio2vfCpu settings id)
        (fun _ => World.During settings strict id
          fun s => known s ∧ (s.relays id).vio.vio2vfCpu ≠ -1) world := by
  have write {world : World} {cpu : Int} (assigned : cpu ≠ -1)
      (h : world.During settings strict id known)
      : wp (accesses id) (aloneContract settings policy op) (assign (.vio2vfCpu cpu))
          (fun _ => World.During settings strict id
            fun s => known s ∧ (s.relays id).vio.vio2vfCpu ≠ -1) world := by
    refine wp_alone_assign _ persistent h (fun s sound held => sound.setVio2vfCpu (idle s held) cpu)
      fun s _ held => ⟨free s cpu held, ?_⟩
    rw [World.relays_modifyRelay_self]
    exact assigned
  unfold findVirtio2vfCpu
  dsimp only
  split
  · rename_i configured
    exact write configured h
  · refine wp.bind ((leaveVirtio2vfCpu_wp persistent idle free h).mono fun _ s held => ?_)
    refine wp.bind ((((findIdlestCpu_inert settings id).plain.wp_alone persistent held).returns
      (findIdlestCpu_returns settings id)).mono fun cpu s found => ?_)
    have chosen := found.1
    exact write (by omega) found.2

end Workers

end VirtioForwarder
