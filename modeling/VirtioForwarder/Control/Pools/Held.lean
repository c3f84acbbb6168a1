import VirtioForwarder.Control.Frame

/-! When a VF in use has the pool of its relay, and the accesses that do not concern it. -/

namespace VirtioForwarder

open Program

/-- The VF of relay `w` is not in use. -/
def World.Off (w : Nat) (world : World) : Prop :=
  (world.relays w).dpdk.state ≠ .added ∧ (world.relays w).dpdk.state ≠ .ready

/-- Only pools that were handed out are freed, and the relay's pool is not one of them. -/
structure World.PoolSound (w : Nat) (world : World) : Prop where
  fresh : ∀ pool, world.freed pool = true → pool < world.nextPool
  owned
    : ∀ pool, (world.relays w).vio.mempool = some pool
      → pool < world.nextPool ∧ world.freed pool = false

/-- The pool last passed for the receive queue of `port` is the relay's pool. -/
def World.Backed (w port : Nat) (world : World) : Prop :=
  (world.relays w).vio.mempool.isSome ∧ world.rxPool port = (world.relays w).vio.mempool

/-- A VF in use has the relay's pool. Without `used`, the VF is not in use. -/
structure World.Held (w : Nat) (used : Prop) (world : World) : Prop where
  sound : world.PoolSound w
  backed
    : world.Off w
      ∨ used
        ∧ (world.relays w).dpdk.dpdkPort < 256
        ∧ world.Backed w (world.relays w).dpdk.dpdkPort

theorem World.Held.mono {w : Nat} {used used' : Prop} {world : World} (h : world.Held w used)
    (weaker : used → used')
    : world.Held w used' :=
  ⟨h.sound, h.backed.imp_right fun backed => ⟨weaker backed.1, backed.2⟩⟩

theorem World.Held.off {w : Nat} {world : World} (h : world.Held w False) : world.Off w :=
  h.backed.resolve_right fun backed => backed.1

/-- The pools are the same, and the VF of relay `w` is in use as before. -/
structure World.Kept (w : Nat) (before after : World) : Prop where
  mempool : (after.relays w).vio.mempool = (before.relays w).vio.mempool
  dpdkPort : (after.relays w).dpdk.dpdkPort = (before.relays w).dpdk.dpdkPort
  added : (after.relays w).dpdk.state = .added ↔ (before.relays w).dpdk.state = .added
  ready : (after.relays w).dpdk.state = .ready ↔ (before.relays w).dpdk.state = .ready
  freed : after.freed = before.freed
  rxPool : after.rxPool = before.rxPool
  nextPool : before.nextPool ≤ after.nextPool

theorem World.Kept.refl (w : Nat) (world : World) : world.Kept w world :=
  ⟨rfl, rfl, Iff.rfl, Iff.rfl, rfl, rfl, le_rfl⟩

theorem World.Kept.trans {w : Nat} {first middle last : World} (hl : first.Kept w middle)
    (hr : middle.Kept w last)
    : first.Kept w last where
  mempool := hr.mempool.trans hl.mempool
  dpdkPort := hr.dpdkPort.trans hl.dpdkPort
  added := hr.added.trans hl.added
  ready := hr.ready.trans hl.ready
  freed := hr.freed.trans hl.freed
  rxPool := hr.rxPool.trans hl.rxPool
  nextPool := hl.nextPool.trans hr.nextPool

theorem Event.kept {settings : Settings} {event : Event} {world after : World}
    (h : event.apply settings world = some after) (w : Nat)
    : world.Kept w after := by
  have served := Event.served h w
  have leaving := served.dpdkState
  obtain ⟨nextPool, freed, rxPool, _⟩ := Event.drivers h
  refine ⟨served.mempool, served.dpdkPort, ?_, ?_, freed, rxPool, nextPool.ge⟩
  · grind
  · grind

/-- Accesses that do not concern the pool. -/
def Instr.PoolNeutral : Instr → Prop
  | .write (.mempool _) | .write (.dpdkPort _) | .write (.dpdkState _) => False
  | .call request => request.Harmless
  | _ => True

theorem Instr.Observing.poolNeutral {instr : Instr} (h : instr.Observing) : instr.PoolNeutral := by
  cases instr with
  | write assignment => exact h.elim
  | call request => exact h
  | read | flagWorker | logTimeout => trivial

theorem Instr.Assigning.poolNeutral {instr : Instr} (h : instr.Assigning) : instr.PoolNeutral := by
  cases instr with
  | write assignment =>
      cases assignment with
      | vio2vfCpu | vf2vioCpu => trivial
      | _ => exact h.elim
  | call request => exact h.elim
  | read | flagWorker | logTimeout => trivial

theorem DriverCall.Harmless.kept {call : DriverCall} (h : call.Harmless) (w : Nat) (answer : Int)
    (world : World)
    : world.Kept w (call.apply answer world) := by
  have pools : (call.apply answer world).freed = world.freed
      ∧ (call.apply answer world).rxPool = world.rxPool
      ∧ world.nextPool ≤ (call.apply answer world).nextPool := by
    cases call with
    | poolFree | rxQueueSetup => exact h.elim
    | poolCreate node size =>
        simp only [DriverCall.apply]
        split
        · exact ⟨rfl, rfl, Nat.le_succ _⟩
        · exact ⟨rfl, rfl, le_rfl⟩
    | devStart | devStop | devClose =>
        simp only [DriverCall.apply]
        split <;> exact ⟨rfl, rfl, le_rfl⟩
    | _ => exact ⟨rfl, rfl, le_rfl⟩
  have same : (call.apply answer world).relays w = world.relays w := by
    rw [DriverCall.relays_apply]
  obtain ⟨freed, rxPool, nextPool⟩ := pools
  exact ⟨by rw [same], by rw [same], by rw [same], by rw [same], freed, rxPool, nextPool⟩

theorem Instr.PoolNeutral.kept {instr : Instr} (h : instr.PoolNeutral) (w : Nat) (answer : Int)
    (world : World)
    : world.Kept w (instr.exec w answer world) := by
  cases instr with
  | write assignment =>
      have same : (Instr.exec w (.write assignment) answer world).relays w
          = assignment.apply (world.relays w) :=
        World.relays_modifyRelay_self ..
      cases assignment with
      | mempool | dpdkPort | dpdkState => exact h.elim
      | _ =>
          exact ⟨by rw [same]; rfl, by rw [same]; rfl, by rw [same]; rfl, by rw [same]; rfl,
            rfl, rfl, le_rfl⟩
  | call request => exact DriverCall.Harmless.kept h w answer world
  | flagWorker cpu => exact ⟨rfl, rfl, Iff.rfl, Iff.rfl, rfl, rfl, le_rfl⟩
  | read | logTimeout => exact .refl w world

/-- An assertion that does not depend on anything but the pools. -/
def Retained (w : Nat) (known : World → Prop) : Prop :=
  ∀ ⦃before after⦄, before.Kept w after → known before → known after

theorem Retained.and {w : Nat} {left right : World → Prop} (hl : Retained w left)
    (hr : Retained w right)
    : Retained w fun world => left world ∧ right world :=
  fun _ _ kept h => ⟨hl kept h.1, hr kept h.2⟩

section Retention

variable {w : Nat}

theorem off_retained : Retained w (World.Off w) := by
  intro before after kept h
  exact ⟨fun added => h.1 (kept.added.mp added), fun ready => h.2 (kept.ready.mp ready)⟩

theorem added_retained : Retained w fun world => (world.relays w).dpdk.state = .added :=
  fun _ _ kept => kept.added.mpr

theorem notAdded_retained : Retained w fun world => (world.relays w).dpdk.state ≠ .added :=
  fun _ _ kept h added => h (kept.added.mp added)

theorem ready_retained : Retained w fun world => (world.relays w).dpdk.state = .ready :=
  fun _ _ kept => kept.ready.mpr

theorem mempool_retained (known : Option Nat → Prop)
    : Retained w fun world => known (world.relays w).vio.mempool := by
  intro before after kept h
  rwa [kept.mempool]

theorem poolSound_retained : Retained w (World.PoolSound w) := by
  intro before after kept h
  refine ⟨fun pool freed => ?_, fun pool mine => ?_⟩
  · rw [kept.freed] at freed
    exact (h.fresh pool freed).trans_le kept.nextPool
  · rw [kept.mempool] at mine
    rw [kept.freed]
    exact ⟨(h.owned pool mine).1.trans_le kept.nextPool, (h.owned pool mine).2⟩

theorem backed_retained (port : Nat) : Retained w (World.Backed w port) := by
  intro before after kept h
  unfold World.Backed
  rw [kept.mempool, kept.rxPool]
  exact h

theorem held_retained {used : Prop} : Retained w (World.Held w used) := by
  intro before after kept h
  refine ⟨poolSound_retained kept h.sound, h.backed.imp (off_retained kept) fun backed => ?_⟩
  rw [kept.dpdkPort]
  exact ⟨backed.1, backed.2.1, backed_retained _ kept backed.2.2⟩

end Retention

/-- The contract of an operation on relay `w`, while the workers go on. -/
def poolContract (w : Nat) (policy : Policy Unit Op Instr Int World) (op : Op)
    : Contract Instr Int Abort World where
  inv _ := True
  rely before after := before.Kept w after ∧ (before.relays w).Served (after.relays w)
  guar _ _ := True
  admits := policy.instr op
  fault _ := True

/-- A program none of whose accesses concerns the pool. -/
abbrev PoolNeutralProg {α : Type} (p : Control α) : Prop :=
  p.All Instr.PoolNeutral fun _ => True

theorem ObservingProg.poolNeutral {α : Type} {p : Control α} (h : ObservingProg p)
    : PoolNeutralProg p :=
  h.mono (fun _ => Instr.Observing.poolNeutral) fun _ _ => trivial

theorem InertProg.poolNeutral {α : Type} {p : Control α} (h : InertProg p) : PoolNeutralProg p :=
  h.observing.poolNeutral

theorem AssigningProg.poolNeutral {α : Type} {p : Control α} (h : AssigningProg p)
    : PoolNeutralProg p :=
  h.mono (fun _ => Instr.Assigning.poolNeutral) fun _ _ => trivial

section Rules

variable {w : Nat} {policy : Policy Unit Op Instr Int World} {op : Op} {world : World}
  {α β : Type} {known : World → Prop}

theorem Retained.stable (retained : Retained w known) : (poolContract w policy op).Stable known :=
  fun _ _ rely _ => retained rely.1

theorem PoolNeutralProg.wp_pool {p : Control α} (neutral : PoolNeutralProg p)
    (retained : Retained w known) (h : known world)
    : wp (accesses w) (poolContract w policy op) p (fun _ => known) world :=
  neutral.wp (fun _ h => h) retained.stable
    (fun _ hi s answer _ held _ => ⟨trivial, trivial, retained (hi.kept w answer s) held⟩) h

theorem wp_pool_bind {p : Control α} {next : α → Control β} {post : β → World → Prop}
    (neutral : PoolNeutralProg p) (retained : Retained w known) (h : known world)
    (rest : ∀ a s, known s → wp (accesses w) (poolContract w policy op) (next a) post s)
    : wp (accesses w) (poolContract w policy op) (p >>= next) post world :=
  wp.bind ((neutral.wp_pool retained h).mono rest)

theorem wp_pool_look {field : Field} {post : Relay → World → Prop} (retained : Retained w known)
    (h : known world) (next : ∀ s, known s → post (s.relays w) s)
    : wp (accesses w) (poolContract w policy op) (look w field) post world :=
  wp_look (fun _ => trivial) retained.stable h fun s _ held => next s held

theorem wp_pool_assign {write : Write} {post : Unit → World → Prop} (retained : Retained w known)
    (h : known world) (next : ∀ s, known s → post () (s.modifyRelay w write.apply))
    : wp (accesses w) (poolContract w policy op) (assign write) post world :=
  wp_assign retained.stable h fun s _ _ held _ => ⟨trivial, trivial, next s held⟩

theorem wp_pool_drive {call : DriverCall} {post : Int → World → Prop}
    (retained : Retained w known) (h : known world)
    (next : ∀ s answer, known s → policy.instr op (.call call) answer s
      → post answer (call.apply answer s))
    : wp (accesses w) (poolContract w policy op) (drive call) post world :=
  wp_drive retained.stable h
    fun s answer _ held admitted => ⟨trivial, trivial, next s answer held admitted⟩

/-- A harmless call, with what the policy says about its answer. -/
theorem wp_pool_ask {call : DriverCall} {next : Int → Control β} {post : β → World → Prop}
    {expected : Int → Prop} (harmless : call.Harmless) (retained : Retained w known)
    (answers : ∀ answer s, policy.instr op (.call call) answer s → expected answer)
    (h : known world)
    (rest : ∀ answer s, expected answer → known s
      → wp (accesses w) (poolContract w policy op) (next answer) post s)
    : wp (accesses w) (poolContract w policy op) (drive call >>= next) post world := by
  refine wp.bind (wp_pool_drive retained h fun s answer held admitted => ?_)
  exact rest answer _ (answers answer s admitted) (retained (harmless.kept w answer s) held)

end Rules

end VirtioForwarder
