import VirtioForwarder.Control.Operations
import VirtioForwarder.Relay.Iteration

/-! What a single access and a step of the environment can change, and the proof rules for
the accesses of a control program.
-/

namespace VirtioForwarder

open Program

-----------------------------------------------------------------------------------------
-- Single accesses
-----------------------------------------------------------------------------------------

@[simp]
theorem World.relays_modifyRelay_self (world : World) (id : Nat) (f : Relay → Relay)
    : (world.modifyRelay id f).relays id = f (world.relays id) :=
  Function.update_self ..

theorem World.relays_modifyRelay_of_ne (world : World) {id other : Nat} (f : Relay → Relay)
    (h : other ≠ id)
    : (world.modifyRelay id f).relays other = world.relays other :=
  Function.update_of_ne h ..

/-- Driver calls touch neither relays nor workers. -/
@[simp]
theorem DriverCall.relays_apply (call : DriverCall) (answer : Int) (world : World)
    : (call.apply answer world).relays = world.relays := by
  unfold DriverCall.apply
  split <;> first | rfl | (split <;> rfl)

@[simp]
theorem DriverCall.workers_apply (call : DriverCall) (answer : Int) (world : World)
    : (call.apply answer world).workers = world.workers := by
  unfold DriverCall.apply
  split <;> first | rfl | (split <;> rfl)

/-- An access touches at most the operation's relay. -/
theorem Instr.relays_exec_of_ne {id other : Nat} (h : other ≠ id) (instr : Instr) (answer : Int)
    (world : World)
    : (instr.exec id answer world).relays other = world.relays other := by
  cases instr with
  | read field => rfl
  | write assignment => exact World.relays_modifyRelay_of_ne world _ h
  | flagWorker cpu => rfl
  | call request =>
      change (request.apply answer world).relays other = world.relays other
      rw [DriverCall.relays_apply]
  | logTimeout => rfl

/-- The states, CPUs and packets of a relay are the same. -/
structure Relay.SameControl (before after : Relay) : Prop where
  vioState : after.vio.state = before.vio.state
  dpdkState : after.dpdk.state = before.dpdk.state
  vio2vfCpu : after.vio.vio2vfCpu = before.vio.vio2vfCpu
  vf2vioCpu : after.dpdk.vf2vioCpu = before.dpdk.vf2vioCpu
  txPkts : after.vio.txPkts = before.vio.txPkts
  rxPkts : after.dpdk.rxPkts = before.dpdk.rxPkts

/-- Assignments to other fields than the states and the CPUs. -/
def Write.Plain : Write → Prop
  | .vioState _ | .dpdkState _ | .vio2vfCpu _ | .vf2vioCpu _ => False
  | _ => True

/-- Accesses that leave the states and the CPUs of the relay alone. -/
def Instr.Plain : Instr → Prop
  | .write assignment => assignment.Plain
  | _ => True

/-- Plain accesses that leave the port of the relay alone. -/
def Instr.Steady : Instr → Prop
  | .write (.dpdkPort _) => False
  | .write assignment => assignment.Plain
  | _ => True

/-- Steady accesses that do not read the states. -/
def Instr.Quiet : Instr → Prop
  | .read field => field ≠ .vioState ∧ field ≠ .dpdkState
  | instr => instr.Steady

/-- Driver calls that neither free a pool nor pass one for a receive queue. -/
def DriverCall.Harmless : DriverCall → Prop
  | .poolFree _ | .rxQueueSetup _ _ _ => False
  | _ => True

/-- Accesses that assign nothing and make only harmless calls. -/
def Instr.Observing : Instr → Prop
  | .write _ => False
  | .call request => request.Harmless
  | _ => True

/-- Observing accesses that do not read the states. -/
def Instr.Inert : Instr → Prop
  | .read field => field ≠ .vioState ∧ field ≠ .dpdkState
  | instr => instr.Observing

/-- Accesses that assign nothing but the relay's pool. -/
def Instr.Repooling : Instr → Prop
  | .write (.mempool _) | .write (.mempoolSocketId _) => True
  | .write _ => False
  | _ => True

/-- Quiet accesses that assign nothing but the relay's pool. -/
def Instr.Pooling (instr : Instr) : Prop := instr.Quiet ∧ instr.Repooling

/-- The accesses that choose a worker. -/
def Instr.Assigning : Instr → Prop
  | .read field => field ≠ .vioState ∧ field ≠ .dpdkState
  | .write (.vio2vfCpu _) | .write (.vf2vioCpu _) | .flagWorker _ => True
  | _ => False

theorem Instr.Steady.plain {instr : Instr} (h : instr.Steady) : instr.Plain := by
  cases instr with
  | write assignment =>
      cases assignment with
      | dpdkPort port => exact h.elim
      | _ => exact h
  | _ => trivial

theorem Instr.Quiet.steady {instr : Instr} (h : instr.Quiet) : instr.Steady := by
  cases instr with
  | read field => trivial
  | _ => exact h

theorem Instr.Observing.steady {instr : Instr} (h : instr.Observing) : instr.Steady := by
  cases instr with
  | write assignment => exact h.elim
  | _ => trivial

theorem Instr.Repooling.steady {instr : Instr} (h : instr.Repooling) : instr.Steady := by
  cases instr with
  | write assignment =>
      cases assignment with
      | mempool | mempoolSocketId => trivial
      | _ => exact h.elim
  | _ => trivial

theorem Instr.Observing.repooling {instr : Instr} (h : instr.Observing) : instr.Repooling := by
  cases instr with
  | write assignment => exact h.elim
  | _ => trivial

theorem Instr.Inert.quiet {instr : Instr} (h : instr.Inert) : instr.Quiet := by
  cases instr with
  | read field => exact h
  | write assignment => exact h.elim
  | _ => trivial

theorem Instr.Inert.observing {instr : Instr} (h : instr.Inert) : instr.Observing := by
  cases instr with
  | read field => trivial
  | _ => exact h

theorem Write.Plain.sameControl {write : Write} (h : write.Plain) (relay : Relay)
    : relay.SameControl (write.apply relay) := by
  cases write with
  | vioState | dpdkState | vio2vfCpu | vf2vioCpu => exact h.elim
  | _ => exact ⟨rfl, rfl, rfl, rfl, rfl, rfl⟩

theorem Instr.Plain.sameControl {instr : Instr} (h : instr.Plain) (id : Nat) (answer : Int)
    (world : World) (other : Nat)
    : (world.relays other).SameControl ((instr.exec id answer world).relays other) := by
  by_cases same : other = id
  · subst same
    cases instr with
    | write assignment =>
        change (world.relays other).SameControl ((world.modifyRelay other _).relays other)
        rw [World.relays_modifyRelay_self]
        exact Write.Plain.sameControl h _
    | call request =>
        change (world.relays other).SameControl ((request.apply answer world).relays other)
        rw [DriverCall.relays_apply]
        exact ⟨rfl, rfl, rfl, rfl, rfl, rfl⟩
    | read | flagWorker | logTimeout => exact ⟨rfl, rfl, rfl, rfl, rfl, rfl⟩
  · rw [Instr.relays_exec_of_ne same]
    exact ⟨rfl, rfl, rfl, rfl, rfl, rfl⟩

-----------------------------------------------------------------------------------------
-- The environment
-----------------------------------------------------------------------------------------

/-- What the environment can do to a relay: a state changes only on its way out. -/
structure Relay.Served (before after : Relay) : Prop where
  vio2vfCpu : after.vio.vio2vfCpu = before.vio.vio2vfCpu
  vf2vioCpu : after.dpdk.vf2vioCpu = before.dpdk.vf2vioCpu
  mempool : after.vio.mempool = before.vio.mempool
  dpdkPort : after.dpdk.dpdkPort = before.dpdk.dpdkPort
  vioState
    : after.vio.state = before.vio.state
      ∨ (before.vio.state = .removing1 ∨ before.vio.state = .removing2)
        ∧ (after.vio.state = .removing2 ∨ after.vio.state = .uninit)
  dpdkState
    : after.dpdk.state = before.dpdk.state
      ∨ (before.dpdk.state = .removing1 ∨ before.dpdk.state = .removing2)
        ∧ (after.dpdk.state = .removing2 ∨ after.dpdk.state = .uninit)

theorem Relay.Served.refl (relay : Relay) : relay.Served relay :=
  ⟨rfl, rfl, rfl, rfl, Or.inl rfl, Or.inl rfl⟩

theorem Relay.Served.trans {first middle last : Relay} (hl : first.Served middle)
    (hr : middle.Served last)
    : first.Served last where
  vio2vfCpu := hr.vio2vfCpu.trans hl.vio2vfCpu
  vf2vioCpu := hr.vf2vioCpu.trans hl.vf2vioCpu
  mempool := hr.mempool.trans hl.mempool
  dpdkPort := hr.dpdkPort.trans hl.dpdkPort
  vioState := by
    rcases hl.vioState with same | ⟨leaving, _⟩
    · rw [← same]
      exact hr.vioState
    · rcases hr.vioState with same | ⟨_, later⟩
      · rw [same]
        exact hl.vioState
      · exact Or.inr ⟨leaving, later⟩
  dpdkState := by
    rcases hl.dpdkState with same | ⟨leaving, _⟩
    · rw [← same]
      exact hr.dpdkState
    · rcases hr.dpdkState with same | ⟨_, later⟩
      · rw [same]
        exact hl.dpdkState
      · exact Or.inr ⟨leaving, later⟩

theorem VioState.released_cases (state : VioState) (cpu : Int)
    : state.released cpu = state
      ∨ (state = .removing1 ∨ state = .removing2)
        ∧ (state.released cpu = .removing2 ∨ state.released cpu = .uninit) := by
  unfold VioState.released
  split
  · rename_i leaving
    refine Or.inr ⟨Or.inl leaving, ?_⟩
    split
    · exact Or.inr rfl
    · exact Or.inl rfl
  · exact Or.inl rfl

theorem DpdkState.released_cases (state : DpdkState) (cpu : Int)
    : state.released cpu = state
      ∨ (state = .removing1 ∨ state = .removing2)
        ∧ (state.released cpu = .removing2 ∨ state.released cpu = .uninit) := by
  unfold DpdkState.released
  split
  · rename_i leaving
    refine Or.inr ⟨Or.inl leaving, ?_⟩
    split
    · exact Or.inr rfl
    · exact Or.inl rfl
  · exact Or.inl rfl

theorem VmToVfEffect.served {before after : Relay} (h : VmToVfEffect before after)
    : before.Served after := by
  have vio := h.vioState
  have dpdk := h.dpdkState
  obtain ⟨_, _, _, ⟨_, _, _, _, rfl⟩, rfl⟩ := h.setup
  refine ⟨rfl, rfl, rfl, rfl, ?_, ?_⟩
  · rw [vio]
    exact VioState.released_cases ..
  · rw [dpdk]
    split
    · rename_i leaving
      exact Or.inr ⟨Or.inr leaving, Or.inr rfl⟩
    · exact Or.inl rfl

theorem VfToVmEffect.served {before after : Relay} (h : VfToVmEffect before after)
    : before.Served after := by
  have vio := h.vioState
  have dpdk := h.dpdkState
  obtain ⟨_, _, _, ⟨_, _, _, _, rfl⟩, rfl⟩ := h.setup
  refine ⟨rfl, rfl, rfl, rfl, ?_, ?_⟩
  · rw [vio]
    split
    · rename_i leaving
      exact Or.inr ⟨Or.inr leaving, Or.inr rfl⟩
    · exact Or.inl rfl
  · rw [dpdk]
    exact DpdkState.released_cases ..

/-- What one event does: an iteration on one relay, an update of one worker, or a change of
fields that no control operation depends on.
-/
theorem Event.apply_cases {settings : Settings} {event : Event} {world after : World}
    (h : event.apply settings world = some after)
    : (∃ id relay, after = world.modifyRelay id (fun _ => relay)
        ∧ (VmToVfEffect (world.relays id) relay ∨ VfToVmEffect (world.relays id) relay))
      ∨ (∃ cpu, after = VirtioForwarder.updateThread settings world cpu)
      ∨ ∃ id f, after = world.modifyRelay id f
        ∧ (world.relays id).SameControl (f (world.relays id))
        ∧ (world.relays id).Served (f (world.relays id)) := by
  cases event with
  | vm2vf id io =>
      simp only [Event.apply] at h
      split at h
      · rename_i out returned
        exact Or.inl ⟨id, out.relay, (Option.some.inj h).symm,
          Or.inl (relayVm2vfTraffic_effect returned)⟩
      · cases h
  | vf2vm id io =>
      simp only [Event.apply] at h
      split at h
      · rename_i out returned
        exact Or.inl ⟨id, out.relay, (Option.some.inj h).symm,
          Or.inr (relayVf2vmTraffic_effect returned)⟩
      · cases h
  | updateThread cpu => exact Or.inr (Or.inl ⟨cpu, (Option.some.inj h).symm⟩)
  | vringStateChange id change =>
      refine Or.inr (Or.inr ⟨id, _, (Option.some.inj h).symm, ?_, ?_⟩)
      · unfold VirtioForwarder.vringStateChange RelayVirtio.deriveQueues
        dsimp only
        split <;> exact ⟨rfl, rfl, rfl, rfl, rfl, rfl⟩
      · unfold VirtioForwarder.vringStateChange RelayVirtio.deriveQueues
        dsimp only
        split <;> exact ⟨rfl, rfl, rfl, rfl, Or.inl rfl, Or.inl rfl⟩
  | setLmPending id =>
      exact Or.inr (Or.inr ⟨id, _, (Option.some.inj h).symm, ⟨rfl, rfl, rfl, rfl, rfl, rfl⟩,
        ⟨rfl, rfl, rfl, rfl, Or.inl rfl, Or.inl rfl⟩⟩)

/-- Every relay is only served by the environment. -/
theorem Event.served {settings : Settings} {event : Event} {world after : World}
    (h : event.apply settings world = some after) (id : Nat)
    : (world.relays id).Served (after.relays id) := by
  have one {target : Nat} {f : Relay → Relay}
      (served : (world.relays target).Served (f (world.relays target)))
      : (world.relays id).Served ((world.modifyRelay target f).relays id) := by
    rcases eq_or_ne id target with rfl | other
    · rw [World.relays_modifyRelay_self]
      exact served
    · rw [World.relays_modifyRelay_of_ne world f other]
      exact .refl _
  rcases Event.apply_cases h with ⟨target, relay, rfl, effect⟩ | ⟨cpu, rfl⟩ | ⟨target, f, rfl, _, served⟩
  · exact one (effect.elim VmToVfEffect.served VfToVmEffect.served)
  · exact .refl _
  · exact one served

/-- The environment leaves the pools and the ports alone. -/
theorem Event.drivers {settings : Settings} {event : Event} {world after : World}
    (h : event.apply settings world = some after)
    : after.nextPool = world.nextPool
      ∧ after.freed = world.freed
      ∧ after.rxPool = world.rxPool
      ∧ after.started = world.started := by
  rcases Event.apply_cases h with ⟨_, _, rfl, _⟩ | ⟨_, rfl⟩ | ⟨_, _, rfl, _⟩
  · exact ⟨rfl, rfl, rfl, rfl⟩
  · exact ⟨rfl, rfl, rfl, rfl⟩
  · exact ⟨rfl, rfl, rfl, rfl⟩

-----------------------------------------------------------------------------------------
-- Rules for the accesses
-----------------------------------------------------------------------------------------

/-- How the accesses of an operation on relay `id` run. -/
abbrev accesses (id : Nat) : Machine Instr Int World World := ⟨Instr.exec id, fun world => world⟩

section Rules

variable {id : Nat} {c : Contract Instr Int Abort World} {assertion : World → Prop} {world : World}

theorem wp_look {other : Nat} {field : Field} {post : Relay → World → Prop}
    (refl : ∀ s, c.guar s s) (stable : c.Stable assertion) (h : assertion world)
    (next : ∀ s, c.inv s → assertion s → post (s.relays other) s)
    : wp (accesses id) c (look other field) post world :=
  wp.perform stable h fun s _ inv held _ => ⟨inv, refl s, next s inv held⟩

theorem wp_look_only {other : Nat} {field : Field} {post : Relay → World → Prop}
    (refl : ∀ s, c.guar s s) (next : ∀ s, c.inv s → post (s.relays other) s)
    : wp (accesses id) c (look other field) post world :=
  fun s _ inv _ _ => ⟨inv, refl s, next s inv⟩

theorem wp_assign {write : Write} {post : Unit → World → Prop}
    (stable : c.Stable assertion) (h : assertion world)
    (step : ∀ s answer, c.inv s → assertion s → c.admits (.write write) answer s
      → c.inv (s.modifyRelay id write.apply)
        ∧ c.guar s (s.modifyRelay id write.apply)
        ∧ post () (s.modifyRelay id write.apply))
    : wp (accesses id) c (assign write) post world :=
  wp.perform stable h step

theorem wp_drive {call : DriverCall} {post : Int → World → Prop}
    (stable : c.Stable assertion) (h : assertion world)
    (step : ∀ s answer, c.inv s → assertion s → c.admits (.call call) answer s
      → c.inv (call.apply answer s)
        ∧ c.guar s (call.apply answer s)
        ∧ post answer (call.apply answer s))
    : wp (accesses id) c (drive call) post world :=
  wp.perform stable h step

end Rules

-----------------------------------------------------------------------------------------
-- Programs of plain accesses
-----------------------------------------------------------------------------------------

/-- The errors that come from the choice of a worker. -/
def Abort.OfWorker : Abort → Prop
  | .workerIndex | .assertWorkerFound => True
  | .assertNotReady | .assertNoRxPkts => False

/-- A program all of whose accesses leave the states and the CPUs alone. -/
abbrev PlainProg {α : Type} (p : Control α) : Prop := p.All Instr.Plain Abort.OfWorker

abbrev SteadyProg {α : Type} (p : Control α) : Prop := p.All Instr.Steady Abort.OfWorker

abbrev QuietProg {α : Type} (p : Control α) : Prop := p.All Instr.Quiet Abort.OfWorker

abbrev ObservingProg {α : Type} (p : Control α) : Prop := p.All Instr.Observing Abort.OfWorker

abbrev InertProg {α : Type} (p : Control α) : Prop := p.All Instr.Inert Abort.OfWorker

/-- An inert program that never aborts. -/
abbrev SureProg {α : Type} (p : Control α) : Prop := p.All Instr.Inert fun _ => False

/-- A program of steady accesses that may abort in any way. -/
abbrev AssertingProg {α : Type} (p : Control α) : Prop := p.All Instr.Steady fun _ => True

/-- A program that assigns nothing but the relay's pool. -/
abbrev RepoolingProg {α : Type} (p : Control α) : Prop := p.All Instr.Repooling Abort.OfWorker

abbrev PoolingProg {α : Type} (p : Control α) : Prop := p.All Instr.Pooling Abort.OfWorker

/-- A program that assigns nothing but the relay's pool and may abort in any way. -/
abbrev AbortingProg {α : Type} (p : Control α) : Prop := p.All Instr.Repooling fun _ => True

theorem SteadyProg.asserting {α : Type} {p : Control α} (h : SteadyProg p) : AssertingProg p :=
  h.mono (fun _ => id) fun _ _ => trivial

theorem SteadyProg.plain {α : Type} {p : Control α} (h : SteadyProg p) : PlainProg p :=
  h.mono (fun _ => Instr.Steady.plain) fun _ => id

theorem QuietProg.steady {α : Type} {p : Control α} (h : QuietProg p) : SteadyProg p :=
  h.mono (fun _ => Instr.Quiet.steady) fun _ => id

theorem QuietProg.plain {α : Type} {p : Control α} (h : QuietProg p) : PlainProg p :=
  h.steady.plain

theorem ObservingProg.steady {α : Type} {p : Control α} (h : ObservingProg p) : SteadyProg p :=
  h.mono (fun _ => Instr.Observing.steady) fun _ => id

theorem ObservingProg.plain {α : Type} {p : Control α} (h : ObservingProg p) : PlainProg p :=
  h.steady.plain

theorem InertProg.quiet {α : Type} {p : Control α} (h : InertProg p) : QuietProg p :=
  h.mono (fun _ => Instr.Inert.quiet) fun _ => id

theorem InertProg.observing {α : Type} {p : Control α} (h : InertProg p) : ObservingProg p :=
  h.mono (fun _ => Instr.Inert.observing) fun _ => id

theorem ObservingProg.repooling {α : Type} {p : Control α} (h : ObservingProg p)
    : RepoolingProg p :=
  h.mono (fun _ => Instr.Observing.repooling) fun _ => id

theorem SureProg.inert {α : Type} {p : Control α} (h : SureProg p) : InertProg p :=
  h.mono (fun _ => id) fun _ => False.elim

theorem InertProg.pooling {α : Type} {p : Control α} (h : InertProg p) : PoolingProg p :=
  h.mono (fun _ inert => ⟨inert.quiet, inert.observing.repooling⟩) fun _ => id

theorem PoolingProg.quiet {α : Type} {p : Control α} (h : PoolingProg p) : QuietProg p :=
  h.mono (fun _ => And.left) fun _ => id

theorem PoolingProg.repooling {α : Type} {p : Control α} (h : PoolingProg p) : RepoolingProg p :=
  h.mono (fun _ => And.right) fun _ => id

theorem RepoolingProg.aborting {α : Type} {p : Control α} (h : RepoolingProg p)
    : AbortingProg p :=
  h.mono (fun _ => id) fun _ _ => trivial

theorem RepoolingProg.plain {α : Type} {p : Control α} (h : RepoolingProg p) : PlainProg p :=
  h.mono (fun _ repools => repools.steady.plain) fun _ => id

theorem AbortingProg.asserting {α : Type} {p : Control α} (h : AbortingProg p)
    : AssertingProg p :=
  h.mono (fun _ => Instr.Repooling.steady) fun _ => id

theorem InertProg.plain {α : Type} {p : Control α} (h : InertProg p) : PlainProg p :=
  h.quiet.plain

theorem look_observing (id : Nat) (field : Field) : ObservingProg (look id field) :=
  .perform trivial

theorem look_inert {id : Nat} {field : Field} (h : field ≠ .vioState ∧ field ≠ .dpdkState)
    : InertProg (look id field) :=
  .perform h

theorem assign_plain {write : Write} (h : write.Plain) : PlainProg (assign write) :=
  .perform h

theorem drive_pooling (call : DriverCall) : PoolingProg (drive call) :=
  .perform ⟨trivial, trivial⟩

theorem drive_sure {call : DriverCall} (h : call.Harmless) : SureProg (drive call) :=
  .perform h

theorem drive_inert {call : DriverCall} (h : call.Harmless) : InertProg (drive call) :=
  .perform h

theorem flagWorker_inert (cpu : Int) : InertProg (flagWorker cpu) := by
  unfold flagWorker
  split
  · exact .perform trivial
  · trivial

theorem allocMempool_inert (node : Int) (size : Nat) : InertProg (allocMempool node size) :=
  .perform trivial

theorem setupRxQueue_pooling (id port : Nat) : PoolingProg (setupRxQueue id port) :=
  .bind (look_inert (by decide)).pooling fun _ =>
    .bind (look_inert (by decide)).pooling fun _ => drive_pooling _

theorem setupTxQueue_inert (id port : Nat) : InertProg (setupTxQueue id port) :=
  .bind (look_inert (by decide)) fun _ => drive_inert trivial

theorem reconfigureVf_pooling (id port : Nat) : PoolingProg (reconfigureVf id port) := by
  refine .bind (drive_pooling _) fun err => ?_
  split
  · trivial
  · refine .bind (setupTxQueue_inert ..).pooling fun err => ?_
    split
    · exact .bind (drive_pooling _) fun _ => trivial
    · refine .bind (setupRxQueue_pooling ..) fun err => ?_
      split
      · exact .bind (drive_pooling _) fun _ => trivial
      · trivial

theorem stopAddedVf_observing (id port : Nat) : ObservingProg (stopAddedVf id port) := by
  refine .bind (look_observing ..) fun relay => ?_
  split
  · exact .bind (.perform trivial) fun _ => trivial
  · trivial

theorem swapMempool_repooling (id port : Nat) (newnode : Int) (newPool : Nat)
    : RepoolingProg (swapMempool id port newnode newPool) := by
  refine .bind (stopAddedVf_observing ..).repooling fun _ => .bind ?_ fun _ => ?_
  · refine .bind (look_observing ..).repooling fun relay => ?_
    dsimp only
    split
    · exact .bind (drive_pooling _).repooling fun _ => trivial
    · trivial
  · refine .bind (.perform trivial) fun _ => .bind (.perform trivial) fun _ => ?_
    refine .bind (look_observing ..).repooling fun relay => ?_
    split
    · exact (reconfigureVf_pooling ..).repooling
    · trivial

theorem migrateMempool_aborting (id : Nat) (newnode : Int) (size : Nat)
    : AbortingProg (migrateMempool id newnode size) := by
  refine .bind (.perform trivial) fun relay => .bind (.perform trivial) fun pool => ?_
  cases pool with
  | none => trivial
  | some newPool =>
      refine .bind (.perform trivial) fun relay => ?_
      split
      · trivial
      · refine .bind (.perform trivial) fun relay => ?_
        split
        · trivial
        · exact (swapMempool_repooling ..).aborting

theorem cleanupEthDev_sure (port : Nat) : SureProg (cleanupEthDev port) := by
  refine .bind (drive_sure trivial) fun err => ?_
  split
  · trivial
  · refine .bind (drive_sure trivial) fun err => ?_
    split
    · trivial
    · refine .bind (drive_sure trivial) fun err => ?_
      split
      · trivial
      · exact drive_sure trivial

theorem ensureMempool_pooling (id : Nat) : PoolingProg (ensureMempool id) := by
  refine .bind (look_inert (by decide)).pooling fun relay => ?_
  split
  · trivial
  · refine .bind (look_inert (by decide)).pooling fun relay => ?_
    refine .bind (allocMempool_inert ..).pooling fun pool => ?_
    cases pool with
    | none => trivial
    | some pool => exact .bind (.perform ⟨trivial, trivial⟩) fun _ => trivial

theorem configurePort_inert (port : Nat) (isBond : Bool)
    : InertProg (configurePort port isBond) := by
  refine .bind (drive_inert trivial) fun err => ?_
  split
  · trivial
  · refine .bind (drive_inert trivial) fun err => ?_
    split
    · trivial
    · split
      · trivial
      · refine .bind (drive_inert trivial) fun err => ?_
        split <;> trivial

theorem devQueueConfigure_pooling (id port : Nat) (isBond : Bool)
    : PoolingProg (devQueueConfigure id port isBond) := by
  refine .bind (configurePort_inert ..).pooling fun err => ?_
  split
  · trivial
  · refine .bind (ensureMempool_pooling id) fun ok => ?_
    split
    · trivial
    · refine .bind (drive_pooling _) fun err => ?_
      split
      · trivial
      · refine .bind (setupTxQueue_inert ..).pooling fun err => ?_
        split
        · trivial
        · refine .bind (setupRxQueue_pooling ..) fun err => ?_
          split <;> trivial

theorem initVf_pooling (settings : Settings) (id : Nat) (dbdf : List Char)
    : PoolingProg (initVf settings id dbdf) := by
  refine .bind (drive_pooling _) fun err => ?_
  split
  · trivial
  · refine .bind (drive_pooling _) fun found => ?_
    split
    · refine .bind (devQueueConfigure_pooling ..) fun err => ?_
      split
      · exact .bind (cleanupEthDev_sure _).inert.pooling fun _ => trivial
      · exact .bind (drive_pooling _) fun _ => trivial
    · trivial

theorem slaveInUse_inert (slaves : List (List Char)) : InertProg (slaveInUse slaves) := by
  induction slaves with
  | nil => trivial
  | cons slave slaves ih =>
      refine .bind (drive_inert trivial) fun err => ?_
      split
      · trivial
      · exact ih

theorem addSlaves_pooling (settings : Settings) (id bond : Nat) (ports : List (Option Nat))
    (slaves : List (List Char))
    : PoolingProg (addSlaves settings id bond ports slaves) := by
  induction slaves generalizing ports with
  | nil => trivial
  | cons slave slaves ih =>
      refine .bind (initVf_pooling ..) fun result => ?_
      cases result with
      | error failure => trivial
      | ok port => exact .bind (drive_pooling _) fun _ => ih _

theorem cleanupSlaves_sure (ports : List (Option Nat)) : SureProg (cleanupSlaves ports) := by
  induction ports with
  | nil => trivial
  | cons port ports ih =>
      cases port with
      | none =>
          exact .bind (drive_sure trivial) fun _ => .bind (cleanupEthDev_sure _) fun _ => ih
      | some port => exact .bind (cleanupEthDev_sure _) fun _ => ih

theorem deconfigureBond_inert (name : List Char) (ports : List (Option Nat)) (rc : Int)
    : InertProg (deconfigureBond name ports rc) :=
  .bind (cleanupSlaves_sure _).inert fun _ => .bind (drive_inert trivial) fun _ => trivial

theorem detachSlaves_sure (id : Nat) : SureProg (detachSlaves id) := by
  have slavesOf (port count : Nat) : SureProg (bondSlaves port count) := by
    induction count with
    | zero => trivial
    | succ count ih => exact .bind ih fun _ => .bind (drive_sure trivial) fun _ => trivial
  have removal (port : Nat) (slaves : List Nat) : SureProg (removeSlaves port slaves) := by
    induction slaves with
    | nil => trivial
    | cons slave slaves ih => exact .bind (drive_sure trivial) fun _ => ih
  refine .bind (.perform ⟨by decide, by decide⟩) fun relay => ?_
  split
  · trivial
  · refine .bind (drive_sure trivial) fun count => ?_
    split
    · trivial
    · exact .bind (slavesOf ..) fun _ => .bind (removal ..) fun _ =>
        .bind (cleanupSlaves_sure _) fun _ => trivial

theorem releaseDevice_sure (id port : Nat) : SureProg (releaseDevice id port) := by
  refine .bind (.perform ⟨by decide, by decide⟩) fun relay => ?_
  split
  · exact .bind (detachSlaves_sure id) fun _ => .bind (drive_sure trivial) fun _ =>
      .bind (drive_sure trivial) fun _ => drive_sure trivial
  · exact cleanupEthDev_sure _

theorem freePoolUnlessConnected_repooling (id : Nat)
    : RepoolingProg (freePoolUnlessConnected id) := by
  refine .bind (look_observing ..).repooling fun relay => ?_
  split
  · exact .bind (look_observing ..).repooling fun _ =>
      .bind (drive_pooling _).repooling fun _ => .perform trivial
  · trivial

theorem alignMempool_aborting (id : Nat) (newnode : Int)
    : AbortingProg (alignMempool id newnode) := by
  have store (pool : Nat) (node : Int) : AbortingProg (do
      assign (.mempool (some pool))
      assign (.mempoolSocketId node)
      return true) :=
    .bind (.perform trivial) fun _ => .bind (.perform trivial) fun _ => trivial
  refine .bind (.perform trivial) fun relay => ?_
  split
  · refine .bind (.perform trivial) fun pool => ?_
    cases pool with
    | some pool => exact store ..
    | none =>
        refine .bind (.perform trivial) fun pool => ?_
        cases pool with
        | some pool => exact store ..
        | none => trivial
  · refine .bind (.perform trivial) fun relay => ?_
    split
    · exact .bind (.perform trivial) fun _ => .bind (migrateMempool_aborting ..) fun _ => trivial
    · trivial

theorem vfActive_observing (id : Nat) : ObservingProg (vfActive id) := by
  refine .bind (look_observing ..) fun relay => ?_
  split
  · trivial
  · exact .bind (look_observing ..) fun _ => trivial

theorem vfInitialized_observing (id : Nat) : ObservingProg (vfInitialized id) := by
  refine .bind (look_observing ..) fun relay => ?_
  split
  · trivial
  · exact .bind (look_observing ..) fun _ => trivial

theorem conditionalAddOk_observing (id : Nat) (dbdf : List Char)
    : ObservingProg (conditionalAddOk id dbdf) := by
  refine .bind (vfActive_observing id) fun active => ?_
  split
  · trivial
  · exact .bind (look_observing ..) fun _ => trivial

theorem startOrStop_observing (id port : Nat) : ObservingProg (startOrStop id port) := by
  refine .bind (look_observing ..) fun relay => ?_
  split
  · refine .bind (.perform trivial) fun err => ?_
    split <;> trivial
  · exact .bind (.perform trivial) fun _ => trivial

theorem findIdlestCpu_inert (settings : Settings) (id : Nat)
    : InertProg (findIdlestCpu settings id) := by
  refine .bind (.perform ⟨by decide, by decide⟩) fun cpu => ?_
  split <;> trivial

/-- A program that only chooses a worker. -/
abbrev AssigningProg {α : Type} (p : Control α) : Prop := p.All Instr.Assigning Abort.OfWorker

theorem flagWorker_assigning (cpu : Int) : AssigningProg (flagWorker cpu) := by
  unfold flagWorker
  split
  · exact .perform trivial
  · trivial

theorem findIdlestCpu_assigning (settings : Settings) (id : Nat)
    : AssigningProg (findIdlestCpu settings id) := by
  refine .bind (.perform ⟨by decide, by decide⟩) fun cpu => ?_
  split <;> trivial

theorem findVf2virtioCpu_assigning (settings : Settings) (id : Nat)
    : AssigningProg (findVf2virtioCpu settings id) := by
  have leaving : AssigningProg (leaveVf2virtioCpu id) := by
    refine .bind (.perform ⟨by decide, by decide⟩) fun relay => ?_
    dsimp only
    split
    · trivial
    · exact .bind (flagWorker_assigning _) fun _ => .perform trivial
  unfold findVf2virtioCpu
  dsimp only
  split
  · exact .perform trivial
  · exact .bind leaving fun _ => .bind (findIdlestCpu_assigning ..) fun _ => .perform trivial

theorem findVirtio2vfCpu_assigning (settings : Settings) (id : Nat)
    : AssigningProg (findVirtio2vfCpu settings id) := by
  have leaving : AssigningProg (leaveVirtio2vfCpu id) := by
    refine .bind (.perform ⟨by decide, by decide⟩) fun relay => ?_
    dsimp only
    split
    · trivial
    · exact .bind (flagWorker_assigning _) fun _ => .perform trivial
  unfold findVirtio2vfCpu
  dsimp only
  split
  · exact .perform trivial
  · exact .bind leaving fun _ => .bind (findIdlestCpu_assigning ..) fun _ => .perform trivial

/-- A wait neither assigns anything nor fails. -/
theorem waitReleased_all (id : Nat) (field : Field) (released : Relay → Bool) (polls : Nat)
    : (waitReleased id field released polls).All Instr.Observing fun _ => False := by
  induction polls with
  | zero => exact .bind (.perform trivial) fun _ => trivial
  | succ polls ih =>
      refine .bind (.perform trivial) fun relay => ?_
      split
      · trivial
      · exact ih

theorem waitReleased_observing (id : Nat) (field : Field) (released : Relay → Bool) (polls : Nat)
    : ObservingProg (waitReleased id field released polls) :=
  (waitReleased_all id field released polls).mono (fun _ observing => observing) nofun

/-- `init_vf` fails with an error code. -/
theorem initVf_returns (settings : Settings) (id : Nat) (dbdf : List Char)
    : (initVf settings id dbdf).Returns fun result =>
        ∀ err port, result = .error (err, port) → err ≠ 0 := by
  refine .bind fun err => ?_
  split
  · intro err port h
    cases h
    decide
  · refine .bind fun found => ?_
    split
    · refine .bind fun err => ?_
      split
      · rename_i failed
        refine .bind fun _ err port h => ?_
        cases h
        exact failed
      · exact .bind fun _ err port h => nomatch h
    · intro err port h
      cases h

end VirtioForwarder
