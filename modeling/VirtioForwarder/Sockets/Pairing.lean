import VirtioForwarder.Control.Detach
import VirtioForwarder.Sockets.Operations

/-! Sockets, relays and devices stay paired one to one over all sequences of pair operations,
if no deregistration fails and a device that has to be taken back is known under its name.
-/

namespace VirtioForwarder

open Program

-----------------------------------------------------------------------------------------
-- The system
-----------------------------------------------------------------------------------------

/-- A call of a pair operation. -/
inductive PairOp
  | add (vhostPath : Option (List Char)) (slaves : List (List Char))
      (name : Option (List Char)) (conditional : Bool)
  | remove (vhostPath : Option (List Char)) (dev : List Char) (room : Nat) (conditional : Bool)
  deriving DecidableEq, Repr

/-- The program of a pair operation. -/
def PairOp.code (settings : Settings) (conf : SocketConf) : PairOp → SockProg Int
  | .add vhostPath slaves name conditional =>
      virtioAddSockDevPair settings conf vhostPath slaves name conditional
  | .remove vhostPath dev room conditional =>
      virtioRemoveSockDevPair settings vhostPath dev room conditional

/-- What happens beside the pair operations. -/
def Daemon.event (settings : Settings) (event : Event) (daemon : Daemon) : Option Daemon :=
  (event.apply settings daemon.world).map fun world => { daemon with world := world }

/-- One thread of pair operations with the workers as its environment. -/
def pairSystem (settings : Settings) (conf : SocketConf)
    : System PairOp SockInstr Int Daemon SockFault Daemon Event Int where
  exec _ := SockInstr.exec
  obs daemon := daemon
  env := Daemon.event settings
  code := PairOp.code settings conf

/-- The daemon after its start, with neither sockets nor devices. -/
def idlePairs (settings : Settings) (useJumbo : Bool) (initialized : Nat → Bool)
    : Config Unit PairOp SockInstr Int Daemon SockFault Daemon Int :=
  .idle ⟨World.initial settings useJumbo initialized, fun _ => none⟩ (.remove none [] 64 true) 0

/-- A device is attached, under a name that is not empty. -/
def Relay.HasDevice (relay : Relay) : Prop :=
  relay.Active ∧ relay.dpdk.pciDbdf ≠ []

instance (relay : Relay) : Decidable relay.HasDevice :=
  inferInstanceAs (Decidable (_ ∧ _))

/-- Registered paths are distinct, and exactly the relays with a device have one. -/
structure Daemon.Paired (settings : Settings) (daemon : Daemon) : Prop where
  distinct
    : ∀ i j path,
        daemon.relayIfnameMap i = some path → daemon.relayIfnameMap j = some path → i = j
  device
    : ∀ i < settings.maxRelays,
        (daemon.relayIfnameMap i).isSome = true ↔ (daemon.world.relays i).HasDevice

-----------------------------------------------------------------------------------------
-- Rules
-----------------------------------------------------------------------------------------

/-- What the workers leave of the daemon: the sockets and the devices. -/
structure Daemon.Tended (before after : Daemon) : Prop where
  map : after.relayIfnameMap = before.relayIfnameMap
  relays : ∀ id, (before.world.relays id).Tended (after.world.relays id)

theorem Daemon.Tended.trans {first middle last : Daemon} (hl : first.Tended middle)
    (hr : middle.Tended last)
    : first.Tended last :=
  ⟨hr.map.trans hl.map, fun id => (hl.relays id).trans (hr.relays id)⟩

theorem Daemon.tended_event {settings : Settings} {event : Event} {daemon after : Daemon}
    (happened : daemon.event settings event = some after)
    : daemon.Tended after := by
  obtain ⟨world, applied, rfl⟩ := Option.map_eq_some_iff.mp happened
  exact ⟨rfl, Event.tended applied⟩

/-- The only thread that accepts requests has no other thread to rely on. -/
theorem Daemon.tended_alone (thread other : Unit) (different : thread ≠ other)
    ⦃daemon after : Daemon⦄ (_ : True)
    : daemon.Tended after :=
  absurd rfl different

/-- How the accesses of a pair operation run. -/
abbrev sockAccesses : Machine SockInstr Int Daemon Daemon :=
  ⟨SockInstr.exec, fun daemon => daemon⟩

/-- The contract of a thread of pair operations beside the workers. -/
abbrev sockContract (admits : SockInstr → Int → Daemon → Prop)
    : Contract SockInstr Int SockFault Daemon :=
  ⟨fun _ => True, Daemon.Tended, fun _ _ => True, admits, fun _ => True⟩

section Rules

variable {admits : SockInstr → Int → Daemon → Prop} {daemon : Daemon} {α β : Type}
  {A : Daemon → Prop}

/-- Assertions that the workers keep. -/
abbrev Kept (A : Daemon → Prop) : Prop :=
  ∀ ⦃before after : Daemon⦄, before.Tended after → A before → A after

theorem Kept.stable (kept : Kept A) : (sockContract admits).Stable A :=
  fun _ _ later _ h => kept later h

/-- What is known of the other relays while a control program runs on relay `id`. -/
structure Daemon.Beside (id : Nat) (before after : Daemon) : Prop where
  map : after.relayIfnameMap = before.relayIfnameMap
  relays : ∀ other ≠ id, (before.world.relays other).Tended (after.world.relays other)

/-- A control program on relay `id` does there what it is proved to do with the admitted
answers, and leaves the rest of the daemon alone.
-/
theorem wp_onRelay_admitted {id : Nat} {p : Control α} {post : α → World → Prop}
    (h : wp (accesses id) (soloContract (fun i answer _ => ∃ d, admits (.control id i) answer d)
      fun _ => True) p post daemon.world)
    : wp sockAccesses (sockContract admits) (onRelay id p)
        (fun a after => post a after.world ∧ daemon.Beside id after) daemon := by
  induction p generalizing daemon with
  | ret a => exact ⟨h, rfl, fun _ _ => .refl _⟩
  | fail e => trivial
  | instr i next ih =>
      intro middle later _ answer admitted
      obtain ⟨_, _, rest⟩ := h middle.world later.relays trivial answer ⟨middle, admitted⟩
      refine ⟨trivial, trivial, (ih answer middle.world rest).mono fun a after outcome => ?_⟩
      obtain ⟨held, map, relays⟩ := outcome
      refine ⟨held, map.trans later.map, fun other away => (later.relays other).trans ?_⟩
      have untouched := relays other away
      change ((i.exec id answer middle.world).relays other).Tended _ at untouched
      rwa [Instr.relays_exec_of_ne away] at untouched

/-- A control program on relay `id` does there what it is proved to do, and leaves the rest of
the daemon alone.
-/
theorem wp_onRelay {id : Nat} {p : Control α} {post : α → World → Prop}
    (h : wp (accesses id) (soloContract (fun _ _ _ => True) fun _ => True) p post daemon.world)
    : wp sockAccesses (sockContract admits) (onRelay id p)
        (fun a after => post a after.world ∧ daemon.Beside id after) daemon :=
  wp_onRelay_admitted (h.narrow fun _ _ _ _ => trivial)

theorem wp_readMap_bind {next : (Nat → Option (List Char)) → SockProg β}
    {post : β → Daemon → Prop} (kept : Kept A) (h : A daemon)
    (rest : ∀ d, A d → wp sockAccesses (sockContract admits) (next d.relayIfnameMap) post d)
    : wp sockAccesses (sockContract admits) (readMap >>= next) post daemon :=
  wp.bind (wp.perform kept.stable h fun d _ _ held _ => ⟨trivial, trivial, rest d held⟩)

theorem wp_writeMap_bind {id : Nat} {path : Option (List Char)} {next : Unit → SockProg β}
    {post : β → Daemon → Prop} (B : Daemon → Prop) (kept : Kept A) (h : A daemon)
    (step : ∀ d, A d → B ((SockInstr.writeMap id path).exec 0 d))
    (rest : ∀ d, B d → wp sockAccesses (sockContract admits) (next ()) post d)
    : wp sockAccesses (sockContract admits) (writeMap id path >>= next) post daemon :=
  wp.bind (wp.perform kept.stable h fun d _ _ held _ =>
    ⟨trivial, trivial, rest _ (step d held)⟩)

theorem wp_vhost_bind {call : VhostCall} {next : Int → SockProg β} {post : β → Daemon → Prop}
    (kept : Kept A) (h : A daemon)
    (rest : ∀ answer d, A d → (∃ before, admits (.vhost call) answer before)
      → wp sockAccesses (sockContract admits) (next answer) post d)
    : wp sockAccesses (sockContract admits) (vhost call >>= next) post daemon :=
  wp.bind (wp.perform kept.stable h fun d answer _ held admitted =>
    ⟨trivial, trivial, rest answer d held ⟨d, admitted⟩⟩)

theorem Daemon.Tended.refl (daemon : Daemon) : daemon.Tended daemon :=
  ⟨rfl, fun _ => .refl _⟩

/-- A control program that spares the device tends the daemon. -/
theorem wp_onRelay_sparing {id : Nat} {p : Control α}
    (all : p.All Instr.SparesDevice fun _ => True)
    : wp sockAccesses (sockContract admits) (onRelay id p)
        (fun _ after => daemon.Tended after) daemon := by
  have here : Tending fun relay => (daemon.world.relays id).Tended relay :=
    fun _ _ tended h => h.trans tended
  refine (wp_onRelay (wp_tend all here (.refl _))).mono fun _ after outcome => ?_
  obtain ⟨mine, map, others⟩ := outcome
  refine ⟨map, fun other => ?_⟩
  rcases eq_or_ne other id with rfl | away
  · exact mine
  · exact others other away

end Rules

-----------------------------------------------------------------------------------------
-- Registering and deregistering
-----------------------------------------------------------------------------------------

/-- A world predicate that is kept while the relays are tended. -/
def TendingWorld (V : World → Prop) : Prop :=
  ∀ ⦃before after : World⦄, (∀ id, (before.relays id).Tended (after.relays id))
    → V before → V after

/-- The answers with which a step of the registration fails. -/
def VhostCall.Refuses : VhostCall → Int → Prop
  | .isSocket _, answer => answer = 0
  | .unlink _, answer | .driverRegister _, answer | .driverStart _, answer | .chown _, answer =>
      answer ≠ 0
  | .stat _, _ | .driverUnregister _, _ => False

/-- Some step of a registration fails. -/
def Refused (admits : SockInstr → Int → Daemon → Prop) : Prop :=
  ∃ call answer daemon, admits (.vhost call) answer daemon ∧ call.Refuses answer

section Registration

variable {settings : Settings} {conf : SocketConf} {admits : SockInstr → Int → Daemon → Prop}
  {daemon : Daemon} {V : World → Prop} {m : Nat → Option (List Char)} {path : List Char} {id : Nat}

theorem kept_map (tending : TendingWorld V) (m : Nat → Option (List Char))
    : Kept fun d => d.relayIfnameMap = m ∧ V d.world :=
  fun _ _ tended h => ⟨tended.map.trans h.1, tending tended.relays h.2⟩

theorem clearStaleSocket_clears (tending : TendingWorld V)
    (h : daemon.relayIfnameMap = m ∧ V daemon.world)
    : wp sockAccesses (sockContract admits) (clearStaleSocket conf path)
        (fun clear d => (d.relayIfnameMap = m ∧ V d.world) ∧ (clear = false → Refused admits))
        daemon := by
  unfold clearStaleSocket
  split
  · exact ⟨h, nofun⟩
  · refine wp_vhost_bind (kept_map tending m) h fun found d held _ => ?_
    split
    · exact ⟨held, nofun⟩
    · refine wp_vhost_bind (kept_map tending m) held fun isSocket d held ⟨before, admitted⟩ => ?_
      split
      · rename_i other
        exact ⟨held, fun _ => ⟨.isSocket path, isSocket, before, admitted, other⟩⟩
      · refine wp_vhost_bind (kept_map tending m) held fun err d held ⟨before, admitted⟩ => ?_
        refine ⟨held, fun failed => ⟨.unlink path, err, before, admitted, ?_⟩⟩
        exact of_decide_eq_false failed

/-- A registration for a relay without a socket succeeds, or some step of it has failed. -/
theorem registerRelaySocket_registers (tending : TendingWorld V)
    (h : daemon.relayIfnameMap = m ∧ V daemon.world) (free : m id = none)
    : wp sockAccesses (sockContract admits) (registerRelaySocket conf path id)
        (fun err d => V d.world
          ∧ (err = 0 ∧ d.relayIfnameMap = Function.update m id (some path)
            ∨ err ≠ 0 ∧ Refused admits
              ∧ (d.relayIfnameMap = m ∨ d.relayIfnameMap = Function.update m id (some path))))
        daemon := by
  refine wp.bind ((clearStaleSocket_clears tending h).mono fun clear d cleared => ?_)
  obtain ⟨held, refused⟩ := cleared
  split
  · rename_i blocked
    exact ⟨held.2, Or.inr ⟨by decide, refused (by simpa using blocked), Or.inl held.1⟩⟩
  · refine wp_readMap_bind (kept_map tending m) held fun d held => ?_
    simp only [held.1, free, Option.isSome_none, Bool.false_eq_true, if_false]
    refine wp_vhost_bind (kept_map tending m) held fun err d held ⟨before, admitted⟩ => ?_
    split
    · rename_i failed
      exact ⟨held.2, Or.inr ⟨by decide, ⟨.driverRegister path, err, before, admitted, failed⟩,
        Or.inl held.1⟩⟩
    · refine wp_vhost_bind (kept_map tending m) held fun err d held ⟨before, admitted⟩ => ?_
      split
      · rename_i failed
        exact ⟨held.2, Or.inr ⟨by decide, ⟨.driverStart path, err, before, admitted, failed⟩,
          Or.inl held.1⟩⟩
      · refine wp_writeMap_bind
          (fun d => d.relayIfnameMap = Function.update m id (some path) ∧ V d.world)
          (kept_map tending m) held (fun d held => ⟨?_, held.2⟩) fun d held => ?_
        · change Function.update d.relayIfnameMap id (some path) = _
          rw [held.1]
        · split
          · refine wp_vhost_bind (kept_map tending _) held fun err d held ⟨before, admitted⟩ => ?_
            split
            · rename_i failed
              exact ⟨held.2, Or.inr ⟨by decide, ⟨.chown path, err, before, admitted, failed⟩,
                Or.inr held.1⟩⟩
            · exact ⟨held.2, Or.inl ⟨rfl, held.1⟩⟩
          · exact ⟨held.2, Or.inl ⟨rfl, held.1⟩⟩

/-- The relay that a path is found for, in the order of the search. -/
def relayOf (settings : Settings) (m : Nat → Option (List Char)) (path : List Char) : Option Nat :=
  (List.range settings.maxRelays).find? fun id => m id = some path

theorem relayOf_eq_some (h : relayOf settings m path = some id)
    : id < settings.maxRelays ∧ m id = some path := by
  have found := List.find?_some h
  exact ⟨List.mem_range.mp (List.mem_of_find?_eq_some h), of_decide_eq_true found⟩

theorem relayOf_eq_none (h : relayOf settings m path = none) (below : id < settings.maxRelays)
    : m id ≠ some path := by
  have absent := List.find?_eq_none.mp h id (List.mem_range.mpr below)
  simpa using absent

theorem getRelayForSock_finds (tending : TendingWorld V)
    (h : daemon.relayIfnameMap = m ∧ V daemon.world)
    : wp sockAccesses (sockContract admits) (getRelayForSock settings (some path))
        (fun found d => (d.relayIfnameMap = m ∧ V d.world) ∧ found = relayOf settings m path)
        daemon :=
  wp_readMap_bind (kept_map tending m) h fun d held => ⟨held, by rw [held.1, relayOf]⟩

/-- A deregistration frees the relay of the path, whatever the vhost library answers. -/
theorem deregisterSocket_frees (tending : TendingWorld V)
    (h : daemon.relayIfnameMap = m ∧ V daemon.world)
    : wp sockAccesses (sockContract admits) (deregisterSocket settings (some path))
        (fun err d => V d.world
          ∧ (relayOf settings m path = none ∧ err = 1 ∧ d.relayIfnameMap = m
            ∨ ∃ found, relayOf settings m path = some found
              ∧ d.relayIfnameMap = Function.update m found none
              ∧ ∃ before, admits (.vhost (.driverUnregister (some path))) err before))
        daemon := by
  refine wp_vhost_bind (kept_map tending m) h fun err d held answered => ?_
  refine wp.bind ((getRelayForSock_finds tending held).mono fun result d outcome => ?_)
  obtain ⟨held, found⟩ := outcome
  subst found
  cases result : relayOf settings m path with
  | none => exact ⟨held.2, Or.inl ⟨rfl, rfl, held.1⟩⟩
  | some found =>
      dsimp only
      refine wp_readMap_bind (kept_map tending m) held fun d held => ?_
      have there := (relayOf_eq_some result).2
      simp only [held.1, there, Option.isSome_some, if_true]
      refine wp_writeMap_bind (fun d => d.relayIfnameMap = Function.update m found none ∧ V d.world)
        (kept_map tending m) held (fun d held => ⟨?_, held.2⟩) fun d held => ?_
      · change Function.update d.relayIfnameMap found none = _
        rw [held.1]
      · exact ⟨held.2, Or.inr ⟨found, rfl, held.1, answered⟩⟩

/-- Without a path nothing is deregistered. -/
theorem deregisterSocket_null (tending : TendingWorld V)
    (h : daemon.relayIfnameMap = m ∧ V daemon.world)
    : wp sockAccesses (sockContract admits) (deregisterSocket settings none)
        (fun err d => err = 1 ∧ d.relayIfnameMap = m ∧ V d.world) daemon := by
  refine wp_vhost_bind (kept_map tending m) h fun err d held _ => ?_
  refine wp.bind (wp_readMap_bind (kept_map tending m) held fun d held => ?_)
  dsimp only
  by_cases some : (List.range settings.maxRelays).any (fun id => (d.relayIfnameMap id).isSome) = true
  · rw [if_pos some]
    trivial
  · rw [if_neg some]
    exact ⟨rfl, held⟩

/-- A free relay is in the table and has neither a device nor a path. -/
theorem virtioGetFreeRelayId_free (tending : TendingWorld V)
    (h : daemon.relayIfnameMap = m ∧ V daemon.world)
    : wp sockAccesses (sockContract admits) (virtioGetFreeRelayId settings)
        (fun found d => (d.relayIfnameMap = m ∧ V d.world)
          ∧ ∀ id, found = some id
            → id < settings.maxRelays ∧ (d.world.relays id).dpdk.state = .uninit
              ∧ m id = none) daemon := by
  refine wp.perform (kept_map tending m).stable h fun d _ _ held _ =>
    ⟨trivial, trivial, held, fun id found => ?_⟩
  have unused := List.find?_some found
  simp only [decide_eq_true_eq] at unused
  obtain ⟨_, uninit, free⟩ := unused
  exact ⟨List.mem_range.mp (List.mem_of_find?_eq_some found), uninit, held.1 ▸ free⟩

theorem portByName_tends {dev : Option (List Char)}
    : wp sockAccesses (sockContract admits) (portByName dev)
        (fun _ d => daemon.Tended d) daemon := by
  unfold portByName
  split
  · rename_i name
    have asking : (drive (.portByName name)).All Instr.SparesDevice fun _ => True :=
      .perform trivial
    exact wp_onRelay_sparing asking
  · exact Daemon.Tended.refl daemon

/-- A pair is found with the path of its relay. -/
theorem findPair_finds {vhostPath : Option (List Char)} {dev : List Char}
    (tending : TendingWorld V) (h : daemon.relayIfnameMap = m ∧ V daemon.world)
    : wp sockAccesses (sockContract admits) (findPair settings vhostPath dev)
        (fun found d => (d.relayIfnameMap = m ∧ V d.world)
          ∧ ∀ id path, found = some (id, path) → id < settings.maxRelays ∧ path = m id)
        daemon := by
  cases vhostPath with
  | some path =>
      refine wp.bind ((getRelayForSock_finds tending h).mono fun result d outcome => ?_)
      obtain ⟨held, rfl⟩ := outcome
      refine ⟨held, fun id path' found => ?_⟩
      obtain ⟨_, first, same⟩ := Option.map_eq_some_iff.mp found
      cases same
      obtain ⟨below, there⟩ := relayOf_eq_some first
      exact ⟨below, there.symm⟩
  | none =>
      refine wp.perform (kept_map tending m).stable h fun d _ _ held _ =>
        ⟨trivial, trivial, held, fun id path found => ?_⟩
      obtain ⟨_, first, same⟩ := Option.map_eq_some_iff.mp found
      cases same
      refine ⟨List.mem_range.mp (List.mem_of_find?_eq_some first), ?_⟩
      exact congrFun held.1 _

end Registration

end VirtioForwarder
