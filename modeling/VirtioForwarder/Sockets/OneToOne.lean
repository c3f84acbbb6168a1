import VirtioForwarder.Sockets.Pairing

/-! Registered paths, relays and devices correspond one to one after every pair operation.
While an operation works on a relay, that relay is the only exception.
-/

namespace VirtioForwarder

open Program

/-- Registered paths are distinct and belong to relays of the table. -/
structure Registry (settings : Settings) (m : Nat → Option (List Char)) : Prop where
  distinct : ∀ i j path, m i = some path → m j = some path → i = j
  below : ∀ i, (m i).isSome = true → i < settings.maxRelays

/-- A tidy relay has a device exactly if it has a path. -/
def Relay.Matches (relay : Relay) (path : Option (List Char)) : Prop :=
  (path.isSome = true ↔ relay.HasDevice) ∧ relay.Tidy

/-- All relays match their paths, apart from an exception. -/
def World.Agrees (m : Nat → Option (List Char)) (world : World) (exception : Option Nat) : Prop :=
  ∀ i, exception ≠ some i → (world.relays i).Matches (m i)

/-- The daemon between two pair operations. -/
structure Daemon.Orderly (settings : Settings) (daemon : Daemon) : Prop where
  registry : Registry settings daemon.relayIfnameMap
  agrees : daemon.world.Agrees daemon.relayIfnameMap none

theorem Daemon.Orderly.paired {settings : Settings} {daemon : Daemon}
    (h : daemon.Orderly settings)
    : daemon.Paired settings :=
  ⟨h.registry.distinct, fun i _ => (h.agrees i nofun).1⟩

theorem Relay.matches_none {relay : Relay} (inactive : ¬ relay.Active) (tidy : relay.Tidy)
    : relay.Matches none :=
  ⟨⟨nofun, fun device => absurd device.1 inactive⟩, tidy⟩

theorem Relay.matches_some {relay : Relay} (active : relay.Active)
    (named : relay.dpdk.pciDbdf ≠ []) (tidy : relay.Tidy) (path : List Char)
    : relay.Matches (some path) :=
  ⟨⟨fun _ => ⟨active, named⟩, fun _ => rfl⟩, tidy⟩

theorem tending_matches (path : Option (List Char))
    : Tending fun relay => relay.Matches path := by
  rintro before after tended ⟨device, tidy⟩
  refine ⟨device.trans ⟨?_, ?_⟩, tending_tidy tended tidy⟩
  · rintro ⟨active, named⟩
    exact ⟨tending_active tended active, tended.pciDbdf ▸ named⟩
  · rintro ⟨active, named⟩
    refine ⟨?_, tended.pciDbdf ▸ named⟩
    by_contra inactive
    exact tending_inactive tended inactive active

theorem Registry.free {settings : Settings} {m : Nat → Option (List Char)}
    (h : Registry settings m) (id : Nat)
    : Registry settings (Function.update m id none) := by
  have old {i : Nat} {path : List Char} (there : Function.update m id none i = some path)
      : m i = some path := by
    rcases eq_or_ne i id with rfl | away
    · rw [Function.update_self] at there
      cases there
    · rwa [Function.update_of_ne away] at there
  refine ⟨fun i j path hi hj => h.distinct i j path (old hi) (old hj), fun i there => ?_⟩
  obtain ⟨path, there⟩ := Option.isSome_iff_exists.mp there
  exact h.below i (old there ▸ rfl)

theorem Registry.register {settings : Settings} {m : Nat → Option (List Char)}
    (h : Registry settings m) {id : Nat} (below : id < settings.maxRelays) {path : List Char}
    (fresh : relayOf settings m path = none)
    : Registry settings (Function.update m id (some path)) := by
  have unused (i : Nat) : m i ≠ some path := by
    intro there
    exact relayOf_eq_none fresh (h.below i (there ▸ rfl)) there
  constructor
  · intro i j other hi hj
    by_cases hereI : i = id
    · by_cases hereJ : j = id
      · exact hereI.trans hereJ.symm
      · rw [hereI, Function.update_self] at hi
        rw [Function.update_of_ne hereJ] at hj
        exact absurd (hj.trans hi.symm) (unused j)
    · rw [Function.update_of_ne hereI] at hi
      by_cases hereJ : j = id
      · rw [hereJ, Function.update_self] at hj
        exact absurd (hi.trans hj.symm) (unused i)
      · rw [Function.update_of_ne hereJ] at hj
        exact h.distinct i j other hi hj
  · intro i there
    rcases eq_or_ne i id with rfl | away
    · exact below
    · rw [Function.update_of_ne away] at there
      exact h.below i there

theorem tending_agrees (m : Nat → Option (List Char)) (exception : Option Nat)
    : TendingWorld fun world => world.Agrees m exception :=
  fun _ _ tended h i away => tending_matches (m i) (tended i) (h i away)

theorem kept_orderly (settings : Settings) : Kept fun d => d.Orderly settings := by
  rintro before after tended ⟨registry, agrees⟩
  exact ⟨tended.map ▸ registry, tended.map ▸ tending_agrees _ none tended.relays agrees⟩

/-- The relay that was worked on gets its path, and the daemon is in order again. -/
theorem Daemon.Orderly.of_exception {settings : Settings} {daemon : Daemon}
    {m : Nat → Option (List Char)} {id : Nat} (registry : Registry settings daemon.relayIfnameMap)
    (others : daemon.world.Agrees m (some id))
    (same : ∀ i ≠ id, daemon.relayIfnameMap i = m i)
    (here : (daemon.world.relays id).Matches (daemon.relayIfnameMap id))
    : daemon.Orderly settings := by
  refine ⟨registry, fun i _ => ?_⟩
  rcases eq_or_ne i id with rfl | away
  · exact here
  · rw [same i away]
    exact others i fun eq => away (Option.some.inj eq).symm

/-- What is known while an operation works on relay `id`. -/
abbrev Apart (m : Nat → Option (List Char)) (id : Nat) (P : Relay → Prop) (world : World) : Prop :=
  world.Agrees m (some id) ∧ P (world.relays id)

theorem tending_apart (m : Nat → Option (List Char)) (id : Nat) {P : Relay → Prop}
    (tending : Tending P)
    : TendingWorld (Apart m id P) :=
  fun _ _ tended h => ⟨tending_agrees m _ tended h.1, tending (tended id) h.2⟩

section Operations

variable {settings : Settings} {conf : SocketConf} {admits : SockInstr → Int → Daemon → Prop}
  {daemon : Daemon} {m : Nat → Option (List Char)} {id : Nat} {P : Relay → Prop} {path : List Char}

/-- A control program on relay `id` leaves the other relays matched. -/
theorem wp_onRelay_apart {α : Type} {p : Control α} (post : α → Relay → Prop)
    (map : daemon.relayIfnameMap = m) (others : daemon.world.Agrees m (some id))
    (h : wp (accesses id) (soloContract (fun _ _ _ => True) fun _ => True) p
      (fun a s => post a (s.relays id)) daemon.world)
    : wp sockAccesses (sockContract admits) (onRelay id p)
        (fun a d => d.relayIfnameMap = m ∧ Apart m id (post a) d.world) daemon := by
  refine (wp_onRelay h).mono fun a d outcome => ?_
  obtain ⟨held, map', relays⟩ := outcome
  refine ⟨map'.trans map, fun i away => ?_, held⟩
  have other : i ≠ id := fun same => away (congrArg some same.symm)
  exact tending_matches (m i) (relays i other) (others i away)

/-- What attaching the device of a new pair has to provide for the pair. -/
theorem attachPair_attaches {p : Control Int} {dev : List Char} {code : Int} (fails : code ≠ 0)
    (map : daemon.relayIfnameMap = m) (others : daemon.world.Agrees m (some id))
    (h : wp (accesses id) (soloContract (fun _ _ _ => True) fun _ => True) p
      (fun err s => err ≠ 0 ∧ (s.relays id).Tidy ∧ (s.relays id).dpdk.state = .uninit
        ∨ err = 0 ∧ ((s.relays id).Tidy ∧ (s.relays id).Active)
          ∧ (s.relays id).dpdk.pciDbdf = storedDbdf dev) daemon.world)
    : wp sockAccesses (sockContract admits)
        (do
          if (← onRelay id p) ≠ 0 then return code
          return 0)
        (fun err d => d.relayIfnameMap = m
          ∧ (err ≠ 0 ∧ Apart m id (fun relay => relay.Tidy ∧ relay.dpdk.state = .uninit) d.world
            ∨ err = 0 ∧ Apart m id (fun relay => (relay.Tidy ∧ relay.Active)
                ∧ relay.dpdk.pciDbdf = storedDbdf dev) d.world)) daemon := by
  refine wp.bind ((wp_onRelay_apart (fun err relay =>
      err ≠ 0 ∧ relay.Tidy ∧ relay.dpdk.state = .uninit
      ∨ err = 0 ∧ (relay.Tidy ∧ relay.Active) ∧ relay.dpdk.pciDbdf = storedDbdf dev)
    map others h).mono fun err d outcome => ?_)
  obtain ⟨map, others, ⟨failed, held⟩ | ⟨rfl, held⟩⟩ := outcome
  · rw [if_pos failed]
    exact ⟨map, Or.inl ⟨fails, others, held⟩⟩
  · exact ⟨map, Or.inr ⟨rfl, others, held⟩⟩

/-- The device of a new pair is attached under its stored name, or nothing has changed. -/
theorem addPairDevice_attaches {slaves : List (List Char)} {name : Option (List Char)}
    {conditional : Bool} (map : daemon.relayIfnameMap = m)
    (others : daemon.world.Agrees m (some id)) (tidy : (daemon.world.relays id).Tidy)
    (uninit : (daemon.world.relays id).dpdk.state = .uninit)
    : wp sockAccesses (sockContract admits) (addPairDevice settings slaves name conditional id)
        (fun err d => d.relayIfnameMap = m
          ∧ (err ≠ 0 ∧ Apart m id (fun relay => relay.Tidy ∧ relay.dpdk.state = .uninit) d.world
            ∨ err = 0 ∧ ∃ dev, pairDevice slaves name = some dev
              ∧ Apart m id (fun relay => (relay.Tidy ∧ relay.Active)
                  ∧ relay.dpdk.pciDbdf = storedDbdf dev) d.world)) daemon := by
  have unused : Tending fun relay => relay.Tidy ∧ relay.dpdk.state = .uninit :=
    tending_tidy.and tending_uninit
  unfold addPairDevice
  split
  · rename_i dbdf
    refine (attachPair_attaches (by decide) map others
      ((addVf2_attaches unused ⟨tidy, uninit⟩).mono fun err s outcome => ?_)).mono
      fun err d outcome => ⟨outcome.1, outcome.2.imp_right fun ok => ⟨ok.1, dbdf, rfl, ok.2⟩⟩
    rcases outcome with ⟨ok, attached⟩ | ⟨_, ⟨_, uninit⟩, active, _⟩ | failed
    · exact Or.inr ⟨ok, ⟨attached.tidy (storedDbdf_length dbdf), attached.active⟩,
        attached.pciDbdf⟩
    · exact absurd active (DpdkState.Leaving.inactive (Or.inr (Or.inr uninit)))
    · exact Or.inl failed
  · rename_i name several
    have device : pairDevice slaves (some name) = some name := by
      unfold pairDevice
      split
      · rename_i dbdf
        exact absurd rfl (several dbdf)
      · rfl
    refine (attachPair_attaches (by decide) map others
      ((bondAdd_attaches unused ⟨tidy, uninit⟩).mono fun err s outcome => ?_)).mono
      fun err d outcome => ⟨outcome.1, outcome.2.imp_right fun ok => ⟨ok.1, name, device, ok.2⟩⟩
    rcases outcome with ⟨ok, attached⟩ | failed
    · exact Or.inr ⟨ok, ⟨attached.tidy (storedDbdf_length name), attached.active⟩,
        attached.pciDbdf⟩
    · exact Or.inl failed
  · exact ⟨map, Or.inl ⟨by decide, others, tidy, uninit⟩⟩

/-- A path that was registered for relay `id` alone is found there. -/
theorem relayOf_update (below : id < settings.maxRelays)
    (fresh : relayOf settings m path = none)
    : relayOf settings (Function.update m id (some path)) path = some id := by
  cases found : relayOf settings (Function.update m id (some path)) path with
  | none =>
      have absent := relayOf_eq_none found below
      rw [Function.update_self] at absent
      exact absurd rfl absent
  | some other =>
      obtain ⟨inTable, there⟩ := relayOf_eq_some found
      by_cases same : other = id
      · rw [same]
      · rw [Function.update_of_ne same] at there
        exact absurd there (relayOf_eq_none fresh inTable)

/-- The recovery of a failed add takes back the device, if it is known under its name, and
the path.
-/
theorem deconfigurePair_restores {dev : List Char} {conditional : Bool}
    (registry : Registry settings m) (below : id < settings.maxRelays) (free : m id = none)
    (fresh : relayOf settings m path = none)
    (map : daemon.relayIfnameMap = m
      ∨ daemon.relayIfnameMap = Function.update m id (some path))
    (held : Apart m id (fun relay => (relay.Tidy ∧ relay.Active) ∧ relay.dpdk.pciDbdf = dev)
      daemon.world)
    : wp sockAccesses (sockContract admits) (deconfigurePair settings path dev conditional id)
        (fun _ d => d.Orderly settings) daemon := by
  obtain ⟨others, ⟨tidy, active⟩, name⟩ := held
  have gone : Tending fun relay => ¬ relay.Active ∧ relay.Tidy := tending_inactive.and tending_tidy
  have away : ∀ i ≠ id, daemon.relayIfnameMap i = m i := by
    intro i other
    rcases map with same | updated
    · rw [same]
    · rw [updated, Function.update_of_ne other]
  have still : daemon.world.Agrees daemon.relayIfnameMap (some id) := by
    intro i other
    rw [away i fun same => other (congrArg some same.symm)]
    exact others i other
  refine wp.bind ((wp_onRelay_apart (fun _ relay => ¬ relay.Active ∧ relay.Tidy) rfl still
    ((removeVf2_detaches below tidy active name).mono
      fun _ _ detached => ⟨detached.1, detached.2.1⟩)).mono fun _ d outcome => ?_)
  refine wp.bind ((deregisterSocket_frees (tending_apart _ id gone) outcome).mono
    fun _ d outcome => ?_)
  obtain ⟨⟨others, inactive, tidy⟩, freed⟩ := outcome
  -- in both cases the map is as before the pair was added
  have same : d.relayIfnameMap = m := by
    rcases map with same | updated
    · rw [same] at freed
      rcases freed with ⟨_, _, map⟩ | ⟨found, there, _⟩
      · exact map
      · rw [fresh] at there
        cases there
    · rw [updated, relayOf_update below fresh] at freed
      rcases freed with ⟨absent, _⟩ | ⟨found, there, map, _⟩
      · cases absent
      · cases Option.some.inj there
        rw [map, Function.update_idem, ← free, Function.update_eq_self]
  refine .of_exception (same ▸ registry) others (fun i other => ?_) ?_
  · rw [same, away i other]
  · rw [same, free]
    exact Relay.matches_none inactive tidy

/-- The second half of an add: the path of an attached device is registered, or the device is
taken back.
-/
theorem registerPair_orderly {dev : List Char} {conditional : Bool}
    (registry : Registry settings m) (below : id < settings.maxRelays) (free : m id = none)
    (fresh : relayOf settings m path = none) (named : dev ≠ [])
    (short : Refused admits → dev.length ≤ 19) (map : daemon.relayIfnameMap = m)
    (held : Apart m id (fun relay => (relay.Tidy ∧ relay.Active)
      ∧ relay.dpdk.pciDbdf = storedDbdf dev) daemon.world)
    : wp sockAccesses (sockContract admits)
        (do
          if (← registerRelaySocket conf path id) = 0 then return 0
          deconfigurePair settings path dev conditional id)
        (fun _ d => d.Orderly settings) daemon := by
  have attached : Tending fun relay =>
      (relay.Tidy ∧ relay.Active) ∧ relay.dpdk.pciDbdf = storedDbdf dev :=
    (tending_tidy.and tending_active).and (tending_pciDbdf (· = storedDbdf dev))
  refine wp.bind ((registerRelaySocket_registers (tending_apart m id attached) ⟨map, held⟩
    free).mono fun err d outcome => ?_)
  obtain ⟨⟨others, ⟨tidy, active⟩, name⟩, ⟨rfl, map⟩ | ⟨failed, refused, map⟩⟩ := outcome
  · refine .of_exception (map ▸ registry.register below fresh) others (fun i other => ?_) ?_
    · rw [map, Function.update_of_ne other]
    · rw [map, Function.update_self]
      refine Relay.matches_some active (fun empty => named ?_) tidy path
      rw [name] at empty
      simpa [storedDbdf] using empty
  · rw [if_neg failed]
    have whole : storedDbdf dev = dev := List.take_of_length_le (short refused)
    exact deconfigurePair_restores registry below free fresh map
      ⟨others, ⟨tidy, active⟩, name.trans whole⟩

/-- An add keeps the daemon in order, if a device whose path cannot be registered is known
under its name.
-/
theorem virtioAddSockDevPair_orderly {vhostPath : Option (List Char)}
    {slaves : List (List Char)} {name : Option (List Char)} {conditional : Bool}
    (named : pairDevice slaves name ≠ some [])
    (short : Refused admits → ((pairDevice slaves name).getD []).length ≤ 19)
    (h : daemon.Orderly settings)
    : wp sockAccesses (sockContract admits)
        (virtioAddSockDevPair settings conf vhostPath slaves name conditional)
        (fun _ d => d.Orderly settings) daemon := by
  cases vhostPath with
  | none => exact h
  | some path =>
      refine wp.bind ((portByName_tends).mono fun port d tended => ?_)
      have orderly := kept_orderly settings tended h
      split
      · exact orderly
      · obtain ⟨registry, agrees⟩ := orderly
        refine wp.bind ((getRelayForSock_finds (tending_agrees _ none) ⟨rfl, agrees⟩).mono
          fun found d' outcome => ?_)
        obtain ⟨held, rfl⟩ := outcome
        have ordered {d' : Daemon} (held : d'.relayIfnameMap = d.relayIfnameMap
            ∧ d'.world.Agrees d.relayIfnameMap none)
            : d'.Orderly settings :=
          ⟨held.1 ▸ registry, held.1 ▸ held.2⟩
        split
        · exact ordered held
        · rename_i fresh
          rw [Option.not_isSome_iff_eq_none] at fresh
          refine wp.bind ((virtioGetFreeRelayId_free (tending_agrees _ none) held).mono
            fun found d' outcome => ?_)
          obtain ⟨held, free⟩ := outcome
          cases found with
          | none => exact ordered held
          | some id =>
              obtain ⟨below, uninit, free⟩ := free id rfl
              have mine := (held.2 id nofun).2
              refine wp.bind ((addPairDevice_attaches held.1 (fun i _ => held.2 i nofun) mine
                uninit).mono fun err d' outcome => ?_)
              obtain ⟨map, ⟨failed, others, tidy, uninit⟩ | ⟨rfl, dev, device, attached⟩⟩ := outcome
              · rw [if_pos failed]
                refine .of_exception (map ▸ registry) others (fun i _ => by rw [map]) ?_
                rw [map, free]
                exact Relay.matches_none
                  (DpdkState.Leaving.inactive (Or.inr (Or.inr uninit))) tidy
              · rw [device] at named short ⊢
                exact registerPair_orderly registry below free fresh
                  (fun empty => named (congrArg some empty)) short map attached

theorem relayOf_registered (registry : Registry settings m) (there : m id = some path)
    : relayOf settings m path = some id := by
  cases found : relayOf settings m path with
  | none => exact absurd there (relayOf_eq_none found (registry.below id (there ▸ rfl)))
  | some other =>
      exact congrArg some (registry.distinct other id path (relayOf_eq_some found).2 there)

/-- The second half of a removal: the path of the relay is deregistered, and its device is
detached under the stored name.
-/
theorem deregisterPair_orderly {dev : List Char} {conditional : Bool}
    (sure : ∀ path answer d, admits (.vhost (.driverUnregister path)) answer d → answer = 0)
    (registry : Registry settings m) (below : id < settings.maxRelays)
    (map : daemon.relayIfnameMap = m)
    (held : Apart m id (fun relay => relay.Matches (m id) ∧ relay.dpdk.pciDbdf = dev)
      daemon.world)
    : wp sockAccesses (sockContract admits)
        (do
          if (← deregisterSocket settings (m id)) ≠ 0 then return 3
          if (← onRelay id (removeVf2 settings dev id conditional)) ≠ 0 then return 4
          return 0 : SockProg Int)
        (fun _ d => d.Orderly settings) daemon := by
  have known : Tending fun relay => relay.Matches (m id) ∧ relay.dpdk.pciDbdf = dev :=
    (tending_matches (m id)).and (tending_pciDbdf (· = dev))
  cases there : m id with
  | none =>
      refine wp.bind ((deregisterSocket_null (tending_apart m id known) ⟨map, held⟩).mono
        fun err d outcome => ?_)
      obtain ⟨rfl, map, others, here, _⟩ := outcome
      refine .of_exception (map ▸ registry) others (fun i _ => by rw [map]) ?_
      rwa [map]
  | some path =>
      refine wp.bind ((deregisterSocket_frees (tending_apart m id known) ⟨map, held⟩).mono
        fun err d outcome => ?_)
      obtain ⟨⟨others, matched, name⟩, freed⟩ := outcome
      rw [relayOf_registered registry there] at freed
      rcases freed with ⟨absent, _⟩ | ⟨found, same, map, before, admitted⟩
      · cases absent
      · cases Option.some.inj same
        cases sure _ _ _ admitted
        rw [there] at matched
        have away : d.world.Agrees (Function.update m id none) (some id) := by
          intro i other
          rw [Function.update_of_ne fun same => other (congrArg some same.symm)]
          exact others i other
        have active : (d.world.relays id).Active := (matched.1.mp rfl).1
        refine wp.bind ((wp_onRelay_apart (fun _ relay => ¬ relay.Active ∧ relay.Tidy) map away
          ((removeVf2_detaches below matched.2 active name).mono
            fun _ _ detached => ⟨detached.1, detached.2.1⟩)).mono fun err d outcome => ?_)
        obtain ⟨map, others, inactive, tidy⟩ := outcome
        have orderly : d.Orderly settings := by
          refine .of_exception (map ▸ registry.free id) others (fun i _ => by rw [map]) ?_
          rw [map, Function.update_self]
          exact Relay.matches_none inactive tidy
        split <;> exact orderly

theorem Relay.Matches.stopped {relay : Relay} {path : Option (List Char)}
    (h : relay.Matches path) (ready : relay.dpdk.state = .ready)
    : ((Write.dpdkState .added).apply relay).Matches path := by
  have active : relay.Active := Or.inl ready
  refine ⟨h.1.trans ⟨fun device => ⟨Or.inr rfl, device.2⟩, fun device => ⟨active, device.2⟩⟩, ?_⟩
  exact ⟨h.2.pciDbdf, fun _ => h.2.cpu active⟩

/-- A removal keeps the daemon in order, if the vhost library deregisters the path. -/
theorem virtioRemoveSockDevPair_orderly {vhostPath : Option (List Char)} {dev : List Char}
    {room : Nat} {conditional : Bool}
    (sure : ∀ path answer d, admits (.vhost (.driverUnregister path)) answer d → answer = 0)
    (h : daemon.Orderly settings)
    : wp sockAccesses (sockContract admits)
        (virtioRemoveSockDevPair settings vhostPath dev room conditional)
        (fun _ d => d.Orderly settings) daemon := by
  obtain ⟨registry, agrees⟩ := h
  unfold virtioRemoveSockDevPair
  split
  · exact ⟨registry, agrees⟩
  · refine wp.bind ((findPair_finds (tending_agrees _ none) ⟨rfl, agrees⟩).mono
      fun found d outcome => ?_)
    obtain ⟨held, found'⟩ := outcome
    cases found with
    | none => exact ⟨held.1 ▸ registry, held.1 ▸ held.2⟩
    | some pair =>
        obtain ⟨id, path⟩ := pair
        obtain ⟨below, rfl⟩ := found' id path rfl
        generalize daemon.relayIfnameMap = m at registry held ⊢
        refine wp.bind ((wp_onRelay_apart (fun (seen : Relay) relay => relay.Matches (m id)
            ∧ relay.dpdk.pciDbdf = seen.dpdk.pciDbdf) held.1 (fun i _ => held.2 i nofun)
          (wp_look (fun _ => trivial) (tending_matches (m id)).stable (held.2 id nofun)
            fun s _ here => ⟨here, rfl⟩)).mono fun seen d outcome => ?_)
        obtain ⟨map, others, here, name⟩ := outcome
        dsimp only
        split
        · refine .of_exception (map ▸ registry) others (fun i _ => by rw [map]) ?_
          rwa [map]
        · rename_i right
          have stored : (if dev = [] then seen.dpdk.pciDbdf else dev) = seen.dpdk.pciDbdf := by
            split
            · rfl
            · rename_i given
              simpa [pciDbdfEqual, given] using right
          split
          · trivial
          · rw [stored]
            have known : Tending fun relay =>
                relay.Matches (m id) ∧ relay.dpdk.pciDbdf = seen.dpdk.pciDbdf :=
              (tending_matches (m id)).and (tending_pciDbdf (· = seen.dpdk.pciDbdf))
            refine wp.bind ((wp_onRelay_apart (fun _ relay => relay.Matches (m id)
                ∧ relay.dpdk.pciDbdf = seen.dpdk.pciDbdf) map others
              (removeVirtio_keeps known (fun relay held ready => ⟨held.1.stopped ready, held.2⟩)
                ⟨here, name⟩)).mono fun _ d outcome => ?_)
            exact deregisterPair_orderly sure registry below outcome.1 outcome.2

end Operations

-----------------------------------------------------------------------------------------
-- Whole histories
-----------------------------------------------------------------------------------------

/-- Any calls with any answers. -/
def anyPairs : Policy Unit PairOp SockInstr Int Daemon where
  instr _ _ _ _ := True
  call _ _ _ := True

/-- The vhost library deregisters the path of every pair that is removed, the device of a new
pair has a name, and if its path cannot be registered, the name fits `pci_dbdf`.
-/
def soundPairs : Policy Unit PairOp SockInstr Int Daemon where
  instr op i answer _ :=
    match op, i with
    | .add _ slaves name _, .vhost call =>
        call.Refuses answer → ((pairDevice slaves name).getD []).length ≤ 19
    | .remove _ _ _ _, .vhost (.driverUnregister _) => answer = 0
    | _, _ => True
  call _ op _ :=
    match op with
    | .add _ slaves name _ => pairDevice slaves name ≠ some []
    | .remove _ _ _ _ => True

/-- Pair operations keep the daemon in order. -/
def pairOutline (settings : Settings) (conf : SocketConf)
    : Outline (pairSystem settings conf) soundPairs where
  inv _ := True
  rely _ := Daemon.Tended
  guar _ _ _ := True
  done _ _ _ := Daemon.Orderly settings
  fault _ := True
  refl _ := Daemon.Tended.refl
  trans _ _ _ _ := Daemon.Tended.trans
  stable _ _ _ _ _ later _ orderly := kept_orderly settings later orderly
  others := Daemon.tended_alone
  env _ _ _ _ happened := ⟨trivial, fun _ => Daemon.tended_event happened⟩
  ops _ op _ _ _ _ called orderly := by
    cases op with
    | add vhostPath slaves name conditional =>
        refine virtioAddSockDevPair_orderly called (fun refused => ?_) orderly
        obtain ⟨call, answer, before, admitted, refuses⟩ := refused
        exact admitted refuses
    | remove vhostPath dev room conditional =>
        exact virtioRemoveSockDevPair_orderly (fun _ _ _ unregistered => unregistered) orderly

/-- From a daemon without sockets and devices, sockets, relays and devices correspond one to
one after every pair operation of a sound history, whatever the drivers and the vhost library
answer otherwise.
-/
theorem one_to_one_in_sound_runs {settings : Settings} {conf : SocketConf} {useJumbo : Bool}
    {initialized : Nat → Bool}
    {config : Config Unit PairOp SockInstr Int Daemon SockFault Daemon Int}
    (run : Run (pairSystem settings conf) soundPairs
      (idlePairs settings useJumbo initialized) config)
    {op : PairOp} {value : Int} (returned : config.running () = (op, .ret value))
    : config.state.Paired settings := by
  have first : (pairOutline settings conf).Good (idlePairs settings useJumbo initialized) := by
    refine ⟨trivial, fun _ => ⟨⟨nofun, nofun⟩, fun i _ => ?_⟩⟩
    refine Relay.matches_none ?_ ⟨Nat.zero_le _, ?_⟩
    · exact DpdkState.Leaving.inactive (Or.inr (Or.inr rfl))
    · exact fun active => absurd active (DpdkState.Leaving.inactive (Or.inr (Or.inr rfl)))
  have orderly : config.state.Orderly settings := (run.good first).returned returned
  exact orderly.paired

instance (call : VhostCall) (answer : Int) : Decidable (call.Refuses answer) :=
  match call with
  | .isSocket _ => inferInstanceAs (Decidable (answer = 0))
  | .unlink _ | .driverRegister _ | .driverStart _ | .chown _ =>
      inferInstanceAs (Decidable (answer ≠ 0))
  | .stat _ | .driverUnregister _ => inferInstanceAs (Decidable False)

instance (op : PairOp) (i : SockInstr) (answer : Int) (daemon : Daemon)
    : Decidable (soundPairs.instr op i answer daemon) :=
  match op, i with
  | .add _ _ _ _, .vhost _ => inferInstanceAs (Decidable (_ → _))
  | .remove _ _ _ _, .vhost (.driverUnregister _) => inferInstanceAs (Decidable (answer = 0))
  | .remove _ _ _ _, .vhost (.stat _) | .remove _ _ _ _, .vhost (.isSocket _)
  | .remove _ _ _ _, .vhost (.unlink _) | .remove _ _ _ _, .vhost (.driverRegister _)
  | .remove _ _ _ _, .vhost (.driverStart _) | .remove _ _ _ _, .vhost (.chown _)
  | .remove _ _ _ _, .control _ _ | .remove _ _ _ _, .readMap | .remove _ _ _ _, .writeMap _ _
  | .remove _ _ _ _, .vringStateChange _ _ | .add _ _ _ _, .control _ _ | .add _ _ _ _, .readMap
  | .add _ _ _ _, .writeMap _ _ | .add _ _ _ _, .vringStateChange _ _ => .isTrue trivial

instance (thread : Unit) (op : PairOp) (daemon : Daemon)
    : Decidable (soundPairs.call thread op daemon) :=
  match op with
  | .add _ _ _ _ => inferInstanceAs (Decidable (_ ≠ _))
  | .remove _ _ _ _ => .isTrue trivial

/-- A VF is added with a socket; every call succeeds. -/
def addPair : List (Choice Unit PairOp Int Event) :=
  .call () (.add (some "/tmp/virtio-forwarder0.sock".toList) ["0000:05:08.0".toList] none true)
  :: answered () ([-1] ++ List.replicate 10 0 ++ [1] ++ List.replicate 21 0 ++ [-1, 0, 0, 0, 0])

/-- Witness: a pair is added to a daemon without sockets. -/
theorem one_to_one_after_add
    : ∃ config, Run (pairSystem twoWorkers ⟨false, false⟩) soundPairs
          (idlePairs twoWorkers false fun _ => true) config
        ∧ config.state.relayIfnameMap 0 = some "/tmp/virtio-forwarder0.sock".toList
        ∧ config.state.Paired twoWorkers := by
  obtain ⟨config, run, reached⟩ := Run.of_follow (pairSystem twoWorkers ⟨false, false⟩) soundPairs
    (idlePairs twoWorkers false fun _ => true) addPair
    (fun c => (c.running ()).2.value? = some 0
      && c.state.relayIfnameMap 0 = some "/tmp/virtio-forwarder0.sock".toList)
    (by decide +kernel)
  simp only [Bool.and_eq_true, decide_eq_true_eq] at reached
  have returned : config.running () = ((config.running ()).1, .ret 0) :=
    Prod.ext rfl (Prog.eq_ret_of_value? reached.1)
  exact ⟨config, run, reached.2, one_to_one_in_sound_runs run returned⟩

instance (op : PairOp) (i : SockInstr) (answer : Int) (daemon : Daemon)
    : Decidable (anyPairs.instr op i answer daemon) :=
  .isTrue trivial

instance (thread : Unit) (op : PairOp) (daemon : Daemon)
    : Decidable (anyPairs.call thread op daemon) :=
  .isTrue trivial

/-- The removal of a pair whose path the vhost library does not deregister gives up the path
and keeps the device.
-/
theorem device_without_socket_after_failed_unregister
    : ¬ ∀ (settings : Settings) (conf : SocketConf) (useJumbo : Bool) (initialized : Nat → Bool)
        (config : Config Unit PairOp SockInstr Int Daemon SockFault Daemon Int) (op : PairOp)
        (value : Int),
        Run (pairSystem settings conf) anyPairs (idlePairs settings useJumbo initialized) config
        → config.running () = (op, .ret value)
        → config.state.Paired settings := by
  intro claim
  obtain ⟨config, run, reached⟩ := Run.of_follow (pairSystem twoWorkers ⟨false, false⟩) anyPairs
    (idlePairs twoWorkers false fun _ => true)
    (addPair ++ .call () (.remove (some "/tmp/virtio-forwarder0.sock".toList) [] 64 true)
      :: answered () [0, 0, 0, -1, 0, 0, 0])
    (fun c => (c.running ()).2.value? = some 3 && (c.state.relayIfnameMap 0).isNone
      && (c.state.world.relays 0).HasDevice)
    (by decide +kernel)
  simp only [Bool.and_eq_true, decide_eq_true_eq] at reached
  obtain ⟨⟨returned, free⟩, device⟩ := reached
  have paired := claim _ _ _ _ config _ 3 run
    (Prod.ext rfl (Prog.eq_ret_of_value? returned))
  have registered := (paired.device 0 (by decide)).mpr device
  rw [Option.isNone_iff_eq_none.mp free] at registered
  exact Bool.false_ne_true registered

end VirtioForwarder
