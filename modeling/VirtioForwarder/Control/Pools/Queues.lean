import VirtioForwarder.Control.Pools.Held

/-! How the functions that allocate or swap a pool pass it for the receive queue of a port. -/

namespace VirtioForwarder

open Program

/-- A pool that was handed out, is not freed and is not the relay's. -/
def World.Spare (w pool : Nat) (world : World) : Prop :=
  pool < world.nextPool ∧ world.freed pool = false ∧ (world.relays w).vio.mempool ≠ some pool

theorem spare_retained {w : Nat} (pool : Nat) : Retained w (World.Spare w pool) := by
  intro before after kept h
  unfold World.Spare
  rw [kept.freed, kept.mempool]
  exact ⟨h.1.trans_le kept.nextPool, h.2⟩

/-- The VF is not in use, and the relay's pool was passed for the queues of `ports`. -/
structure World.Stocked (w : Nat) (ports : Set Nat) (world : World) : Prop where
  off : world.Off w
  sound : world.PoolSound w
  backed : ∀ port ∈ ports, world.Backed w port

theorem stocked_retained {w : Nat} {ports : Set Nat} : Retained w (World.Stocked w ports) := by
  intro before after kept h
  refine ⟨off_retained kept h.off, poolSound_retained kept h.sound, fun port member => ?_⟩
  exact backed_retained port kept (h.backed port member)

theorem World.Stocked.held {w : Nat} {ports : Set Nat} {world : World}
    (h : world.Stocked w ports) (used : Prop)
    : world.Held w used :=
  ⟨h.sound, Or.inl h.off⟩

theorem World.Held.stocked {w : Nat} {used : Prop} {world : World} (h : world.Held w used)
    (off : world.Off w)
    : world.Stocked w ∅ :=
  ⟨off, h.sound, fun _ member => member.elim⟩

theorem World.off_of_uninit {w : Nat} {world : World}
    (uninit : (world.relays w).dpdk.state = .uninit)
    : world.Off w := by
  rw [World.Off, uninit]
  exact ⟨nofun, nofun⟩

theorem World.Off.modify {w : Nat} {world : World} (h : world.Off w) {f : Relay → Relay}
    (same : (f (world.relays w)).dpdk.state = (world.relays w).dpdk.state)
    : (world.modifyRelay w f).Off w := by
  unfold World.Off
  rw [World.relays_modifyRelay_self, same]
  exact h

theorem World.PoolSound.modify {w : Nat} {world : World} (h : world.PoolSound w)
    {f : Relay → Relay}
    (same : (f (world.relays w)).vio.mempool = (world.relays w).vio.mempool)
    : (world.modifyRelay w f).PoolSound w := by
  refine ⟨h.fresh, ?_⟩
  rw [World.relays_modifyRelay_self, same]
  exact h.owned

theorem World.Backed.modify {w port : Nat} {world : World} (h : world.Backed w port)
    {f : Relay → Relay}
    (same : (f (world.relays w)).vio.mempool = (world.relays w).vio.mempool)
    : (world.modifyRelay w f).Backed w port := by
  unfold World.Backed
  rw [World.relays_modifyRelay_self, same]
  exact h

/-- The relay gets a pool that is not freed. -/
theorem World.PoolSound.setMempool {w pool : Nat} {world : World}
    (fresh : ∀ pool, world.freed pool = true → pool < world.nextPool)
    (handedOut : pool < world.nextPool) (live : world.freed pool = false)
    : (world.modifyRelay w (Write.mempool (some pool)).apply).PoolSound w := by
  refine ⟨fresh, fun mine same => ?_⟩
  rw [World.relays_modifyRelay_self] at same
  cases Option.some.inj same
  exact ⟨handedOut, live⟩

/-- Freeing the relay's pool frees a pool that was handed out. -/
theorem World.PoolSound.fresh_poolFree {w : Nat} {world : World} (h : world.PoolSound w)
    {pool : Option Nat} (mine : (world.relays w).vio.mempool = pool) (answer : Int) (other : Nat)
    (freed : ((DriverCall.poolFree pool).apply answer world).freed other = true)
    : other < ((DriverCall.poolFree pool).apply answer world).nextPool := by
  cases pool with
  | none => exact h.fresh other freed
  | some old =>
      rcases eq_or_ne other old with rfl | away
      · exact (h.owned other mine).1
      · refine h.fresh other ?_
        rwa [← Function.update_of_ne away true world.freed]

section Allocation

variable {w : Nat} {policy : Policy Unit Op Instr Int World} {op : Op} {world : World}
  {known : World → Prop}

theorem allocMempool_wp_pool {node : Int} {size : Nat} (retained : Retained w known)
    (sound : ∀ s, known s → s.PoolSound w) (h : known world)
    : wp (accesses w) (poolContract w policy op) (allocMempool node size)
        (fun pool s => known s ∧ ∀ new, pool = some new → s.Spare w new) world := by
  have harmless : (DriverCall.poolCreate node size).Harmless := trivial
  refine wp.perform retained.stable h fun s answer _ held _ => ⟨trivial, trivial, ?_, ?_⟩
  · exact retained (harmless.kept w answer s) held
  · intro new allocated
    by_cases failed : answer = 0
    · rw [if_neg (not_not.mpr failed)] at allocated
      cases allocated
    · rw [if_pos failed] at allocated
      cases Option.some.inj allocated
      have unused : s.freed s.nextPool = false := by
        by_contra freed
        exact absurd ((sound s held).fresh _ (by simpa using freed)) (lt_irrefl _)
      simp only [Instr.exec, DriverCall.apply, ne_eq, failed, not_false_eq_true, if_true]
      refine ⟨Nat.lt_succ_self _, unused, fun mine => ?_⟩
      exact absurd ((sound s held).owned _ mine).1 (lt_irrefl _)

/-- `dev_queue_configure` allocates a pool for the relay if there is none. -/
theorem ensureMempool_wp_pool {ports : Set Nat} (h : world.Stocked w ports)
    : wp (accesses w) (poolContract w policy op) (ensureMempool w)
        (fun ok s => s.Stocked w ports ∧ (ok = true → (s.relays w).vio.mempool.isSome))
        world := by
  have lacking : Retained w fun s => s.Stocked w ports ∧ (s.relays w).vio.mempool = none :=
    stocked_retained.and (mempool_retained (· = none))
  refine wp.bind (wp_pool_look stocked_retained h fun s held => ?_)
  split
  · rename_i present
    exact ⟨held, fun _ => present⟩
  · rename_i absent
    replace held : s.Stocked w ports ∧ (s.relays w).vio.mempool = none :=
      ⟨held, Option.not_isSome_iff_eq_none.mp absent⟩
    refine wp_pool_bind (look_observing ..).poolNeutral lacking held fun relay s held => ?_
    refine wp.bind ((allocMempool_wp_pool lacking (fun _ held => held.1.sound) held).mono
      fun pool s allocated => ?_)
    obtain ⟨held, spare⟩ := allocated
    cases pool with
    | none => exact ⟨held.1, nofun⟩
    | some pool =>
        refine wp.bind (wp_pool_assign (lacking.and (spare_retained pool)) ⟨held, spare pool rfl⟩
          fun s held => ?_)
        obtain ⟨⟨stocked, none⟩, handedOut, live, _⟩ := held
        refine ⟨⟨stocked.off.modify rfl, ?_, fun port member => ?_⟩, fun _ => ?_⟩
        · exact .setMempool stocked.sound.fresh handedOut live
        · -- a queue that has the relay's pool would mean that the relay has one
          have some := (stocked.backed port member).1
          rw [none] at some
          cases some
        · rw [World.relays_modifyRelay_self]
          rfl

/-- After the set-up of a receive queue, whether or not it succeeds, the pool last passed for
the port is the relay's.
-/
theorem setupRxQueue_wp_pool {port : Nat} (retained : Retained w known)
    (some : ∀ s, known s → (s.relays w).vio.mempool.isSome)
    (passed : ∀ s pool, known s → pool = (s.relays w).vio.mempool
      → known { s with rxPool := Function.update s.rxPool port pool })
    (h : known world)
    : wp (accesses w) (poolContract w policy op) (setupRxQueue w port)
        (fun _ s => known s ∧ s.Backed w port) world := by
  refine wp_pool_bind (look_observing ..).poolNeutral retained h fun relay s held => ?_
  refine wp.bind (wp_pool_look retained held fun s held => ?_)
  generalize mine : (s.relays w).vio.mempool = pool
  refine wp_pool_drive (retained.and (mempool_retained (· = pool))) ⟨held, mine⟩
    fun s answer held _ => ?_
  obtain ⟨held, rfl⟩ := held
  exact ⟨passed s _ held rfl, some s held, Function.update_self ..⟩

end Allocation

section Adding

variable {settings : Settings} {w : Nat} {policy : Policy Unit Op Instr Int World} {op : Op}
  {world : World} {ports : Set Nat}

theorem devQueueConfigure_wp_pool {port : Nat} {isBond : Bool} (h : world.Stocked w ports)
    : wp (accesses w) (poolContract w policy op) (devQueueConfigure w port isBond)
        (fun err s => s.Stocked w ports ∧ (err = 0 → s.Stocked w (insert port ports))) world := by
  have having : Retained w fun s => s.Stocked w ports ∧ (s.relays w).vio.mempool.isSome :=
    stocked_retained.and (mempool_retained (·.isSome))
  refine wp_pool_bind (configurePort_inert ..).poolNeutral stocked_retained h
    fun err s held => ?_
  split
  · rename_i failed
    exact ⟨held, fun ok => absurd ok failed⟩
  · refine wp.bind ((ensureMempool_wp_pool held).mono fun ok s ensured => ?_)
    cases ok with
    | false => exact ⟨ensured.1, nofun⟩
    | true =>
        replace ensured : s.Stocked w ports ∧ (s.relays w).vio.mempool.isSome :=
          ⟨ensured.1, ensured.2 rfl⟩
        refine wp_pool_bind (.perform trivial) having ensured fun err s held => ?_
        split
        · rename_i failed
          exact ⟨held.1, fun ok => absurd ok failed⟩
        · refine wp_pool_bind (setupTxQueue_inert ..).poolNeutral having held fun err s held => ?_
          split
          · exact ⟨held.1, nofun⟩
          · refine wp.bind ((setupRxQueue_wp_pool having (fun _ held => held.2)
              (fun s pool held mine => ?_) held).mono fun err s passed => ?_)
            · refine ⟨⟨held.1.off, ⟨held.1.sound.fresh, held.1.sound.owned⟩, fun other member => ⟨held.2, ?_⟩⟩,
                held.2⟩
              change Function.update s.rxPool port pool other = (s.relays w).vio.mempool
              -- the queues that had the pool keep it, also if it is passed again
              rcases eq_or_ne other port with rfl | different
              · rw [Function.update_self, mine]
              · rw [Function.update_of_ne different]
                exact (held.1.backed other member).2
            · obtain ⟨⟨stocked, _⟩, backed⟩ := passed
              split
              · exact ⟨stocked, nofun⟩
              · refine ⟨stocked, fun _ => ⟨stocked.off, stocked.sound, fun other member => ?_⟩⟩
                rcases member with rfl | member
                · exact backed
                · exact stocked.backed other member

/-- `init_vf` configures the port that it returns if the device has one, which `listed` says. -/
theorem initVf_wp_pool {dbdf : List Char} {listed : Prop}
    (found : listed → ∀ answer s, policy.instr op (.call (.nextMatchingDev dbdf)) answer s
      → 0 ≤ answer ∧ answer < settings.maxRelays)
    (h : world.Stocked w ports)
    : wp (accesses w) (poolContract w policy op) (initVf settings w dbdf)
        (fun result s => s.Stocked w ports
          ∧ ∀ port, result = .ok port → listed
            → port < settings.maxRelays ∧ s.Stocked w (insert port ports)) world := by
  refine wp_pool_bind (.perform trivial) stocked_retained h fun err s held => ?_
  split
  · exact ⟨held, nofun⟩
  · refine wp_pool_ask trivial stocked_retained
      (fun answer s admitted (hl : listed) => found hl answer s admitted) held
      fun answer s inRange held => ?_
    split
    · refine wp.bind ((devQueueConfigure_wp_pool held).mono fun err s configured => ?_)
      split
      · refine wp_pool_bind (cleanupEthDev_sure _).inert.poolNeutral stocked_retained configured.1
          fun _ s held => ?_
        exact ⟨held, nofun⟩
      · rename_i ok
        refine wp_pool_bind (.perform trivial) stocked_retained (configured.2 (not_not.mp ok))
          fun _ s held => ?_
        refine ⟨⟨held.off, held.sound, fun port member => ?_⟩, fun port same _ => ?_⟩
        · exact held.backed port (Or.inr member)
        · cases same
          exact ⟨by omega, held⟩
    · rename_i outside
      exact ⟨held, fun _ _ hl => absurd (inRange hl) outside⟩

theorem publishVf_wp_pool {dbdf : List Char} {port : Nat} {state : DpdkState} {isBond : Bool}
    {numSlaves : Nat} (h : world.Stocked w ports) (member : port ∈ ports) (small : port < 256)
    : wp (accesses w) (poolContract w policy op)
        (publishVf settings w dbdf port state isBond numSlaves)
        (fun _ => World.Held w True) world := by
  have placed : Retained w fun s =>
      s.Stocked w ports ∧ (s.relays w).dpdk.dpdkPort = port := by
    refine stocked_retained.and fun before after kept same => ?_
    rw [kept.dpdkPort, same]
  refine wp_pool_bind (.perform trivial) stocked_retained h fun _ s held => ?_
  refine wp.bind (wp_pool_assign stocked_retained held fun s held => ?_)
  replace held : (s.modifyRelay w (Write.dpdkPort port).apply).Stocked w ports
      ∧ ((s.modifyRelay w (Write.dpdkPort port).apply).relays w).dpdk.dpdkPort = port := by
    refine ⟨⟨held.off.modify rfl, held.sound.modify rfl, fun other member => ?_⟩, ?_⟩
    · exact (held.backed other member).modify rfl
    · rw [World.relays_modifyRelay_self]
      rfl
  refine wp_pool_bind (.perform trivial) placed held fun _ s held => ?_
  refine wp_pool_bind (findVf2virtioCpu_assigning ..).poolNeutral placed held fun _ s held => ?_
  refine wp.bind (wp_pool_assign placed held fun s held => ?_)
  have published : (s.modifyRelay w (Write.dpdkState state).apply).Held w True := by
    have here : ((s.modifyRelay w (Write.dpdkState state).apply).relays w).dpdk.dpdkPort = port := by
      rw [World.relays_modifyRelay_self]
      exact held.2
    refine ⟨held.1.sound.modify rfl, Or.inr ⟨trivial, ?_, ?_⟩⟩
    · exact here.trans_lt small
    · rw [here]
      exact (held.1.backed port member).modify rfl
  refine wp_pool_bind (.perform trivial) held_retained published fun _ s held => ?_
  refine wp_pool_bind (.perform trivial) held_retained held fun _ s held => ?_
  refine wp_pool_bind (look_observing ..).poolNeutral held_retained held fun relay s held => ?_
  exact (flagWorker_inert _).poolNeutral.wp_pool held_retained held

theorem configureDevWithVirtio_wp_pool {dbdf : List Char} {port : Nat} {isBond : Bool}
    {numSlaves : Nat} (h : world.Stocked w ports) (member : port ∈ ports) (small : port < 256)
    : wp (accesses w) (poolContract w policy op)
        (configureDevWithVirtio settings w dbdf port isBond numSlaves)
        (fun _ => World.Held w True) world := by
  refine wp_pool_bind (startOrStop_observing ..).poolNeutral stocked_retained h
    fun decision s held => ?_
  cases decision with
  | none => exact held.held True
  | some state =>
      exact wp.bind ((publishVf_wp_pool held member small).mono fun _ s held => held)

theorem addVf2_wp_pool {dbdf : List Char} {conditional : Bool}
    (found : ∀ answer s, policy.instr op (.call (.nextMatchingDev dbdf)) answer s
      → 0 ≤ answer ∧ answer < settings.maxRelays)
    (h : world.Held w True)
    : wp (accesses w) (poolContract w policy op) (addVf2 settings dbdf w conditional)
        (fun _ => World.Held w True) world := by
  unfold addVf2
  split
  · exact h
  · refine wp.bind (wp_pool_look held_retained h fun s held => ?_)
    split
    · split
      · exact held
      · refine wp_pool_bind (conditionalAddOk_observing ..).poolNeutral held_retained held
          fun ok s held => ?_
        split <;> exact held
    · rename_i uninit
      have stocked := held.stocked (World.off_of_uninit (not_not.mp uninit))
      refine wp.bind ((initVf_wp_pool (fun _ : True => found) stocked).mono
        fun result s initialized => ?_)
      obtain ⟨stocked, listed⟩ := initialized
      cases result with
      | error failure => exact stocked.held True
      | ok port =>
          obtain ⟨inRange, stocked⟩ := listed port rfl trivial
          have small : port < 256 := by
            have := settings.relaysFit
            omega
          refine wp.bind ((configureDevWithVirtio_wp_pool stocked (Set.mem_insert ..) small).mono
            fun err s held => ?_)
          split
          · exact held
          · exact wp_pool_bind (cleanupEthDev_sure _).inert.poolNeutral held_retained held
              fun _ s held => held

end Adding

/-- Another pool is about to become the relay's; the VF may be added if `used`. -/
structure World.Swapping (w port pool : Nat) (used : Prop) (world : World) : Prop where
  fresh : ∀ pool, world.freed pool = true → pool < world.nextPool
  handedOut : pool < world.nextPool
  live : world.freed pool = false
  notReady : (world.relays w).dpdk.state ≠ .ready
  added
    : (world.relays w).dpdk.state = .added
      → used ∧ (world.relays w).dpdk.dpdkPort = port ∧ port < 256

section Swapping

variable {w : Nat} {policy : Policy Unit Op Instr Int World} {op : Op} {world : World}
  {port pool : Nat} {used : Prop}

theorem swapping_retained : Retained w (World.Swapping w port pool used) := by
  intro before after kept h
  refine ⟨?_, h.handedOut.trans_le kept.nextPool, ?_, fun ready => ?_, fun added => ?_⟩
  · rw [kept.freed]
    exact fun pool freed => (h.fresh pool freed).trans_le kept.nextPool
  · rw [kept.freed]
    exact h.live
  · exact h.notReady (kept.ready.mp ready)
  · rw [kept.dpdkPort]
    exact h.added (kept.added.mp added)

theorem freeOldPool_wp_pool (h : world.Swapping w port pool used) (sound : world.PoolSound w)
    (spare : world.Spare w pool)
    : wp (accesses w) (poolContract w policy op) (freeOldPool w)
        (fun _ => World.Swapping w port pool used) world := by
  have retained : Retained w fun s =>
      s.Swapping w port pool used ∧ s.PoolSound w ∧ s.Spare w pool :=
    swapping_retained.and (poolSound_retained.and (spare_retained pool))
  refine wp.bind (wp_pool_look retained ⟨h, sound, spare⟩ fun s held => ?_)
  dsimp only
  split
  · generalize mine : (s.relays w).vio.mempool = old
    refine wp.bind (wp_pool_drive (retained.and (mempool_retained (· = old))) ⟨held, mine⟩
      fun s answer held _ => ?_)
    obtain ⟨⟨swapping, sound, spare⟩, mine⟩ := held
    cases old with
    | none => exact swapping
    | some old =>
        -- the pool to come is not the one that is freed
        have different : pool ≠ old := fun same => spare.2.2 (by rw [mine, same])
        refine ⟨sound.fresh_poolFree mine answer, swapping.handedOut, ?_, swapping.notReady,
          swapping.added⟩
        exact (Function.update_of_ne different true s.freed).trans swapping.live
  · exact held.1

/-- The relay has its new pool, but the receive queue of an added VF still has the old one. -/
structure World.Unpassed (w port : Nat) (world : World) : Prop where
  sound : world.PoolSound w
  port : (world.relays w).dpdk.dpdkPort = port
  present : (world.relays w).vio.mempool.isSome

theorem unpassed_retained : Retained w (World.Unpassed w port) := by
  intro before after kept h
  refine ⟨poolSound_retained kept h.sound, ?_, ?_⟩
  · rw [kept.dpdkPort]
    exact h.port
  · rw [kept.mempool]
    exact h.present

/-- The queues of an added VF get the new pool if the calls before it do not fail. -/
theorem reconfigureVf_wp_pool
    (infoGet : ∀ answer s, policy.instr op (.call (.devInfoGet port)) answer s → answer = 0)
    (txSetup : ∀ node answer s, policy.instr op (.call (.txQueueSetup port node)) answer s
      → answer = 0)
    (small : port < 256) (h : world.Unpassed w port)
    : wp (accesses w) (poolContract w policy op) (reconfigureVf w port)
        (fun _ => World.Held w True) world := by
  refine wp_pool_ask trivial unpassed_retained infoGet h fun answer s zero held => ?_
  rw [if_neg (not_not.mpr zero)]
  refine wp.bind (wp_pool_bind (look_observing ..).poolNeutral unpassed_retained held
    fun relay s held => wp_pool_drive unpassed_retained held fun s answer held admitted => ?_)
  have harmless : (DriverCall.txQueueSetup port relay.vio.mempoolSocketId).Harmless := trivial
  replace held := unpassed_retained (harmless.kept w answer s) held
  rw [if_neg (not_not.mpr (txSetup _ answer s admitted))]
  refine wp.bind ((setupRxQueue_wp_pool unpassed_retained (fun _ held => held.present)
    (fun s pool held _ => ?_) held).mono fun err s passed => ?_)
  · exact ⟨⟨held.sound.fresh, held.sound.owned⟩, held.port, held.present⟩
  · obtain ⟨unpassed, backed⟩ := passed
    have held : s.Held w True := by
      refine ⟨unpassed.sound, Or.inr ⟨trivial, ?_, ?_⟩⟩
      · rw [unpassed.port]
        exact small
      · rw [unpassed.port]
        exact backed
    split
    · exact wp_pool_bind (.perform trivial) held_retained held fun _ s held => held
    · exact held

variable
  (infoGet : used → ∀ port answer s, policy.instr op (.call (.devInfoGet port)) answer s
    → answer = 0)
  (txSetup : used → ∀ port node answer s,
    policy.instr op (.call (.txQueueSetup port node)) answer s → answer = 0)

include infoGet txSetup

theorem swapMempool_wp_pool {newnode : Int} (h : world.Swapping w port pool used)
    (sound : world.PoolSound w) (spare : world.Spare w pool)
    : wp (accesses w) (poolContract w policy op) (swapMempool w port newnode pool)
        (fun _ => World.Held w used) world := by
  have before : Retained w fun s =>
      s.Swapping w port pool used ∧ s.PoolSound w ∧ s.Spare w pool :=
    swapping_retained.and (poolSound_retained.and (spare_retained pool))
  have after : Retained w fun s =>
      s.Swapping w port pool used ∧ s.PoolSound w ∧ (s.relays w).vio.mempool.isSome :=
    swapping_retained.and (poolSound_retained.and (mempool_retained (·.isSome)))
  refine wp_pool_bind (stopAddedVf_observing ..).poolNeutral before ⟨h, sound, spare⟩
    fun _ s held => ?_
  refine wp.bind ((freeOldPool_wp_pool held.1 held.2.1 held.2.2).mono fun _ s held => ?_)
  refine wp.bind (wp_pool_assign swapping_retained held fun s held => ?_)
  replace held : (s.modifyRelay w (Write.mempool (some pool)).apply).Swapping w port pool used
      ∧ (s.modifyRelay w (Write.mempool (some pool)).apply).PoolSound w
      ∧ ((s.modifyRelay w (Write.mempool (some pool)).apply).relays w).vio.mempool.isSome := by
    refine ⟨⟨held.fresh, held.handedOut, held.live, ?_, ?_⟩,
      .setMempool held.fresh held.handedOut held.live, ?_⟩
    · rw [World.relays_modifyRelay_self]
      exact held.notReady
    · rw [World.relays_modifyRelay_self]
      exact held.added
    · rw [World.relays_modifyRelay_self]
      rfl
  refine wp_pool_bind (.perform trivial) after held fun _ s held => ?_
  refine wp.bind (wp_pool_look after held fun s held => ?_)
  obtain ⟨swapping, sound, present⟩ := held
  split
  · rename_i added
    obtain ⟨hu, same, small⟩ := swapping.added added
    refine (reconfigureVf_wp_pool (infoGet hu port) (txSetup hu port) small
      ⟨sound, same, present⟩).mono fun _ s held => held.mono fun _ => hu
  · rename_i notAdded
    exact ⟨sound, Or.inl ⟨notAdded, swapping.notReady⟩⟩

/-- `migrate_mempool` passes the new pool for the queue of an added VF. -/
theorem migrateMempool_wp_pool {newnode : Int} {size : Nat} (h : world.Held w used)
    : wp (accesses w) (poolContract w policy op) (migrateMempool w newnode size)
        (fun _ => World.Held w used) world := by
  refine wp.bind (wp_pool_look held_retained h fun s held => ?_)
  dsimp only
  generalize mine : (s.relays w).dpdk.dpdkPort = port
  have retained : Retained w fun s =>
      s.Held w used ∧ (s.relays w).dpdk.dpdkPort = port := by
    refine held_retained.and fun before after kept same => ?_
    rw [kept.dpdkPort, same]
  refine wp.bind ((allocMempool_wp_pool retained (fun _ held => held.1.sound) ⟨held, mine⟩).mono
    fun pool s allocated => ?_)
  obtain ⟨held, spare⟩ := allocated
  cases pool with
  | none => exact held.1
  | some newPool =>
      have retained := retained.and (spare_retained newPool)
      refine wp.bind (wp_pool_look retained ⟨held, spare newPool rfl⟩ fun s held => ?_)
      split
      · trivial
      · rename_i notReady
        have retained := retained.and fun before after (kept : before.Kept w after)
          (h : (before.relays w).dpdk.state ≠ .ready) ready => h (kept.ready.mp ready)
        refine wp.bind (wp_pool_look retained ⟨held, notReady⟩ fun s held => ?_)
        split
        · trivial
        · obtain ⟨⟨⟨held, same⟩, spare⟩, notReady⟩ := held
          refine swapMempool_wp_pool infoGet txSetup ⟨held.sound.fresh, spare.1, spare.2.1,
            notReady, fun added => ?_⟩ held.sound spare
          rcases held.backed with off | ⟨hu, small, _⟩
          · exact absurd added off.1
          · rw [same] at small ⊢
            exact ⟨hu, (Nat.mod_eq_of_lt small).symm, Nat.mod_lt _ (by decide)⟩

end Swapping

end VirtioForwarder
