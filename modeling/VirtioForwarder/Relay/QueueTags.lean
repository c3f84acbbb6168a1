import VirtioForwarder.Relay.FlowOrder

/-! Queue tags across ring notifications.
Tags are written once, when a burst is received, and read in later iterations, when the
guest may have enabled or disabled queue pairs.
-/

namespace VirtioForwarder

open Bits Grouping

/-- The tag of a packet was written by `calc_mbuf_queue` and is below `active`. -/
def Mbuf.TaggedBelow (pkt : Mbuf) (active : Nat) : Prop :=
  ∃ q, pkt.fdirId = .queue q ∧ q < active

/-- The packets that the next `virtio_tx` would batch carry valid tags. -/
def Relay.TagsValid (relay : Relay) : Prop :=
  relay.vio.state = .ready
  → relay.vio.rxQBitmap > 1
  → ∀ io rx, fetchFromVf relay io = .ok rx
    → ∀ pkt ∈ rx.relay.dpdk.rxPkts.window, pkt.TaggedBelow relay.vio.rxQActive

/-- The packets still buffered when a notification leaves several pairs enabled carry tags
that are valid afterwards.
-/
def BufferedTagsFit (relay : Relay) (change : VringChange) : Prop :=
  (vringStateChange relay change.queueId change.enable).vio.rxQBitmap > 1
  → ∀ pkt ∈ relay.dpdk.rxPkts.window,
    pkt.TaggedBelow (vringStateChange relay change.queueId change.enable).vio.rxQActive

/-- Ring notifications that satisfy `allowed` and leave the first `k ≥ 1` pairs enabled,
iterations of `relay_vf2vm_traffic`, and steps of the other threads, in any order.
-/
inductive TagRun (allowed : Relay → VringChange → Prop) (start : Relay) : Relay → Prop
  | start : TagRun allowed start start
  | vring {relay : Relay} (run : TagRun allowed start relay) (change : VringChange)
    (valid : change.queueId < 2 * maxMultiqueuePairs)
    (enabled : ∃ k ≥ 1,
      setBits (vringStateChange relay change.queueId change.enable).vio.rxQBitmap
        = List.range k)
    (ok : allowed relay change)
    : TagRun allowed start (vringStateChange relay change.queueId change.enable)
  | vf2vm {relay : Relay} (run : TagRun allowed start relay) (io : VfToVmIO) {out : Outcome}
    (returned : relayVf2vmTraffic relay io = .ok out)
    : TagRun allowed start out.relay
  | others {relay : Relay} (run : TagRun allowed start relay) {after : Relay}
    (same : relay.SameQueues after)
    : TagRun allowed start after

/-- Sending puts no packet into the cache. -/
theorem sendToVm_window_subset {relay : Relay} {io : VfToVmIO} {tx : Outcome}
    (sent : sendToVm relay io = .ok tx)
    : tx.relay.dpdk.rxPkts.window ⊆ relay.dpdk.rxPkts.window := by
  unfold sendToVm at sent
  split at sent
  · rcases virtioTx_cases sent with ⟨_, rfl⟩ | ⟨_, _, effect⟩ | ⟨_, _, effect⟩
    · exact List.Subset.refl _
    · rw [effect.window]
      intro pkt member
      obtain ⟨q, _, left⟩ := List.mem_flatMap.mp member
      exact (mem_group.mp (List.mem_of_mem_drop (List.mem_reverse.mp left))).1
    · rw [effect.relay_eq]
      simp only [Relay.setRxPkts, PktCache.window_advance _ effect.le_avail]
      exact List.drop_subset ..
  · cases Except.ok.inj sent
    exact List.Subset.refl _

/-- After an iteration only packets of the fetched window are buffered. -/
theorem relayVf2vmTraffic_window_subset {relay : Relay} {io : VfToVmIO} {out : Outcome}
    (returned : relayVf2vmTraffic relay io = .ok out)
    : ∃ rx, fetchFromVf relay io = .ok rx
        ∧ out.relay.dpdk.rxPkts.window ⊆ rx.relay.dpdk.rxPkts.window := by
  obtain ⟨rx, tx, fetched, sent, after, _⟩ := relayVf2vmTraffic_parts returned
  obtain ⟨_, _, dropWindow⟩ := dropRxPkts_frees tx.relay tx.ret
  obtain ⟨_, _, removeWindow⟩ :=
    finishVirtioRemoval_frees (dropRxPkts tx.relay tx.ret).relay
  have narrow {inner outer : List Mbuf} (window : inner = outer ∨ inner = [])
      : inner ⊆ outer := by
    rcases window with rfl | rfl
    · exact List.Subset.refl _
    · exact List.nil_subset _
  refine ⟨rx, fetched, ?_⟩
  rw [after, releaseVf_eq]
  exact List.Subset.trans (narrow removeWindow)
    (List.Subset.trans (narrow dropWindow) (sendToVm_window_subset sent))

/-- The queue tables of a relay whose enabled pairs are a prefix, with the buffered tags. -/
structure Relay.TagInv (relay : Relay) : Prop where
  pairs : ∀ pair, relay.vio.rxQBitmap.getLsbD pair = true → pair < maxMultiqueuePairs
  queues : relay.vio.rxQBitmap > 1 → ∃ k, relay.FixedQueues k
  tags
    : relay.vio.rxQBitmap > 1
      → ∀ pkt ∈ relay.dpdk.rxPkts.window, pkt.TaggedBelow relay.vio.rxQActive

/-- Whatever is fetched carries valid tags: leftovers by the invariant, a new burst because
the table maps into the enabled pairs.
-/
theorem Relay.TagInv.fetched {relay : Relay} (h : relay.TagInv)
    (multi : relay.vio.rxQBitmap > 1) {io : VfToVmIO} {rx : Outcome}
    (fetched : fetchFromVf relay io = .ok rx)
    : ∀ pkt ∈ rx.relay.dpdk.rxPkts.window, pkt.TaggedBelow relay.vio.rxQActive := by
  intro pkt member
  obtain ⟨k, tables, enabled⟩ := h.queues multi
  rw [fetchFromVf_window tables multi fetched, pendingPkts] at member
  split at member
  · exact h.tags multi pkt member
  · split at member
    · obtain ⟨raw, _, rfl⟩ := List.mem_map.mp member
      have count : relay.vio.rxQActive = k := by
        rw [tables.active, popcount, enabled, List.length_range]
      have selected := mem_setBits.mpr (tables.tag_enabled multi raw)
      rw [enabled, List.mem_range, ← count] at selected
      exact ⟨_, rfl, selected⟩
    · cases member

/-- Every run from an initialized relay whose notifications fit the buffered packets keeps
the invariant. Witness: induction on the run.
-/
theorem TagRun.tagInv {id : Nat} {socketId : Int} {useJumbo : Bool} {relay : Relay}
    (run : TagRun BufferedTagsFit (.initial id socketId useJumbo) relay)
    : relay.TagInv := by
  induction run with
  | start =>
      have none : ¬ (Relay.initial id socketId useJumbo).vio.rxQBitmap > 1 := by
        simp [Relay.initial]
      exact ⟨by simp [Relay.initial], fun multi => absurd multi none,
        fun multi => absurd multi none⟩
  | @vring relay _ change valid enabled ok ih =>
      have tables : (vringStateChange relay change.queueId change.enable).vio.QueueTables :=
        vringStateChange_tables ih.pairs valid
      obtain ⟨k, _, first⟩ := enabled
      exact ⟨tables.pairs, fun _ => ⟨k, tables, first⟩, ok⟩
  | vf2vm _ io returned ih =>
      obtain ⟨rx, fetched, subset⟩ := relayVf2vmTraffic_window_subset returned
      have same := (relayVf2vmTraffic_effect returned).setup.sameTables
      refine ⟨?_, ?_, ?_⟩
      · rw [same.bitmap]
        exact ih.pairs
      · rw [same.bitmap]
        exact fun multi => (ih.queues multi).imp fun _ fixed => fixed.congr same
      · rw [same.bitmap, same.active]
        exact fun multi pkt member => ih.fetched multi fetched pkt (subset member)
  | others _ same ih =>
      obtain ⟨same, rxPkts⟩ := same
      refine ⟨?_, ?_, ?_⟩
      · rw [same.bitmap]
        exact ih.pairs
      · rw [same.bitmap]
        exact fun multi => (ih.queues multi).imp fun _ fixed => fixed.congr same
      · rw [same.bitmap, same.active]
        rcases rxPkts with kept | empty
        · rw [kept]
          exact ih.tags
        · rw [PktCache.window_eq_nil empty]
          exact fun _ pkt member => absurd member List.not_mem_nil

/-- Queue tags across ring notifications: in every run that starts with an initialized relay
and keeps a prefix of the pairs enabled, the packets batched by `virtio_tx` carry valid
tags, provided that each notification fits the packets buffered at that moment.
-/
theorem queue_tags_valid_of_fitting_changes {id : Nat} {socketId : Int} {useJumbo : Bool}
    {relay : Relay} (run : TagRun BufferedTagsFit (.initial id socketId useJumbo) relay)
    : relay.TagsValid :=
  fun _ multi _ _ fetched => run.tagInv.fetched multi fetched

/-- Both sides become ready. -/
def Relay.bothReady (relay : Relay) : Relay := (relay.setVioState .ready).setDpdkState .ready

theorem TagRun.bothReady {allowed : Relay → VringChange → Prop} {start relay : Relay}
    (run : TagRun allowed start relay)
    : TagRun allowed start relay.bothReady :=
  run.others ⟨⟨rfl, rfl, rfl, rfl⟩, Or.inl rfl⟩

/-- Two pairs are enabled, a packet is received and stays in the cache, and the guest then
enables a third pair.
-/
theorem queue_tags_valid_for_growing_guest
    : ∃ relay,
        TagRun BufferedTagsFit (.initial 0 0 false) relay
        ∧ relay.dpdk.rxPkts.avail = 1
        ∧ relay.vio.rxQActive = 3
        ∧ relay.TagsValid := by
  have noPkts {relay : Relay} {change : VringChange} (empty : relay.dpdk.rxPkts.avail = 0)
      : BufferedTagsFit relay change := by
    intro _ pkt member
    rw [PktCache.window_eq_nil empty] at member
    cases member
  have one : TagRun BufferedTagsFit (.initial 0 0 false) _ :=
    TagRun.start.vring ⟨0, true⟩ (by decide) ⟨1, Nat.le_refl 1, by decide⟩ (noPkts rfl)
  have two := one.vring ⟨2, true⟩ (by decide) ⟨2, by decide, by decide⟩ (noPkts rfl)
  have left := two.bothReady.vf2vm ⟨1, [⟨1, 64, 0, .driver 7⟩], fun _ => 0⟩
    (eq_ok_outcomeOf (by decide +kernel))
  have run := left.vring ⟨4, true⟩ (by decide) ⟨3, by decide, by decide +kernel⟩ (by
    intro _ pkt member
    obtain ⟨q, tag, below⟩ := left.tagInv.tags (by decide +kernel) pkt member
    exact ⟨q, tag, Nat.lt_trans below (by decide +kernel)⟩)
  exact ⟨_, run, by decide +kernel, by decide +kernel, queue_tags_valid_of_fitting_changes run⟩

/-- One pair is enabled and a packet stays in the cache, untagged, because the guest's ring
is full; the guest then enables a second pair, and the packet is batched with the tag that
the driver left in it.
-/
theorem queue_tags_invalid_for_untagged_leftover
    : ¬ ∀ relay, TagRun (fun _ _ => True) (.initial 0 0 false) relay → relay.TagsValid := by
  intro claim
  have one : TagRun (fun _ _ => True) (.initial 0 0 false) _ :=
    TagRun.start.vring ⟨0, true⟩ (by decide) ⟨1, Nat.le_refl 1, by decide⟩ trivial
  have left := one.bothReady.vf2vm ⟨1, [⟨1, 64, 0, .driver 7⟩], fun _ => 0⟩
    (eq_ok_outcomeOf (by decide +kernel))
  have run := left.vring ⟨2, true⟩ (by decide) ⟨2, by decide, by decide +kernel⟩ trivial
  obtain ⟨q, tag, _⟩ := claim _ run (by decide +kernel) (by decide +kernel)
    ⟨0, [], fun _ => 0⟩ (.skip _) rfl ⟨1, 64, 0, .driver 7⟩ (by decide +kernel)
  cases tag

end VirtioForwarder
