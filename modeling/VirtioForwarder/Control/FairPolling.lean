import Mathlib.Data.List.Rotate
import VirtioForwarder.Control.RoundRobin

/-! Fair polling of the TX queues: `virtio_rx` goes through the enabled pairs in cyclic order, so
as many calls as there are enabled pairs poll each of them once.
-/

namespace VirtioForwarder

open Bits

/-- The enabled TX pairs that the scan goes through, in increasing order. -/
def enabledPairs (bitmap : BitVec 64) (maxQueuePairs : Nat) : List Nat :=
  (List.range maxQueuePairs).filter bitmap.getLsbD

/-- The next enabled pair after a position in cyclic order: of the enabled pairs it takes the
fewest steps to reach, going around if need be. The position itself is the last one.
-/
structure NextEnabled (bitmap : BitVec 64) (maxQueuePairs rr next : Nat) : Prop where
  below : next < maxQueuePairs
  enabled : bitmap.getLsbD next = true
  nearest : ∀ pair < maxQueuePairs, bitmap.getLsbD pair = true
    → roundsTo maxQueuePairs next rr ≤ roundsTo maxQueuePairs pair rr

/-- One round of the scan. -/
theorem roundsTo_step {maxQueuePairs pair rr : Nat} (position : rr < maxQueuePairs)
    (below : pair < maxQueuePairs)
    : roundsTo maxQueuePairs pair rr
      = if pair = (if rr + 1 ≥ maxQueuePairs then 0 else rr + 1) then 1
        else roundsTo maxQueuePairs pair (if rr + 1 ≥ maxQueuePairs then 0 else rr + 1) + 1 := by
  unfold roundsTo
  grind

theorem roundsTo_injective {maxQueuePairs rr pair other : Nat} (position : rr < maxQueuePairs)
    (below : pair < maxQueuePairs) (otherBelow : other < maxQueuePairs)
    (same : roundsTo maxQueuePairs pair rr = roundsTo maxQueuePairs other rr)
    : pair = other := by
  unfold roundsTo at same
  grind

/-- The scan ends at the next enabled pair, by induction on its rounds. -/
theorem advanceTxQRr_nearest {bitmap : BitVec 64} {maxQueuePairs rounds rr next : Nat}
    (position : rr < maxQueuePairs)
    (h : advanceTxQRr bitmap maxQueuePairs rounds rr = some next)
    : NextEnabled bitmap maxQueuePairs rr next := by
  obtain ⟨below, enabled⟩ := enabled_of_advanceTxQRr h
  have below : next < maxQueuePairs := by omega
  refine ⟨below, enabled, fun pair pairBelow pairEnabled => ?_⟩
  induction rounds generalizing rr with
  | zero => cases h
  | succ rounds ih =>
      unfold advanceTxQRr at h
      dsimp only at h
      have nextPosition : (if rr + 1 ≥ maxQueuePairs then 0 else rr + 1) < maxQueuePairs := by
        split
        · omega
        · omega
      rw [roundsTo_step position below, roundsTo_step position pairBelow]
      generalize (if rr + 1 ≥ maxQueuePairs then 0 else rr + 1) = visited at h nextPosition ⊢
      by_cases here : bitmap.getLsbD visited = true
      · rw [if_pos here] at h
        cases h
        rw [if_pos rfl]
        split
        · exact Nat.le_refl 1
        · omega
      · rw [if_neg here] at h
        have away : ¬ pair = visited := by
          rintro rfl
          exact here pairEnabled
        have nextAway : ¬ next = visited := by
          rintro rfl
          exact here enabled
        rw [if_neg away, if_neg nextAway]
        exact Nat.succ_le_succ (ih nextPosition h)

-----------------------------------------------------------------------------------------
-- Rounds
-----------------------------------------------------------------------------------------

theorem mem_enabledPairs {bitmap : BitVec 64} {maxQueuePairs pair : Nat}
    : pair ∈ enabledPairs bitmap maxQueuePairs
      ↔ pair < maxQueuePairs ∧ bitmap.getLsbD pair = true := by
  simp [enabledPairs]

theorem enabledPairs_pairwise (bitmap : BitVec 64) (maxQueuePairs : Nat)
    : (enabledPairs bitmap maxQueuePairs).Pairwise (· < ·) :=
  List.pairwise_lt_range.filter _

/-- The next enabled pair after an enabled pair is the next one of the list, going around. -/
theorem NextEnabled.eq_getElem {bitmap : BitVec 64} {maxQueuePairs rr next index : Nat}
    (h : NextEnabled bitmap maxQueuePairs rr next)
    (at_index : (enabledPairs bitmap maxQueuePairs)[index]? = some rr)
    : (enabledPairs bitmap maxQueuePairs)[(index + 1)
        % (enabledPairs bitmap maxQueuePairs).length]? = some next := by
  have increasing := List.pairwise_iff_getElem.mp (enabledPairs_pairwise bitmap maxQueuePairs)
  have listed (pair : Nat) (mem : pair ∈ enabledPairs bitmap maxQueuePairs)
      : pair < maxQueuePairs ∧ bitmap.getLsbD pair = true := mem_enabledPairs.mp mem
  have next_mem : next ∈ enabledPairs bitmap maxQueuePairs :=
    mem_enabledPairs.mpr ⟨h.below, h.enabled⟩
  generalize enabledPairs bitmap maxQueuePairs = pairs at *
  obtain ⟨inside, rr_eq⟩ := List.getElem?_eq_some_iff.mp at_index
  have position : rr < maxQueuePairs := (listed rr (rr_eq ▸ List.getElem_mem inside)).1
  have candidate : (index + 1) % pairs.length < pairs.length := Nat.mod_lt _ (by omega)
  have candidate_listed := listed _ (List.getElem_mem candidate)
  -- No enabled pair is nearer than the next one of the list.
  have nearest : roundsTo maxQueuePairs pairs[(index + 1) % pairs.length] rr
      ≤ roundsTo maxQueuePairs next rr := by
    obtain ⟨other, otherInside, rfl⟩ := List.getElem_of_mem next_mem
    have ordered {i j : Nat} (hi : i < pairs.length) (hj : j < pairs.length) (le : i ≤ j)
        : pairs[i] ≤ pairs[j] := by
      rcases Nat.lt_or_eq_of_le le with less | rfl
      · exact Nat.le_of_lt (increasing i j hi hj less)
      · exact Nat.le_refl _
    subst rr_eq
    by_cases last : index + 1 < pairs.length
    · have later := increasing index (index + 1) inside last (Nat.lt_succ_self index)
      simp only [Nat.mod_eq_of_lt last] at candidate_listed ⊢
      rw [roundsTo, if_pos later, roundsTo]
      rcases Nat.lt_or_ge index other with after | before
      · have further := ordered last otherInside after
        rw [if_pos (Nat.lt_of_lt_of_le later further)]
        omega
      · have earlier := ordered otherInside inside before
        rw [if_neg (by omega), if_pos position]
        omega
    · have around : (index + 1) % pairs.length = 0 := by
        rw [show index + 1 = pairs.length by omega, Nat.mod_self]
      have first := ordered (i := 0) (by omega) otherInside (Nat.zero_le other)
      have before := ordered otherInside inside (by omega)
      simp only [around]
      rw [roundsTo, if_neg (by omega), if_pos position, roundsTo, if_neg (by omega),
        if_pos position]
      omega
  refine List.getElem?_eq_some_iff.mpr ⟨candidate, ?_⟩
  exact roundsTo_injective position candidate_listed.1 h.below
    (Nat.le_antisymm nearest (h.nearest _ candidate_listed.1 candidate_listed.2))

-----------------------------------------------------------------------------------------
-- Calls
-----------------------------------------------------------------------------------------

/-- The queues that the calls of a trace have dequeued from. -/
def dequeuedFrom (actions : List Action) : List Nat :=
  actions.filterMap fun
    | .dequeueBurst queue _ => some queue
    | _ => none

/-- What `virtio_rx` reads of the queues of a ready guest is left as it is. -/
structure Relay.SamePolling (before after : Relay) : Prop where
  state : after.vio.state = before.vio.state
  txQBitmap : after.vio.txQBitmap = before.vio.txQBitmap
  maxQueuePairs : after.vio.maxQueuePairs = before.vio.maxQueuePairs
  txQRr : after.vio.txQRr = before.vio.txQRr

/-- Consecutive calls of `virtio_rx`, with the queues they dequeue from. Between the calls the
relay may change otherwise.
-/
inductive PollRun (start : Relay) : Nat → List Nat → Relay → Prop
  | start : PollRun start 0 [] start
  | between {calls : Nat} {queues : List Nat} {relay after : Relay}
    (run : PollRun start calls queues relay) (same : relay.SamePolling after)
    : PollRun start calls queues after
  | call {calls : Nat} {queues : List Nat} {relay : Relay}
    (run : PollRun start calls queues relay) (io : VmToVfIO) {out : Outcome}
    (returned : virtioRx relay io = .ok out)
    : PollRun start (calls + 1) (queues ++ dequeuedFrom out.actions) out.relay

/-- A ready guest with a TX pair below a valid number of pairs. -/
structure Relay.Polling (relay : Relay) (bitmap : BitVec 64) (maxQueuePairs : Nat) : Prop where
  ready : relay.vio.state = .ready
  txQBitmap : relay.vio.txQBitmap = bitmap
  pairs : relay.vio.maxQueuePairs = maxQueuePairs
  position : relay.vio.txQRr < maxQueuePairs

/-- One call. -/
theorem virtioRx_polls {relay : Relay} {bitmap : BitVec 64} {maxQueuePairs : Nat} {io : VmToVfIO}
    {out : Outcome} (polling : relay.Polling bitmap maxQueuePairs)
    (returned : virtioRx relay io = .ok out)
    : out.relay.Polling bitmap maxQueuePairs
      ∧ NextEnabled bitmap maxQueuePairs relay.vio.txQRr out.relay.vio.txQRr
      ∧ dequeuedFrom out.actions
        = if bitmap.getLsbD relay.vio.txQRr then [2 * relay.vio.txQRr + 1] else [] := by
  obtain ⟨ready, rfl, rfl, position⟩ := polling
  unfold virtioRx at returned
  dsimp only at returned
  rw [if_neg (not_not.mpr ready)] at returned
  split at returned
  · cases returned
  · rename_i next ended
    cases returned
    have nearest := advanceTxQRr_nearest position ended
    refine ⟨⟨ready, rfl, rfl, nearest.below⟩, nearest, ?_⟩
    split
    · simp [dequeuedFrom, Nat.mul_comm]
    · rfl

theorem Relay.Polling.congr {before after : Relay} {bitmap : BitVec 64} {maxQueuePairs : Nat}
    (polling : before.Polling bitmap maxQueuePairs) (same : before.SamePolling after)
    : after.Polling bitmap maxQueuePairs :=
  ⟨same.state.trans polling.ready, same.txQBitmap.trans polling.txQBitmap,
    same.maxQueuePairs.trans polling.pairs, same.txQRr ▸ polling.position⟩

/-- After a number of calls that begin at an enabled pair, the enabled pairs after it have been
polled in turn, and the position is the next one.
-/
theorem PollRun.polled {start relay : Relay} {bitmap : BitVec 64} {maxQueuePairs index calls : Nat}
    {queues : List Nat} (polling : start.Polling bitmap maxQueuePairs)
    (begins : (enabledPairs bitmap maxQueuePairs)[index]? = some start.vio.txQRr)
    (run : PollRun start calls queues relay)
    : let pairs := enabledPairs bitmap maxQueuePairs
      relay.Polling bitmap maxQueuePairs
      ∧ pairs[(index + calls) % pairs.length]? = some relay.vio.txQRr
      ∧ queues = (List.range calls).map fun call =>
          2 * pairs.getD ((index + call) % pairs.length) 0 + 1 := by
  intro pairs
  induction run with
  | start =>
      obtain ⟨inside, _⟩ := List.getElem?_eq_some_iff.mp begins
      refine ⟨polling, ?_, rfl⟩
      rw [Nat.add_zero, Nat.mod_eq_of_lt inside]
      exact begins
  | between _ same ih =>
      obtain ⟨polling, position, queues⟩ := ih
      exact ⟨polling.congr same, same.txQRr ▸ position, queues⟩
  | @call calls queues relay _ io out returned ih =>
      obtain ⟨polling, position, polled⟩ := ih
      obtain ⟨after, next, dequeued⟩ := virtioRx_polls polling returned
      have enabled : bitmap.getLsbD relay.vio.txQRr = true :=
        (mem_enabledPairs.mp (List.mem_of_getElem? position)).2
      refine ⟨after, ?_, ?_⟩
      · have advanced := next.eq_getElem position
        rwa [Nat.mod_add_mod, Nat.add_assoc] at advanced
      · have here : pairs.getD ((index + calls) % pairs.length) 0 = relay.vio.txQRr := by
          rw [List.getD_eq_getElem?_getD, position, Option.getD_some]
        rw [dequeued, if_pos enabled, polled, List.range_succ, List.map_append, List.map_singleton,
          here]

theorem map_range_rotate (pairs : List Nat) (index : Nat)
    : (List.range pairs.length).map (fun call => pairs.getD ((index + call) % pairs.length) 0)
      = pairs.rotate index := by
  refine List.ext_getElem (by simp) fun call inside _ => ?_
  have below : (index + call) % pairs.length < pairs.length :=
    Nat.mod_lt _ (by simp at inside; omega)
  rw [List.getElem_map, List.getElem_range, List.getElem_rotate, List.getD_eq_getElem _ _ below]
  simp only [Nat.add_comm]

/-- Every call of `virtio_rx` returns, dequeues only from the queue of its position if that pair
is enabled, and goes on to the next enabled pair in cyclic order. As many calls as there are
enabled pairs, from an enabled pair on, poll each enabled pair once.
-/
theorem tx_queues_are_polled_fairly {relay : Relay} {bitmap : BitVec 64} {maxQueuePairs : Nat}
    (polling : relay.Polling bitmap maxQueuePairs)
    (some_pair : ∃ pair < maxQueuePairs, bitmap.getLsbD pair = true)
    : (∀ io, ∃ out, virtioRx relay io = .ok out
        ∧ (∀ action ∈ out.actions, ∃ pkts,
            action = .dequeueBurst (2 * relay.vio.txQRr + 1) pkts
            ∧ bitmap.getLsbD relay.vio.txQRr = true)
        ∧ NextEnabled bitmap maxQueuePairs relay.vio.txQRr out.relay.vio.txQRr
        ∧ out.relay.Polling bitmap maxQueuePairs)
      ∧ (bitmap.getLsbD relay.vio.txQRr = true
        → ∀ queues after,
          PollRun relay (enabledPairs bitmap maxQueuePairs).length queues after
          → queues.Perm
              ((enabledPairs bitmap maxQueuePairs).map fun pair => 2 * pair + 1)) := by
  constructor
  · intro io
    obtain ⟨pair, below, enabled⟩ := some_pair
    have scanned : relay.vio.TxEnabled := by
      refine ⟨pair, ?_, ?_⟩
      · rw [polling.pairs]
        omega
      · rwa [polling.txQBitmap]
    obtain ⟨out, returned⟩ := virtioRx_returns scanned io
    obtain ⟨after, next, dequeued⟩ := virtioRx_polls polling returned
    refine ⟨out, returned, fun action mem => ?_, next, after⟩
    rcases virtioRx_cases returned with ⟨unready, _⟩ | ⟨_, pkts, _, _, _, actions, _⟩
    · exact absurd polling.ready unready
    · rcases actions with actions | ⟨actions, _⟩
      · rw [actions] at mem dequeued
        obtain rfl := List.mem_singleton.mp mem
        have enabled : bitmap.getLsbD relay.vio.txQRr = true := by
          by_contra disabled
          rw [if_neg disabled] at dequeued
          cases dequeued
        exact ⟨pkts, by rw [Nat.mul_comm], enabled⟩
      · rw [actions] at mem
        cases mem
  · intro enabled queues after run
    have listed : relay.vio.txQRr ∈ enabledPairs bitmap maxQueuePairs :=
      mem_enabledPairs.mpr ⟨polling.position, enabled⟩
    obtain ⟨index, begins⟩ := List.mem_iff_getElem?.mp listed
    obtain ⟨_, _, polled⟩ := run.polled polling begins
    have turns := congrArg (List.map fun pair => 2 * pair + 1)
      (map_range_rotate (enabledPairs bitmap maxQueuePairs) index)
    rw [List.map_map] at turns
    rw [polled]
    exact (List.Perm.of_eq turns).trans ((List.rotate_perm ..).map _)

/-- A ready guest with the pairs 0 and 2 of four enabled. -/
def twoTxPairs : Relay :=
  let relay := Relay.initial 0 0 false
  { relay with
    vio := { relay.vio with state := .ready, maxQueuePairs := 4, txQBitmap := 5 } }

/-- Witness: two calls poll the two pairs. -/
theorem two_tx_pairs_are_polled
    : ∃ queues after, PollRun twoTxPairs 2 queues after ∧ queues.Perm [1, 5] := by
  have polling : twoTxPairs.Polling 5 4 := ⟨rfl, rfl, rfl, by decide⟩
  have pair : ∃ pair < 4, (5 : BitVec 64).getLsbD pair = true := ⟨0, by decide, by decide⟩
  have fair := tx_queues_are_polled_fairly polling pair
  obtain ⟨first, returned, _, _, still⟩ := fair.1 ⟨[], 0⟩
  obtain ⟨second, again, _⟩ := (tx_queues_are_polled_fairly still pair).1 ⟨[], 0⟩
  have run := (PollRun.start.call _ returned).call _ again
  exact ⟨_, _, run, fair.2 (by decide) _ _ run⟩

end VirtioForwarder
