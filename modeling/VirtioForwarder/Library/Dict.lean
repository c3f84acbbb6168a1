import Mathlib.Algebra.BigOperators.Group.List.Basic
import Mathlib.Data.List.MinMax
import Mathlib.Data.List.Sort

/-! Dictionaries as Python programs handle them, with the entries in the order of their insertion,
and sums that are kept per key. What a list of charges adds up to does not depend on its order.
-/

namespace Python

variable {α β γ : Type}

/-- `sorted(items, key=key)`, which is stable. -/
def sorted [LE β] [DecidableLE β] (key : α → β) (items : List α) : List α :=
  items.mergeSort fun a b => key a ≤ key b

/-- `sorted(items, key=key, reverse=True)`, which is stable as well. -/
def sortedReverse [LE β] [DecidableLE β] (key : α → β) (items : List α) : List α :=
  items.mergeSort fun a b => key b ≤ key a

theorem sorted_perm [LE β] [DecidableLE β] (key : α → β) (items : List α)
    : (sorted key items).Perm items :=
  List.mergeSort_perm ..

theorem sortedReverse_perm [LE β] [DecidableLE β] (key : α → β) (items : List α)
    : (sortedReverse key items).Perm items :=
  List.mergeSort_perm ..

theorem sorted_pairwise [LinearOrder β] (key : α → β) (items : List α)
    : (sorted key items).Pairwise fun a b => key a ≤ key b := by
  have trans (a b c : α) (first : decide (key a ≤ key b)) (second : decide (key b ≤ key c))
      : decide (key a ≤ key c) :=
    decide_eq_true (le_trans (of_decide_eq_true first) (of_decide_eq_true second))
  have total (a b : α) : decide (key a ≤ key b) || decide (key b ≤ key a) := by
    simp [le_total]
  exact (List.pairwise_mergeSort trans total items).imp of_decide_eq_true

/-- The values by which items are sorted do not depend on the order they had before. -/
theorem map_sortedReverse [LinearOrder β] (key : α → β) {items others : List α}
    (perm : items.Perm others)
    : (sortedReverse key items).map key = (sortedReverse key others).map key := by
  have descending (items : List α)
      : ((sortedReverse key items).map key).Pairwise fun a b => b ≤ a :=
    List.pairwise_map.mpr (sorted_pairwise (fun item => OrderDual.toDual (key item)) items)
  refine List.Perm.eq_of_pairwise (fun a b _ _ above below => le_antisymm below above)
    (descending items) (descending others) ?_
  exact ((sortedReverse_perm key items).trans
    (perm.trans (sortedReverse_perm key others).symm)).map key

/-- A sequence without an exception. -/
theorem of_bind_ok {ε : Type} {first : Except ε α} {next : α → Except ε β} {b : β}
    (h : first >>= next = .ok b)
    : ∃ a, first = .ok a ∧ next a = .ok b := by
  cases first with
  | error e => cases h
  | ok a => exact ⟨a, rfl, h⟩

theorem of_bind_error {ε : Type} {first : Except ε α} {next : α → Except ε β} {error : ε}
    (h : first >>= next = .error error)
    : first = .error error ∨ ∃ a, first = .ok a ∧ next a = .error error := by
  cases first with
  | error e =>
      cases h
      exact Or.inl rfl
  | ok a => exact Or.inr ⟨a, rfl, h⟩

/-- A dictionary. -/
@[ext]
structure Dict (α β : Type) where
  entries : List (α × β)
  distinct : (entries.map Prod.fst).Nodup

namespace Dict

def empty : Dict α β := ⟨[], List.nodup_nil⟩

def keys (d : Dict α β) : List α := d.entries.map Prod.fst

def values (d : Dict α β) : List β := d.entries.map Prod.snd

/-- Another value for every key. -/
def mapValues (d : Dict α β) (f : α → β → γ) : Dict α γ where
  entries := d.entries.map fun entry => (entry.1, f entry.1 entry.2)
  distinct := by simpa [Function.comp_def] using d.distinct

section

variable [DecidableEq α]

/-- `d.get(key)`. -/
def get? (d : Dict α β) (key : α) : Option β :=
  (d.entries.find? fun entry => entry.1 = key).map Prod.snd

/-- `d[key] = value`: a new key comes last. -/
def set (d : Dict α β) (key : α) (value : β) : Dict α β :=
  if h : key ∈ d.keys then d.mapValues fun other old => if other = key then value else old
  else
    { entries := d.entries ++ [(key, value)]
      distinct := by
        rw [List.map_append]
        exact d.distinct.append (List.nodup_singleton key) (by simpa [keys] using h) }

/-- `{key: value for key in keys}`. -/
def fromKeys (keys : List α) (value : β) : Dict α β :=
  keys.foldl (fun d key => d.set key value) empty

/-- `d.update(other)`. -/
def update (d other : Dict α β) : Dict α β :=
  other.entries.foldl (fun d entry => d.set entry.1 entry.2) d

/-- `d[key] += amount`; `none` is a `KeyError`. -/
def addTo [Add β] (d : Dict α β) (key : α) (amount : β) : Option (Dict α β) :=
  if key ∈ d.keys then
    some (d.mapValues fun other old => if other = key then old + amount else old)
  else none

/-- `d[key] += amount` for a list of charges. -/
def charge [Add β] (d : Dict α β) : List (α × β) → Option (Dict α β)
  | [] => some d
  | (key, amount) :: charges => do (← d.addTo key amount).charge charges

end

/-- `min(d, key=d.get)`: the first key with the least value; `none` is a `ValueError`. -/
def leastKey [LinearOrder β] (d : Dict α β) : Option α :=
  (d.entries.argmin Prod.snd).map Prod.fst

@[simp] theorem keys_mapValues (d : Dict α β) (f : α → β → γ) : (d.mapValues f).keys = d.keys := by
  simp [keys, mapValues, Function.comp_def]

theorem mapValues_mapValues {δ : Type} (d : Dict α β) (f : α → β → γ) (g : α → γ → δ)
    : (d.mapValues f).mapValues g = d.mapValues fun key value => g key (f key value) := by
  ext1
  simp [mapValues, Function.comp_def]

theorem mapValues_id (d : Dict α β) : (d.mapValues fun _ value => value) = d := by
  ext1
  simp [mapValues]

theorem leastKey_mem [LinearOrder β] {d : Dict α β} {key : α} (h : d.leastKey = some key)
    : key ∈ d.keys := by
  obtain ⟨entry, least, rfl⟩ := Option.map_eq_some_iff.mp h
  exact List.mem_map_of_mem (List.argmin_mem (Option.mem_def.mpr least))

theorem leastKey_isSome [LinearOrder β] {d : Dict α β} (h : d.keys ≠ [])
    : ∃ key, d.leastKey = some key := by
  have some_least : d.entries.argmin Prod.snd ≠ none := by
    rw [Ne, List.argmin_eq_none]
    simpa [keys] using h
  obtain ⟨entry, least⟩ := Option.ne_none_iff_exists'.mp some_least
  exact ⟨entry.1, by simp [leastKey, least]⟩

/-- The least key has a value that is least among all. -/
theorem leastKey_le [LinearOrder β] {d : Dict α β} {key : α} (h : d.leastKey = some key)
    : ∃ value, (key, value) ∈ d.entries ∧ ∀ other ∈ d.values, value ≤ other := by
  obtain ⟨⟨_, value⟩, least, rfl⟩ := Option.map_eq_some_iff.mp h
  refine ⟨value, List.argmin_mem (Option.mem_def.mpr least), ?_⟩
  rintro other listed
  obtain ⟨entry, mem, rfl⟩ := List.mem_map.mp listed
  exact List.le_of_mem_argmin mem (Option.mem_def.mpr least)

section

variable [DecidableEq α]

theorem mem_keys_set {d : Dict α β} {key other : α} {value : β}
    : other ∈ (d.set key value).keys ↔ other ∈ d.keys ∨ other = key := by
  unfold set
  split
  · rename_i present
    rw [keys_mapValues]
    exact ⟨Or.inl, fun h => h.elim id fun same => same ▸ present⟩
  · simp [keys]

theorem mem_keys_fromKeys {keys : List α} {value : β} {key : α}
    : key ∈ (fromKeys keys value).keys ↔ key ∈ keys := by
  have grown (d : Dict α β)
      : key ∈ (keys.foldl (fun d key => d.set key value) d).keys ↔ key ∈ d.keys ∨ key ∈ keys := by
    induction keys generalizing d with
    | nil => simp
    | cons first rest ih => simp [ih, mem_keys_set, or_assoc]
  simpa [fromKeys, Dict.keys, empty] using grown empty

/-- Every key of `fromKeys` has the given value. -/
theorem mem_values_fromKeys {keys : List α} {value other : β}
    (mem : other ∈ (fromKeys keys value).values)
    : other = value := by
  have grown (more : List α) (d : Dict α β) (all : ∀ old ∈ d.values, old = value)
      : ∀ other ∈ (more.foldl (fun d key => d.set key value) d).values, other = value := by
    induction more generalizing d with
    | nil => exact all
    | cons first rest hind =>
        refine hind (d.set first value) fun old mem => ?_
        unfold set at mem
        split at mem
        · simp only [values, mapValues, List.map_map, List.mem_map, Function.comp_apply] at mem
          obtain ⟨entry, mem, rfl⟩ := mem
          split
          · rfl
          · exact all _ (List.mem_map_of_mem mem)
        · simp only [values, List.map_append, List.mem_append, List.map_cons, List.map_nil,
            List.mem_singleton] at mem
          exact mem.elim (all old) id
  exact grown keys empty nofun other mem

theorem get?_eq_some_iff {d : Dict α β} {key : α} {value : β}
    : d.get? key = some value ↔ (key, value) ∈ d.entries := by
  obtain ⟨entries, distinct⟩ := d
  simp only [get?]
  induction entries with
  | nil => simp
  | cons first rest ih =>
      obtain ⟨other, old⟩ := first
      obtain ⟨fresh, distinct⟩ := List.nodup_cons.mp distinct
      by_cases same : other = key
      · subst same
        have absent : (other, value) ∉ rest := fun mem => fresh (List.mem_map.mpr ⟨_, mem, rfl⟩)
        simp [absent, eq_comm]
      · simp [same, Ne.symm same, ih distinct]

theorem get?_isSome {d : Dict α β} {key : α} (h : key ∈ d.keys) : ∃ value, d.get? key = some value := by
  obtain ⟨⟨_, value⟩, mem, rfl⟩ := List.mem_map.mp h
  exact ⟨value, get?_eq_some_iff.mpr mem⟩

theorem addTo_of_mem [Add β] {d : Dict α β} {key : α} (amount : β) (h : key ∈ d.keys)
    : ∃ after, d.addTo key amount = some after ∧ after.keys = d.keys :=
  ⟨_, if_pos h, keys_mapValues ..⟩

/-- A value after an addition is an old value, or that of the key with the amount added. -/
theorem mem_values_addTo [Add β] {d after : Dict α β} {key : α} {amount value : β}
    (h : d.addTo key amount = some after) (mem : value ∈ after.values)
    : value ∈ d.values ∨ ∃ old, (key, old) ∈ d.entries ∧ value = old + amount := by
  simp only [addTo, Option.ite_none_right_eq_some, Option.some.injEq] at h
  obtain ⟨_, rfl⟩ := h
  simp only [values, mapValues, List.map_map, List.mem_map, Function.comp_apply] at mem
  obtain ⟨⟨other, old⟩, mem, rfl⟩ := mem
  by_cases same : other = key
  · subst same
    exact Or.inr ⟨old, mem, by simp⟩
  · refine Or.inl (List.mem_map.mpr ⟨_, mem, ?_⟩)
    simp [same]

/-- An addition to a key adds to the sum of the values. -/
theorem sum_values_addTo [AddCommMonoid β] {d after : Dict α β} {key : α} {amount : β}
    (h : d.addTo key amount = some after)
    : after.values.sum = d.values.sum + amount := by
  simp only [addTo, Option.ite_none_right_eq_some, Option.some.injEq] at h
  obtain ⟨present, rfl⟩ := h
  obtain ⟨entries, distinct⟩ := d
  simp only [keys, values, mapValues, List.map_map] at present ⊢
  induction entries with
  | nil => cases present
  | cons first rest hind =>
      obtain ⟨other, old⟩ := first
      obtain ⟨fresh, distinct⟩ := List.nodup_cons.mp distinct
      by_cases same : other = key
      · subst same
        have away : rest.map (Prod.snd ∘ fun entry : α × β =>
            (entry.1, if entry.1 = other then entry.2 + amount else entry.2))
            = rest.map Prod.snd := by
          refine List.map_congr_left fun entry mem => ?_
          have different : entry.1 ≠ other := fun eq => fresh (List.mem_map.mpr ⟨entry, mem, eq⟩)
          simp [different]
        rw [List.map_cons, List.map_cons, List.sum_cons, List.sum_cons, away]
        simp [add_right_comm]
      · have later : key ∈ rest.map Prod.fst := by
          rcases List.mem_cons.mp present with now | later
          · exact absurd now.symm same
          · exact later
        rw [List.map_cons, List.map_cons, List.sum_cons, List.sum_cons, hind distinct later]
        simp [same, add_assoc]

theorem keys_charge [Add β] {d after : Dict α β} {charges : List (α × β)}
    (h : d.charge charges = some after)
    : after.keys = d.keys := by
  induction charges generalizing d with
  | nil =>
      cases h
      rfl
  | cons first rest ih =>
      obtain ⟨key, amount⟩ := first
      obtain ⟨grown, added, charged⟩ := Option.bind_eq_some_iff.mp h
      simp only [addTo, Option.ite_none_right_eq_some, Option.some.injEq] at added
      rw [ih charged, ← added.2, keys_mapValues]

/-- What a list of charges adds to each key. -/
theorem charge_eq_some [AddCommMonoid β] (d : Dict α β) (charges : List (α × β))
    (present : ∀ charge ∈ charges, charge.1 ∈ d.keys)
    : d.charge charges = some (d.mapValues fun key value =>
        value + ((charges.filter fun charge => charge.1 = key).map Prod.snd).sum) := by
  induction charges generalizing d with
  | nil => simp [charge, mapValues_id]
  | cons first rest ih =>
      obtain ⟨key, amount⟩ := first
      have known : key ∈ d.keys := present _ List.mem_cons_self
      simp only [charge, addTo, if_pos known, Option.bind_eq_bind, Option.bind_some]
      rw [ih]
      · rw [mapValues_mapValues]
        congr 2
        funext other value
        by_cases same : other = key
        · subst same
          simp [add_assoc]
        · simp [same, Ne.symm same]
      · intro charge mem
        rw [keys_mapValues]
        exact present charge (List.mem_cons_of_mem _ mem)

/-- The order of the charges makes no difference. -/
theorem charge_perm [AddCommMonoid β] {d : Dict α β} {charges others : List (α × β)}
    (perm : charges.Perm others) (present : ∀ charge ∈ charges, charge.1 ∈ d.keys)
    : d.charge charges = d.charge others := by
  rw [charge_eq_some d charges present,
    charge_eq_some d others fun charge mem => present charge (perm.mem_iff.mpr mem)]
  congr 2
  funext key value
  rw [((perm.filter _).map Prod.snd).sum_eq]

end

end Dict

end Python
