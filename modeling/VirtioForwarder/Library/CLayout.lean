import Mathlib.Algebra.BigOperators.Ring.List
import Mathlib.Algebra.Ring.Nat

/-! The layout of C structs: each member stands at the next multiple of its alignment, and the
struct is filled up to a multiple of the largest one.
-/

namespace CLayout

/-- The size and the alignment of a type. -/
structure CType where
  size : Nat
  align : Nat
  deriving DecidableEq, Repr

/-- The next multiple of an alignment. -/
def alignUp (offset align : Nat) : Nat := (offset + align - 1) / align * align

/-- The offset behind a member. -/
def placeMember (offset : Nat) (member : CType) : Nat :=
  alignUp offset member.align + member.size

/-- An array of a type. -/
def CType.array (type : CType) (n : Nat) : CType := ⟨type.size * n, type.align⟩

/-- A struct with members in this order. -/
def structOf (members : List CType) : CType :=
  let align := (members.map CType.align).foldl max 1
  ⟨alignUp (members.foldl placeMember 0) align, align⟩

/-- `char` and `bool`. -/
def byte : CType := ⟨1, 1⟩

/-- `int`, `unsigned`, `uint32_t` and `float`. -/
def word : CType := ⟨4, 4⟩

/-- `uint64_t`. -/
def doubleWord : CType := ⟨8, 8⟩

/-- A pointer on a 64-bit machine. -/
def pointer : CType := ⟨8, 8⟩

theorem alignUp_of_dvd {offset align : Nat} (positive : 0 < align) (aligned : align ∣ offset)
    : alignUp offset align = offset := by
  obtain ⟨k, rfl⟩ := aligned
  have rounded : (align * k + align - 1) / align = k := by
    rw [Nat.add_sub_assoc positive, Nat.mul_add_div positive, Nat.div_eq_of_lt (by omega),
      Nat.add_zero]
  rw [alignUp, rounded, Nat.mul_comm]

/-- Members that all end at multiples of their common alignment stand without gaps. -/
theorem foldl_placeMember {align offset : Nat} {members : List CType} (positive : 0 < align)
    (same : ∀ member ∈ members, member.align = align ∧ align ∣ member.size)
    (aligned : align ∣ offset)
    : members.foldl placeMember offset = offset + (members.map CType.size).sum := by
  induction members generalizing offset with
  | nil => rfl
  | cons first rest ih =>
      obtain ⟨alignment, size⟩ := same first List.mem_cons_self
      have next : placeMember offset first = offset + first.size := by
        rw [placeMember, alignment, alignUp_of_dvd positive aligned]
      rw [List.foldl_cons, next, List.map_cons, List.sum_cons,
        ih (fun member later => same member (List.mem_cons_of_mem _ later))
          (Nat.dvd_add aligned size), Nat.add_assoc]

theorem foldl_max_align {align start : Nat} {members : List CType}
    (same : ∀ member ∈ members, member.align = align)
    : (members.map CType.align).foldl max start
      = if members = [] then start else max start align := by
  induction members generalizing start with
  | nil => rfl
  | cons first rest ih =>
      rw [List.map_cons, List.foldl_cons, same first List.mem_cons_self,
        ih fun member later => same member (List.mem_cons_of_mem _ later),
        if_neg (List.cons_ne_nil _ _)]
      split
      · rfl
      · rw [Nat.max_assoc, Nat.max_self]

/-- A struct of such members is as large as all of them. -/
theorem structOf_size {align : Nat} {members : List CType} (positive : 0 < align)
    (some : members ≠ [])
    (same : ∀ member ∈ members, member.align = align ∧ align ∣ member.size)
    : (structOf members).size = (members.map CType.size).sum := by
  have alignment : (members.map CType.align).foldl max 1 = align := by
    rw [foldl_max_align fun member listed => (same member listed).1, if_neg some]
    omega
  have multiple : align ∣ (members.map CType.size).sum := by
    apply List.dvd_sum
    intro size listed
    obtain ⟨member, member_listed, rfl⟩ := List.mem_map.mp listed
    exact (same member member_listed).2
  rw [structOf, alignment]
  dsimp only
  rw [foldl_placeMember positive same (Nat.dvd_zero _), Nat.zero_add,
    alignUp_of_dvd positive multiple]

end CLayout
