import Mathlib.Data.List.Forall2
import MesonCheck.Proofs.Types.Merge

/-! Normal forms at every depth. The levels of a set are the set itself and the sets inside its lists and dicts, however
deep. Normalising leaves every level tidy and does nothing to a set that it has normalised; taking unions is then a
join, whose order of arguments shows at no level. -/
namespace MesonCheck

mutual
def Ty.levels : Ty → List TypeSet
  | .list es => es :: TypeSet.inner es
  | .dict vs => vs :: TypeSet.inner vs
  | _ => []

def TypeSet.inner : List Ty → List TypeSet
  | [] => []
  | t :: ts => t.levels ++ TypeSet.inner ts
end

def TypeSet.levels (s : TypeSet) : List TypeSet :=
  s :: TypeSet.inner s

def Kind.order : List Kind :=
  [.list, .dict, .subproject, .any, .bool, .int, .str, .disabler, .customIndex, .object]

structure TypeSet.Tidy (s : TypeSet) : Prop where
  /-- There is at most one list, one dict and one handle, and no type without parameters comes twice. -/
  once : ∀ k, k ≠ .object → s.countP (·.kind == k) ≤ 1
  order : (s.map fun t => Kind.order.idxOf t.kind).Pairwise (· ≤ ·)
  /-- Objects stand in increasing order of their names, so no two have the same. -/
  objects : ((s.filter (·.kind == .object)).map Ty.name).Pairwise (· < ·)
  handles : ∀ ns, .subproject ns ∈ s → ns.Pairwise (· < ·)

theorem Ty.group_rank (t : Ty) : t.rank.group = Kind.order.idxOf t.kind := by
  cases t <;> rfl

theorem Ty.rank_eq_of_kind {t u : Ty} (same : t.kind = u.kind) (plain : t.kind ≠ .object) : t.rank = u.rank := by
  cases t <;> cases u <;> simp_all [Ty.kind, Ty.rank]

theorem Ty.rank_of_object {t : Ty} (object : t.kind = .object) : t.rank = ⟨9, t.name⟩ := by
  cases t <;> simp_all [Ty.kind, Ty.rank, Ty.name]

namespace TypeSet

theorem pairwise_of_isNormal {s : List Ty} (normal : IsNormal s) :
    s.Pairwise fun t u => t.rank.before u.rank = true := by
  induction s with
  | nil => exact List.Pairwise.nil
  | cons t ts ih => exact List.pairwise_cons.mpr ⟨normal.2.1, ih normal.2.2⟩

theorem countP_kind_le_one {s : List Ty} (order : s.Pairwise fun t u => t.rank.before u.rank = true) {k : Kind}
    (plain : k ≠ .object) : s.countP (·.kind == k) ≤ 1 := by
  induction s with
  | nil => simp
  | cons t ts ih =>
    obtain ⟨head, tail⟩ := List.pairwise_cons.mp order
    by_cases here : t.kind = k
    · have others : ts.countP (·.kind == k) = 0 := by
        rw [List.countP_eq_zero]
        intro u member same
        have kinds : t.kind = u.kind := here.trans (beq_iff_eq.mp same).symm
        have ranks := Ty.rank_eq_of_kind kinds (here ▸ plain)
        exact Rank.before_irrefl t.rank (by simpa [ranks] using head u member)
      simp [here, others]
    · simpa [here] using ih tail

theorem tidy_of_isNormal {s : List Ty} (normal : IsNormal s) : Tidy s where
  once _ plain := countP_kind_le_one (pairwise_of_isNormal normal) plain
  order := by
    refine List.pairwise_map.mpr ((pairwise_of_isNormal normal).imp ?_)
    intro t u early
    rw [Rank.before_iff, t.group_rank, u.group_rank] at early
    omega
  objects := by
    refine List.pairwise_map.mpr (List.pairwise_filter.mpr ((pairwise_of_isNormal normal).imp ?_))
    intro t u early ht hu
    rw [Ty.rank_of_object (beq_iff_eq.mp ht), Ty.rank_of_object (beq_iff_eq.mp hu), Rank.before_iff] at early
    simpa using early
  handles _ member := isNormal_of_mem normal member

end TypeSet

mutual
theorem Ty.levels_isNormal : ∀ t : Ty, t.IsNormal → ∀ l ∈ t.levels, TypeSet.IsNormal l
  | .list es, normal, l, member | .dict es, normal, l, member => by
    rcases List.mem_cons.mp member with rfl | deeper
    · exact normal
    · exact TypeSet.inner_isNormal es normal l deeper
  | .any, _, _, member | .bool, _, _, member | .int, _, _, member | .str, _, _, member | .disabler, _, _, member
  | .customIndex, _, _, member | .object _ _, _, _, member | .subproject _, _, _, member => by
    simp [Ty.levels] at member

theorem TypeSet.inner_isNormal : ∀ s : List Ty, TypeSet.IsNormal s → ∀ l ∈ TypeSet.inner s, TypeSet.IsNormal l
  | [], _, _, member => by simp [TypeSet.inner] at member
  | t :: ts, normal, l, member => by
    rcases List.mem_append.mp member with head | tail
    · exact Ty.levels_isNormal t normal.1 l head
    · exact TypeSet.inner_isNormal ts normal.2.2 l tail
end

namespace TypeSet

theorem tidy_of_mem_levels {s : TypeSet} (normal : IsNormal s) : ∀ l ∈ s.levels, Tidy l := by
  intro l member
  rcases List.mem_cons.mp member with rfl | deeper
  · exact tidy_of_isNormal normal
  · exact tidy_of_isNormal (inner_isNormal s normal l deeper)

/-- A normal form is tidy at every level, and it is its own normal form. -/
theorem normal_tidy (s : TypeSet) : (∀ l ∈ s.normal.levels, Tidy l) ∧ s.normal.normal = s.normal :=
  ⟨tidy_of_mem_levels s.normal_isNormal, s.normal_normal⟩

def Alike (a b : TypeSet) : Prop :=
  List.Forall₂ (List.Forall₂ fun t u => t.equal u = true) a.levels b.levels

end TypeSet

theorem Ty.equal_of_same {t u : Ty} (same : t.same u = true) : t.equal u = true := by
  have elems : ∀ es fs : List Ty, Ty.sameAll es fs = true → TypeSet.equal es fs = true :=
    fun es fs alike => (TypeSet.equal_iff es fs).mpr (TypeSet.allows_of_sameAll es fs alike)
  cases t with
  | list es =>
    cases u with
    | list fs => exact elems es fs same
    | _ => simp [Ty.same] at same
  | dict es =>
    cases u with
    | dict fs => exact elems es fs same
    | _ => simp [Ty.same] at same
  | _ => cases u <;> simp_all [Ty.same, Ty.equal, Ty.normal]

theorem Ty.forall₂_of_sameAll : ∀ {a b : List Ty}, Ty.sameAll a b = true →
    List.Forall₂ (fun t u => t.equal u = true) a b
  | [], [], _ => .nil
  | t :: ts, u :: us, same => by
    rw [Ty.sameAll, Bool.and_eq_true] at same
    exact .cons (Ty.equal_of_same same.1) (Ty.forall₂_of_sameAll same.2)
  | [], _ :: _, same => by simp [Ty.sameAll] at same
  | _ :: _, [], same => by simp [Ty.sameAll] at same

mutual
theorem Ty.levels_of_same : ∀ t u : Ty, t.same u = true →
    List.Forall₂ (List.Forall₂ fun t u => t.equal u = true) t.levels u.levels
  | .list es, u, same => by
    cases u with
    | list fs => exact .cons (Ty.forall₂_of_sameAll same) (TypeSet.inner_of_sameAll es fs same)
    | _ => simp [Ty.same] at same
  | .dict es, u, same => by
    cases u with
    | dict fs => exact .cons (Ty.forall₂_of_sameAll same) (TypeSet.inner_of_sameAll es fs same)
    | _ => simp [Ty.same] at same
  | .any, u, same | .bool, u, same | .int, u, same | .str, u, same | .disabler, u, same | .customIndex, u, same
  | .object _ _, u, same | .subproject _, u, same => by
    cases u <;> simp_all [Ty.same, Ty.levels]

theorem TypeSet.inner_of_sameAll : ∀ a b : List Ty, Ty.sameAll a b = true →
    List.Forall₂ (List.Forall₂ fun t u => t.equal u = true) (TypeSet.inner a) (TypeSet.inner b)
  | [], [], _ => .nil
  | t :: ts, u :: us, same => by
    rw [Ty.sameAll, Bool.and_eq_true] at same
    exact List.rel_append (Ty.levels_of_same t u same.1) (TypeSet.inner_of_sameAll ts us same.2)
  | [], _ :: _, same => by simp [Ty.sameAll] at same
  | _ :: _, [], same => by simp [Ty.sameAll] at same
end

namespace TypeSet

theorem alike_of_sameAll {a b : TypeSet} (same : Ty.sameAll a b = true) : a.Alike b :=
  .cons (Ty.forall₂_of_sameAll same) (inner_of_sameAll a b same)

theorem normal_alike {a b : TypeSet} (traits : ∀ x, Allows a x ↔ Allows b x) : a.normal.Alike b.normal :=
  alike_of_sameAll ((equal_iff a b).mpr traits)

/-- The same alternatives in another order. The sets inside can be reordered as well. -/
inductive Reordered : TypeSet → TypeSet → Prop where
  | perm {a b : TypeSet} : a.Perm b → Reordered a b
  | list {es fs : TypeSet} (s : TypeSet) : Reordered es fs → Reordered (.list es :: s) (.list fs :: s)
  | dict {vs ws : TypeSet} (s : TypeSet) : Reordered vs ws → Reordered (.dict vs :: s) (.dict ws :: s)
  | trans {a b c : TypeSet} : Reordered a b → Reordered b c → Reordered a c

theorem allows_perm {a b : TypeSet} (perm : a.Perm b) (x : Trait) : Allows a x ↔ Allows b x := by
  induction perm with
  | nil => exact Iff.rfl
  | cons t _ ih => simp only [Allows, ih]
  | swap t u s => simp only [Allows, or_left_comm]
  | trans _ _ first second => exact first.trans second

theorem Reordered.allows {a b : TypeSet} (reordered : Reordered a b) (x : Trait) : Allows a x ↔ Allows b x := by
  induction reordered generalizing x with
  | perm perm => exact allows_perm perm x
  | list s _ ih => cases x <;> simp [Allows, Ty.Allows, ih]
  | dict s _ ih => cases x <;> simp [Allows, Ty.Allows, ih]
  | trans _ _ first second => exact (first x).trans (second x)

/-- Union is a join on normal forms. It does not matter whether its arguments have been normalised, nor how they are
grouped. The order of alternatives, at whatever depth, shows in a normal form at most in which parent an object has, so
union is commutative and idempotent up to equality. -/
theorem union_join (a b c : TypeSet) :
    normal (a ++ b) = normal (a.normal ++ b.normal) ∧
      (a.union b).union c = a.union (b.union c) ∧
      (∀ s s' : TypeSet, Reordered s' s → s'.normal.Alike s.normal) ∧
      (a.union b).equal (b.union a) = true ∧ (a.union a).equal a = true := by
  refine ⟨(normal_append_normal a b).symm, ?_, ?_, ?_, ?_⟩
  · rw [union_union_left, union_union_right, List.append_assoc]
  · intro s s' reordered
    exact normal_alike reordered.allows
  · rw [equal_iff]
    intro x
    rw [allows_union, allows_union, or_comm]
  · rw [equal_iff]
    intro x
    rw [allows_union, or_self]

/-- Two objects of one name that change places with a list between them, whose elements change places as well. The
normal forms differ in the parent of the object that they keep. -/
theorem union_join_sample :
    Reordered [.object "lib" (some (.object "tgt" none)), .list [.str, .int], .object "lib" none]
        [.object "lib" none, .list [.int, .str], .object "lib" (some (.object "tgt" none))] ∧
      Alike [.list [.int, .str], .object "lib" (some (.object "tgt" none))]
        [.list [.int, .str], .object "lib" none] := by
  have reordered : Reordered [.object "lib" (some (.object "tgt" none)), .list [.str, .int], .object "lib" none]
      [.object "lib" none, .list [.int, .str], .object "lib" (some (.object "tgt" none))] :=
    -- the list goes to the front, is reordered there, and the objects change places around it
    .trans (.perm (.swap ..)) (.trans (.list _ (.perm (.swap ..)))
      (.perm (((List.Perm.swap ..).cons _).trans (.swap ..))))
  exact ⟨reordered, (union_join [] [] []).2.2.1 _ _ reordered⟩

end TypeSet

end MesonCheck
