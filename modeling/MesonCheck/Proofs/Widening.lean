import MesonCheck.Proofs.Operators

/-! Wider operands. Every trait of a result is due to one trait of each operand, so an operand that allows more takes no
trait away from the results and gives rise to no mismatch. -/
namespace MesonCheck

namespace Ty

theorem kind_eq_of_rank {t u : Ty} (same : t.rank = u.rank) : t.kind = u.kind := by
  cases t <;> cases u <;> simp_all [rank, kind]

theorem name_eq_of_rank {t u : Ty} (same : t.rank = u.rank) : t.name = u.name := by
  cases t <;> cases u <;> simp_all [rank, name]

theorem canBe_eq_of_rank {t u : Ty} (same : t.rank = u.rank) (n : String) : t.canBe n = u.canBe n := by
  rw [canBe, canBe, kind_eq_of_rank same, name_eq_of_rank same]

theorem rank_of_allows_mark {t u : Ty} (allowed : u.Allows t.mark) : u.rank = t.rank :=
  (rank_of_allows allowed).trans t.rank_mark

def added (k : Kind) (t : Ty) : TypeSet :=
  if t.kind = k then t.elems else [t]

end Ty

def Trait.inside (k : Kind) (x : Trait) : Trait :=
  if k = .list then .elem x else .value x

/-! Lists and dicts. -/

section

variable {k : Kind} (container : k = .list ∨ k = .dict)
include container

theorem Ty.allows_inside_iff {t : Ty} {x : Trait} :
    t.Allows (.inside k x) ↔ t.kind = k ∧ TypeSet.Allows t.elems x := by
  rcases container with rfl | rfl <;> cases t <;> simp [Trait.inside, Ty.Allows, Ty.kind, Ty.elems]

theorem Ty.allows_container_iff {t : Ty} (own : t.kind = k) {x : Trait} :
    t.Allows x ↔ x = t.mark ∨ ∃ w, x = .inside k w ∧ TypeSet.Allows t.elems w := by
  rcases container with rfl | rfl <;> cases t <;> cases x <;>
    simp_all [Trait.inside, Ty.Allows, Ty.kind, Ty.elems, Ty.mark]

theorem Ty.mark_eq_of_container {t u : Ty} (own : t.kind = k) (other : u.kind = k) : t.mark = u.mark := by
  rcases container with rfl | rfl <;> cases t <;> cases u <;> simp_all [Ty.kind, Ty.mark]

/-- What a value adds to a container is due to one trait of the value. -/
theorem TypeSet.allows_added {t : Ty} {x : Trait} (allowed : Allows (t.added k) x) :
    ∃ z, t.Allows z ∧ ∀ u : Ty, u.Allows z → Allows (u.added k) x := by
  by_cases same : t.kind = k
  · rw [Ty.added, if_pos same] at allowed
    refine ⟨.inside k x, (Ty.allows_inside_iff container).mpr ⟨same, allowed⟩, fun u given => ?_⟩
    obtain ⟨alike, held⟩ := (Ty.allows_inside_iff container).mp given
    rwa [Ty.added, if_pos alike]
  · have here : t.Allows x := by simpa [Ty.added, same, Allows] using allowed
    refine ⟨x, here, fun u given => ?_⟩
    have ranked := (Ty.rank_of_allows given).trans (Ty.rank_of_allows here).symm
    have other : ¬u.kind = k := by rwa [Ty.kind_eq_of_rank ranked]
    simpa [Ty.added, other, Allows] using given

theorem Operator.plus_container {a : Ty} (own : a.kind = k) (b : Ty) :
    ∃ t, plus.result? a b = some t ∧ t.kind = k ∧
      ∀ x, TypeSet.Allows t.elems x ↔ TypeSet.Allows a.elems x ∨ TypeSet.Allows (b.added k) x := by
  have held (es : List Ty) (x : Trait) : TypeSet.Allows (TypeSet.normal (es ++ b.added k)) x ↔
      TypeSet.Allows es x ∨ TypeSet.Allows (b.added k) x := by
    rw [TypeSet.allows_normal, TypeSet.allows_append]
  rcases container with rfl | rfl
  · cases a with
    | list es =>
      refine ⟨.listOf (es ++ b.added .list), ?_, rfl, held es⟩
      cases b <;> simp [result?, Ty.canBe, Ty.kind, Ty.name, Ty.added, Ty.elems]
    | _ => contradiction
  · cases a with
    | dict vs =>
      refine ⟨.dictOf (vs ++ b.added .dict), ?_, rfl, held vs⟩
      cases b <;> simp [result?, Ty.canBe, Ty.kind, Ty.name, Ty.added, Ty.elems]
    | _ => contradiction

end

namespace Operator

def Due (op : Operator) (a b : Ty) (x : Trait) : Prop :=
  ∃ y z, a.Allows y ∧ b.Allows z ∧
    ∀ a' b' : Ty, a'.Allows y → b'.Allows z → ∃ t, op.result? a' b' = some t ∧ t.Allows x

theorem due_container {k : Kind} (container : k = .list ∨ k = .dict) {a b t : Ty} (own : a.kind = k)
    (result : plus.result? a b = some t) {x : Trait} (allowed : t.Allows x) : plus.Due a b x := by
  obtain ⟨t', same, sort, elems⟩ := plus_container container own b
  rw [result] at same
  cases same
  rcases (Ty.allows_container_iff container sort).mp allowed with rfl | ⟨w, rfl, held⟩
  · refine ⟨a.mark, b.mark, a.allows_mark, b.allows_mark, fun a' b' left _ => ?_⟩
    have alike := (Ty.kind_eq_of_rank (Ty.rank_of_allows_mark left)).trans own
    obtain ⟨u, sum, sort', _⟩ := plus_container container alike b'
    exact ⟨u, sum, Ty.mark_eq_of_container container sort' sort ▸ u.allows_mark⟩
  · rcases (elems w).mp held with kept | new
    · refine ⟨.inside k w, b.mark, (Ty.allows_inside_iff container).mpr ⟨own, kept⟩, b.allows_mark, ?_⟩
      intro a' b' left _
      obtain ⟨alike, held⟩ := (Ty.allows_inside_iff container).mp left
      obtain ⟨u, sum, sort', elems'⟩ := plus_container container alike b'
      exact ⟨u, sum, (Ty.allows_inside_iff container).mpr ⟨sort', (elems' w).mpr (.inl held)⟩⟩
    · obtain ⟨z, given, kept⟩ := TypeSet.allows_added container new
      refine ⟨a.mark, z, a.allows_mark, given, fun a' b' left right => ?_⟩
      have alike := (Ty.kind_eq_of_rank (Ty.rank_of_allows_mark left)).trans own
      obtain ⟨u, sum, sort', elems'⟩ := plus_container container alike b'
      exact ⟨u, sum, (Ty.allows_inside_iff container).mpr ⟨sort', (elems' w).mpr (.inr (kept b' right))⟩⟩

/-- Except where something is added to a container, a result depends on ranks only. -/
theorem result?_eq_of_rank (op : Operator) {a b a' b' : Ty} (left : a'.rank = a.rank) (right : b'.rank = b.rank)
    (plain : op = .plus → a.kind ≠ .list ∧ a.kind ≠ .dict) : op.result? a' b' = op.result? a b := by
  have first := Ty.kind_eq_of_rank left
  have second := Ty.kind_eq_of_rank right
  unfold result?
  simp only [Ty.canBe_eq_of_rank left, Ty.canBe_eq_of_rank right, first, second, Ty.name_eq_of_rank left,
    Ty.name_eq_of_rank right]
  cases op with
  | plus =>
    obtain ⟨list, dict⟩ := plain rfl
    cases a <;> cases a' <;> simp_all [Ty.kind]
  | _ => rfl

theorem result?_due (op : Operator) {a b t : Ty} (result : op.result? a b = some t) {x : Trait} (allowed : t.Allows x) :
    op.Due a b x := by
  by_cases grows : op = .plus ∧ (a.kind = .list ∨ a.kind = .dict)
  · obtain ⟨rfl, container⟩ := grows
    exact due_container container rfl result allowed
  · refine ⟨a.mark, b.mark, a.allows_mark, b.allows_mark, fun a' b' left right => ⟨t, ?_, allowed⟩⟩
    rw [← result]
    refine op.result?_eq_of_rank (Ty.rank_of_allows_mark left) (Ty.rank_of_allows_mark right) fun plus => ?_
    exact not_or.mp fun container => grows ⟨plus, container⟩

end Operator

namespace TypeSet

theorem mem_results {op : Operator} {l r : TypeSet} {t : Ty} :
    t ∈ results (some op) l r ↔ ∃ a ∈ l, ∃ b ∈ r, op.result? a b = some t := by
  simp [results]

variable {l l' r r' : TypeSet} (left : l.Within l') (right : r.Within r')
include left right

theorem results_within (op : Operator) : (results (some op) l r).Within (results (some op) l' r') := by
  rw [within_iff] at *
  intro x allowed
  obtain ⟨t, member, here⟩ := allows_iff_exists.mp allowed
  obtain ⟨a, first, b, second, result⟩ := mem_results.mp member
  obtain ⟨y, z, given, given', due⟩ := op.result?_due result here
  obtain ⟨a', first', wider⟩ := allows_iff_exists.mp (left y (allows_iff_exists.mpr ⟨a, first, given⟩))
  obtain ⟨b', second', wider'⟩ := allows_iff_exists.mp (right z (allows_iff_exists.mpr ⟨b, second, given'⟩))
  obtain ⟨t', result', there⟩ := due a' b' wider wider'
  exact allows_iff_exists.mpr ⟨t', mem_results.mpr ⟨a', first', b', second', result'⟩, there⟩

/-- Widening of the operands is monotone: an operator that applies to some pair of alternatives still applies to one, no
mismatch comes up, and none of the types of the result is lost. -/
theorem combine_within_of_wider (op : Operator) (applies : ∃ a ∈ l, ∃ b ∈ r, op.Applies a b) :
    (∃ a ∈ l', ∃ b ∈ r', op.Applies a b) ∧ mismatch (some op) l' r' = false ∧
      (combine (some op) l r).normal.Within (combine (some op) l' r').normal := by
  have wider := results_within left right op
  have found : results (some op) l r ≠ [] := fun none => (results_eq_nil_iff op l r).mp none applies
  have found' : results (some op) l' r' ≠ [] := ne_nil_of_within wider found
  refine ⟨?_, ?_, ?_⟩
  · by_contra nowhere
    exact found' ((results_eq_nil_iff op l' r').mpr nowhere)
  · simp [mismatch, found']
  · rw [combine_of_results found, combine_of_results found', within_iff]
    simpa only [allows_normal] using (within_iff _ _).mp wider

end TypeSet

theorem sum_within_of_wider :
    let l : TypeSet := [.list [.int]]
    let l' : TypeSet := [.list [.int, .str], .str]
    let r : TypeSet := [.int]
    let r' : TypeSet := [.int, .list [.bool]]
    l.Within l' ∧ r.Within r' ∧ (.plus : Operator).Applies (.list [.int]) .int ∧
      (TypeSet.combine (some .plus) l r).normal.Within (TypeSet.combine (some .plus) l' r').normal := by
  have left : TypeSet.Within [.list [.int]] [.list [.int, .str], .str] := by decide
  have right : TypeSet.Within [.int] [.int, .list [.bool]] := by decide
  have applies : (.plus : Operator).Applies (.list [.int]) .int := by
    rw [← Operator.result?_isSome_iff]
    decide
  have wider := TypeSet.combine_within_of_wider left right .plus
    ⟨_, List.mem_singleton_self _, _, List.mem_singleton_self _, applies⟩
  exact ⟨left, right, applies, wider.2.2⟩

end MesonCheck
