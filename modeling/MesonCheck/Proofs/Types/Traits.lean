import MesonCheck.Proofs.Text.Sorted
import MesonCheck.Types.Normal

/-! What a type set says about a value, taken apart into single traits. Adding a type to a set adds its traits and
nothing else, at every depth, so unions can be compared trait by trait without looking at the order of members. -/
namespace MesonCheck

/-- One thing that a type can say about a value. The parent of an object is not among them. -/
inductive Trait where
  | any
  | bool
  | int
  | str
  | disabler
  | customIndex
  | list
  | elem (t : Trait)
  | dict
  | value (t : Trait)
  | handle
  | candidate (name : String)
  | object (name : String)

def Trait.rank : Trait → Rank
  | list | elem _ => ⟨0, ""⟩
  | dict | value _ => ⟨1, ""⟩
  | handle | candidate _ => ⟨2, ""⟩
  | any => ⟨3, ""⟩
  | bool => ⟨4, ""⟩
  | int => ⟨5, ""⟩
  | str => ⟨6, ""⟩
  | disabler => ⟨7, ""⟩
  | customIndex => ⟨8, ""⟩
  | object n => ⟨9, n⟩

mutual
/-- Whether a value of the type can have the trait. -/
def Ty.Allows : Ty → Trait → Prop
  | .any, .any => True
  | .bool, .bool => True
  | .int, .int => True
  | .str, .str => True
  | .disabler, .disabler => True
  | .customIndex, .customIndex => True
  | .list _, .list => True
  | .list es, .elem x => TypeSet.Allows es x
  | .dict _, .dict => True
  | .dict vs, .value x => TypeSet.Allows vs x
  | .subproject _, .handle => True
  | .subproject ns, .candidate n => n ∈ ns
  | .object n _, .object m => n = m
  | _, _ => False

def TypeSet.Allows : List Ty → Trait → Prop
  | [], _ => False
  | t :: ts, x => t.Allows x ∨ TypeSet.Allows ts x
end

def Ty.mark : Ty → Trait
  | .any => .any
  | .bool => .bool
  | .int => .int
  | .str => .str
  | .disabler => .disabler
  | .customIndex => .customIndex
  | .list _ => .list
  | .dict _ => .dict
  | .object n _ => .object n
  | .subproject _ => .handle

theorem Ty.allows_mark (t : Ty) : t.Allows t.mark := by
  cases t <;> simp [Ty.mark, Ty.Allows]

theorem Ty.rank_mark (t : Ty) : t.mark.rank = t.rank := by
  cases t <;> rfl

theorem Ty.rank_of_allows {t : Ty} {x : Trait} (allowed : t.Allows x) : t.rank = x.rank := by
  cases t <;> cases x <;> simp_all [Ty.Allows, Ty.rank, Trait.rank]

namespace TypeSet

theorem allows_append (a b : List Ty) (x : Trait) : Allows (a ++ b) x ↔ Allows a x ∨ Allows b x := by
  induction a with
  | nil => simp [Allows]
  | cons t ts ih => simp only [List.cons_append, Allows, ih, or_assoc]

theorem exists_rank_of_allows {s : List Ty} {x : Trait} (allowed : Allows s x) : ∃ t ∈ s, t.rank = x.rank := by
  induction s with
  | nil => exact allowed.elim
  | cons t ts ih =>
    rcases allowed with head | tail
    · exact ⟨t, List.mem_cons_self, Ty.rank_of_allows head⟩
    · obtain ⟨u, hu, hr⟩ := ih tail
      exact ⟨u, List.mem_cons_of_mem _ hu, hr⟩

theorem allows_upsert (r : Rank) (f : Option Ty → Ty) (x : Trait) (P : Prop)
    (fresh : (f none).Allows x ↔ P)
    (merged : ∀ t : Ty, t.rank = r → ((f (some t)).Allows x ↔ P ∨ t.Allows x)) (s : List Ty) :
    Allows (upsert r f s) x ↔ P ∨ Allows s x := by
  induction s with
  | nil => simp [upsert, Allows, fresh]
  | cons t ts ih =>
    unfold upsert
    split
    · rename_i same
      simp only [Allows, merged t same, or_assoc]
    · split
      · simp only [Allows, fresh]
      · simp only [Allows, ih, or_left_comm]

theorem allows_upsert_alone {r : Rank} {c : Ty} (alone : ∀ t : Ty, t.rank = r → t = c) (x : Trait) (s : List Ty) :
    Allows (upsert r (fun _ => c) s) x ↔ c.Allows x ∨ Allows s x := by
  apply allows_upsert
  · rfl
  · intro t same
    rw [alone t same, or_self]

end TypeSet

mutual
theorem Ty.allows_addTo : ∀ (t : Ty) (s : List Ty) (x : Trait),
    TypeSet.Allows (t.addTo s) x ↔ t.Allows x ∨ TypeSet.Allows s x
  | .list es, s, x => by
    rw [Ty.addTo]
    apply TypeSet.allows_upsert
    · cases x <;> simp [Ty.Allows, TypeSet.allows_absorb es, TypeSet.Allows]
    · intro t same
      cases t <;> cases x <;>
        simp_all [Ty.rank, Ty.Allows, Ty.elems, TypeSet.allows_absorb es]
  | .dict vs, s, x => by
    rw [Ty.addTo]
    apply TypeSet.allows_upsert
    · cases x <;> simp [Ty.Allows, TypeSet.allows_absorb vs, TypeSet.Allows]
    · intro t same
      cases t <;> cases x <;>
        simp_all [Ty.rank, Ty.Allows, Ty.elems, TypeSet.allows_absorb vs]
  | .subproject ns, s, x => by
    rw [Ty.addTo]
    apply TypeSet.allows_upsert
    · cases x <;> simp [Ty.Allows, Text.mem_foldl_insertUnique]
    · intro t same
      cases t <;> cases x <;>
        simp_all [Ty.rank, Ty.Allows, Ty.subprojectNames, Text.mem_foldl_insertUnique]
  | .object n p, s, x => by
    rw [Ty.addTo]
    apply TypeSet.allows_upsert
    · rfl
    · intro t same
      cases t <;> cases x <;> simp_all [Ty.rank, Ty.Allows]
  | .any, s, x | .bool, s, x | .int, s, x | .str, s, x | .disabler, s, x | .customIndex, s, x => by
    rw [Ty.addTo]
    refine TypeSet.allows_upsert_alone ?_ x s
    intro t same
    cases t <;> simp_all [Ty.rank]

theorem TypeSet.allows_absorb : ∀ (ts s : List Ty) (x : Trait),
    TypeSet.Allows (TypeSet.absorb ts s) x ↔ TypeSet.Allows ts x ∨ TypeSet.Allows s x
  | [], s, x => by simp [TypeSet.absorb, TypeSet.Allows]
  | t :: ts, s, x => by
    rw [TypeSet.absorb, TypeSet.allows_absorb ts, Ty.allows_addTo t, TypeSet.Allows, or_assoc, or_left_comm]
end

end MesonCheck
