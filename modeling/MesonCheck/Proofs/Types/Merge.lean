import MesonCheck.Proofs.Types.Canonical

/-! How members merge. A normal set has at most one member of a rank and is the same as another one that has the same
members at all ranks. Adding alternatives to a set works rank by rank, and there it does not matter whether what is
added has been merged before. So normal forms absorb earlier normal forms, with the parents of objects and all. -/
namespace MesonCheck

namespace TypeSet

def at? (r : Rank) (s : TypeSet) : Option Ty :=
  s.find? fun t => decide (t.rank = r)

theorem at?_nil (r : Rank) : at? r [] = none := rfl

theorem at?_cons (r : Rank) (t : Ty) (ts : List Ty) :
    at? r (t :: ts) = if t.rank = r then some t else at? r ts := by
  by_cases same : t.rank = r <;> simp [at?, same]

theorem mem_of_at? {r : Rank} {s : TypeSet} {t : Ty} (found : at? r s = some t) : t ∈ s ∧ t.rank = r :=
  ⟨List.mem_of_find?_eq_some found, by simpa using List.find?_some found⟩

theorem at?_eq_none_iff (r : Rank) (s : TypeSet) : at? r s = none ↔ ∀ t ∈ s, ¬ t.rank = r := by
  simp [at?]

theorem isNormal_of_mem {s : List Ty} (normal : IsNormal s) {t : Ty} (member : t ∈ s) : t.IsNormal := by
  induction s with
  | nil => simp at member
  | cons u us ih =>
    rcases List.mem_cons.mp member with rfl | tail
    · exact normal.1
    · exact ih normal.2.2 tail

theorem at?_tail_eq_none {t : Ty} {ts : List Ty} (order : ∀ u ∈ ts, t.rank.before u.rank = true) {r : Rank}
    (early : r = t.rank ∨ r.before t.rank = true) : at? r ts = none := by
  rw [at?_eq_none_iff]
  rintro u member rfl
  rcases early with same | early
  · exact Rank.before_irrefl t.rank (by simpa [same] using order u member)
  · exact Rank.before_irrefl t.rank (Rank.before_trans (order u member) early)

theorem eq_of_at? {a b : List Ty} (ha : IsNormal a) (hb : IsNormal b) (same : ∀ r, at? r a = at? r b) : a = b := by
  induction a generalizing b with
  | nil =>
    cases b with
    | nil => rfl
    | cons u us => simpa [at?_nil, at?_cons] using same u.rank
  | cons t ts ih =>
    cases b with
    | nil => simpa [at?_nil, at?_cons] using same t.rank
    | cons u us =>
      have first := same t.rank
      have second := same u.rank
      rw [at?_cons, if_pos rfl, at?_cons] at first
      rw [at?_cons, at?_cons, if_pos rfl] at second
      have heads : u.rank = t.rank := by
        apply Classical.byContradiction
        intro ne
        rw [if_neg ne] at first
        rw [if_neg fun h => ne h.symm] at second
        -- each head would stand behind the other one
        have late := hb.2.1 t (mem_of_at? first.symm).1
        have early := ha.2.1 u (mem_of_at? second).1
        exact Rank.before_irrefl _ (Rank.before_trans late early)
      rw [if_pos heads] at first
      cases first
      refine congrArg _ (ih ha.2.2 hb.2.2 fun r => ?_)
      have rest := same r
      rw [at?_cons, at?_cons] at rest
      by_cases here : t.rank = r
      · rw [at?_tail_eq_none ha.2.1 (.inl here.symm), at?_tail_eq_none hb.2.1 (.inl here.symm)]
      · rwa [if_neg here, if_neg here] at rest

/-- An insertion changes what stands at its own rank and nothing else. -/
theorem at?_upsert {r : Rank} {f : Option Ty → Ty}
    (ranked : ∀ old : Option Ty, (∀ t ∈ old, t.rank = r) → (f old).rank = r) {s : List Ty} (normal : IsNormal s)
    (q : Rank) : at? q (upsert r f s) = if q = r then some (f (at? r s)) else at? q s := by
  have fresh : (f none).rank = r := ranked none (by simp)
  induction s with
  | nil =>
    rw [upsert, at?_cons, at?_nil, at?_nil, fresh]
    by_cases here : q = r
    · rw [if_pos here.symm, if_pos here]
    · rw [if_neg fun h => here h.symm, if_neg here]
  | cons t ts ih =>
    unfold upsert
    split
    · rename_i same
      have merged : (f (some t)).rank = r := ranked _ (by simpa using same)
      rw [at?_cons, at?_cons, at?_cons, merged, same]
      by_cases here : q = r
      · rw [if_pos here.symm, if_pos here, if_pos rfl]
      · have there : ¬ r = q := fun h => here h.symm
        rw [if_neg there, if_neg here, if_neg there]
    · rename_i other
      split
      · rename_i early
        rw [at?_cons, fresh]
        by_cases here : q = r
        · have absent : at? r (t :: ts) = none := by
            rw [at?_cons, if_neg other, at?_tail_eq_none normal.2.1 (.inr early)]
          rw [if_pos here.symm, if_pos here, absent]
        · rw [if_neg fun h => here h.symm, if_neg here]
      · rw [at?_cons, ih normal.2.2, at?_cons, at?_cons, if_neg other]
        by_cases here : q = r
        · rw [if_pos here, if_pos here, if_neg fun h => other (h.trans here)]
        · rw [if_neg here, if_neg here]

end TypeSet

namespace Ty

def merge (t : Ty) (old : Option Ty) : Ty :=
  match t with
  | .list es => .list (TypeSet.absorb es ((old.map Ty.elems).getD []))
  | .dict vs => .dict (TypeSet.absorb vs ((old.map Ty.elems).getD []))
  | .subproject ns =>
    .subproject (ns.foldl (fun ms n => Text.insertUnique n ms) ((old.map Ty.subprojectNames).getD []))
  | .object n p => old.getD (.object n p)
  | t => t

theorem addTo_eq (t : Ty) (s : TypeSet) : t.addTo s = TypeSet.upsert t.rank t.merge s := by
  cases t <;> rw [addTo] <;> rfl

theorem rank_merge (t : Ty) (old : Option Ty) (ranked : ∀ u ∈ old, u.rank = t.rank) :
    (t.merge old).rank = t.rank := by
  cases t with
  | object n p =>
    cases old with
    | none => rfl
    | some u => exact ranked u rfl
  | _ => rfl

theorem at?_addTo (t : Ty) {s : TypeSet} (normal : TypeSet.IsNormal s) (q : Rank) :
    TypeSet.at? q (t.addTo s) = if q = t.rank then some (t.merge (TypeSet.at? q s)) else TypeSet.at? q s := by
  rw [addTo_eq, TypeSet.at?_upsert t.rank_merge normal]
  by_cases here : q = t.rank
  · rw [if_pos here, if_pos here, here]
  · rw [if_neg here, if_neg here]

end Ty

namespace TypeSet

/-- What a member of a rank becomes when another set may have one of that rank to merge with it. -/
def mergeAt (old new : Option Ty) : Option Ty :=
  match new with
  | none => old
  | some t => some (t.merge old)

theorem distinct_of_isNormal {s : List Ty} (normal : IsNormal s) : s.Pairwise fun t u => t.rank ≠ u.rank := by
  induction s with
  | nil => exact List.Pairwise.nil
  | cons t ts ih =>
    apply List.Pairwise.cons _ (ih normal.2.2)
    intro u member same
    exact Rank.before_irrefl t.rank (by simpa [same] using normal.2.1 u member)

/-- Adding members of different ranks goes rank by rank, in whatever order they stand. -/
theorem at?_absorb_distinct {v s : List Ty} (distinct : v.Pairwise fun t u => t.rank ≠ u.rank) (hs : IsNormal s)
    (q : Rank) : at? q (absorb v s) = mergeAt (at? q s) (at? q v) := by
  induction v generalizing s with
  | nil => rfl
  | cons t ts ih =>
    obtain ⟨others, distinct⟩ := List.pairwise_cons.mp distinct
    rw [absorb, ih distinct (Ty.addTo_isNormal t s hs), Ty.at?_addTo t hs, at?_cons]
    by_cases here : t.rank = q
    · have alone : at? q ts = none := by
        rw [at?_eq_none_iff]
        intro u member same
        exact others u member (here.trans same.symm)
      rw [if_pos here.symm, if_pos here, alone]
      rfl
    · rw [if_neg fun h => here h.symm, if_neg here]

theorem at?_absorb {v s : List Ty} (hv : IsNormal v) (hs : IsNormal s) (q : Rank) :
    at? q (absorb v s) = mergeAt (at? q s) (at? q v) :=
  at?_absorb_distinct (distinct_of_isNormal hv) hs q

theorem at?_eq_some_iff {s : List Ty} (distinct : s.Pairwise fun t u => t.rank ≠ u.rank) (q : Rank) (t : Ty) :
    at? q s = some t ↔ t ∈ s ∧ t.rank = q := by
  induction s with
  | nil => simp [at?_nil]
  | cons u us ih =>
    obtain ⟨others, distinct⟩ := List.pairwise_cons.mp distinct
    rw [at?_cons]
    by_cases here : u.rank = q
    · rw [if_pos here, Option.some.injEq]
      constructor
      · rintro rfl
        exact ⟨List.mem_cons_self, here⟩
      · rintro ⟨member, ranked⟩
        rcases List.mem_cons.mp member with rfl | later
        · rfl
        · exact absurd (here.trans ranked.symm) (others t later)
    · rw [if_neg here, ih distinct]
      constructor
      · rintro ⟨later, ranked⟩
        exact ⟨List.mem_cons_of_mem u later, ranked⟩
      · rintro ⟨member, ranked⟩
        rcases List.mem_cons.mp member with rfl | later
        · exact absurd ranked here
        · exact ⟨later, ranked⟩

theorem absorb_append (a b s : List Ty) : absorb (a ++ b) s = absorb b (absorb a s) := by
  induction a generalizing s with
  | nil => rfl
  | cons t ts ih => rw [List.cons_append, absorb, absorb, ih]

theorem facts_of_at? {r : Rank} {s : List Ty} (normal : IsNormal s) : ∀ t ∈ at? r s, t.rank = r ∧ t.IsNormal := by
  intro t found
  obtain ⟨member, ranked⟩ := mem_of_at? found
  exact ⟨ranked, isNormal_of_mem normal member⟩

end TypeSet

/-- Whether it does not matter if the type meets a member of its rank before or after that one meets another. -/
def Ty.MergesFreely (t : Ty) : Prop :=
  ∀ old older : Option Ty, (∀ u ∈ old, u.rank = t.rank ∧ u.IsNormal) → (∀ u ∈ older, u.rank = t.rank ∧ u.IsNormal) →
    (t.merge old).merge older = t.merge (TypeSet.mergeAt older old)

theorem Ty.MergesFreely.absorb_addTo {t : Ty} (free : t.MergesFreely) {us s : List Ty} (hu : TypeSet.IsNormal us)
    (hs : TypeSet.IsNormal s) : TypeSet.absorb (t.addTo us) s = t.addTo (TypeSet.absorb us s) := by
  have inner := t.addTo_isNormal us hu
  have outer := TypeSet.absorb_isNormal us s hs
  refine TypeSet.eq_of_at? (TypeSet.absorb_isNormal _ s hs) (t.addTo_isNormal _ outer) fun q => ?_
  rw [TypeSet.at?_absorb inner hs, t.at?_addTo hu, t.at?_addTo outer, TypeSet.at?_absorb hu hs]
  by_cases here : q = t.rank
  · subst here
    rw [if_pos rfl, if_pos rfl]
    exact congrArg some (free _ _ (TypeSet.facts_of_at? hu) (TypeSet.facts_of_at? hs))
  · rw [if_neg here, if_neg here]

theorem Ty.isNormal_elems {t : Ty} (normal : t.IsNormal) : TypeSet.IsNormal t.elems := by
  cases t with
  | list es | dict vs => exact normal
  | _ => trivial

theorem Ty.elems_isNormal {r : Rank} {old : Option Ty} (facts : ∀ t ∈ old, t.rank = r ∧ t.IsNormal) :
    TypeSet.IsNormal ((old.map Ty.elems).getD []) := by
  cases old with
  | none => trivial
  | some t => exact Ty.isNormal_elems (facts t rfl).2

theorem Ty.subprojectNames_sorted {r : Rank} {old : Option Ty} (facts : ∀ t ∈ old, t.rank = r ∧ t.IsNormal) :
    ((old.map Ty.subprojectNames).getD []).Pairwise (· < ·) := by
  cases old with
  | none => exact List.Pairwise.nil
  | some t =>
    have ht := (facts t rfl).2
    cases t with
    | subproject ns => exact ht
    | _ => exact List.Pairwise.nil

theorem Text.foldl_insertUnique_foldl (ns ms os : List String) (sorted : os.Pairwise (· < ·)) :
    (ns.foldl (fun ms n => Text.insertUnique n ms) ms).foldl (fun ms n => Text.insertUnique n ms) os =
      ns.foldl (fun ms n => Text.insertUnique n ms) (ms.foldl (fun ms n => Text.insertUnique n ms) os) := by
  apply Text.sorted_ext
  · exact Text.foldl_insertUnique_sorted _ os sorted
  · exact Text.foldl_insertUnique_sorted ns _ (Text.foldl_insertUnique_sorted ms os sorted)
  · intro n
    simp only [Text.mem_foldl_insertUnique, or_assoc]

mutual
/-- Containers merge their elements, which are sets again, so the induction goes through all depths at once. -/
theorem Ty.mergesFreely : ∀ t : Ty, t.MergesFreely
  | .list es => by
    intro old older hold holder
    have elems := TypeSet.absorb_absorb es _ _ (Ty.elems_isNormal hold) (Ty.elems_isNormal holder)
    cases old with
    | none => exact congrArg Ty.list elems
    | some u =>
      cases u with
      | list us => exact congrArg Ty.list elems
      | _ => simp [Ty.rank] at hold
  | .dict vs => by
    intro old older hold holder
    have elems := TypeSet.absorb_absorb vs _ _ (Ty.elems_isNormal hold) (Ty.elems_isNormal holder)
    cases old with
    | none => exact congrArg Ty.dict elems
    | some u =>
      cases u with
      | dict us => exact congrArg Ty.dict elems
      | _ => simp [Ty.rank] at hold
  | .subproject ns => by
    intro old older hold holder
    have names := Text.foldl_insertUnique_foldl ns ((old.map Ty.subprojectNames).getD []) _
      (Ty.subprojectNames_sorted holder)
    cases old with
    | none => exact congrArg Ty.subproject names
    | some u =>
      cases u with
      | subproject ms => exact congrArg Ty.subproject names
      | _ => simp [Ty.rank] at hold
  | .object n p => by
    intro old older _ _
    cases old <;> rfl
  | .any | .bool | .int | .str | .disabler | .customIndex => fun _ _ _ _ => rfl

theorem TypeSet.absorb_absorb : ∀ (ts us s : List Ty), TypeSet.IsNormal us → TypeSet.IsNormal s →
    TypeSet.absorb (TypeSet.absorb ts us) s = TypeSet.absorb ts (TypeSet.absorb us s)
  | [], _, _, _, _ => rfl
  | t :: ts, us, s, hu, hs => by
    rw [TypeSet.absorb, TypeSet.absorb_absorb ts _ s (Ty.addTo_isNormal t us hu) hs,
      (Ty.mergesFreely t).absorb_addTo hu hs, TypeSet.absorb]
end

namespace TypeSet

theorem normal_append (a b : TypeSet) : normal (a ++ b) = absorb b (normal a) :=
  absorb_append a b []

theorem normal_normal (s : TypeSet) : s.normal.normal = s.normal :=
  absorb_absorb s [] [] trivial trivial

theorem absorb_normal (a : TypeSet) {s : TypeSet} (normal : IsNormal s) : absorb a.normal s = absorb a s :=
  absorb_absorb a [] s trivial normal

theorem normal_append_normal (a b : TypeSet) : normal (a.normal ++ b.normal) = normal (a ++ b) := by
  rw [normal_append, normal_append, normal_normal, absorb_normal b a.normal_isNormal]

theorem union_union_left (a b c : TypeSet) : (a.union b).union c = normal (a ++ b ++ c) := by
  rw [union, union, ← normal_append_normal, normal_normal, normal_append_normal]

theorem union_union_right (a b c : TypeSet) : a.union (b.union c) = normal (a ++ (b ++ c)) := by
  rw [union, union, ← normal_append_normal, normal_normal, normal_append_normal]

theorem normal_eq_of_merge_none {s : List Ty} (normal : IsNormal s) (fixed : ∀ t ∈ s, t.merge none = t) :
    TypeSet.normal s = s := by
  refine eq_of_at? (normal_isNormal s) normal fun q => ?_
  rw [TypeSet.normal, at?_absorb normal (s := []) trivial]
  cases found : at? q s with
  | none => rfl
  | some t => exact congrArg some (fixed t (mem_of_at? found).1)

end TypeSet

mutual
theorem Ty.merge_none : ∀ (t : Ty), t.IsNormal → t.merge none = t
  | .list es, normal =>
    congrArg Ty.list (TypeSet.normal_eq_of_merge_none normal (TypeSet.merge_none_of_mem es normal))
  | .dict vs, normal =>
    congrArg Ty.dict (TypeSet.normal_eq_of_merge_none normal (TypeSet.merge_none_of_mem vs normal))
  | .subproject ns, sorted => by
    refine congrArg Ty.subproject (Text.sorted_ext (Text.foldl_insertUnique_sorted ns [] .nil) sorted fun n => ?_)
    simp [Text.mem_foldl_insertUnique]
  | .object _ _, _ | .any, _ | .bool, _ | .int, _ | .str, _ | .disabler, _ | .customIndex, _ => rfl

theorem TypeSet.merge_none_of_mem : ∀ (s : List Ty), TypeSet.IsNormal s → ∀ t ∈ s, t.merge none = t
  | [], _ => by simp
  | t :: ts, normal =>
    List.forall_mem_cons.mpr ⟨t.merge_none normal.1, TypeSet.merge_none_of_mem ts normal.2.2⟩
end

theorem TypeSet.normal_eq_of_perm {ts s : List Ty} (perm : ts.Perm s) (normal : TypeSet.IsNormal s) :
    TypeSet.normal ts = s := by
  have distinct := TypeSet.distinct_of_isNormal normal
  have reordered : ts.Pairwise fun t u => t.rank ≠ u.rank :=
    (perm.pairwise_iff fun {_ _} ne => Ne.symm ne).mpr distinct
  apply TypeSet.eq_of_at? (TypeSet.normal_isNormal ts) normal
  intro q
  have members : TypeSet.at? q ts = TypeSet.at? q s := by
    apply Option.ext
    intro t
    rw [TypeSet.at?_eq_some_iff reordered, TypeSet.at?_eq_some_iff distinct, perm.mem_iff]
  rw [TypeSet.normal, TypeSet.at?_absorb_distinct reordered (s := []) trivial, members]
  cases found : TypeSet.at? q s with
  | none => rfl
  | some t => exact congrArg some (TypeSet.merge_none_of_mem s normal t (TypeSet.mem_of_at? found).1)

theorem TypeSet.isNormal_iff (s : TypeSet) : TypeSet.IsNormal s ↔ s.normal = s := by
  constructor
  · exact TypeSet.normal_eq_of_perm (List.Perm.refl s)
  · intro fixed
    rw [← fixed]
    exact TypeSet.normal_isNormal s

end MesonCheck
