import MesonCheck.Proofs.Types.Traits

/-! Normal sets are canonical: two of them are the same exactly when they allow the same traits. So sets are equal when
they allow the same traits, and one set lies within another when the other allows all its traits. -/
namespace MesonCheck

namespace Rank

theorem before_iff (a b : Rank) :
    a.before b = true ↔ a.group < b.group ∨ a.group = b.group ∧ a.name < b.name := by
  simp [before]

theorem before_irrefl (a : Rank) : ¬ a.before a = true := by
  simp [before_iff]

theorem before_trans {a b c : Rank} (ab : a.before b = true) (bc : b.before c = true) : a.before c = true := by
  rw [before_iff] at *
  rcases ab with ab | ⟨ab, hab⟩ <;> rcases bc with bc | ⟨bc, hbc⟩
  · exact .inl (by omega)
  · exact .inl (by omega)
  · exact .inl (by omega)
  · exact .inr ⟨ab.trans bc, String.lt_trans hab hbc⟩

theorem before_of_not {a b : Rank} (ne : ¬ b = a) (nb : ¬ a.before b = true) : b.before a = true := by
  rw [before_iff] at *
  rcases Nat.lt_trichotomy a.group b.group with lt | eq | gt
  · exact absurd (.inl lt) nb
  · refine .inr ⟨eq.symm, ?_⟩
    have le : b.name ≤ a.name := fun lt => nb (.inr ⟨eq, lt⟩)
    apply Classical.byContradiction
    intro h
    have names : b.name = a.name := String.le_antisymm le h
    exact ne (by cases a; cases b; simp_all)
  · exact .inl gt

end Rank

mutual
def Ty.IsNormal : Ty → Prop
  | .list es => TypeSet.IsNormal es
  | .dict vs => TypeSet.IsNormal vs
  | .subproject ns => ns.Pairwise (· < ·)
  | _ => True

/-- A set whose members stand in the order of their ranks, no two of one rank, and are in normal form themselves. -/
def TypeSet.IsNormal : List Ty → Prop
  | [] => True
  | t :: ts => t.IsNormal ∧ (∀ u ∈ ts, t.rank.before u.rank = true) ∧ TypeSet.IsNormal ts
end

mutual
def Ty.decideNormal : (t : Ty) → Decidable t.IsNormal
  | .list es => TypeSet.decideNormal es
  | .dict vs => TypeSet.decideNormal vs
  | .subproject ns => inferInstanceAs (Decidable (ns.Pairwise (· < ·)))
  | .any | .bool | .int | .str | .disabler | .customIndex | .object _ _ => .isTrue trivial

def TypeSet.decideNormal : (ts : List Ty) → Decidable (TypeSet.IsNormal ts)
  | [] => .isTrue trivial
  | t :: ts =>
    have := t.decideNormal
    have := TypeSet.decideNormal ts
    inferInstanceAs (Decidable (t.IsNormal ∧ (∀ u ∈ ts, t.rank.before u.rank = true) ∧ TypeSet.IsNormal ts))
end

instance (t : Ty) : Decidable t.IsNormal := t.decideNormal

instance (ts : TypeSet) : Decidable (TypeSet.IsNormal ts) := TypeSet.decideNormal ts

/-! The normal form is normal. -/

namespace TypeSet

theorem mem_upsert {r : Rank} {f : Option Ty → Ty}
    (ranked : ∀ old : Option Ty, (∀ t ∈ old, t.rank = r) → (f old).rank = r) {s : List Ty} {u : Ty}
    (member : u ∈ upsert r f s) : u.rank = r ∨ u ∈ s := by
  induction s with
  | nil =>
    have h : u = f none := by simpa [upsert] using member
    exact .inl (h ▸ ranked none (by simp))
  | cons t ts ih =>
    unfold upsert at member
    split at member
    · rename_i same
      rcases List.mem_cons.mp member with rfl | h
      · exact .inl (ranked _ (by simpa using same))
      · exact .inr (List.mem_cons_of_mem _ h)
    · split at member
      · rcases List.mem_cons.mp member with rfl | h
        · exact .inl (ranked _ (by simp))
        · exact .inr h
      · rcases List.mem_cons.mp member with rfl | h
        · exact .inr List.mem_cons_self
        · exact (ih h).imp_right (List.mem_cons_of_mem _)

theorem upsert_isNormal {r : Rank} {f : Option Ty → Ty}
    (ranked : ∀ old : Option Ty, (∀ t ∈ old, t.rank = r) → (f old).rank = r)
    (parts : ∀ old : Option Ty, (∀ t ∈ old, t.rank = r ∧ t.IsNormal) → (f old).IsNormal)
    {s : List Ty} (normal : IsNormal s) : IsNormal (upsert r f s) := by
  induction s with
  | nil => exact ⟨parts none (by simp), by simp, trivial⟩
  | cons t ts ih =>
    obtain ⟨ht, order, hts⟩ := normal
    unfold upsert
    split
    · rename_i same
      refine ⟨parts _ (by simpa using ⟨same, ht⟩), ?_, hts⟩
      intro u hu
      rw [ranked _ (by simpa using same), ← same]
      exact order u hu
    · split
      · rename_i early
        refine ⟨parts none (by simp), ?_, ht, order, hts⟩
        intro u hu
        rw [ranked none (by simp)]
        rcases List.mem_cons.mp hu with rfl | hu
        · exact early
        · exact Rank.before_trans early (order u hu)
      · rename_i ne late
        refine ⟨ht, ?_, ih hts⟩
        intro u hu
        rcases mem_upsert ranked hu with hr | hu
        · rw [hr]
          exact Rank.before_of_not ne late
        · exact order u hu

theorem singleton_isNormal {t : Ty} (normal : t.IsNormal) : IsNormal [t] :=
  ⟨normal, by simp, trivial⟩

theorem upsert_alone_isNormal {r : Rank} {c : Ty} (ranked : c.rank = r) (plain : c.IsNormal) {s : List Ty}
    (normal : IsNormal s) : IsNormal (upsert r (fun _ => c) s) :=
  upsert_isNormal (fun _ _ => ranked) (fun _ _ => plain) normal

end TypeSet

mutual
theorem Ty.addTo_isNormal : ∀ (t : Ty) (s : List Ty), TypeSet.IsNormal s → TypeSet.IsNormal (t.addTo s)
  | .list es, s, normal => by
    rw [Ty.addTo]
    refine TypeSet.upsert_isNormal (fun old _ => by cases old <;> rfl) ?_ normal
    intro old h
    apply TypeSet.absorb_isNormal es
    cases old with
    | none => trivial
    | some t =>
      have ht := h t rfl
      cases t <;> simp_all [Ty.rank, Ty.IsNormal, Ty.elems]
  | .dict vs, s, normal => by
    rw [Ty.addTo]
    refine TypeSet.upsert_isNormal (fun old _ => by cases old <;> rfl) ?_ normal
    intro old h
    apply TypeSet.absorb_isNormal vs
    cases old with
    | none => trivial
    | some t =>
      have ht := h t rfl
      cases t <;> simp_all [Ty.rank, Ty.IsNormal, Ty.elems]
  | .subproject ns, s, normal => by
    rw [Ty.addTo]
    refine TypeSet.upsert_isNormal (fun old _ => by cases old <;> rfl) ?_ normal
    intro old h
    apply Text.foldl_insertUnique_sorted ns
    cases old with
    | none => exact List.Pairwise.nil
    | some t =>
      have ht := h t rfl
      cases t <;> simp_all [Ty.rank, Ty.IsNormal, Ty.subprojectNames]
  | .object n p, s, normal => by
    rw [Ty.addTo]
    refine TypeSet.upsert_isNormal ?_ ?_ normal
    · intro old h
      cases old with
      | none => rfl
      | some t => exact h t rfl
    · intro old h
      cases old with
      | none => trivial
      | some t => exact (h t rfl).2
  | .any, s, normal | .bool, s, normal | .int, s, normal | .str, s, normal | .disabler, s, normal
  | .customIndex, s, normal => by
    rw [Ty.addTo]
    refine TypeSet.upsert_alone_isNormal ?_ ?_ normal
    · rfl
    · trivial

theorem TypeSet.absorb_isNormal : ∀ (ts s : List Ty), TypeSet.IsNormal s → TypeSet.IsNormal (TypeSet.absorb ts s)
  | [], _, normal => normal
  | t :: ts, s, normal => TypeSet.absorb_isNormal ts _ (Ty.addTo_isNormal t s normal)
end

/-! Equality. -/

mutual
theorem Ty.allows_of_same : ∀ (t u : Ty), t.same u = true → ∀ x, t.Allows x ↔ u.Allows x
  | .list es, u, h, x => by
    cases u with
    | list fs =>
      have ih := TypeSet.allows_of_sameAll es fs (by simpa [Ty.same] using h)
      cases x <;> simp [Ty.Allows, ih]
    | _ => simp [Ty.same] at h
  | .dict es, u, h, x => by
    cases u with
    | dict fs =>
      have ih := TypeSet.allows_of_sameAll es fs (by simpa [Ty.same] using h)
      cases x <;> simp [Ty.Allows, ih]
    | _ => simp [Ty.same] at h
  | .any, u, h, x | .bool, u, h, x | .int, u, h, x | .str, u, h, x | .disabler, u, h, x | .customIndex, u, h, x
  | .object _ _, u, h, x | .subproject _, u, h, x => by
    cases u <;> cases x <;> simp_all [Ty.same, Ty.Allows]

theorem TypeSet.allows_of_sameAll : ∀ (ts us : List Ty), Ty.sameAll ts us = true →
    ∀ x, TypeSet.Allows ts x ↔ TypeSet.Allows us x
  | [], [], _, _ => Iff.rfl
  | t :: ts, u :: us, h, x => by
    simp only [Ty.sameAll, Bool.and_eq_true] at h
    simp only [TypeSet.Allows, Ty.allows_of_same t u h.1 x, TypeSet.allows_of_sameAll ts us h.2 x]
  | [], _ :: _, h, _ => by simp [Ty.sameAll] at h
  | _ :: _, [], h, _ => by simp [Ty.sameAll] at h
end

namespace TypeSet

/-! A normal set can be taken apart at its first member: the rank of a trait says which part allows it. -/

theorem not_allows_tail {t : Ty} {ts : List Ty} (order : ∀ u ∈ ts, t.rank.before u.rank = true) {x : Trait}
    (ranked : x.rank = t.rank) : ¬ Allows ts x := by
  intro tail
  obtain ⟨u, hu, hr⟩ := exists_rank_of_allows tail
  exact Rank.before_irrefl t.rank (by simpa [hr, ranked] using order u hu)

theorem allows_head {t : Ty} {ts : List Ty} (order : ∀ u ∈ ts, t.rank.before u.rank = true) {x : Trait}
    (ranked : x.rank = t.rank) : Allows (t :: ts) x ↔ t.Allows x :=
  ⟨fun allowed => allowed.resolve_right (not_allows_tail order ranked), .inl⟩

theorem allows_tail {t : Ty} (ts : List Ty) {x : Trait} (ranked : ¬ x.rank = t.rank) :
    Allows (t :: ts) x ↔ Allows ts x := by
  refine ⟨fun allowed => allowed.resolve_left ?_, .inr⟩
  intro head
  exact ranked (Ty.rank_of_allows head).symm

theorem not_before_head {u : Ty} {us : List Ty} (order : ∀ v ∈ us, u.rank.before v.rank = true) {x : Trait}
    (allowed : Allows (u :: us) x) : ¬ x.rank.before u.rank = true := by
  intro early
  obtain ⟨v, hv, hr⟩ := exists_rank_of_allows allowed
  rw [← hr] at early
  rcases List.mem_cons.mp hv with rfl | hv
  · exact Rank.before_irrefl _ early
  · exact Rank.before_irrefl _ (Rank.before_trans early (order v hv))

theorem head_rank_eq {t u : Ty} {ts us : List Ty} (ht : ∀ v ∈ ts, t.rank.before v.rank = true)
    (hu : ∀ v ∈ us, u.rank.before v.rank = true) (alike : ∀ x, Allows (t :: ts) x ↔ Allows (u :: us) x) :
    t.rank = u.rank := by
  have first := not_before_head hu ((alike t.mark).mp (.inl t.allows_mark))
  have second := not_before_head ht ((alike u.mark).mpr (.inl u.allows_mark))
  rw [Ty.rank_mark] at first second
  apply Classical.byContradiction
  intro ne
  exact second (Rank.before_of_not (fun h => ne h.symm) first)

end TypeSet

mutual
theorem Ty.same_of_allows : ∀ (t u : Ty), t.IsNormal → u.IsNormal → t.rank = u.rank →
    (∀ x, t.Allows x ↔ u.Allows x) → t.same u = true
  | .list es, u, ht, hu, ranked, alike => by
    cases u with
    | list fs => exact TypeSet.sameAll_of_allows es fs ht hu fun x => alike (.elem x)
    | _ => simp [Ty.rank] at ranked
  | .dict es, u, ht, hu, ranked, alike => by
    cases u with
    | dict fs => exact TypeSet.sameAll_of_allows es fs ht hu fun x => alike (.value x)
    | _ => simp [Ty.rank] at ranked
  | .subproject ns, u, ht, hu, ranked, alike => by
    cases u with
    | subproject ms =>
      have members : ∀ n, n ∈ ns ↔ n ∈ ms := fun n => alike (.candidate n)
      have names : ns = ms := Text.sorted_ext ht hu members
      simp [Ty.same, names]
    | _ => simp [Ty.rank] at ranked
  | .any, u, ht, hu, ranked, alike | .bool, u, ht, hu, ranked, alike | .int, u, ht, hu, ranked, alike
  | .str, u, ht, hu, ranked, alike | .disabler, u, ht, hu, ranked, alike | .customIndex, u, ht, hu, ranked, alike
  | .object _ _, u, ht, hu, ranked, alike => by
    cases u <;> simp_all [Ty.rank, Ty.same]

theorem TypeSet.sameAll_of_allows : ∀ (a b : List Ty), TypeSet.IsNormal a → TypeSet.IsNormal b →
    (∀ x, TypeSet.Allows a x ↔ TypeSet.Allows b x) → Ty.sameAll a b = true
  | [], [], _, _, _ => rfl
  | [], u :: _, _, _, alike => ((alike u.mark).mpr (.inl u.allows_mark)).elim
  | t :: _, [], _, _, alike => ((alike t.mark).mp (.inl t.allows_mark)).elim
  | t :: ts, u :: us, ha, hb, alike => by
    have ranked := TypeSet.head_rank_eq ha.2.1 hb.2.1 alike
    have heads : ∀ x, t.Allows x ↔ u.Allows x := by
      intro x
      by_cases hx : x.rank = t.rank
      · rw [← TypeSet.allows_head ha.2.1 hx, ← TypeSet.allows_head hb.2.1 (hx.trans ranked)]
        exact alike x
      · constructor
        · exact fun h => absurd (Ty.rank_of_allows h).symm hx
        · exact fun h => absurd ((Ty.rank_of_allows h).symm.trans ranked.symm) hx
    have tails : ∀ x, TypeSet.Allows ts x ↔ TypeSet.Allows us x := by
      intro x
      by_cases hx : x.rank = t.rank
      · have left := TypeSet.not_allows_tail ha.2.1 hx
        have right := TypeSet.not_allows_tail hb.2.1 (hx.trans ranked)
        exact iff_of_false left right
      · have left := TypeSet.allows_tail ts hx
        have right := TypeSet.allows_tail us fun h => hx (h.trans ranked.symm)
        exact left.symm.trans ((alike x).trans right)
    simp only [Ty.sameAll, Bool.and_eq_true]
    exact ⟨Ty.same_of_allows t u ha.1 hb.1 ranked heads, TypeSet.sameAll_of_allows ts us ha.2.2 hb.2.2 tails⟩
end

namespace TypeSet

theorem allows_normal (s : TypeSet) (x : Trait) : Allows s.normal x ↔ Allows s x := by
  simp [normal, allows_absorb, Allows]

theorem normal_isNormal (s : TypeSet) : IsNormal s.normal :=
  absorb_isNormal s [] trivial

theorem allows_union (a b : TypeSet) (x : Trait) : Allows (a.union b) x ↔ Allows a x ∨ Allows b x := by
  rw [union, allows_normal, allows_append]

theorem allows_unionAll (ss : List TypeSet) (x : Trait) : Allows (unionAll ss) x ↔ ∃ s ∈ ss, Allows s x := by
  rw [unionAll, allows_normal]
  induction ss with
  | nil => simp [Allows]
  | cons s ss ih => simp [allows_append, ih]

theorem allows_unionAll_concat (ss : List TypeSet) (s : TypeSet) (x : Trait) :
    Allows (unionAll (ss ++ [s])) x ↔ Allows (unionAll ss) x ∨ Allows s x := by
  simp [allows_unionAll, or_and_right, exists_or]

theorem equal_iff (a b : TypeSet) : a.equal b = true ↔ ∀ x, Allows a x ↔ Allows b x := by
  constructor
  · intro same x
    have alike := allows_of_sameAll _ _ same x
    rwa [allows_normal, allows_normal] at alike
  · intro alike
    apply sameAll_of_allows _ _ a.normal_isNormal b.normal_isNormal
    intro x
    rw [allows_normal, allows_normal]
    exact alike x

def Within (a b : TypeSet) : Prop :=
  (a.union b).equal b = true

instance (a b : TypeSet) : Decidable (Within a b) :=
  inferInstanceAs (Decidable (_ = true))

theorem within_iff (a b : TypeSet) : Within a b ↔ ∀ x, Allows a x → Allows b x := by
  rw [Within, equal_iff]
  constructor
  · intro alike x allowed
    exact (alike x).mp ((allows_union a b x).mpr (.inl allowed))
  · intro sub x
    rw [allows_union]
    exact ⟨fun h => h.elim (sub x) id, .inr⟩

theorem within_refl (a : TypeSet) : Within a a :=
  (within_iff a a).mpr fun _ h => h

theorem within_unionAll {s : TypeSet} {ss : List TypeSet} (member : s ∈ ss) : Within s (unionAll ss) :=
  (within_iff _ _).mpr fun x h => (allows_unionAll ss x).mpr ⟨s, member, h⟩

theorem within_union_right (a b : TypeSet) : Within b (a.union b) :=
  (within_iff _ _).mpr fun x h => (allows_union a b x).mpr (.inr h)

theorem allows_iff_exists {s : List Ty} {x : Trait} : Allows s x ↔ ∃ t ∈ s, t.Allows x := by
  induction s with
  | nil => simp [Allows]
  | cons t ts ih => simp [Allows, ih]

theorem ne_nil_of_within {s s' : TypeSet} (wider : s.Within s') (some : s ≠ []) : s' ≠ [] := by
  obtain ⟨t, member⟩ := List.exists_mem_of_ne_nil s some
  have allowed := allows_iff_exists.mpr ⟨t, member, t.allows_mark⟩
  obtain ⟨t', member', _⟩ := allows_iff_exists.mp ((within_iff _ _).mp wider _ allowed)
  exact List.ne_nil_of_mem member'

end TypeSet

end MesonCheck
