import Mathlib.Data.List.Basic
import MesonCheck.History.Run

/-! The order in which runs are listed. Runs with different names never tie, so the place of a run in the listing is the
number of runs that come before it. -/
namespace MesonCheck.RunRecord

theorem before_iff {a b : RunRecord} :
    a.before b = true ↔
      b.startedAt.stored < a.startedAt.stored ∨ a.startedAt.stored = b.startedAt.stored ∧ a.id < b.id := by
  by_cases same : a.startedAt.stored = b.startedAt.stored <;> simp [before, same]

theorem before_irrefl (a : RunRecord) : a.before a = false := by
  simp [before]

theorem before_trans {a b c : RunRecord} (ab : a.before b = true) (bc : b.before c = true) : a.before c = true := by
  rw [before_iff] at ab bc ⊢
  rcases ab with later | ⟨same, first⟩
  · rcases bc with later' | ⟨same', -⟩
    · exact .inl (String.lt_trans later' later)
    · left
      rwa [← same']
  · rcases bc with later' | ⟨same', first'⟩
    · left
      rwa [same]
    · exact .inr ⟨same.trans same', String.lt_trans first first'⟩

theorem before_total {a b : RunRecord} (differ : a.id ≠ b.id) : a.before b = true ∨ b.before a = true := by
  have lt_or_lt {x y : String} (ne : x ≠ y) : x < y ∨ y < x := by
    by_contra none
    rw [not_or, String.not_lt, String.not_lt] at none
    exact ne (String.le_antisymm none.2 none.1)
  simp only [before_iff]
  by_cases same : a.startedAt.stored = b.startedAt.stored
  · rcases lt_or_lt differ with first | first
    · exact .inl (.inr ⟨same, first⟩)
    · exact .inr (.inr ⟨same.symm, first⟩)
  · rcases lt_or_lt same with later | later
    · exact .inr (.inl later)
    · exact .inl (.inl later)

theorem place_perm (r : RunRecord) (rs : List RunRecord) : (place r rs).Perm (r :: rs) := by
  induction rs with
  | nil => exact .refl _
  | cons s ss ih =>
    unfold place
    split
    · exact .refl _
    · exact (ih.cons s).trans (.swap r s ss)

theorem listing_perm (rs : List RunRecord) : (listing rs).Perm rs := by
  induction rs with
  | nil => exact .refl _
  | cons r rs ih => exact (place_perm r _).trans (ih.cons r)

def Listed (rs : List RunRecord) : Prop :=
  rs.Pairwise (·.before · = true)

theorem place_listed {r : RunRecord} {rs : List RunRecord} (new : ∀ s ∈ rs, r.id ≠ s.id) (listed : Listed rs) :
    Listed (place r rs) := by
  induction rs with
  | nil => exact List.pairwise_singleton ..
  | cons s ss ih =>
    have ⟨first, rest⟩ := List.pairwise_cons.mp listed
    unfold place
    split
    · rename_i ahead
      apply List.pairwise_cons.mpr
      constructor
      · intro t member
        rcases List.mem_cons.mp member with rfl | member
        · exact ahead
        · exact before_trans ahead (first t member)
      · exact listed
    · rename_i behind
      apply List.pairwise_cons.mpr
      constructor
      · intro t member
        rcases List.mem_cons.mp ((place_perm r ss).mem_iff.mp member) with rfl | member
        · exact (before_total (new s List.mem_cons_self)).resolve_left behind
        · exact first t member
      · apply ih _ rest
        intro t member
        exact new t (List.mem_cons_of_mem s member)

theorem listing_listed {rs : List RunRecord} (distinct : (rs.map (·.id)).Nodup) : Listed (listing rs) := by
  induction rs with
  | nil => exact .nil
  | cons r rs ih =>
    have ⟨new, rest⟩ := List.nodup_cons.mp distinct
    apply place_listed _ (ih rest)
    intro s member same
    have known : s ∈ rs := (listing_perm rs).mem_iff.mp member
    exact new (List.mem_map.mpr ⟨s, known, same.symm⟩)

theorem eq_listing {rs ss : List RunRecord} (perm : rs.Perm ss) (listed : Listed rs)
    (distinct : (ss.map (·.id)).Nodup) : rs = listing ss := by
  refine (perm.trans (listing_perm ss).symm).eq_of_pairwise ?_ listed (listing_listed distinct)
  intro a b _ _ ahead behind
  have cycle := before_trans ahead behind
  simp [before_irrefl] at cycle

theorem listing_filter {rs : List RunRecord} (distinct : (rs.map (·.id)).Nodup) (p : RunRecord → Bool) :
    listing (rs.filter p) = (listing rs).filter p := by
  refine (eq_listing ((listing_perm rs).filter p) ?_ (distinct.sublist (List.filter_sublist.map _))).symm
  exact (listing_listed distinct).sublist List.filter_sublist

theorem mem_take_iff {rs : List RunRecord} (listed : Listed rs) {r : RunRecord} (member : r ∈ rs) (k : Nat) :
    r ∈ rs.take k ↔ rs.countP (·.before r) < k := by
  induction rs generalizing k with
  | nil => cases member
  | cons s ss ih =>
    have ⟨first, rest⟩ := List.pairwise_cons.mp listed
    cases k with
    | zero => simp
    | succ k =>
      rcases List.mem_cons.mp member with rfl | member
      · -- nothing comes before the first one
        have none : ss.countP (·.before r) = 0 := by
          apply List.countP_eq_zero.mpr
          intro t behind ahead
          have cycle := before_trans ahead (first t behind)
          simp [before_irrefl] at cycle
        simp [before_irrefl, none]
      · have other : r ≠ s := by
          intro same
          have itself := first r member
          simp [same, before_irrefl] at itself
        simp [other, ih rest member, first r member]

end MesonCheck.RunRecord
