import Mathlib.Data.Prod.Lex
import Mathlib.Data.String.Basic
import MesonCheck.Version

/-! The order of versions. Parts of a prerelease that stand for the same number but are written differently come before
each other, so versions are not strictly ordered. Still, what does not come before a second version that does not come
before a third one does not come before the third one either. -/
namespace MesonCheck

/-- Whether comparisons of a first thing with a second, of the second with a third and of the first with the third fit
together. Where neither of the first two says "before", the first difference decides. -/
structure Chained (first second both : Ordering) : Prop where
  decided : first ≠ .lt → second ≠ .lt → both = first.then second

namespace Chained

theorem next {x₁ x₂ x y₁ y₂ y : Ordering} (head : Chained x₁ x₂ x) (tail : Chained y₁ y₂ y) :
    Chained (x₁.then y₁) (x₂.then y₂) (x.then y) where
  decided first second := by
    cases x₁ with
    | lt => exact absurd rfl first
    | eq =>
      cases x₂ with
      | lt => exact absurd rfl second
      | eq =>
        rw [head.decided (by decide) (by decide)]
        exact tail.decided first second
      | gt =>
        rw [head.decided (by decide) (by decide)]
        cases y₁ with
        | lt => exact absurd rfl first
        | eq | gt => rfl
    | gt =>
      cases x₂ with
      | lt => exact absurd rfl second
      | eq | gt =>
        rw [head.decided (by decide) (by decide)]
        rfl

/-- Things that are ordered by a key. Two that differ but have the same key come before each other. -/
theorem of_key {α β : Type} [DecidableEq α] [Preorder β] [DecidableLT β] (key : α → β) (a b c : α) :
    let compare (x y : α) : Ordering := if x = y then .eq else if key y < key x then .gt else .lt
    Chained (compare a b) (compare b c) (compare a c) where
  decided first second := by
    by_cases ab : a = b
    · subst ab
      simp
    · by_cases bc : b = c
      · subst bc
        have above : key b < key a := by
          by_contra other
          simp [ab, other] at first
        simp [ab, above]
      · have above : key b < key a := by
          by_contra other
          simp [ab, other] at first
        have above' : key c < key b := by
          by_contra other
          simp [bc, other] at second
        have differ : a ≠ c := by
          rintro rfl
          exact lt_irrefl _ (above.trans above')
        simp [ab, above, differ, above'.trans above]

theorem nat (a b c : Nat) : Chained (compare a b) (compare b c) (compare a c) := by
  have byKey (a b : Nat) : compare a b = if a = b then .eq else if b < a then .gt else .lt := by
    rw [Nat.compare_eq_ite_lt]
    grind
  rw [byKey, byKey, byKey]
  exact of_key id a b c

end Chained

namespace Version

/-- Where a part of a prerelease stands: a missing part comes first, then come numbers, then other texts. -/
def partKey (part : String) : Nat ×ₗ Nat ×ₗ String :=
  if part = "" then toLex (0, toLex (0, ""))
  else
    match partNumber? part with
    | some n => toLex (1, toLex (n, ""))
    | none => toLex (2, toLex (0, part))

theorem comparePart_eq (a b : String) :
    comparePart a b = if a = b then .eq else if partKey b < partKey a then .gt else .lt := by
  unfold comparePart partKey
  split
  · rfl
  · by_cases first : a = ""
    · by_cases second : b = ""
      · simp_all
      · cases partNumber? b <;> simp [first, second, Prod.Lex.toLex_lt_toLex]
    · by_cases second : b = ""
      · cases partNumber? a <;> simp [first, second, Prod.Lex.toLex_lt_toLex]
      · cases partNumber? a <;> cases partNumber? b <;> simp [first, second, Prod.Lex.toLex_lt_toLex]

theorem comparePart_chained (a b c : String) :
    Chained (comparePart a b) (comparePart b c) (comparePart a c) := by
  rw [comparePart_eq, comparePart_eq, comparePart_eq]
  exact .of_key partKey a b c

theorem compareParts_eq (as bs : List String) :
    compareParts as bs = (comparePart (as.headD "") (bs.headD "")).then (compareParts as.tail bs.tail) := by
  cases as <;> cases bs <;> simp [compareParts, comparePart]

theorem compareParts_chained (as bs cs : List String) :
    Chained (compareParts as bs) (compareParts bs cs) (compareParts as cs) := by
  have bounded (n : Nat) : ∀ as bs cs : List String, as.length ≤ n → bs.length ≤ n → cs.length ≤ n →
      Chained (compareParts as bs) (compareParts bs cs) (compareParts as cs) := by
    induction n with
    | zero =>
      intro as bs cs la lb lc
      rw [List.length_eq_zero_iff.mp (Nat.le_zero.mp la), List.length_eq_zero_iff.mp (Nat.le_zero.mp lb),
        List.length_eq_zero_iff.mp (Nat.le_zero.mp lc)]
      exact ⟨fun _ _ => by rw [compareParts]; rfl⟩
    | succ n ih =>
      intro as bs cs la lb lc
      rw [compareParts_eq as bs, compareParts_eq bs cs, compareParts_eq as cs]
      have shorter {l : List String} (bound : l.length ≤ n + 1) : l.tail.length ≤ n := by
        rw [List.length_tail]
        omega
      exact (comparePart_chained ..).next (ih _ _ _ (shorter la) (shorter lb) (shorter lc))
  exact bounded (as.length + bs.length + cs.length) as bs cs (by omega) (by omega) (by omega)

theorem comparePrerelease_chained (a b c : String) :
    Chained (comparePrerelease a b) (comparePrerelease b c) (comparePrerelease a c) := by
  unfold comparePrerelease
  by_cases ha : a = ""
  · refine ⟨fun _ second => ?_⟩
    by_cases hb : b = "" <;> by_cases hc : c = "" <;> simp_all
  · by_cases hb : b = ""
    · exact ⟨fun first _ => by simp [ha, hb] at first⟩
    · by_cases hc : c = ""
      · exact ⟨fun _ second => by simp [hb, hc] at second⟩
      · simp only [ha, hb, hc, false_and, if_false]
        exact compareParts_chained ..

theorem compare_chained (u v w : Version) : Chained (u.compare v) (v.compare w) (u.compare w) :=
  (Chained.nat ..).next ((Chained.nat ..).next ((Chained.nat ..).next (comparePrerelease_chained ..)))

theorem not_isBefore_trans {u v w : Version} (first : u.isBefore v = false) (second : v.isBefore w = false) :
    u.isBefore w = false := by
  simp only [isBefore, beq_eq_false_iff_ne] at first second ⊢
  rw [(compare_chained u v w).decided first second]
  cases relation : u.compare v with
  | lt => exact absurd relation first
  | eq => exact second
  | gt => exact Ordering.noConfusion

end Version

end MesonCheck
