import Mathlib.Data.List.Basic
import MesonCheck.Tree.Range

/-! Ranges of a text: in which order they stand, and what the hull of several of them holds. -/
namespace MesonCheck

instance : LE Position :=
  ⟨fun p q => p.line < q.line ∨ p.line = q.line ∧ p.column ≤ q.column⟩

namespace Position

theorem le_iff {p q : Position} : p ≤ q ↔ p.line < q.line ∨ p.line = q.line ∧ p.column ≤ q.column :=
  Iff.rfl

theorem le_refl (p : Position) : p ≤ p :=
  .inr ⟨rfl, Int.le_refl _⟩

theorem line_le {p q : Position} (le : p ≤ q) : p.line ≤ q.line := by
  rcases le with less | ⟨same, _⟩
  · exact Int.le_of_lt less
  · exact Int.le_of_eq same

theorem le_of_not_le {p q : Position} (notLe : ¬p ≤ q) : q ≤ p := by
  rw [le_iff] at notLe ⊢
  omega

end Position

namespace Range

/-- Whether a position lies in a range. The end of a range is no part of it. -/
def Covers (r : Range) (p : Position) : Prop :=
  r.start ≤ p ∧ ¬r.stop ≤ p

def Above (a b : Range) : Prop :=
  a.stop.line < b.start.line

def Within (a b : Range) : Prop :=
  b.start ≤ a.start ∧ a.stop ≤ b.stop

theorem Above.apart {a b : Range} (above : a.Above b) (p : Position) : ¬(a.Covers p ∧ b.Covers p) := by
  rintro ⟨⟨_, before⟩, ⟨behind, _⟩⟩
  have upper := Position.line_le (Position.le_of_not_le before)
  have lower := Position.line_le behind
  unfold Above at above
  omega

/-! Hulls. -/

theorem hull?_eq_some_iff {rs : List Range} {r : Range} :
    hull? rs = some r ↔ ∃ a b, rs.head? = some a ∧ rs.getLast? = some b ∧ span a b = r := by
  unfold hull?
  cases rs.head? <;> cases rs.getLast? <;> simp

theorem exists_hull {rs : List Range} (nonempty : rs ≠ []) : ∃ r, hull? rs = some r :=
  ⟨_, hull?_eq_some_iff.mpr ⟨_, _, List.head?_eq_some_head nonempty, List.getLast?_eq_some_getLast nonempty, rfl⟩⟩

theorem hull?_append {rs ss : List Range} {a b : Range} (first : hull? rs = some a) (second : hull? ss = some b) :
    hull? (rs ++ ss) = some (span a b) := by
  obtain ⟨r, r', head, _, rfl⟩ := hull?_eq_some_iff.mp first
  obtain ⟨s, s', _, last, rfl⟩ := hull?_eq_some_iff.mp second
  have front : (rs ++ ss).head? = some r := by rw [List.head?_append, head]; rfl
  have back : (rs ++ ss).getLast? = some s' := by rw [List.getLast?_append, last]; rfl
  exact hull?_eq_some_iff.mpr ⟨r, s', front, back, rfl⟩

theorem hull?_flatMap {α : Type} {parts : α → List Range} {whole : α → Range} {as : List α}
    (each : ∀ a ∈ as, hull? (parts a) = some (whole a)) : hull? (as.flatMap parts) = hull? (as.map whole) := by
  induction as with
  | nil => rfl
  | cons a as ih =>
    have here := each a List.mem_cons_self
    have rest := ih fun b member => each b (List.mem_cons_of_mem a member)
    cases as with
    | nil =>
      rw [List.flatMap_cons, List.flatMap_nil, List.append_nil, here]
      rfl
    | cons b bs =>
      obtain ⟨r, hull⟩ : ∃ r, hull? ((b :: bs).map whole) = some r := exists_hull (List.cons_ne_nil _ _)
      have single : hull? [whole a] = some (whole a) := rfl
      rw [List.flatMap_cons, hull?_append here (rest.trans hull)]
      exact (hull?_append single hull).symm

theorem hull_above_hull {rs ss : List Range} (above : ∀ a ∈ rs, ∀ b ∈ ss, a.Above b) {r s : Range}
    (first : hull? rs = some r) (second : hull? ss = some s) : r.Above s := by
  obtain ⟨_, a, _, last, rfl⟩ := hull?_eq_some_iff.mp first
  obtain ⟨b, _, head, _, rfl⟩ := hull?_eq_some_iff.mp second
  exact above a (List.mem_of_getLast? last) b (List.mem_of_mem_head? head)

section

variable {rs : List Range} (sorted : rs.Pairwise Above) (proper : ∀ r ∈ rs, r.start ≤ r.stop) {hull : Range}
  (spanned : hull? rs = some hull)
include sorted proper spanned

theorem within_hull {r : Range} (member : r ∈ rs) : r.Within hull := by
  obtain ⟨a, b, head, last, rfl⟩ := hull?_eq_some_iff.mp spanned
  constructor
  · obtain ⟨rest, rfl⟩ := List.head?_eq_some_iff.mp head
    rcases List.mem_cons.mp member with rfl | later
    · exact Position.le_refl _
    · have above := (List.pairwise_cons.mp sorted).1 r later
      exact .inl (Int.lt_of_le_of_lt (Position.line_le (proper a List.mem_cons_self)) above)
  · obtain ⟨front, rfl⟩ := List.getLast?_eq_some_iff.mp last
    rcases List.mem_append.mp member with earlier | here
    · have above := (List.pairwise_append.mp sorted).2.2 r earlier b List.mem_cons_self
      exact .inl (Int.lt_of_lt_of_le above (Position.line_le (proper b (List.mem_append_right _ List.mem_cons_self))))
    · cases List.mem_singleton.mp here
      exact Position.le_refl _

theorem hull_within_hull {ss : List Range} (among : ss ⊆ rs) {part : Range} (partly : hull? ss = some part) :
    part.Within hull := by
  obtain ⟨a, b, head, last, rfl⟩ := hull?_eq_some_iff.mp partly
  have first := within_hull sorted proper spanned (among (List.mem_of_mem_head? head))
  have final := within_hull sorted proper spanned (among (List.mem_of_getLast? last))
  exact ⟨first.1, final.2⟩

end

end Range

end MesonCheck
