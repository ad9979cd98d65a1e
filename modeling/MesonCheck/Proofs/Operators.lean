import MesonCheck.Proofs.ReadOnly
import MesonCheck.Proofs.Types.Canonical
import MesonCheck.Proofs.Walk.Reports

/-! Operands of which something is not known. An operator is applied to all pairs of alternatives, and the pair of two
unknown ones has no result; so where both operands can be anything, all depends on their other alternatives. -/
namespace MesonCheck

def Issue.isMismatch : Issue → Bool
  | .operatorMismatch .. => true
  | _ => false

namespace Operator

def operandNames : Operator → List String
  | .and | .or => ["bool"]
  | .divide | .plus | .less | .lessEqual | .greater | .greaterEqual => ["int", "str"]
  | .equal | .notEqual => ["int", "str", "bool", "dict", "list"]
  | .minus | .modulo | .times => ["int"]
  | _ => []

def Applies (op : Operator) (a b : Ty) : Prop :=
  ¬(a = .any ∧ b = .any) ∧
    ((∃ n ∈ op.operandNames, a.canBe n = true ∧ b.canBe n = true) ∨ (op = .isIn ∨ op = .notIn) ∨
      -- a list or a dict takes anything that is added to it
      (op = .plus ∧ (a.kind = .list ∨ a.kind = .dict)) ∨
      (op = .equal ∨ op = .notEqual) ∧ a.kind = .object ∧ b.kind = .object ∧ a.name = b.name)

theorem kind_eq_any {t : Ty} : t.kind = .any ↔ t = .any := by
  cases t <;> simp [Ty.kind]

theorem isSome_ite_some {c : Prop} [Decidable c] {t : Ty} {rest : Option Ty} :
    (if c then some t else rest).isSome = true ↔ c ∨ rest.isSome = true := by
  split <;> simp [*]

theorem result?_isSome_iff (op : Operator) (a b : Ty) : (op.result? a b).isSome = true ↔ op.Applies a b := by
  unfold result? Applies
  by_cases unknown : a = .any ∧ b = .any
  · simp [unknown, Ty.kind]
  · have known : (a.kind == .any && b.kind == .any) = false := by simpa [kind_eq_any] using unknown
    cases op with
    | plus =>
      simp only [known, Bool.false_eq_true, if_false, isSome_ite_some, Bool.and_eq_true, unknown, not_false_eq_true,
        true_and, operandNames, List.mem_cons, List.not_mem_nil, or_false, exists_eq_or_imp, exists_eq_left,
        reduceCtorEq, false_and, false_or, or_assoc]
      apply or_congr_right
      apply or_congr_right
      cases a with
      | list es | dict vs => cases b <;> simp [Ty.kind]
      | _ => simp [Ty.kind]
    | _ => simp [known, unknown, operandNames, isSome_ite_some, or_assoc, and_assoc]

/-! Operands that can be anything. -/

/-- Whether an operator has a result for a value of the type and one of which nothing is known, on either side. -/
def Serves (op : Operator) (t : Ty) : Prop :=
  t.name ∈ op.operandNames ∨ (op = .isIn ∨ op = .notIn) ∧ t ≠ .any

def Resolves (op : Operator) (l r : TypeSet) : Prop :=
  (∃ t ∈ l ++ r, op.Serves t) ∨ (op = .plus ∧ ∃ t ∈ l, t.kind = .list ∨ t.kind = .dict) ∨
    (op = .equal ∨ op = .notEqual) ∧ ∃ a ∈ l, ∃ b ∈ r, a.kind = .object ∧ b.kind = .object ∧ a.name = b.name

theorem canBe_iff {t : Ty} {n : String} : t.canBe n = true ↔ t = .any ∨ t.name = n := by
  simp [Ty.canBe, kind_eq_any]

theorem any_notMem_operandNames (op : Operator) : "any" ∉ op.operandNames := by
  cases op <;> decide

theorem Serves.ne_any {op : Operator} {t : Ty} (serves : op.Serves t) : t ≠ .any := by
  rintro rfl
  rcases serves with named | ⟨_, other⟩
  · exact op.any_notMem_operandNames named
  · exact other rfl

theorem Serves.applies {op : Operator} {t : Ty} (serves : op.Serves t) : op.Applies t .any ∧ op.Applies .any t := by
  have known := serves.ne_any
  have own : t.canBe t.name = true := canBe_iff.mpr (.inr rfl)
  have other : Ty.any.canBe t.name = true := canBe_iff.mpr (.inl rfl)
  rcases serves with named | ⟨contains, _⟩
  · exact ⟨⟨by simp [known], .inl ⟨_, named, own, other⟩⟩, by simp [known], .inl ⟨_, named, other, own⟩⟩
  · exact ⟨⟨by simp [known], .inr (.inl contains)⟩, by simp [known], .inr (.inl contains)⟩

/-- Of a pair that has a result, one part alone gives it, except for two objects of one name. -/
theorem Applies.serves {op : Operator} {a b : Ty} (applies : op.Applies a b) : op.Serves a ∨ op.Serves b ∨
    (op = .plus ∧ (a.kind = .list ∨ a.kind = .dict)) ∨
    (op = .equal ∨ op = .notEqual) ∧ a.kind = .object ∧ b.kind = .object ∧ a.name = b.name := by
  obtain ⟨known, ⟨n, named, left, right⟩ | contains | rest⟩ := applies
  · rw [canBe_iff] at left right
    rcases left with unknown | rfl
    · rcases right with other | rfl
      · exact absurd ⟨unknown, other⟩ known
      · exact .inr (.inl (.inl named))
    · exact .inl (.inl named)
  · by_cases unknown : a = .any
    · exact .inr (.inl (.inr ⟨contains, fun other => known ⟨unknown, other⟩⟩))
    · exact .inl (.inr ⟨contains, unknown⟩)
  · exact .inr (.inr rest)

theorem exists_applies_iff (op : Operator) {l r : TypeSet} (left : .any ∈ l) (right : .any ∈ r) :
    (∃ a ∈ l, ∃ b ∈ r, op.Applies a b) ↔ op.Resolves l r := by
  constructor
  · rintro ⟨a, first, b, second, applies⟩
    rcases applies.serves with serves | serves | ⟨plus, container⟩ | ⟨equal, objects⟩
    · exact .inl ⟨a, List.mem_append_left r first, serves⟩
    · exact .inl ⟨b, List.mem_append_right l second, serves⟩
    · exact .inr (.inl ⟨plus, a, first, container⟩)
    · exact .inr (.inr ⟨equal, a, first, b, second, objects⟩)
  · rintro (⟨t, member, serves⟩ | ⟨plus, t, member, container⟩ | ⟨equal, a, first, b, second, objects⟩)
    · rcases List.mem_append.mp member with member | member
      · exact ⟨t, member, .any, right, serves.applies.1⟩
      · exact ⟨.any, left, t, member, serves.applies.2⟩
    · refine ⟨t, member, .any, right, ?_, .inr (.inr (.inl ⟨plus, container⟩))⟩
      rintro ⟨rfl, _⟩
      simp [Ty.kind] at container
    · refine ⟨a, first, b, second, ?_, .inr (.inr (.inr ⟨equal, objects⟩))⟩
      rintro ⟨rfl, _⟩
      simp [Ty.kind] at objects

end Operator

namespace TypeSet

theorem results_eq_nil_iff (op : Operator) (l r : TypeSet) :
    results (some op) l r = [] ↔ ¬∃ a ∈ l, ∃ b ∈ r, op.Applies a b := by
  simp [results, ← Operator.result?_isSome_iff, List.flatMap_eq_nil_iff, List.filterMap_eq_nil_iff]

theorem mismatch_iff (op : Operator) {l r : TypeSet} (left : .any ∈ l) (right : .any ∈ r) :
    mismatch (some op) l r = true ↔ l.isUnresolved = false ∧ r.isUnresolved = false ∧ ¬op.Resolves l r := by
  have some : l ≠ [] ∧ r ≠ [] := ⟨List.ne_nil_of_mem left, List.ne_nil_of_mem right⟩
  rw [← op.exists_applies_iff left right, ← results_eq_nil_iff]
  simp [mismatch, some]
  tauto

theorem combine_of_results {op : Operator} {l r : TypeSet} (found : results (some op) l r ≠ []) :
    combine (some op) l r = results (some op) l r := by
  rw [combine]
  split
  · contradiction
  · rfl

/-! Containment. -/

theorem normal_eq_singleton {c : Ty} (alone : c.addTo [] = [c]) (again : c.addTo [c] = [c]) {s : TypeSet}
    (nonempty : s ≠ []) (all : ∀ t ∈ s, t = c) : s.normal = [c] := by
  have absorbed : ∀ ts : List Ty, (∀ t ∈ ts, t = c) → absorb ts [c] = [c] := by
    intro ts all
    induction ts with
    | nil => rfl
    | cons t ts ih =>
      obtain ⟨rfl, rest⟩ := List.forall_mem_cons.mp all
      rw [absorb, again, ih rest]
  cases s with
  | nil => contradiction
  | cons t ts =>
    obtain ⟨rfl, rest⟩ := List.forall_mem_cons.mp all
    rw [normal, absorb, alone, absorbed ts rest]

variable {op : Operator} (contains : op = .isIn ∨ op = .notIn) {l r : TypeSet}
include contains

theorem bool_of_mem_results {t : Ty} (member : t ∈ results (some op) l r) : t = .bool := by
  obtain ⟨a, _, found⟩ := List.mem_flatMap.mp member
  obtain ⟨b, _, result⟩ := List.mem_filterMap.mp found
  rcases contains with rfl | rfl <;>
  · simp [Operator.result?] at result
    exact result.2.symm

theorem exists_applies_iff_known (left : l ≠ []) (right : r ≠ []) :
    (∃ a ∈ l, ∃ b ∈ r, op.Applies a b) ↔ ∃ t ∈ l ++ r, t ≠ .any := by
  have applies {a b : Ty} (known : ¬(a = .any ∧ b = .any)) : op.Applies a b := ⟨known, .inr (.inl contains)⟩
  constructor
  · rintro ⟨a, first, b, second, known, _⟩
    by_contra unknown
    simp only [List.mem_append, not_exists, not_and, not_not] at unknown
    exact known ⟨unknown a (.inl first), unknown b (.inr second)⟩
  · rintro ⟨t, member, known⟩
    obtain ⟨a, first⟩ := List.exists_mem_of_ne_nil l left
    obtain ⟨b, second⟩ := List.exists_mem_of_ne_nil r right
    rcases List.mem_append.mp member with member | member
    · exact ⟨t, member, b, second, applies fun both => known both.1⟩
    · exact ⟨a, first, t, member, applies fun both => known both.2⟩

theorem combine_known (left : l ≠ []) (right : r ≠ []) (known : ∃ t ∈ l ++ r, t ≠ .any) :
    (combine (some op) l r).normal = [.bool] ∧ mismatch (some op) l r = false := by
  have some : results (some op) l r ≠ [] := by
    rw [ne_eq, results_eq_nil_iff, not_not]
    exact (exists_applies_iff_known contains left right).mpr known
  refine ⟨?_, by simp [mismatch, some]⟩
  rw [combine_of_results some]
  exact normal_eq_singleton rfl rfl some fun t => bool_of_mem_results contains

theorem combine_unknown (left : l ≠ []) (right : r ≠ []) (unknown : ∀ t ∈ l ++ r, t = .any) :
    (combine (some op) l r).normal = [.any] ∧
      (mismatch (some op) l r = true ↔ l.isUnresolved = false ∧ r.isUnresolved = false) := by
  have none : results (some op) l r = [] := by
    rw [results_eq_nil_iff, exists_applies_iff_known contains left right]
    simpa using unknown
  refine ⟨?_, by simp [mismatch, left, right, none]⟩
  rw [combine, none]
  exact normal_eq_singleton rfl rfl left fun t member => unknown t (List.mem_append_left r member)

end TypeSet

theorem Run.bind_reports {kind : Issue → Prop} (x : String) (ts : TypeSet) (r : Run) :
    r.ReportsOnly kind (r.bind x ts) :=
  ⟨[.bound x ts (r.note x ts).selections.length], by simp [bind], by simp [Event.finding?]⟩

namespace Place

variable (p : Place) (site : Site) {l r : TypeSet}

theorem applyOperator_mismatch_iff (op : Operator) (left right : Node) (run : Run) :
    (∃ x ∈ run.reported (p.applyOperator site (some op) left right l r run).2, x.issue.isMismatch = true) ↔
      TypeSet.mismatch (some op) l r = true := by
  have later : Run.ReportsOnly (fun issue => issue.isMismatch = false)
      (run.reportIf (TypeSet.mismatch (some op) l r) (.about site (.operatorMismatch op l r)))
      (p.applyOperator site (some op) left right l r run).2 := by
    refine .trans ?_ (Run.checkComparison_reports (fun _ => rfl) p.cx op left right _)
    exact .of_log rfl
  exact Run.exists_reported_iff later rfl

theorem assignTo_mismatch_iff {op o : Operator} (augmented : op.augmented? = some o) (id : Ident) (value : Node)
    (given : r ≠ []) (run : Run) :
    (∃ x ∈ run.reported (p.assignTo site op (.ident id) value l r run), x.issue.isMismatch = true) ↔
      TypeSet.mismatch (some o) l r = true := by
  have other : op ≠ .assign := by
    rintro rfl
    cases augmented
  have same : p.assignTo site op (.ident id) value l r run = augment site op id l r run := by
    simp [assignTo, given, other]
  have later : Run.ReportsOnly (fun issue => issue.isMismatch = false)
      (run.reportIf (TypeSet.mismatch (some o) l r) (.about site (.operatorMismatch op l r)))
      (augment site op id l r run) := by
    unfold augment
    rw [augmented]
    dsimp only
    refine .trans ?_ (Run.bind_reports _ _ _)
    exact .of_log rfl
  rw [same]
  exact Run.exists_reported_iff later rfl

/-- Where both operands can be anything, an operator is reported exactly if none of their other alternatives gives it a
result and neither of them is unresolved. A containment has to know something of one operand only. -/
theorem unknown_operands (left right : Node) (id : Ident) (l r : TypeSet) (run : Run) :
    (.any ∈ l → .any ∈ r → ∀ op : Operator,
      ((∃ x ∈ run.reported (p.applyOperator site (some op) left right l r run).2, x.issue.isMismatch = true) ↔
        l.isUnresolved = false ∧ r.isUnresolved = false ∧ ¬op.Resolves l r) ∧
      ∀ o, op.augmented? = some o →
        ((∃ x ∈ run.reported (p.assignTo site op (.ident id) right l r run), x.issue.isMismatch = true) ↔
          l.isUnresolved = false ∧ r.isUnresolved = false ∧ ¬o.Resolves l r)) ∧
    (l ≠ [] → r ≠ [] → ∀ op : Operator, op = .isIn ∨ op = .notIn →
      ((∃ t ∈ l ++ r, t ≠ .any) → (p.applyOperator site (some op) left right l r run).1 = [.bool] ∧
        ∀ x ∈ run.reported (p.applyOperator site (some op) left right l r run).2, x.issue.isMismatch = false) ∧
      ((∀ t ∈ l ++ r, t = .any) → (p.applyOperator site (some op) left right l r run).1 = [.any] ∧
        ((∃ x ∈ run.reported (p.applyOperator site (some op) left right l r run).2, x.issue.isMismatch = true) ↔
          l.isUnresolved = false ∧ r.isUnresolved = false))) := by
  constructor
  · intro first second op
    refine ⟨(p.applyOperator_mismatch_iff site op left right run).trans (TypeSet.mismatch_iff op first second), ?_⟩
    intro o augmented
    have given := List.ne_nil_of_mem second
    exact (p.assignTo_mismatch_iff site augmented id right given run).trans (TypeSet.mismatch_iff o first second)
  · intro first second op contains
    have reported := p.applyOperator_mismatch_iff site (l := l) (r := r) op left right run
    constructor
    · intro known
      obtain ⟨result, fits⟩ := TypeSet.combine_known contains first second known
      refine ⟨result, ?_⟩
      simpa [fits] using reported
    · intro unknown
      obtain ⟨result, mismatch⟩ := TypeSet.combine_unknown contains first second unknown
      exact ⟨result, reported.trans mismatch⟩

theorem unknown_operands_sample :
    (∀ x ∈ sample.cx.start.reported (sample.applyOperator (.at .zero) (some .less) (.ident ⟨.at .zero, "x"⟩)
        (.ident ⟨.at .zero, "y"⟩) [.any, .str] [.any] sample.cx.start).2, x.issue.isMismatch = false) ∧
      ∃ x ∈ sample.cx.start.reported (sample.applyOperator (.at .zero) (some .less) (.ident ⟨.at .zero, "x"⟩)
        (.ident ⟨.at .zero, "y"⟩) [.list [.any], .any] [.any] sample.cx.start).2, x.issue.isMismatch = true := by
  have text := (unknown_operands sample (.at .zero) (.ident ⟨.at .zero, "x"⟩) (.ident ⟨.at .zero, "y"⟩)
    ⟨.at .zero, "x"⟩ [.any, .str] [.any] sample.cx.start).1 (by simp) (by simp) .less
  have list := (unknown_operands sample (.at .zero) (.ident ⟨.at .zero, "x"⟩) (.ident ⟨.at .zero, "y"⟩)
    ⟨.at .zero, "x"⟩ [.list [.any], .any] [.any] sample.cx.start).1 (by simp) (by simp) .less
  constructor
  · have resolves : Operator.less.Resolves [.any, .str] [.any] := .inl ⟨.str, by simp, .inl (by decide)⟩
    simpa [resolves] using text.1
  · refine list.1.mpr ⟨rfl, rfl, ?_⟩
    simp [Operator.Resolves, Operator.Serves, Operator.operandNames, Ty.name]

end Place

def Setting.sampleContainment : Setting :=
  sampleProject (.call (.at .zero) ⟨.at .zero, "message"⟩ (.at .zero) [.binary (.at .zero) (some .isIn)
    (.call (.at .zero) ⟨.at .zero, "get_variable"⟩ (.at .zero) [.str (.at .zero) "a" false])
    (.call (.at .zero) ⟨.at .zero, "get_variable"⟩ (.at .zero) [.str (.at .zero) "b" false])])

/-- A containment between two values of which nothing is known is reported. -/
theorem Setting.unknown_containment_reported :
    ∃ o, sampleContainment.analyze = .ok o ∧ o.diagnostics =
      [⟨.error, "meson.build", .zero, "unable to apply operator `in` to types any and any"⟩] :=
  ⟨_, rfl, by decide +kernel⟩

end MesonCheck
