import MesonCheck.Proofs.Operators

/-! Assignments that combine a variable with a value. The combination is worked out by rules of its own, which have to
come to the same types as the operator in an expression, and to the same mismatches. -/
namespace MesonCheck

namespace TypeSet

theorem combine_eq_nil_iff {op : Option Operator} {l r : TypeSet} : combine op l r = [] ↔ l = [] := by
  unfold combine
  split
  · rfl
  · rename_i found
    constructor
    · intro none
      exact absurd none found
    · rintro rfl
      exact absurd rfl found

theorem normal_eq_nil_iff {s : TypeSet} : s.normal = [] ↔ s = [] := by
  constructor
  · intro none
    by_contra some
    have kept : s.Within s.normal := (within_iff _ _).mpr fun x h => (allows_normal s x).mpr h
    exact ne_nil_of_within kept some none
  · rintro rfl
    rfl

end TypeSet

namespace Run

theorem lookup_eq_nil_of_reading {r : Run} {x : String} (none : r.reading x = []) :
    (r.scope.lookup x).getD [] = [] := by
  by_contra some
  exact TypeSet.ne_nil_of_within (TypeSet.within_union_right (r.hidden x) _) some none

theorem callAt?_reportIf (cond : Bool) (f : Finding) (s : Site) (r : Run) :
    (r.reportIf cond f).callAt? s = r.callAt? s := by
  cases cond with
  | false => rfl
  | true => rfl

/-! What becomes of a binding depends on variables and open selections alone. -/

/-- Whether two states agree on variables and on what open selections have noted of them. -/
def SameVariables (r r' : Run) : Prop :=
  r.scope = r'.scope ∧ r.selections = r'.selections

namespace SameVariables

variable {a b : Run}

theorem reportIf (cond : Bool) (f : Finding) (r : Run) : SameVariables (r.reportIf cond f) r := by
  cases cond with
  | false => exact ⟨rfl, rfl⟩
  | true => exact ⟨rfl, rfl⟩

theorem owe (d : Debt) (r : Run) : SameVariables (r.owe d) r := by
  unfold Run.owe
  split
  · exact ⟨rfl, rfl⟩
  · exact ⟨rfl, rfl⟩

theorem trans {c : Run} (first : SameVariables a b) (second : SameVariables b c) : SameVariables a c :=
  ⟨first.1.trans second.1, first.2.trans second.2⟩

theorem symm (same : SameVariables a b) : SameVariables b a :=
  ⟨same.1.symm, same.2.symm⟩

theorem bind (same : SameVariables a b) (x : String) (ts : TypeSet) : SameVariables (a.bind x ts) (b.bind x ts) := by
  obtain ⟨scope, selections⟩ := same
  constructor
  · simp only [Run.bind, note_scope, scope]
  · cases opened : b.selections with
    | nil => simp only [Run.bind, note, selections, opened]
    | cons s outer => simp only [Run.bind, note, selections, opened, scope]

end SameVariables

/-! Mismatches. -/

def mismatches (r r' : Run) : List Finding :=
  (r.reported r').filter (·.issue.isMismatch)

theorem owe_reports {kind : Issue → Prop} (d : Debt) (r : Run) : ReportsOnly kind r (r.owe d) := by
  unfold owe
  split
  · exact .refl r
  · exact ⟨[.owed d.name], rfl, by simp [Event.finding?]⟩

theorem mismatches_eq {cond : Bool} {f : Finding} {r after r' : Run} {es : List Event}
    (log : after.log = es.reverse ++ r.log) (mismatch : f.issue.isMismatch = true)
    (later : ReportsOnly (fun issue => issue.isMismatch = false) (after.reportIf cond f) r') :
    r.mismatches r' = r.mismatches after ++ if cond then [f] else [] := by
  have first : ReportsOnly (fun _ => True) r after := ⟨es, log, fun _ _ => trivial⟩
  have second : ReportsOnly (fun _ => True) after (after.reportIf cond f) := .reportIf fun _ => trivial
  have rest : (after.reportIf cond f).mismatches r' = [] := by
    rw [mismatches, List.filter_eq_nil_iff]
    intro x found
    simpa using later.issues x found
  have here : after.mismatches (after.reportIf cond f) = if cond then [f] else [] := by
    cases cond with
    | false => simp [mismatches, reportIf, reported, eventsSince]
    | true => simp [mismatches, reportIf, reported_report, mismatch]
  calc r.mismatches r'
    _ = r.mismatches (after.reportIf cond f) ++ (after.reportIf cond f).mismatches r' := by
        rw [mismatches, (first.trans second).reported_append later, List.filter_append]
        rfl
    _ = r.mismatches (after.reportIf cond f) := by rw [rest, List.append_nil]
    _ = r.mismatches after ++ after.mismatches (after.reportIf cond f) := by
        rw [mismatches, first.reported_append second, List.filter_append]
        rfl
    _ = r.mismatches after ++ if cond then [f] else [] := by rw [here]

end Run

namespace Place

variable (p : Place)

section

variable {op o : Operator} (augmented : op.augmented? = some o)
include augmented

theorem applyOperator_augmented (site : Site) (left right : Node) (l m : TypeSet) (r : Run) :
    p.applyOperator site (some o) left right l m r =
      ((TypeSet.combine (some o) l m).normal,
        (r.reportIf (TypeSet.mismatch (some o) l m) (.about site (.operatorMismatch o l m))).annotate site
          (TypeSet.combine (some o) l m).normal) := by
  -- only comparisons are looked at any further
  have other : ¬(o = .equal ∨ o = .notEqual) := by
    rintro (rfl | rfl) <;> cases op <;> cases augmented
  simp [applyOperator, Run.typed, Run.checkComparison, other]

/-- A combination falls back on what the variable is bound to only where that is nothing. -/
theorem augment_eq (site : Site) (id : Ident) {before : TypeSet} (ts : TypeSet) {r : Run}
    (bound : before = [] → (r.scope.lookup id.name).getD [] = []) :
    augment site op id before ts r =
      ((r.reportIf (TypeSet.mismatch (some o) before ts) (.about site (.operatorMismatch op before ts))).annotate
        id.site (TypeSet.combine (some o) before ts).normal).bind id.name
          (TypeSet.combine (some o) before ts).normal := by
  have scope : (r.reportIf (TypeSet.mismatch (some o) before ts) (.about site
      (.operatorMismatch op before ts))).scope = r.scope := (Run.SameVariables.reportIf ..).1
  unfold augment
  dsimp only
  rw [augmented, scope]
  by_cases none : before = []
  · have empty : (TypeSet.combine (some o) before ts).normal = [] :=
      TypeSet.normal_eq_nil_iff.mpr (TypeSet.combine_eq_nil_iff.mpr none)
    have nothing : (TypeSet.normal []) = [] := TypeSet.normal_eq_nil_iff.mpr rfl
    simp [empty, bound none, nothing]
  · have some : (TypeSet.combine (.some o) before ts).normal ≠ [] :=
      mt TypeSet.normal_eq_nil_iff.mp (mt TypeSet.combine_eq_nil_iff.mp none)
    simp [some]

omit augmented in
theorem readVariable_scope (id : Ident) (r : Run) : (readVariable id r).2.scope = r.scope :=
  (Run.SameVariables.reportIf ..).1

/-! Both forms visit the variable and then the value, and come to the same state with that. -/

variable {inLoop : Bool} {id : Ident} {e : Node} {r after : Run} {ts : TypeSet}
  (visited : p.visit inLoop e (readVariable id r).2 = (ts, after))
include visited

theorem visit_augmented (site : Site) (valued : ts = [] → isVoidCall e after = false)
    (bound : r.reading id.name = [] → (after.scope.lookup id.name).getD [] = []) :
    (p.visit inLoop (.assign site op (.ident id) e) r).2 =
      ((after.reportIf (TypeSet.mismatch (some o) (r.reading id.name) ts) (.about site
        (.operatorMismatch op (r.reading id.name) ts))).annotate id.site
          (TypeSet.combine (some o) (r.reading id.name) ts).normal).bind id.name
            (TypeSet.combine (some o) (r.reading id.name) ts).normal := by
  have other : op ≠ .assign := by
    rintro rfl
    cases augmented
  have given : (ts.isEmpty && isVoidCall e after) = false := by
    cases ts with
    | nil => exact valued rfl
    | cons t ts => rfl
  have target : p.visit inLoop (.ident id) r = readVariable id r := by rw [visit]
  rw [visit_assign, if_neg fun plain => other plain.1, target]
  dsimp only
  rw [visited]
  dsimp only [assignTo]
  rw [given, if_neg other]
  exact augment_eq augmented site id ts bound

theorem visit_operands (b : Site) :
    p.visit inLoop (.binary b (some o) (.ident id) e) r =
      ((TypeSet.combine (some o) (r.reading id.name) ts).normal,
        (after.reportIf (TypeSet.mismatch (some o) (r.reading id.name) ts) (.about b
          (.operatorMismatch o (r.reading id.name) ts))).annotate b
            (TypeSet.combine (some o) (r.reading id.name) ts).normal) := by
  have left : p.visit inLoop (.ident id) r = readVariable id r := by rw [visit]
  rw [visit_binary, left]
  dsimp only
  rw [visited]
  exact p.applyOperator_augmented augmented b (.ident id) e (r.reading id.name) ts after

theorem visit_expanded (site b : Site) (target : Ident) (own : after.callAt? b = none) :
    (p.visit inLoop (.assign site .assign (.ident target) (.binary b (some o) (.ident id) e)) r).2 =
      p.assign site target (.binary b (some o) (.ident id) e) (TypeSet.combine (some o) (r.reading id.name) ts).normal
        ((after.reportIf (TypeSet.mismatch (some o) (r.reading id.name) ts) (.about b
          (.operatorMismatch o (r.reading id.name) ts))).annotate b
            (TypeSet.combine (some o) (r.reading id.name) ts).normal) := by
  have value := p.visit_operands augmented visited b
  generalize combined : (TypeSet.combine (some o) (r.reading id.name) ts).normal = result at value ⊢
  generalize checked : after.reportIf (TypeSet.mismatch (some o) (r.reading id.name) ts) (.about b
    (.operatorMismatch o (r.reading id.name) ts)) = run at value ⊢
  have call : isVoidCall (.binary b (some o) (.ident id) e) (run.annotate b result) = false := by
    have none : (run.annotate b result).callAt? b = none := by
      rw [← checked]
      exact (Run.callAt?_reportIf ..).trans own
    unfold isVoidCall
    rw [show Node.site (.binary b (some o) (.ident id) e) = b from rfl, none]
  rw [visit_assign, if_pos ⟨rfl, rfl⟩]
  dsimp only
  rw [value]
  dsimp only [assignTo]
  rw [call, Bool.and_false, if_neg Bool.false_ne_true, if_pos rfl]

end

theorem assign_sameVariables (site : Site) {id : Ident} (writable : id.name ∉ readOnlyNames) (value : Node)
    (ts : TypeSet) (r : Run) : (p.assign site id value ts r).SameVariables (r.bind id.name ts) := by
  have free : readOnlyNames.contains id.name = false := by simpa using writable
  unfold assign
  rw [free, if_neg Bool.false_ne_true]
  have checked : ((r.annotate id.site ts).checkName p.cx id).SameVariables r :=
    .trans (.reportIf ..) ⟨rfl, rfl⟩
  exact (Run.SameVariables.owe ..).trans (checked.bind id.name ts)

theorem assign_reports (site : Site) (id : Ident) (value : Node) (ts : TypeSet) (r : Run) :
    Run.ReportsOnly (fun issue => issue.isMismatch = false) r (p.assign site id value ts r) := by
  unfold assign
  split
  · refine .trans ?_ (.emit rfl)
    apply Run.ReportsOnly.report
    rfl
  · have named : Run.ReportsOnly (fun issue => issue.isMismatch = false) (r.annotate id.site ts)
        ((r.annotate id.site ts).checkName p.cx id) := by
      apply Run.ReportsOnly.reportIf
      intro _
      rfl
    have typed : Run.ReportsOnly (fun issue => issue.isMismatch = false) r (r.annotate id.site ts) := .of_log rfl
    have bound := (typed.trans named).trans (Run.bind_reports id.name ts _)
    exact (bound.trans (Run.owe_reports _ _)).trans (.emit rfl)

/-- A variable that is combined with a value, and one that is assigned the combination, end up with the same types, in
the scope and in what open selections have noted; and one form reports a mismatch exactly if the other does. The value
must not bind the variable nor return nothing, and the expression is no call. -/
theorem augmented_agrees (cx : Setting) (fuel : Nat) (f : SourceFile) (inLoop : Bool) (r after : Run)
    (site site' b : Site) (id target : Ident) (e : Node) (op o : Operator) (ts : TypeSet)
    (augmented : op.augmented? = some o) (named : target.name = id.name) (writable : id.name ∉ readOnlyNames)
    (visited : (cx.place fuel f).visit inLoop e (readVariable id r).2 = (ts, after))
    (unbound : lastBound id.name ((readVariable id r).2.eventsSince after) = none)
    (valued : ts = [] → isVoidCall e after = false) (own : after.callAt? b = none) :
    let short := ((cx.place fuel f).visit inLoop (.assign site op (.ident id) e) r).2
    let long := ((cx.place fuel f).visit inLoop
      (.assign site' .assign (.ident target) (.binary b (some o) (.ident id) e)) r).2
    let mismatch := TypeSet.mismatch (some o) (r.reading id.name) ts
    short.SameVariables long ∧
      short.scope.lookup id.name = some (TypeSet.combine (some o) (r.reading id.name) ts).normal ∧
      (∃ inside, r.mismatches short =
          inside ++ (if mismatch then [.about site (.operatorMismatch op (r.reading id.name) ts)] else []) ∧
        r.mismatches long =
          inside ++ (if mismatch then [.about b (.operatorMismatch o (r.reading id.name) ts)] else [])) ∧
      (r.mismatches short = [] ↔ r.mismatches long = []) := by
  let p := cx.place fuel f
  have enters : p.EntersInSteps := cx.place_enters fuel f
  obtain ⟨ds, read, _⟩ := (p.readVariable_acts r id).walks.trace
  obtain ⟨es, inner, _⟩ := (visit_walks p enters inLoop e (readVariable id r).2).trace
  rw [visited] at inner
  rw [inner.eventsSince_eq] at unbound
  have log : after.log = (ds ++ es).reverse ++ r.log := (read.trans inner).log
  -- the value does not bind the variable, so nothing is left of it where nothing was read
  have bound : r.reading id.name = [] → (after.scope.lookup id.name).getD [] = [] := by
    intro none
    rw [inner.lookup, unbound, Option.none_or, readVariable_scope]
    exact Run.lookup_eq_nil_of_reading none
  have short := p.visit_augmented augmented visited site valued bound
  have long := p.visit_expanded augmented visited site' b target own
  dsimp only
  rw [short, long]
  clear short long
  generalize (TypeSet.combine (some o) (r.reading id.name) ts).normal = result
  let checked := after.reportIf (TypeSet.mismatch (some o) (r.reading id.name) ts) (.about site
    (.operatorMismatch op (r.reading id.name) ts))
  let checked' := after.reportIf (TypeSet.mismatch (some o) (r.reading id.name) ts) (.about b
    (.operatorMismatch o (r.reading id.name) ts))
  have same : (checked.annotate id.site result).SameVariables (checked'.annotate b result) :=
    (Run.SameVariables.reportIf ..).trans (Run.SameVariables.reportIf ..).symm
  have later : Run.ReportsOnly (fun issue => issue.isMismatch = false) checked
      ((checked.annotate id.site result).bind id.name result) := by
    refine .trans ?_ (Run.bind_reports id.name result _)
    exact .of_log rfl
  have later' : Run.ReportsOnly (fun issue => issue.isMismatch = false) checked'
      (p.assign site' target (.binary b (some o) (.ident id) e) result (checked'.annotate b result)) := by
    refine .trans ?_ (p.assign_reports site' target _ result _)
    exact .of_log rfl
  have reports := Run.mismatches_eq log (by rfl) later
  have reports' := Run.mismatches_eq log (by rfl) later'
  refine ⟨?_, ?_, ⟨_, reports, reports'⟩, ?_⟩
  · have bound := p.assign_sameVariables site' (named ▸ writable) (.binary b (some o) (.ident id) e) result
      (checked'.annotate b result)
    rw [named] at bound
    exact (same.bind id.name result).trans bound.symm
  · rw [(Trace.bind id.name result _).lookup]
    simp [lastBound, Event.boundTo]
  · rw [reports, reports']
    split <;> simp

/-- In a branch, `x -= 1` and `x = x - 1` on a text: both are reported, and both leave the text. -/
theorem augmented_agrees_sample :
    let r := openSelection sampleRun
    let short := (samplePlace.visit false (.assign (.at .zero) .minusAssign sampleRead (.int (.at .zero) 1)) r).2
    let long := (samplePlace.visit false (sampleAssign (.binary (.at .zero) (some .minus) sampleRead
      (.int (.at .zero) 1))) r).2
    short.SameVariables long ∧ short.scope.lookup "x" = some [.str] ∧ r.mismatches short ≠ [] ∧
      r.mismatches long ≠ [] := by
  have agrees := augmented_agrees sampleSetting 0 ⟨0, .at .zero, "meson.build", none⟩ false (openSelection sampleRun) _
    (.at .zero) (.at .zero) (.at .zero) ⟨.at .zero, "x"⟩ ⟨.at .zero, "x"⟩ (.int (.at .zero) 1) .minusAssign .minus
    [.int] rfl rfl (by decide) rfl rfl (by simp) rfl
  have some : (openSelection sampleRun).mismatches (samplePlace.visit false
      (.assign (.at .zero) .minusAssign sampleRead (.int (.at .zero) 1)) (openSelection sampleRun)).2 ≠ [] := by
    obtain ⟨inside, reports, _⟩ := agrees.2.2.1
    have mismatch : TypeSet.mismatch (some .minus) ((openSelection sampleRun).reading "x") [.int] = true := rfl
    rw [mismatch, if_pos rfl] at reports
    intro none
    exact List.append_ne_nil_of_right_ne_nil inside (List.cons_ne_nil _ _) (reports.symm.trans none)
  exact ⟨agrees.1, agrees.2.1, some, mt agrees.2.2.2.mpr some⟩

end Place

end MesonCheck
