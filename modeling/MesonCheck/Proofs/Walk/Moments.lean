import MesonCheck.Proofs.Walk.Branches
import MesonCheck.Proofs.Walk.Course

/-! Moments of an analysis. The number of events before something tells when it happens, and events are never taken
back, so what a visit does to variables is still to be seen at the end. -/
namespace MesonCheck

namespace Run

def eventAt (r : Run) (n : Nat) : Option Event :=
  r.log.reverse[n]?

variable {r r' : Run} {n : Nat} {e : Event}

theorem eventAt_of_suffix (kept : r.log <:+ r'.log) (early : n < r.log.length) : r'.eventAt n = r.eventAt n := by
  obtain ⟨es, log⟩ := kept
  rw [eventAt, eventAt, ← log, List.reverse_append, List.getElem?_append_left]
  rwa [List.length_reverse]

theorem eventAt_length (log : r'.log = e :: r.log) : r'.eventAt r.log.length = some e := by
  rw [eventAt, log, List.reverse_cons, List.getElem?_append_right (by simp)]
  simp

theorem lt_of_eventAt (found : r.eventAt n = some e) : n < r.log.length := by
  obtain ⟨bound, _⟩ := List.getElem?_eq_some_iff.mp found
  rwa [List.length_reverse] at bound

theorem mem_of_eventAt_later {es : List Event} (log : r'.log = es.reverse ++ r.log) (later : r.log.length ≤ n)
    (found : r'.eventAt n = some e) : e ∈ es := by
  have behind : r.log.reverse.length ≤ n := by rwa [List.length_reverse]
  rw [eventAt, log, List.reverse_append, List.reverse_reverse, List.getElem?_append_right behind] at found
  exact List.mem_of_getElem? found

theorem eq_of_eventAt_next {e' : Event} (log : r'.log = e :: r.log) (later : r.log.length ≤ n)
    (found : r'.eventAt n = some e') : e' = e :=
  List.mem_singleton.mp (mem_of_eventAt_later log later found)

theorem eventAt_before {es : List Event} (log : r'.log = es.reverse ++ r.log) (found : r'.eventAt n = some e)
    (other : e ∉ es) : r.eventAt n = some e := by
  by_cases early : n < r.log.length
  · rwa [eventAt_of_suffix ⟨_, log.symm⟩ early] at found
  · exact absurd (mem_of_eventAt_later log (Nat.le_of_not_lt early) found) other

theorem exists_eventAt {es : List Event} (log : r'.log = es.reverse ++ r.log) (member : e ∈ es) :
    ∃ n, r.log.length ≤ n ∧ r'.eventAt n = some e := by
  obtain ⟨i, bound, found⟩ := List.getElem_of_mem member
  refine ⟨r.log.length + i, Nat.le_add_right _ _, ?_⟩
  rw [eventAt, log, List.reverse_append, List.reverse_reverse, List.getElem?_append_right (by simp)]
  simp [bound, found]

theorem log_owe (d : Debt) (r : Run) : (r.owe d).log = r.log ∨ (r.owe d).log = .owed d.name :: r.log := by
  unfold owe
  split
  · exact .inl rfl
  · exact .inr rfl

end Run

/-! Steps that do nothing to variables. -/

def Event.isNeutral : Event → Bool
  | .bound .. | .read .. | .owed _ | .used _ | .found ⟨_, _, .unusedAssignment⟩ => false
  | _ => true

theorem Event.isNeutral_of_isCommon {e : Event} (common : e.isCommon = true) : e.isNeutral = true := by
  cases e with
  | found f =>
    obtain ⟨_, _, issue⟩ := f
    cases issue <;> trivial
  | _ => trivial

theorem Still.neutral {old : Leftovers} {r r' : Run} (still : Still old r r') :
    ∃ es : List Event, r'.log = es.reverse ++ r.log ∧ (∀ e ∈ es, e.isNeutral = true) ∧ r'.debts = r.debts := by
  induction still with
  | refl r => exact ⟨[], rfl, by simp, rfl⟩
  | trans _ _ first second =>
    obtain ⟨es, log, neutral, debts⟩ := first
    obtain ⟨fs, log', neutral', debts'⟩ := second
    refine ⟨es ++ fs, ?_, List.forall_mem_append.mpr ⟨neutral, neutral'⟩, debts'.trans debts⟩
    rw [log', log, List.reverse_append, List.append_assoc]
  | emit e common r => exact ⟨[e], rfl, by simpa using Event.isNeutral_of_isCommon common, rfl⟩
  | stale s r => exact ⟨[_], rfl, by simp [Event.isNeutral], rfl⟩
  | resolve s f r => exact ⟨[_], rfl, by simp [Event.isNeutral], rfl⟩
  | annotate | fail | version => exact ⟨[], rfl, by simp, rfl⟩

theorem Course.closing {old : Leftovers} {done : Deed → Prop} {beside : Nat → Nat → Prop} {r r' : Run} {ds : List Debt}
    (isExhaustive : Bool) (inside : Course old done beside (Place.openSelection r) ds r') :
    ∃ es fs : List Event, r'.log = es.reverse ++ r.log ∧
      (Place.closeSelection isExhaustive r.scope.flatten (r'.carry (Place.firstDebts ds))).log = fs.reverse ++ r'.log ∧
      Merged isExhaustive r.scope r.selections.length es fs := by
  obtain ⟨es, trace, covered, _⟩ := (inside.walks.trans (.quiet (.carry (Place.firstDebts ds) r'))).trace
  obtain ⟨fs, closed, merged⟩ := trace.selection isExhaustive covered
  have log : r'.log = es.reverse ++ r.log := by
    rw [← Run.carry_log (Place.firstDebts ds)]
    exact trace.log
  refine ⟨es, fs, log, ?_, merged⟩
  rw [closed.log, log, List.reverse_append, List.append_assoc]

def Debt.report (d : Debt) : Event :=
  .found (.about d.site .unusedAssignment)

def Setting.unsettled (cx : Setting) (ds : List Debt) : List Debt :=
  ds.filter fun d => !cx.provides.contains d.name && !d.isExempt

theorem Run.log_settle (cx : Setting) (ds : List Debt) (r : Run) :
    (r.settle cx ds).log = ((cx.unsettled ds).map Debt.report).reverse ++ r.log := by
  induction ds generalizing r with
  | nil => rfl
  | cons d ds ih =>
    rw [settle, List.foldl_cons, ← settle, ih]
    by_cases reported : (!cx.provides.contains d.name && !d.isExempt) = true
    · have first : cx.unsettled (d :: ds) = d :: cx.unsettled ds := List.filter_cons_of_pos reported
      rw [first, reportIf, if_pos reported, report, emit]
      simp [Debt.report]
    · have first : cx.unsettled (d :: ds) = cx.unsettled ds := List.filter_cons_of_neg reported
      rw [first, reportIf, if_neg reported]

/-! The deeds of a visit. -/

namespace Place

theorem functionDeeds_around (p : Place) (site : Site) (f : Callable) (args : List Argument) (r : Run) :
    ∀ d ∈ p.functionDeeds f args r,
      Walks p.cx.earlier r d.before ∧ Walks p.cx.earlier d.after (p.applyFunction site f args r).2 := by
  unfold functionDeeds
  split
  · rename_i called
    simp only [applyFunction, called]
    exact (p.variableTypes_acts r f args).around
  · rename_i called
    simp only [applyFunction, called]
    exact (p.setVariable_acts r args).around
  · simp

theorem deeds_around {p : Place} (enters : p.EntersInSteps) (v : Visit) :
    ∀ d ∈ p.deeds v, Walks p.cx.earlier v.before d.before ∧ Walks p.cx.earlier d.after (p.after v) := by
  obtain ⟨inLoop, task, r⟩ := v
  have around {ds : List Deed} {a b c : Run} (before : Walks p.cx.earlier r a)
      (inside : ∀ d ∈ ds, Walks p.cx.earlier a d.before ∧ Walks p.cx.earlier d.after b)
      (after : Walks p.cx.earlier b c) :
      ∀ d ∈ ds, Walks p.cx.earlier r d.before ∧ Walks p.cx.earlier d.after c := by
    intro d member
    obtain ⟨first, second⟩ := inside d member
    exact ⟨before.trans first, second.trans after⟩
  cases task with
  | node n =>
    cases n with
    | ident id => exact (p.readVariable_acts r id).around
    | str s t isFormat =>
      cases isFormat with
      | false => simp [deeds]
      | true => exact around (.quiet (.annotate ..)) (checkPlaceholders_acts _ s t).around (.refl _)
    | call s callee argSite as =>
      dsimp only [deeds]
      cases found : p.cx.catalogue.function? callee.name with
      | none => simp
      | some f =>
        refine around (visitAll_walks p enters inLoop as r) (p.functionDeeds_around s f _ _) ?_
        dsimp only [after]
        rw [visit]
        dsimp only [callFunction]
        rw [found]
        exact .trans (.quiet (.annotate ..)) (p.checkCall_still ..).walks
    | assign s op t x =>
      dsimp only [deeds, after]
      rw [visit_assign]
      have target : Walks p.cx.earlier r
          (if op = .assign ∧ t.isIdent then (([] : TypeSet), r) else visit p inLoop t r).2 := by
        split
        · exact .refl r
        · exact visit_walks p enters inLoop t r
      exact around (target.trans (visit_walks p enters inLoop x _)) (p.assignTo_acts ..).around (.refl _)
    | loop s ids subject body =>
      dsimp only [deeds, after]
      rw [visit_loop]
      exact around (visit_walks p enters true subject r) (p.bindLoop_acts ..).around
        (visitStatements_walks p enters ..)
    | _ => simp [deeds]
  | _ => simp [deeds]

end Place

namespace Setting.Does

variable {cx : Setting} {d : Deed}

theorem log_suffix (does : cx.Does d) : d.after.log <:+ cx.finish.log := by
  obtain ⟨fuel, f, v, makes, member⟩ := does
  obtain ⟨outer, nests⟩ := exists_nests_iff.mpr makes
  have around := Place.deeds_around (cx.place_enters fuel f) v d member
  exact around.2.log_suffix.trans nests.log_suffix

theorem eventAt (does : cx.Does d) {e : Event} (log : d.after.log = e :: d.before.log) :
    cx.finish.eventAt d.time = some e := by
  have early : d.time < d.after.log.length := by
    rw [log]
    exact Nat.lt_succ_self _
  rw [Run.eventAt_of_suffix does.log_suffix early]
  exact Run.eventAt_length log

theorem eventAt_bind {x : String} {ts : TypeSet} {r : Run} (does : cx.Does ⟨.bind x ts, r⟩) :
    cx.finish.eventAt r.log.length = some (.bound x ts r.selections.length) :=
  does.eventAt (Trace.bind x ts r).log

theorem eventAt_use {x : String} {r : Run} (does : cx.Does ⟨.use x, r⟩) :
    cx.finish.eventAt r.log.length = some (.used x) :=
  does.eventAt rfl

end Setting.Does

end MesonCheck
