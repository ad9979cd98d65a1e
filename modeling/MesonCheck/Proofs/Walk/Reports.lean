import MesonCheck.Catalogue.Builtin
import MesonCheck.Proofs.Walk.Branches

/-! What rules report by themselves. A stretch of an analysis adds events to the log; that it adds no issue of some kind
is put together from what its steps add. -/
namespace MesonCheck

def Event.finding? : Event → Option Finding
  | .found finding => some finding
  | _ => none

namespace Run

def reported (r r' : Run) : List Finding :=
  (r.eventsSince r').filterMap Event.finding?

theorem reported_of_log {r r' : Run} {es : List Event} (log : r'.log = es.reverse ++ r.log) :
    r.reported r' = es.filterMap Event.finding? := by
  rw [reported, eventsSince_of_log log]

theorem reported_report (r : Run) (f : Finding) : r.reported (r.report f) = [f] := by
  have log : (r.report f).log = [Event.found f].reverse ++ r.log := rfl
  rw [reported_of_log log]
  rfl

def ReportsOnly (kind : Issue → Prop) (r r' : Run) : Prop :=
  ∃ es : List Event, r'.log = es.reverse ++ r.log ∧ ∀ x ∈ es.filterMap Event.finding?, kind x.issue

namespace ReportsOnly

variable {kind : Issue → Prop} {a b c r : Run}

theorem refl (r : Run) : ReportsOnly kind r r :=
  ⟨[], rfl, by simp⟩

theorem trans (first : ReportsOnly kind a b) (second : ReportsOnly kind b c) : ReportsOnly kind a c := by
  obtain ⟨es, log, here⟩ := first
  obtain ⟨fs, log', later⟩ := second
  refine ⟨es ++ fs, by simp [log, log'], ?_⟩
  rw [List.filterMap_append, List.forall_mem_append]
  exact ⟨here, later⟩

theorem of_log (log : b.log = a.log) : ReportsOnly kind a b :=
  ⟨[], log, by simp⟩

theorem emit {e : Event} (silent : e.finding? = none) : ReportsOnly kind r (r.emit e) :=
  ⟨[e], rfl, by simp [silent]⟩

theorem report {f : Finding} (allowed : kind f.issue) : ReportsOnly kind r (r.report f) :=
  ⟨[.found f], rfl, by simpa [Event.finding?] using allowed⟩

theorem reportIf {cond : Bool} {f : Finding} (allowed : cond = true → kind f.issue) :
    ReportsOnly kind r (r.reportIf cond f) := by
  cases cond with
  | false => exact refl r
  | true => exact report (allowed rfl)

theorem foldl {α : Type} {step : Run → α → Run} {as : List α}
    (each : ∀ r, ∀ a ∈ as, ReportsOnly kind r (step r a)) (r : Run) : ReportsOnly kind r (as.foldl step r) := by
  induction as generalizing r with
  | nil => exact refl r
  | cons a as ih =>
    apply (each r a List.mem_cons_self).trans
    apply ih
    intro r b member
    exact each r b (List.mem_cons_of_mem a member)

theorem reportAll {fs : List Finding} (allowed : ∀ f ∈ fs, kind f.issue) (r : Run) :
    ReportsOnly kind r (r.reportAll fs) := by
  apply foldl
  intro r f member
  exact report (allowed f member)

theorem issues (only : ReportsOnly kind a b) : ∀ x ∈ a.reported b, kind x.issue := by
  obtain ⟨es, log, here⟩ := only
  rw [reported_of_log log]
  exact here

theorem reported_append {kind' : Issue → Prop} (first : ReportsOnly kind a b) (second : ReportsOnly kind' b c) :
    a.reported c = a.reported b ++ b.reported c := by
  obtain ⟨es, log, _⟩ := first
  obtain ⟨fs, log', _⟩ := second
  have all : c.log = (es ++ fs).reverse ++ a.log := by simp [log, log']
  rw [reported_of_log all, reported_of_log log, reported_of_log log', List.filterMap_append]

end ReportsOnly

theorem reportAll_log (fs : List Finding) (r : Run) :
    (r.reportAll fs).log = (fs.map Event.found).reverse ++ r.log := by
  unfold reportAll
  induction fs generalizing r with
  | nil => rfl
  | cons f fs ih =>
    rw [List.foldl_cons, ih]
    simp [report, emit]

theorem reported_reportAll (fs : List Finding) (r : Run) : r.reported (r.reportAll fs) = fs := by
  rw [reported_of_log (reportAll_log fs r), List.filterMap_map]
  exact List.filterMap_some

theorem exists_reported_iff {kind : Issue → Bool} {cond : Bool} {f : Finding} {r r' : Run}
    (later : ReportsOnly (fun i => kind i = false) (r.reportIf cond f) r') (here : kind f.issue = true) :
    (∃ x ∈ r.reported r', kind x.issue = true) ↔ cond = true := by
  cases cond with
  | false =>
    have others := later.issues
    simp_all [reportIf]
  | true =>
    have first : ReportsOnly (fun _ => True) r (r.report f) := .report trivial
    have all := first.reported_append later
    rw [reported_report] at all
    simp [all, here]

variable {kind : Issue → Prop}

theorem checkDeprecated_reports (allowed : ∀ id alternatives, kind (.deprecatedCallable id alternatives)) (cx : Setting)
    (callee : Ident) (f : Callable) (r : Run) :
    ReportsOnly kind r (r.checkDeprecated cx callee f) := by
  unfold checkDeprecated
  split
  · exact .report (allowed _ _)
  · exact .refl r

theorem checkComparison_reports (allowed : ∀ collection, kind (.unknownName collection)) (cx : Setting)
    (op : Operator) (left right : Node) (r : Run) : ReportsOnly kind r (r.checkComparison cx op left right) := by
  have checked (method text : Site) (value : String) :
      ReportsOnly kind r (r.checkResult cx method text value) := by
    unfold checkResult
    split
    · exact .reportIf fun _ => allowed _
    · exact .refl r
  unfold checkComparison
  split
  · split
    · exact checked _ _ _
    · exact .refl r
    · exact checked _ _ _
    · exact .refl r
  · exact .refl r

end Run

namespace Place

variable {kind : Issue → Prop} (p : Place)

theorem checkCall_afterwards (deprecated : ∀ id alternatives, kind (.deprecatedCallable id alternatives)) (site : Site)
    (callee : Ident) (f : Callable) (args : List Argument) (r : Run) :
    Run.ReportsOnly kind ((r.resolve site f).reportAll (f.findings site args))
      (p.checkCall site callee f args r) := by
  refine .trans ?_ (Run.checkDeprecated_reports deprecated _ _ _ _)
  apply Run.ReportsOnly.foldl
  intro r a _
  split
  · exact .refl r
  · exact .emit rfl

/-- A call that has been resolved reports what is wrong with its arguments, and then at most that it is deprecated. -/
theorem checkCall_reported (site : Site) (callee : Ident) (f : Callable) (args : List Argument) (r : Run) :
    ∃ xs : List Finding, r.reported (p.checkCall site callee f args r) = f.findings site args ++ xs ∧
      ∀ x ∈ xs, ∃ id alternatives, x.issue = .deprecatedCallable id alternatives := by
  let kind (issue : Issue) : Prop := ∃ id alternatives, issue = .deprecatedCallable id alternatives
  have deprecated (id : String) (alternatives : List String) : kind (.deprecatedCallable id alternatives) :=
    ⟨id, alternatives, rfl⟩
  obtain ⟨es, log, rest⟩ := p.checkCall_afterwards deprecated site callee f args r
  rw [Run.reportAll_log] at log
  have all : (p.checkCall site callee f args r).log =
      (.resolved site f :: (f.findings site args).map Event.found ++ es).reverse ++ r.log := by
    rw [log]
    simp [Run.resolve]
  have same (fs : List Finding) : (fs.map Event.found).filterMap Event.finding? = fs := by
    simp [List.filterMap_map, Function.comp_def, Event.finding?]
  refine ⟨es.filterMap Event.finding?, ?_, rest⟩
  rw [Run.reported_of_log all, List.cons_append, List.filterMap_cons_none rfl, List.filterMap_append, same]

theorem checkCall_reports (misuse : ∀ issue : Issue, issue.isMisuse = true → kind issue)
    (deprecated : ∀ id alternatives, kind (.deprecatedCallable id alternatives)) (site : Site) (callee : Ident)
    (f : Callable) (args : List Argument) (r : Run) : Run.ReportsOnly kind r (p.checkCall site callee f args r) := by
  have resolved : Run.ReportsOnly kind r (r.resolve site f) := .emit rfl
  apply resolved.trans
  refine .trans ?_ (p.checkCall_afterwards deprecated site callee f args r)
  apply Run.ReportsOnly.reportAll
  intro x found
  exact misuse _ (Misuses.findings (fun _ => True) f site args trivial (fun _ _ => trivial) x found).1

def sample : Place :=
  ⟨{ catalogue := .builtin, tree := .ofFiles [] }, ⟨0, .at .zero, "meson.build", none⟩, fun _ r => r⟩

end Place

end MesonCheck
