import MesonCheck.Catalogue.Builtin
import MesonCheck.Proofs.Lints
import MesonCheck.Proofs.VersionOrder

/-! Deprecations lie over an analysis. With another table of them an analysis goes through the same states and records
the same but for their warnings, and a table that says more adds warnings only. -/
namespace MesonCheck

def Issue.isDeprecation : Issue → Bool
  | .deprecatedCallable .. | .deprecatedKeyword .. => true
  | _ => false

def Event.isDeprecation : Event → Bool
  | .found f => f.issue.isDeprecation
  | _ => false

def Outcome.withoutDeprecations (o : Outcome) : Outcome :=
  { o with events := o.events.filter (!·.isDeprecation) }

namespace Outcome

theorem filter_isRecord_withoutDeprecations (o : Outcome) :
    o.withoutDeprecations.events.filter Event.isRecord = o.events.filter Event.isRecord := by
  rw [withoutDeprecations, List.filter_filter]
  refine List.filter_congr fun e _ => ?_
  cases e <;> rfl

theorem sameRecords_of_withoutDeprecations {o o' : Outcome} (same : o.withoutDeprecations = o'.withoutDeprecations) :
    o.SameRecords o' := by
  have events : o.events.filter Event.isRecord = o'.events.filter Event.isRecord := by
    rw [← o.filter_isRecord_withoutDeprecations, same, o'.filter_isRecord_withoutDeprecations]
  injection same with _ scope version slots calls
  exact sameRecords_of_events scope version slots calls events

end Outcome

/-! Tables. -/

/-- Whether a second table lists every name of a first one, from a version on that is not later and with the same
alternatives. -/
def Deprecation.Covers (first second : List Deprecation) : Prop :=
  ∀ n d, first.find? (·.name == n) = some d →
    ∃ d', second.find? (·.name == n) = some d' ∧ d.since.isBefore d'.since = false ∧ d'.alternatives = d.alternatives

namespace Catalogue

def withDeprecations (c : Catalogue) (ds : List Deprecation) : Catalogue :=
  { c with deprecations := ds }

theorem deprecated?_eq_some_iff (c : Catalogue) (n : String) (v : Option Version) (alternatives : List String) :
    c.deprecated? n v = some alternatives ↔
      ∃ d w, c.deprecations.find? (·.name == n) = some d ∧ v = some w ∧ w.isBefore d.since = false ∧
        d.alternatives = alternatives := by
  unfold deprecated?
  cases c.deprecations.find? (·.name == n) with
  | none => simp
  | some d => cases v <;> simp

theorem deprecated?_of_covers {c : Catalogue} {first second : List Deprecation}
    (covers : Deprecation.Covers first second) {n : String} {v : Option Version} {alternatives : List String}
    (found : (c.withDeprecations first).deprecated? n v = some alternatives) :
    (c.withDeprecations second).deprecated? n v = some alternatives := by
  obtain ⟨d, w, listed, rfl, reached, rfl⟩ := (deprecated?_eq_some_iff ..).mp found
  obtain ⟨d', listed', earlier, same⟩ := covers n d listed
  have reached' : w.isBefore d'.since = false := Version.not_isBefore_trans reached earlier
  exact (deprecated?_eq_some_iff ..).mpr ⟨d', w, listed', rfl, reached', same⟩

end Catalogue

namespace Setting

def withDeprecations (cx : Setting) (ds : List Deprecation) : Setting :=
  { cx with catalogue := cx.catalogue.withDeprecations ds }

end Setting

/-! What is looked up in a table. -/

namespace Run

variable (cx : Setting) (file : String) (r : Run)

theorem checkDeprecated_eq (callee : Ident) (f : Callable) :
    r.checkDeprecated cx callee f =
      (cx.catalogue.deprecated? f.id r.version).elim r fun alternatives =>
        r.report (.about callee.site (.deprecatedCallable f.id alternatives)) := by
  unfold checkDeprecated
  cases cx.catalogue.deprecated? f.id r.version <;> rfl

theorem checkKeyword_eq (key : Ident) :
    r.checkKeyword cx key =
      if key.name = "" then r
      else (cx.catalogue.deprecated? ("<" ++ key.name ++ ">") r.version).elim r fun alternatives =>
        r.report (.about key.site (.deprecatedKeyword key.name (alternatives.map bareKeyword))) := by
  unfold checkKeyword
  cases cx.catalogue.deprecated? ("<" ++ key.name ++ ">") r.version <;> rfl

end Run

/-! Walks. -/

namespace Deprecation

/-- Records of walks with two tables. They differ in warnings of deprecations, and where the second table covers the
first one, it has only added some. -/
structure Overlaid (first second : List Deprecation) (a b : Records) : Prop where
  others : a.1.filter (!·.isDeprecation) = b.1.filter (!·.isDeprecation)
  added : Covers first second → a.1.Sublist b.1
  fault : a.2 = b.2

namespace Overlaid

variable {first second : List Deprecation} {a b : Records}

theorem refl (a : Records) : Overlaid first second a a :=
  ⟨rfl, fun _ => .refl _, rfl⟩

theorem emit (both : Overlaid first second a b) (e : Event) : Overlaid first second (a.emit e) (b.emit e) where
  others := by simp [Records.emit, List.filter_cons, both.others]
  added covers := (both.added covers).cons_cons e
  fault := both.fault

theorem fail (both : Overlaid first second a b) (f : Fault) : Overlaid first second (a.fail f) (b.fail f) where
  others := both.others
  added := both.added
  fault := by rw [Records.fail, Records.fail, both.fault]

/-- A deprecation that only the first walk sees. The second table does not cover the first one then. -/
theorem emit_left (both : Overlaid first second a b) {e : Event} (deprecation : e.isDeprecation = true)
    (uncovered : ¬Covers first second) : Overlaid first second (a.emit e) b where
  others := by simp [Records.emit, deprecation, both.others]
  added covers := absurd covers uncovered
  fault := both.fault

theorem emit_right (both : Overlaid first second a b) {e : Event} (deprecation : e.isDeprecation = true) :
    Overlaid first second a (b.emit e) where
  others := by simp [Records.emit, deprecation, both.others]
  added covers := (both.added covers).cons e
  fault := both.fault

end Overlaid

def overlay (first second : List Deprecation) : Comparison :=
  .ofRecords (Overlaid first second) (fun _ both => both.emit _) (fun _ both => both.fail _)

variable {first second : List Deprecation} {r r' : Run}

theorem overlay_reports (issue : Issue) : (overlay first second).Reports issue :=
  fun _ _ both _ _ => both.emit _

theorem overlay_lookup (m : (overlay first second).Matches r r') {found found' : Option (List String)}
    (kept : Covers first second → ∀ alternatives, found = some alternatives → found' = some alternatives)
    (issue : List String → Issue) (deprecation : ∀ alternatives, (issue alternatives).isDeprecation = true)
    (s : Site) :
    (overlay first second).Matches (found.elim r fun alternatives => r.report (.about s (issue alternatives)))
      (found'.elim r' fun alternatives => r'.report (.about s (issue alternatives))) := by
  obtain ⟨scope, both⟩ := m
  cases found with
  | none =>
    cases found' with
    | none => exact .mk scope both
    | some gained => exact .mk scope (both.emit_right (e := .found (.about s (issue gained))) (deprecation gained))
  | some listed =>
    by_cases covers : Covers first second
    · rw [kept covers listed rfl]
      exact .mk scope (both.emit _)
    · have left := both.emit_left (e := .found (.about s (issue listed))) (deprecation listed) covers
      cases found' with
      | none => exact .mk scope left
      | some gained =>
        exact .mk scope (left.emit_right (e := .found (.about s (issue gained))) (deprecation gained))

theorem overlay_tolerates (cx : Setting) (first second : List Deprecation) :
    (overlay first second).Tolerates (cx.withDeprecations first) ⟨cx.lints, second⟩ where
  name m := Comparison.Reports.checkName _ (overlay_reports _) m
  result m := Comparison.Reports.checkResult _ (fun _ => overlay_reports _) m
  callable {r r'} m callee f := by
    rw [Run.checkDeprecated_eq, Run.checkDeprecated_eq, m.version]
    exact overlay_lookup m (fun covers _ => Catalogue.deprecated?_of_covers (c := cx.catalogue) covers)
      (.deprecatedCallable f.id) (fun _ => rfl) callee.site
  keyword {r r'} m key := by
    rw [Run.checkKeyword_eq, Run.checkKeyword_eq, m.version]
    refine .ite m ?_
    exact overlay_lookup m (fun covers _ => Catalogue.deprecated?_of_covers (c := cx.catalogue) covers)
      (fun alternatives => .deprecatedKeyword key.name (alternatives.map bareKeyword)) (fun _ => rfl) key.site
  missing _ _ := overlay_reports _

end Deprecation

namespace Setting

theorem finish_overlay (cx : Setting) (first second : List Deprecation) :
    (Deprecation.overlay first second).Matches (cx.withDeprecations first).finish
      (cx.withDeprecations second).finish := by
  have start : (Deprecation.overlay first second).Matches cx.start cx.start := .mk rfl (.refl _)
  unfold finish
  cases root : cx.tree.root with
  | none =>
    rw [show (cx.withDeprecations first).tree.root = none from root,
      show (cx.withDeprecations second).tree.root = none from root]
    exact start
  | some f =>
    rw [show (cx.withDeprecations first).tree.root = some f from root,
      show (cx.withDeprecations second).tree.root = some f from root]
    exact walk_switched rfl (Deprecation.overlay_tolerates cx first second) (fun _ => Deprecation.overlay_reports _)
      (fun _ _ both => both.fail _) _ f start

theorem finish_deprecations (cx : Setting) (first second : List Deprecation) :
    let r := (cx.withDeprecations first).finish
    ∃ log, (cx.withDeprecations second).finish = { r with log := log } ∧
      r.log.filter (!·.isDeprecation) = log.filter (!·.isDeprecation) ∧
      (Deprecation.Covers first second → r.log.Sublist log) := by
  have both := cx.finish_overlay first second
  generalize (cx.withDeprecations first).finish = r, (cx.withDeprecations second).finish = r' at both
  obtain ⟨rfl, others, added, rfl⟩ := both
  exact ⟨_, rfl, others, added⟩

/-- Two tables of deprecations make no difference but for their warnings, and a table that covers another one gives all
warnings of it. -/
theorem analyze_deprecations (cx : Setting) (first second : List Deprecation) :
    match (cx.withDeprecations first).analyze, (cx.withDeprecations second).analyze with
    | .ok o, .ok o' =>
      o.SameRecords o' ∧ o.withoutDeprecations.diagnostics = o'.withoutDeprecations.diagnostics ∧
        (Deprecation.Covers first second → o.diagnostics.Sublist o'.diagnostics)
    | .error f, .error g => f = g
    | _, _ => False := by
  obtain ⟨log, same, others, added⟩ := cx.finish_deprecations first second
  unfold analyze
  rw [same]
  dsimp only
  cases (cx.withDeprecations first).finish.fault with
  | some f => rfl
  | none =>
    have kept : log.reverse.filter (!·.isDeprecation) =
        (cx.withDeprecations first).finish.log.reverse.filter (!·.isDeprecation) := by
      rw [List.filter_reverse, List.filter_reverse, others]
    have unchanged : (Run.outcome cx (cx.withDeprecations first).finish).withoutDeprecations =
        (Run.outcome cx { (cx.withDeprecations first).finish with log := log }).withoutDeprecations := by
      simp only [Run.outcome, Outcome.withoutDeprecations, kept]
    refine ⟨Outcome.sameRecords_of_withoutDeprecations unchanged, congrArg Outcome.diagnostics unchanged, ?_⟩
    exact fun covers => (added covers).reverse.filterMap _

/-- `project('p', meson_version : '>=0.60'); message('a'); warning('b')`. -/
def sampleVersioned : Setting where
  catalogue := .builtin
  tree := .ofFiles [⟨0, .at .zero, "meson.build", some ⟨.at .zero,
    [.call (.at .zero) ⟨.at .zero, "project"⟩ (.at .zero) [.str (.at .zero) "p" false,
        .keyword (.at .zero) ⟨.at .zero, "meson_version"⟩ (.str (.at .zero) ">=0.60" false)],
      .call (.at .zero) ⟨.at .zero, "message"⟩ (.at .zero) [.str (.at .zero) "a" false],
      .call (.at .zero) ⟨.at .zero, "warning"⟩ (.at .zero) [.str (.at .zero) "b" false]]⟩⟩]

def sampleTable : List Deprecation :=
  [⟨"message", ⟨0, 58, 0, "", ""⟩, ["summary"]⟩]

def sampleLargerTable : List Deprecation :=
  [⟨"warning", ⟨0, 60, 0, "", ""⟩, ["error"]⟩, ⟨"message", ⟨0, 56, 0, "", ""⟩, ["summary"]⟩]

theorem sampleLargerTable_covers : Deprecation.Covers sampleTable sampleLargerTable := by
  intro n d found
  have listed : d ∈ sampleTable := List.mem_of_find?_eq_some found
  have named := List.find?_some found
  rw [sampleTable, List.mem_singleton] at listed
  subst listed
  rw [← beq_iff_eq.mp named]
  exact ⟨_, rfl, by decide, rfl⟩

theorem analyze_deprecations_sample :
    ∃ o o', (sampleVersioned.withDeprecations sampleTable).analyze = .ok o ∧
      (sampleVersioned.withDeprecations sampleLargerTable).analyze = .ok o' ∧
      o.diagnostics.map (·.message) = ["message is deprecated. Use one of these: summary"] ∧
      o'.diagnostics.length = 2 ∧ o.diagnostics.Sublist o'.diagnostics := by
  have compared := analyze_deprecations sampleVersioned sampleTable sampleLargerTable
  have first : (sampleVersioned.withDeprecations sampleTable).analyze =
    .ok ((sampleVersioned.withDeprecations sampleTable).finish.outcome sampleVersioned) := rfl
  have second : (sampleVersioned.withDeprecations sampleLargerTable).analyze =
    .ok ((sampleVersioned.withDeprecations sampleLargerTable).finish.outcome sampleVersioned) := rfl
  rw [first, second] at compared
  exact ⟨_, _, first, second, by decide +kernel, by decide +kernel, compared.2.2 sampleLargerTable_covers⟩

end Setting

end MesonCheck
