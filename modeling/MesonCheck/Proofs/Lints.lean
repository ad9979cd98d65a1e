import Mathlib.Data.List.Basic
import MesonCheck.Analysis.Outcome
import MesonCheck.Proofs.Walk.Simulation

/-! Lints that are switched off. An analysis with some lints switched off goes through the same states as one with all
of them, and records the same but for their warnings. -/
namespace MesonCheck

/-! Outcomes with the same records. -/

structure Outcome.SameRecords (o o' : Outcome) : Prop where
  scope : o.scope = o'.scope
  version : o.version = o'.version
  slots : o.slots = o'.slots
  resolutions : o.resolutions = o'.resolutions
  identifiers : o.identifiers = o'.identifiers
  subscripts : o.subscripts = o'.subscripts
  subdirs : o.subdirs = o'.subdirs
  keywordOwner : ∀ s, o.keywordOwner? s = o'.keywordOwner? s

def Event.isRecord : Event → Bool
  | .found .. => false
  | _ => true

theorem filterMap_records {α : Type} {g : Event → Option α} (ignores : ∀ f, g (.found f) = none)
    (es : List Event) : (es.filter Event.isRecord).filterMap g = es.filterMap g := by
  rw [List.filterMap_filter]
  refine List.filterMap_congr fun e _ => ?_
  cases e with
  | found f => exact (ignores f).symm
  | _ => rfl

theorem Outcome.sameRecords_of_events {o o' : Outcome} (scope : o.scope = o'.scope) (version : o.version = o'.version)
    (slots : o.slots = o'.slots) (calls : o.calls = o'.calls)
    (events : o.events.filter Event.isRecord = o'.events.filter Event.isRecord) : SameRecords o o' := by
  have read {α : Type} {g : Event → Option α} (ignores : ∀ f, g (.found f) = none) :
      o.events.filterMap g = o'.events.filterMap g := by
    calc o.events.filterMap g = (o.events.filter Event.isRecord).filterMap g := (filterMap_records ignores _).symm
      _ = (o'.events.filter Event.isRecord).filterMap g := by rw [events]
      _ = o'.events.filterMap g := filterMap_records ignores _
  constructor
  · exact scope
  · exact version
  · exact slots
  · rw [resolutions, resolutions, calls, read fun _ => rfl]
  · exact read fun _ => rfl
  · exact read fun _ => rfl
  · exact read fun _ => rfl
  · intro s
    rw [keywordOwner?, keywordOwner?, ← List.head?_filterMap, ← List.head?_filterMap, List.filterMap_reverse,
      List.filterMap_reverse, read fun _ => rfl]

/-! Warnings that are switched off. -/

namespace LintOptions

def hides (o : LintOptions) : String → Bool
  | "expected snake case" => o.skipNames
  | "unknown compiler id" => o.skipIds || o.skipCompilerIds
  | "unknown compiler argument syntax" => o.skipIds || o.skipArgumentSyntaxes
  | "unknown linker id" => o.skipIds || o.skipLinkerIds
  | "unknown cpu family" => o.skipIds || o.skipCpuFamilies
  | "unknown operating system name" => o.skipIds || o.skipOsNames
  | _ => false

def shows (o : LintOptions) (d : Diagnostic) : Bool :=
  !(d.severity == .warning && o.hides d.message)

def showsIssue (o : LintOptions) : Issue → Bool
  | .mixedCase => !o.skipNames
  | .unknownName .pureFunctions | .unknownName .pureMethods => true
  | .unknownName names => o.checks names
  | _ => true

def showsEvent (o : LintOptions) : Event → Bool
  | .found f => o.showsIssue f.issue
  | _ => true

theorem showsEvent_of_isOpen (o : LintOptions) {e : Event} (calm : e.isOpen = false) : o.showsEvent e = true := by
  cases e with
  | found f =>
    obtain ⟨_, _, issue⟩ := f
    cases issue with
    | mixedCase | unknownName => cases calm
    | _ => rfl
  | _ => rfl

theorem showsIssue_of_result (o : LintOptions) {id : String} {names : NameSet} (result : resultNames? id = some names) :
    o.showsIssue (.unknownName names) = o.checks names := by
  unfold resultNames? at result
  split at result <;> cases result <;> rfl

theorem filter_isRecord (o : LintOptions) (es : List Event) :
    (es.filter o.showsEvent).filter Event.isRecord = es.filter Event.isRecord := by
  rw [List.filter_filter]
  refine List.filter_congr fun e _ => ?_
  cases e <;> rfl

/-! The texts of other warnings are different. -/

def lintTexts : List String :=
  ["expected snake case", "unknown compiler id", "unknown compiler argument syntax", "unknown linker id",
    "unknown cpu family", "unknown operating system name"]

theorem mem_of_hides {o : LintOptions} {text : String} (hidden : o.hides text = true) : text ∈ lintTexts := by
  unfold hides at hidden
  split at hidden <;> first | decide | contradiction

theorem hides_of_stop {o : LintOptions} {text : String} (stop : '.' ∈ text.toList) : o.hides text = false := by
  refine Bool.eq_false_iff.mpr fun hidden => ?_
  have none : ∀ t ∈ lintTexts, '.' ∉ t.toList := by decide
  exact none text (mem_of_hides hidden) stop

theorem hides_append {o : LintOptions} {start : String} (rest : String)
    (other : start.toList.head? ∉ [none, some 'e', some 'u']) : o.hides (start ++ rest) = false := by
  refine Bool.eq_false_iff.mpr fun hidden => ?_
  have first : ∀ t ∈ lintTexts, t.toList.head? ∈ [some 'e', some 'u'] := by decide
  have letter := first _ (mem_of_hides hidden)
  rw [String.toList_append] at letter
  cases begins : start.toList with
  | nil => simp [begins] at other
  | cons c cs =>
    rw [begins] at letter other
    exact other (List.mem_cons_of_mem _ letter)

theorem shows_diagnostic (o : LintOptions) (f : Finding) (files : LinkedFiles) :
    o.shows (f.diagnostic files) = o.showsIssue f.issue := by
  obtain ⟨first, last, issue⟩ := f
  have warning {issue : Issue} {text : String} (message : issue.message = text) (other : o.hides text = false) :
      o.shows (Finding.diagnostic ⟨first, last, issue⟩ files) = true := by
    simp [shows, Finding.diagnostic, message, other]
  cases issue with
  | mixedCase => rfl
  | unknownName names =>
    cases names with
    | pureFunctions | pureMethods => rfl
    | compilerIds | argumentSyntaxes | linkerIds | cpuFamilies | osNames => exact Bool.not_or ..
  | deadCode => exact warning rfl rfl
  | noEffect => exact warning rfl rfl
  | unusedAssignment => exact warning rfl rfl
  | unusedParameter => exact warning rfl rfl
  | pointlessFormat => exact warning rfl rfl
  | deprecatedOption name =>
    have text : Issue.message (.deprecatedOption name) = "option " ++ (Issue.ticked name ++ " is deprecated") :=
      String.append_assoc
    exact warning text (hides_append _ (by decide))
  | duplicateKeyword key =>
    have text : Issue.message (.duplicateKeyword key) = "duplicate keyword argument " ++ key := rfl
    exact warning text (hides_append _ (by decide))
  | deprecatedKeyword key alternatives =>
    have text : Issue.message (.deprecatedKeyword key alternatives) =
        "keyword " ++ (key ++ Issue.replacements alternatives) := String.append_assoc
    exact warning text (hides_append _ (by decide))
  | deprecatedCallable id alternatives =>
    have text : Issue.message (.deprecatedCallable id alternatives) =
        id ++ (" is deprecated. Use one of these: " ++ Text.joinWith ", " alternatives) := rfl
    refine warning text (hides_of_stop ?_)
    rw [String.toList_append, String.toList_append]
    exact List.mem_append_right _ (List.mem_append_left _ (by decide))
  | _ => rfl

theorem diagnostics_filter (o : LintOptions) (all rest : Outcome) (same : rest.tree = all.tree)
    (sifted : rest.events = all.events.filter o.showsEvent) : rest.diagnostics = all.diagnostics.filter o.shows := by
  rw [Outcome.diagnostics, Outcome.diagnostics, same, sifted, List.filterMap_filter, List.filter_filterMap]
  refine List.filterMap_congr fun e _ => ?_
  cases e with
  | found f =>
    have shown : o.showsEvent (.found f) = o.shows (f.diagnostic all.tree.linked) := (o.shows_diagnostic f _).symm
    rw [shown, Option.filter_some]
  | _ => rfl

/-! Walks. -/

def sifting (o : LintOptions) : Comparison :=
  .ofRecords (fun a b => b = (a.1.filter o.showsEvent, a.2))
    (fun calm sifted => by
      rw [sifted]
      simp [Records.emit, o.showsEvent_of_isOpen calm])
    (fun _ sifted => by
      rw [sifted]
      rfl)

variable {o : LintOptions} {r r' : Run}

theorem sifting_matches_iff : o.sifting.Matches r r' ↔ r' = { r with log := r.log.filter o.showsEvent } := by
  constructor
  · rintro ⟨scope, sifted⟩
    cases scope
    cases sifted
    rfl
  · rintro rfl
    exact .mk rfl rfl

theorem sifting_reports {issue : Issue} (shown : o.showsIssue issue = true) : o.sifting.Reports issue := by
  rintro a b sifted first last
  have kept : o.showsEvent (.found ⟨first, last, issue⟩) = true := shown
  rw [show b = (a.1.filter o.showsEvent, a.2) from sifted]
  exact congrArg (·, a.2) (List.filter_cons_of_pos kept).symm

theorem sifting_reportIf (m : o.sifting.Matches r r') (cond : Bool) (f : Finding) :
    o.sifting.Matches (r.reportIf cond f) (r'.reportIf (o.showsIssue f.issue && cond) f) := by
  cases cond with
  | false =>
    rw [Bool.and_false]
    exact m
  | true =>
    rw [Bool.and_true]
    cases shown : o.showsIssue f.issue with
    | true => exact (sifting_reports shown).report m f.first f.last
    | false =>
      have dropped : ¬o.showsEvent (.found f) = true := by simp [showsEvent, shown]
      rw [sifting_matches_iff] at m ⊢
      rw [m]
      exact congrArg ({ r with log := · }) (List.filter_cons_of_neg dropped).symm

theorem sifting_tolerates (o : LintOptions) (cx : Setting) :
    o.sifting.Tolerates { cx with lints := {} } ⟨o, cx.catalogue.deprecations⟩ where
  name m id := sifting_reportIf m (isMixedCase id.name) ..
  result {r r'} m method text value := by
    unfold Run.checkResult
    rw [m.callAt?]
    split
    · rename_i names found
      obtain ⟨f, -, result⟩ := Option.bind_eq_some_iff.mp found
      have all : LintOptions.checks {} names = true := by cases names <;> rfl
      have reported := sifting_reportIf m (!cx.catalogue.knows names value) (.about text (.unknownName names))
      rw [Finding.issue_about, o.showsIssue_of_result result] at reported
      rw [all]
      exact reported
    · exact m
  callable m := Comparison.Reports.checkDeprecated _ (fun _ _ => sifting_reports rfl) m
  keyword m := Comparison.Reports.checkKeyword _ (fun _ _ => sifting_reports rfl) m
  missing _ _ := sifting_reports rfl

end LintOptions

namespace Setting

theorem finish_lints (cx : Setting) (o : LintOptions) :
    let all := Setting.finish { cx with lints := {} }
    Setting.finish { cx with lints := o } = { all with log := all.log.filter o.showsEvent } := by
  refine LintOptions.sifting_matches_iff.mp ?_
  have start : o.sifting.Matches cx.start cx.start := LintOptions.sifting_matches_iff.mpr rfl
  unfold finish
  cases cx.tree.root with
  | none => exact start
  | some f =>
    refine walk_switched rfl (o.sifting_tolerates cx) (fun _ => LintOptions.sifting_reports rfl) ?_ _ f start
    rintro a b rfl
    rfl

/-- Switching lints off takes their warnings away and changes nothing else. -/
theorem analyze_lints (cx : Setting) (o : LintOptions) :
    match Setting.analyze { cx with lints := {} }, Setting.analyze { cx with lints := o } with
    | .ok all, .ok rest => rest.SameRecords all ∧ rest.diagnostics = all.diagnostics.filter o.shows
    | .error f, .error g => f = g
    | _, _ => False := by
  have sifted := cx.finish_lints o
  unfold analyze
  rw [sifted]
  dsimp only
  cases (Setting.finish { cx with lints := {} }).fault with
  | some f => rfl
  | none =>
    refine ⟨Outcome.sameRecords_of_events rfl rfl rfl rfl ?_, ?_⟩
    · dsimp only [Run.outcome]
      rw [← List.filter_reverse]
      exact o.filter_isRecord _
    · exact o.diagnostics_filter _ _ rfl List.filter_reverse.symm

end Setting

end MesonCheck
