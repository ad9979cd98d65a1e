import MesonCheck.Catalogue.Document
import MesonCheck.Lint.Report
import MesonCheck.Proofs.Lint.Order
import MesonCheck.Proofs.Subprojects.Determinism

/-! Reports of lint runs. A report holds what the analysis of the tree has found and, as seen from the workspace, what
the analyses of the subprojects have found, in the order of reports. It does not tell in which order the subprojects
have ended. -/
namespace MesonCheck

theorem Issue.severity_graded (issue : Issue) : issue.severity = .error ∨ issue.severity = .warning := by
  cases issue <;> simp [severity]

theorem Outcome.diagnostics_graded (o : Outcome) : ∀ d ∈ o.diagnostics, d.IsGraded := by
  intro d member
  obtain ⟨e, _, same⟩ := List.mem_filterMap.mp member
  cases e with
  | found f =>
    cases same
    exact f.issue.severity_graded
  | _ => contradiction

theorem Report.warnings_eq {r : Report} (graded : ∀ d ∈ r.diagnostics, d.IsGraded) :
    r.warnings = r.diagnostics.countP (·.severity == .warning) := by
  refine List.countP_congr fun d member => ?_
  rcases graded d member with grade | grade <;> simp [grade]

theorem Report.errors_add_warnings (r : Report) : r.errors + r.warnings = r.diagnostics.length := by
  rw [List.length_eq_countP_add_countP (·.severity == .error)]
  exact congrArg _ (List.countP_congr fun d _ => by simp)

namespace Workspace

def analyzeRoot (c : Catalogue) (lints : LintOptions) (ws : Workspace) (st : Resolution) (tree : SourceTree) :
    Except Fault Outcome :=
  Setting.analyze ⟨c, tree, ws.options, lints, some st.known, [], ws.slots⟩

def completed (ws : Workspace) (st : Resolution) (tree : SourceTree) (root : Outcome) (files : Nat) : LintRun where
  report :=
    { workspace := ws.title
      diagnostics := Diagnostic.sort (root.diagnostics ++ st.sorted.flatMap relocated)
      failures := st.errors
      files := tree.files.length + files }
  workspace := { ws with slots := root.slots, subprojects := ws.subprojects.map (remember st) }

def conclude (c : Catalogue) (lints : LintOptions) (ws : Workspace) (st : Resolution) (isCancelled : Bool) :
    Except LintStop LintRun :=
  match ws.tree with
  | none => .error .noTree
  | some tree =>
    if st.isEndless then .error (.crashed .endlessGuess)
    else if isCancelled then .error .cancelled
    else
      match ws.analyzeRoot c lints st tree, countAll ws.subprojects st.names with
      | .error fault, _ => .error (.crashed fault)
      | .ok _, .error stop => .error stop
      | .ok root, .ok files => .ok (ws.completed st tree root files)

theorem lint_eq (c : Catalogue) (lints : LintOptions) (sched : Schedule) (ws : Workspace) :
    ws.lint c lints sched =
      ws.conclude c lints (resolve (Subproject.analyze c lints) sched ws.subprojects) sched.endsCancelled := by
  unfold lint conclude completed
  cases ws.tree with
  | none => rfl
  | some tree =>
    dsimp only
    cases (resolve (Subproject.analyze c lints) sched ws.subprojects).isEndless with
    | true => rfl
    | false =>
      cases sched.endsCancelled with
      | true => rfl
      | false =>
        rw [← analyzeRoot]
        cases ws.analyzeRoot c lints (resolve (Subproject.analyze c lints) sched ws.subprojects) tree with
        | error fault => rfl
        | ok root => cases countAll ws.subprojects _ <;> rfl

variable {c : Catalogue} {lints : LintOptions} {ws : Workspace} {st st' : Resolution} {run : LintRun}

theorem conclude_eq_ok {isCancelled : Bool} (ended : ws.conclude c lints st isCancelled = .ok run) :
    isCancelled = false ∧ ∃ tree root files, ws.tree = some tree ∧ st.isEndless = false ∧
      ws.analyzeRoot c lints st tree = .ok root ∧ countAll ws.subprojects st.names = .ok files ∧
      run = ws.completed st tree root files := by
  unfold conclude at ended
  split at ended
  · contradiction
  · rename_i tree rooted
    split at ended
    · contradiction
    · split at ended
      · contradiction
      · split at ended
        · contradiction
        · contradiction
        · cases ended
          exact ⟨by simpa using ‹¬isCancelled = true›, tree, _, _, rooted, by simpa using ‹¬st.isEndless = true›,
            ‹_›, ‹_›, rfl⟩

/-! States that cannot be told apart. -/

theorem isEndless_eq (st : Resolution) :
    st.isEndless = st.errors.any fun e => e.cause == some Fault.endlessGuess.message := by
  rw [Bool.eq_iff_iff, Resolution.isEndless, List.any_eq_true, List.any_eq_true]
  simp only [Resolution.errors, Text.mem_sortedOn]

theorem remember_eq (sorted : st.sorted = st'.sorted) (distinct : (st.analysed.map (·.subproject.name)).Nodup)
    (distinct' : (st'.analysed.map (·.subproject.name)).Nodup) : remember st = remember st' := by
  have analysed (st : Resolution) (a : Analysed) : a ∈ st.analysed ↔ a ∈ st.sorted := Text.mem_sortedOn.symm
  have found (name : String) : st.analysed.find? (·.subproject.name == name) =
      st'.analysed.find? (·.subproject.name == name) := by
    refine Option.ext fun a => ?_
    rw [Text.find_key_eq_some distinct, Text.find_key_eq_some distinct', analysed, analysed, sorted]
  funext s
  rw [remember, remember, found]

/-- A run sees the subprojects in the order of their names only. -/
theorem conclude_eq (sorted : st.sorted = st'.sorted) (errors : st.errors = st'.errors)
    (distinct : (st.analysed.map (·.subproject.name)).Nodup)
    (distinct' : (st'.analysed.map (·.subproject.name)).Nodup) (isCancelled : Bool) :
    ws.conclude c lints st isCancelled = ws.conclude c lints st' isCancelled := by
  have endless : st.isEndless = st'.isEndless := by rw [isEndless_eq, isEndless_eq, errors]
  have names : st.names = st'.names := by rw [Resolution.names, sorted, Resolution.names]
  have known : st.known = st'.known := by rw [Resolution.known, sorted, Resolution.known]
  unfold conclude analyzeRoot completed
  rw [endless, names, known, sorted, errors, remember_eq sorted distinct distinct']

theorem flatMap_relocated (distinct : (st.analysed.map (·.subproject.name)).Nodup) :
    st.sorted.flatMap relocated = st.names.flatMap fun name =>
      (st.result? name).toList.flatMap fun o => o.diagnostics.map (relocate name) := by
  rw [Resolution.names, List.flatMap_map]
  refine List.flatMap_congr fun a member => ?_
  have recorded := (Resolution.recorded_eq_some distinct).mpr ⟨Text.mem_sortedOn.mp member, rfl⟩
  simp [Resolution.result?, recorded, relocated]

theorem completed_graded (st : Resolution) (tree : SourceTree) (root : Outcome) (files : Nat) :
    ∀ d ∈ (ws.completed st tree root files).report.diagnostics, d.IsGraded := by
  intro d member
  rcases List.mem_append.mp ((Diagnostic.sort_perm _).mem_iff.mp member) with own | foreign
  · exact root.diagnostics_graded d own
  · obtain ⟨a, _, inside⟩ := List.mem_flatMap.mp foreign
    obtain ⟨e, found, rfl⟩ := List.mem_map.mp inside
    exact a.outcome.diagnostics_graded e found

/-! Runs with workers side by side. -/

section

variable {limit : Int} {ms : List Move} {p : Progress}
  (made : Progress.moves (Subproject.analyze c lints) limit (Subproject.valid ws.subprojects) ms
    (.start ws.subprojects) = some p) (finished : p.isOver = true)
include made finished

theorem conclude_eq_lint (goesOn : p.isCancelled = false) :
    ws.conclude c lints p.resolution false = ws.lint c lints {} := by
  have inTurn := Progress.sorted_resolve made finished goesOn
  have same := Progress.indistinct_resolve made finished goesOn
  obtain ⟨_, _, acc⟩ := Progress.accounts_of_moves made
  have distinct := acc.analysed_distinct
  have distinct' : ((resolve (Subproject.analyze c lints) {} ws.subprojects).analysed.map
      (·.subproject.name)).Nodup := by
    rw [← ((Text.sortedOn_perm _).map _).nodup_iff, ← Resolution.sorted, ← inTurn]
    exact ((Text.sortedOn_perm _).map _).nodup_iff.mpr distinct
  rw [lint_eq]
  exact conclude_eq inTurn same.errors distinct distinct' false

/-- The report of a run is made of what the analysis of the tree has found and, for every analysed subproject, of what
that has found with its place below the subproject's directory. It is sorted, its errors and warnings are counted, and
any other run of the workspace that nobody gives up comes to the same, whatever the limit and the order of workers. -/
theorem report_is_sorted_sum (ended : ws.conclude c lints p.resolution p.isCancelled = .ok run) :
    (∃ tree root, ws.tree = some tree ∧ ws.analyzeRoot c lints p.resolution tree = .ok root ∧
      (∀ name ∈ p.resolution.names, (p.resolution.result? name).isSome) ∧
      run.report.diagnostics.Perm (root.diagnostics ++ p.resolution.names.flatMap fun name =>
        (p.resolution.result? name).toList.flatMap fun o => o.diagnostics.map fun d =>
          { d with file := Path.join ["subprojects", name, d.file] })) ∧
    run.report.diagnostics.Pairwise (fun a b => a.key ≤ b.key) ∧
    run.report.errors = run.report.diagnostics.countP (·.severity == .error) ∧
    run.report.warnings = run.report.diagnostics.countP (·.severity == .warning) ∧
    run.report.errors + run.report.warnings = run.report.diagnostics.length ∧
    ws.lint c lints {} = .ok run ∧
    ∀ limit' ms' q, Progress.moves (Subproject.analyze c lints) limit' (Subproject.valid ws.subprojects) ms'
      (.start ws.subprojects) = some q → q.isOver = true → q.isCancelled = false →
      ws.conclude c lints q.resolution q.isCancelled = .ok run := by
  obtain ⟨goesOn, tree, root, files, rooted, _, analysed, _, same⟩ := conclude_eq_ok ended
  obtain ⟨_, _, acc⟩ := Progress.accounts_of_moves made
  have distinct := acc.analysed_distinct
  have graded : ∀ d ∈ run.report.diagnostics, d.IsGraded := same ▸ completed_graded _ _ _ _
  have inTurn : ws.lint c lints {} = .ok run := by
    rw [← conclude_eq_lint made finished goesOn, ← goesOn, ended]
  refine ⟨⟨tree, root, rooted, analysed, fun name member => ?_, ?_⟩, ?_, rfl, Report.warnings_eq graded,
    run.report.errors_add_warnings, inTurn, fun limit' ms' q made' finished' goesOn' => ?_⟩
  · obtain ⟨a, recorded, rfl⟩ := List.mem_map.mp member
    have found := (Resolution.recorded_eq_some distinct).mpr ⟨Text.mem_sortedOn.mp recorded, rfl⟩
    simp [Resolution.result?, found]
  · have parts := Diagnostic.sort_perm (root.diagnostics ++ p.resolution.sorted.flatMap relocated)
    rw [flatMap_relocated distinct] at parts
    rw [same, completed, flatMap_relocated distinct]
    exact parts
  · rw [same] at graded ⊢
    refine Diagnostic.sort_sorted fun d member => graded d ?_
    exact (Diagnostic.sort_perm _).mem_iff.mpr member
  · rw [goesOn', conclude_eq_lint made' finished' goesOn', inTurn]

end

def sampleThree : Workspace where
  name := "three"
  path := ""
  dir := "."
  tree := (Graph.sampleUser "" []).tree
  options := none
  subprojects := [Graph.sampleUser "b" [], Graph.sampleUser "a" []]

/-- Of two workers side by side the one that has started last ends first. -/
def sampleCrossing : List Move :=
  [.nextLevel, .launch, .launch, .look 1, .look 0, .finish 1, .finish 0]

theorem report_is_sorted_sum_sample :
    ∃ p run, Progress.moves (Subproject.analyze .empty {}) 2 (Subproject.valid sampleThree.subprojects) sampleCrossing
        (.start sampleThree.subprojects) = some p ∧ p.isOver = true ∧
      sampleThree.conclude .empty {} p.resolution p.isCancelled = .ok run ∧
      p.resolution.analysed.map (·.subproject.name) = ["b", "a"] ∧
      run.report.diagnostics.map (·.file) = ["meson.build", "subprojects/a/meson.build", "subprojects/b/meson.build"] ∧
      run.report.errors + run.report.warnings = 3 ∧ sampleThree.lint .empty {} {} = .ok run := by
  have ran : (Progress.moves (Subproject.analyze .empty {}) 2 (Subproject.valid sampleThree.subprojects) sampleCrossing
      (.start sampleThree.subprojects)).any
      (fun p => p.isOver && p.resolution.analysed.map (·.subproject.name) == ["b", "a"] &&
        (sampleThree.conclude .empty {} p.resolution p.isCancelled).toOption.any fun run =>
          run.report.diagnostics.map (·.file) ==
            ["meson.build", "subprojects/a/meson.build", "subprojects/b/meson.build"]) = true := by
    decide +kernel
  obtain ⟨p, made, facts⟩ := (Option.any_eq_true _ _).mp ran
  simp only [Bool.and_eq_true, beq_iff_eq] at facts
  obtain ⟨⟨finished, order⟩, shown⟩ := facts
  cases ended : sampleThree.conclude .empty {} p.resolution p.isCancelled with
  | error stop => simp [ended, Except.toOption] at shown
  | ok run =>
    simp only [ended, Except.toOption, Option.any_some, beq_iff_eq] at shown
    obtain ⟨-, -, -, -, total, inTurn, -⟩ := report_is_sorted_sum made finished ended
    refine ⟨p, run, made, finished, ended, order, shown, ?_, inTurn⟩
    rw [total, ← List.length_map (·.file), shown, List.length_cons, List.length_cons, List.length_singleton]

end Workspace

end MesonCheck
