import Mathlib.Algebra.Order.BigOperators.Group.List
import MesonCheck.Proofs.Lint.Report

/-! How many files a run says it has analysed. The names that were analysed are looked up among all subprojects that are
declared, also those that were refused because their name had been taken. So the number is right when those have no
files, and where one of them has no tree at all, there is no report. -/
namespace MesonCheck

theorem Subproject.filter_sift {seen : List String} {ss : List Subproject} {s : Subproject}
    (member : s ∈ (sift seen ss).2) : ∃ others, ss.filter (·.name == s.name) = s :: others := by
  induction ss generalizing seen with
  | nil => contradiction
  | cons t ss ih =>
    dsimp only [sift] at member
    by_cases same : t.name = s.name
    · -- what comes after a name has been seen does not have it
      have unseen (later : s ∈ (sift (t.name :: seen) ss).2) : False :=
        (sift_distinct _ ss).2 s later (same ▸ List.mem_cons_self)
      cases fault : t.fault? seen with
      | some e =>
        rw [fault] at member
        exact (unseen member).elim
      | none =>
        rw [fault] at member
        obtain rfl | later := List.mem_cons.mp member
        · exact ⟨ss.filter (·.name == s.name), List.filter_cons_of_pos (beq_self_eq_true _)⟩
        · exact (unseen later).elim
    · have later : s ∈ (sift (t.name :: seen) ss).2 := by
        cases fault : t.fault? seen with
        | some e => rwa [fault] at member
        | none =>
          rw [fault] at member
          exact (List.mem_cons.mp member).resolve_left fun eq => same (eq ▸ rfl)
      rw [List.filter_cons_of_neg (by simpa using same)]
      exact ih later

theorem Subproject.tree_of_sift {seen : List String} {ss : List Subproject} {s : Subproject}
    (member : s ∈ (sift seen ss).2) : s.tree.isSome = true := by
  induction ss generalizing seen with
  | nil => contradiction
  | cons t ss ih =>
    dsimp only [sift] at member
    cases fault : t.fault? seen with
    | some e =>
      rw [fault] at member
      exact ih member
    | none =>
      rw [fault] at member
      rcases List.mem_cons.mp member with rfl | later
      · cases tree : s.tree with
        | none => grind [fault?]
        | some t => rfl
      · exact ih later

theorem Fate.Of.subproject_mem {analyze : Analyzer} {ss : List Subproject} {fs : List Fate}
    (own : Fate.Of analyze ss fs) {a : Analysed} (member : a ∈ fs.filterMap Fate.analysed?) : a.subproject ∈ ss := by
  induction own with
  | nil => contradiction
  | @cons s f ss fs one _ ih =>
    cases f with
    | failed e => exact List.mem_cons_of_mem _ (ih member)
    | analysed b =>
      rcases List.mem_cons.mp member with rfl | later
      · exact one.1 ▸ List.mem_cons_self
      · exact List.mem_cons_of_mem _ (ih later)

theorem Progress.Accounts.analysed_valid {analyze : Analyzer} {ss done : List Subproject} {p : Progress}
    {fates : List Fate} (acc : Accounts analyze ss p done fates) {a : Analysed} (member : a ∈ p.resolution.analysed) :
    a.subproject ∈ Subproject.valid ss := by
  have ended : a.subproject ∈ done := acc.own.subproject_mem (acc.analysed_eq ▸ member)
  refine (Subproject.mem_named (acc.parts.mem_iff.mp ?_)).1
  rw [List.append_assoc, List.append_assoc]
  exact List.mem_append_left _ ended

def Resolution.filesOf (st : Resolution) (name : String) : Nat :=
  ((st.recorded? name).map (·.subproject.sources.length)).getD 0

theorem Subproject.sources_length {s : Subproject} {t : SourceTree} (has : s.tree = some t) :
    s.sources.length = t.files.length := by
  simp [sources, has, SourceTree.sources]

namespace Workspace

def repeats (ws : Workspace) (name : String) : List Subproject :=
  (ws.subprojects.filter (·.name == name)).tail

/-! Counting. -/

theorem mapM_files (ss : List Subproject) :
    (ss.mapM fun (s : Subproject) => s.tree.map (·.files.length)) =
      if ss.all (·.tree.isSome) then some (ss.map (·.sources.length)) else none := by
  induction ss with
  | nil => rfl
  | cons s ss ih =>
    rw [List.mapM_cons, ih]
    cases tree : s.tree with
    | none => simp [tree]
    | some t =>
      by_cases others : ss.all (·.tree.isSome) = true
      · simp [tree, others, Subproject.sources_length tree]
      · simp [tree, others]

theorem countFiles_eq (ss : List Subproject) (name : String) :
    countFiles ss name = if (ss.filter (·.name == name)).all (·.tree.isSome) then
      some ((ss.filter (·.name == name)).map (·.sources.length)).sum else none := by
  rw [countFiles, mapM_files, List.sum_eq_foldl_nat]
  split <;> rfl

theorem countAll_eq (ss : List Subproject) (names : List String) :
    countAll ss names =
      match names.find? fun name => !(ss.filter (·.name == name)).all (·.tree.isSome) with
      | some name => .error (.uncounted name)
      | none => .ok (names.map fun name => ((ss.filter (·.name == name)).map (·.sources.length)).sum).sum := by
  induction names with
  | nil => rfl
  | cons name names ih =>
    rw [countAll, countFiles_eq, ih, List.find?_cons]
    cases (ss.filter (·.name == name)).all (·.tree.isSome) with
    | false => rfl
    | true => cases names.find? fun name => !(ss.filter (·.name == name)).all (·.tree.isSome) <;> rfl

variable {c : Catalogue} {lints : LintOptions} {ws : Workspace} {st : Resolution} {tree : SourceTree}

theorem sum_repeats_iff {names : List String} (f : String → Nat)
    (trees : ∀ name ∈ names, ∀ s ∈ ws.repeats name, s.tree ≠ none) :
    (names.map fun name => f name + ((ws.repeats name).map (·.sources.length)).sum).sum = (names.map f).sum ↔
      ∀ name ∈ names, ∀ s ∈ ws.repeats name, ∃ t, s.tree = some t ∧ t.files = [] := by
  rw [List.sum_map_add, Nat.add_eq_left, List.sum_eq_zero_iff, List.forall_mem_map]
  refine forall₂_congr fun name member => ?_
  rw [List.sum_eq_zero_iff, List.forall_mem_map]
  refine forall₂_congr fun s other => ?_
  obtain ⟨t, has⟩ := Option.ne_none_iff_exists'.mp (trees name member s other)
  rw [Subproject.sources_length has, List.length_eq_zero_iff]
  simp [has]

theorem conclude_of_analysed (rooted : ws.tree = some tree) (goesOn : st.isEndless = false) {root : Outcome}
    (analysed : ws.analyzeRoot c lints st tree = .ok root) :
    ws.conclude c lints st false = (countAll ws.subprojects st.names).map (ws.completed st tree root) := by
  unfold conclude
  rw [rooted]
  simp only [goesOn, analysed]
  cases countAll ws.subprojects st.names <;> rfl

theorem conclude_of_crash (rooted : ws.tree = some tree)
    (crash : ¬(st.isEndless = false ∧ ∃ root, ws.analyzeRoot c lints st tree = .ok root)) :
    ∃ fault, ws.conclude c lints st false = .error (.crashed fault) := by
  unfold conclude
  rw [rooted]
  cases endless : st.isEndless with
  | true => exact ⟨_, rfl⟩
  | false =>
    cases analysed : ws.analyzeRoot c lints st tree with
    | error fault => exact ⟨fault, by simp [analysed]⟩
    | ok root => exact absurd ⟨endless, root, analysed⟩ crash

section

variable {limit : Int} {ms : List Move} {p : Progress}
  (made : Progress.moves (Subproject.analyze c lints) limit (Subproject.valid ws.subprojects) ms
    (.start ws.subprojects) = some p)
include made

theorem filter_name {name : String} (member : name ∈ p.resolution.names) :
    ∃ s, (ws.subprojects.filter (·.name == name)) = s :: ws.repeats name ∧ s.tree.isSome = true ∧
      s.sources.length = p.resolution.filesOf name := by
  obtain ⟨_, _, acc⟩ := Progress.accounts_of_moves made
  obtain ⟨a, recorded, rfl⟩ := List.mem_map.mp member
  have analysed := Text.mem_sortedOn.mp recorded
  have found := (Resolution.recorded_eq_some acc.analysed_distinct).mpr ⟨analysed, rfl⟩
  have valid := acc.analysed_valid analysed
  obtain ⟨others, first⟩ := Subproject.filter_sift valid
  refine ⟨a.subproject, ?_, Subproject.tree_of_sift valid, ?_⟩
  · rw [repeats, first, List.tail_cons]
  · simp [Resolution.filesOf, found]

theorem sum_name {name : String} (member : name ∈ p.resolution.names) :
    ((ws.subprojects.filter (·.name == name)).map (·.sources.length)).sum =
      p.resolution.filesOf name + ((ws.repeats name).map (·.sources.length)).sum := by
  obtain ⟨s, all, _, size⟩ := filter_name made member
  rw [all, List.map_cons, List.sum_cons, size]

theorem all_name {name : String} (member : name ∈ p.resolution.names) :
    (ws.subprojects.filter (·.name == name)).all (·.tree.isSome) = (ws.repeats name).all (·.tree.isSome) := by
  obtain ⟨s, all, has, _⟩ := filter_name made member
  rw [all, List.all_cons, has, Bool.true_and]

theorem countAll_names :
    (countAll ws.subprojects p.resolution.names = .ok (p.resolution.names.map fun name =>
        p.resolution.filesOf name + ((ws.repeats name).map (·.sources.length)).sum).sum ∧
      ∀ name ∈ p.resolution.names, ∀ s ∈ ws.repeats name, s.tree ≠ none) ∨
    ∃ name ∈ p.resolution.names, countAll ws.subprojects p.resolution.names = .error (.uncounted name) ∧
      ∃ s ∈ ws.repeats name, s.tree = none := by
  rw [countAll_eq]
  split
  · rename_i name found
    have member := List.mem_of_find?_eq_some found
    have uncounted := List.find?_some found
    rw [all_name made member] at uncounted
    refine .inr ⟨name, member, rfl, by simpa using uncounted⟩
  · rename_i counted
    have sums := List.map_congr_left fun name member => sum_name made member
    refine .inl ⟨congrArg Except.ok (congrArg List.sum sums), ?_⟩
    intro name member s other
    have counted := List.find?_eq_none.mp counted name member
    rw [all_name made member] at counted
    have each : ∀ s ∈ ws.repeats name, ¬s.tree = none := by simpa using counted
    exact each s other

/-- A report gives the number of files that have been analysed if, of all subprojects that repeat the name of an
analysed one, each has a tree without files. If one has no tree, there is no report. Otherwise their files are counted
with those that have been analysed. -/
theorem files_counted_once_iff (goesOn : p.isCancelled = false) (rooted : ws.tree = some tree) :
    ((∃ run, ws.conclude c lints p.resolution p.isCancelled = .ok run ∧
        run.report.files = tree.files.length + (p.resolution.names.map p.resolution.filesOf).sum) ↔
      (p.resolution.isEndless = false ∧ ∃ root, ws.analyzeRoot c lints p.resolution tree = .ok root) ∧
        ∀ name ∈ p.resolution.names, ∀ s ∈ ws.repeats name, ∃ t, s.tree = some t ∧ t.files = []) ∧
    ((∃ name, ws.conclude c lints p.resolution p.isCancelled = .error (.uncounted name)) ↔
      (p.resolution.isEndless = false ∧ ∃ root, ws.analyzeRoot c lints p.resolution tree = .ok root) ∧
        ∃ name ∈ p.resolution.names, ∃ s ∈ ws.repeats name, s.tree = none) ∧
    ∀ run, ws.conclude c lints p.resolution p.isCancelled = .ok run →
      run.report.files = tree.files.length + (p.resolution.names.map fun name =>
        p.resolution.filesOf name + ((ws.repeats name).map (·.sources.length)).sum).sum := by
  rw [goesOn]
  by_cases sound : p.resolution.isEndless = false ∧ ∃ root, ws.analyzeRoot c lints p.resolution tree = .ok root
  · obtain ⟨goes, root, analysed⟩ := id sound
    rw [conclude_of_analysed rooted goes analysed]
    rcases countAll_names made with ⟨counted, trees⟩ | ⟨name, member, counted, s, other, missing⟩
    · have once := sum_repeats_iff p.resolution.filesOf trees
      rw [counted]
      refine ⟨?_, ?_, ?_⟩
      · rw [← once]
        simp [sound, Except.map, completed]
      · constructor
        · rintro ⟨name, ⟨⟩⟩
        · rintro ⟨-, name, member, s, other, missing⟩
          exact absurd missing (trees name member s other)
      · rintro run ⟨⟩
        rfl
    · rw [counted]
      refine ⟨?_, ?_, ?_⟩
      · constructor
        · rintro ⟨run, ⟨⟩, -⟩
        · rintro ⟨-, empty⟩
          obtain ⟨t, has, -⟩ := empty name member s other
          rw [missing] at has
          contradiction
      · exact ⟨fun _ => ⟨sound, name, member, s, other, missing⟩, fun _ => ⟨name, rfl⟩⟩
      · rintro run ⟨⟩
  · obtain ⟨fault, crashed⟩ := conclude_of_crash rooted sound
    simp [crashed, sound]

end

/-- Of three subprojects the last one repeats the name of the second. -/
def sampleRepeating (again : Option SourceTree) : Workspace where
  name := "repeating"
  path := ""
  dir := "."
  tree := (Graph.sampleUser "" []).tree
  options := none
  subprojects := [Graph.sampleUser "b" [], Graph.sampleUser "a" [], { Graph.sampleUser "a" [] with tree := again }]

theorem files_counted_once_iff_sample :
    ∃ p run, Progress.moves (Subproject.analyze .empty {}) 2
        (Subproject.valid (sampleRepeating (some .empty)).subprojects) sampleCrossing
        (.start (sampleRepeating (some .empty)).subprojects) = some p ∧
      p.isCancelled = false ∧ p.resolution.names = ["a", "b"] ∧
      (sampleRepeating (some .empty)).conclude .empty {} p.resolution p.isCancelled = .ok run ∧
      run.report.files = 1 + (p.resolution.names.map p.resolution.filesOf).sum := by
  have ran : (Progress.moves (Subproject.analyze .empty {}) 2
      (Subproject.valid (sampleRepeating (some .empty)).subprojects) sampleCrossing
      (.start (sampleRepeating (some .empty)).subprojects)).any (fun p => !p.isCancelled &&
        p.resolution.names == ["a", "b"] && !p.resolution.isEndless) = true := by
    decide +kernel
  obtain ⟨p, made, facts⟩ := (Option.any_eq_true _ _).mp ran
  simp only [Bool.and_eq_true, Bool.not_eq_true', beq_iff_eq] at facts
  obtain ⟨⟨goesOn, names⟩, ended⟩ := facts
  have repeats : ∀ name ∈ ["a", "b"], ∀ s ∈ (sampleRepeating (some .empty)).repeats name,
      ∃ t, s.tree = some t ∧ t.files = [] := by
    simp [repeats, sampleRepeating, Graph.sampleUser, SourceTree.empty]
  obtain ⟨run, ended, counted⟩ :=
    (files_counted_once_iff made goesOn rfl).1.mpr ⟨⟨ended, _, rfl⟩, names ▸ repeats⟩
  exact ⟨p, run, made, goesOn, names, ended, counted⟩

/-- A name that is declared twice is counted twice, though nothing is analysed for the second one, and without a tree
the second one leaves no report. -/
theorem repeated_name_counted_again :
    (∃ run, (sampleRepeating (Graph.sampleUser "a" []).tree).lint .empty {} {} = .ok run ∧
      run.report.failures = [.repeated "a"] ∧ run.report.files = 4) ∧
    (sampleRepeating none).lint .empty {} {} = .error (.uncounted "a") :=
  ⟨⟨_, rfl, rfl, rfl⟩, rfl⟩

end Workspace

end MesonCheck
