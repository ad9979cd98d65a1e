import MesonCheck.Proofs.Subprojects.Accounts

/-! The order in which workers end makes no difference that a caller could see. All workers of a level are given the
same, and it is what the levels before would have left one subproject after the other. Only the lists that are appended
to are in another order, and those are sorted by name before they are shown. -/
namespace MesonCheck

open List (Perm)

namespace Resolution

def recorded? (st : Resolution) (name : String) : Option Analysed :=
  st.analysed.reverse.find? (·.subproject.name == name)

def result? (st : Resolution) (name : String) : Option Outcome :=
  (st.recorded? name).map (·.outcome)

def variables? (st : Resolution) (name : String) : Option Frame :=
  (st.recorded? name).map (·.outcome.scope)

def provides (st : Resolution) (name : String) : List String :=
  ((st.recorded? name).map (·.subproject.provides)).getD []

structure Indistinct (st st' : Resolution) : Prop where
  names : st.names = st'.names
  result : ∀ name, st.result? name = st'.result? name
  scope : ∀ name, st.variables? name = st'.variables? name
  provides : ∀ name, st.provides name = st'.provides name
  errors : st.errors = st'.errors

theorem Indistinct.symm {st st' : Resolution} (same : st.Indistinct st') : st'.Indistinct st where
  names := same.names.symm
  result name := (same.result name).symm
  scope name := (same.scope name).symm
  provides name := (same.provides name).symm
  errors := same.errors.symm

theorem Indistinct.trans {st st' st'' : Resolution} (first : st.Indistinct st') (second : st'.Indistinct st'') :
    st.Indistinct st'' where
  names := first.names.trans second.names
  result name := (first.result name).trans (second.result name)
  scope name := (first.scope name).trans (second.scope name)
  provides name := (first.provides name).trans (second.provides name)
  errors := first.errors.trans second.errors

theorem recorded_eq_some {st : Resolution} (distinct : (st.analysed.map (·.subproject.name)).Nodup)
    {name : String} {a : Analysed} : st.recorded? name = some a ↔ a ∈ st.analysed ∧ a.subproject.name = name := by
  have reversed : (st.analysed.reverse.map (·.subproject.name)).Nodup := by
    rw [List.map_reverse]
    exact List.nodup_reverse.mpr distinct
  rw [recorded?, Text.find_key_eq_some reversed, List.mem_reverse]

variable {base st st' : Resolution} {fs gs : List Fate}

theorem sorted_eq_of_perm (perm : st.analysed.Perm st'.analysed)
    (distinct : (st.analysed.map (·.subproject.name)).Nodup) : st.sorted = st'.sorted :=
  Text.sortedOn_eq_of_perm perm distinct

theorem known_eq_of_perm (perm : st.analysed.Perm st'.analysed)
    (distinct : (st.analysed.map (·.subproject.name)).Nodup) : st.known = st'.known := by
  rw [known, known, sorted_eq_of_perm perm distinct]

theorem recorded_eq_of_perm (perm : st.analysed.Perm st'.analysed)
    (distinct : (st.analysed.map (·.subproject.name)).Nodup) (name : String) :
    st.recorded? name = st'.recorded? name := by
  have distinct' := (perm.map (·.subproject.name)).nodup_iff.mp distinct
  refine Option.ext fun a => ?_
  rw [recorded_eq_some distinct, recorded_eq_some distinct', perm.mem_iff]

/-- Failures that were there before stand in front of the others of the same name. -/
theorem errors_eq_of_perm {base es es' : List SubprojectError} (left : st.failures = base ++ es)
    (right : st'.failures = base ++ es') (perm : es.Perm es') (distinct : (es.map (·.subproject)).Nodup) :
    st.errors = st'.errors := by
  rw [errors, errors, left, right, Text.sortedOn_append, Text.sortedOn_append, Text.sortedOn_eq_of_perm perm distinct]

theorem analysed_perm (same : fs.Perm gs) (left : st = fs.foldl enter base) (right : st' = gs.foldl enter base) :
    st.analysed.Perm st'.analysed := by
  rw [left, right, analysed_enter, analysed_enter]
  exact (same.filterMap _).append_left _

theorem indistinct_of_perm (same : fs.Perm gs) (left : st = fs.foldl enter base) (right : st' = gs.foldl enter base)
    (distinct : (st.analysed.map (·.subproject.name)).Nodup)
    (once : ((fs.filterMap Fate.error?).map (·.subproject)).Nodup) : Indistinct st st' := by
  have perm := analysed_perm same left right
  have recorded := recorded_eq_of_perm perm distinct
  constructor
  · rw [names, names, sorted_eq_of_perm perm distinct]
  · intro name
    rw [result?, result?, recorded]
  · intro name
    rw [variables?, variables?, recorded]
  · intro name
    rw [provides, provides, recorded]
  · rw [left, right]
    exact errors_eq_of_perm (failures_enter fs base) (failures_enter gs base) (same.filterMap _) once

end Resolution

/-! One subproject after the other. -/

namespace Resolution

theorem level_eq (analyze : Analyzer) (valid : List Subproject) (st : Resolution) (names : List String) :
    st.level analyze {} valid names =
      ((Subproject.named valid names).map (·.fate analyze false st.known)).foldl enter st := by
  have each : step analyze {} st.known = fun r s => r.enter (s.fate analyze false st.known) := by
    funext r s
    exact step_eq ..
  rw [level, each, List.foldl_map]
  rfl

def after (analyze : Analyzer) (ss : List Subproject) (levels : List (List String)) : Resolution :=
  levels.foldl (level analyze {} (Subproject.valid ss)) (.refused ss)

theorem after_append (analyze : Analyzer) (ss : List Subproject) (before : List (List String))
    (now : Option (List String)) :
    after analyze ss (before ++ now.toList) =
      ((Subproject.named (Subproject.valid ss) (now.getD [])).map
        (·.fate analyze false (after analyze ss before).known)).foldl enter (after analyze ss before) := by
  cases now with
  | none => simp [Subproject.named]
  | some names =>
    rw [after, List.foldl_append]
    exact level_eq ..

end Resolution

/-! Side by side. -/

namespace Progress

variable {analyze : Analyzer} {limit : Int} {ss : List Subproject} {p q : Progress} {before : List (List String)}
  {now : Option (List String)} {done : List Subproject}

structure Tracks (analyze : Analyzer) (ss : List Subproject) (p : Progress) (before : List (List String))
    (now : Option (List String)) (done : List Subproject) : Prop where
  levels : (Graph.ofValid ss).levels = before ++ now.toList ++ p.levels
  known : p.known = (Resolution.after analyze ss before).known
  parts : (done ++ p.running.map (·.subproject) ++ p.waiting).Perm
    (Subproject.named (Subproject.valid ss) (now.getD []))
  answers : ∀ w ∈ p.running, ∀ saw ∈ w.saw, saw = false
  entered : ∃ fates model : List Fate, fates.Perm (model ++ done.map (·.fate analyze false p.known)) ∧
    p.resolution = fates.foldl Resolution.enter (.refused ss) ∧
    Resolution.after analyze ss before = model.foldl Resolution.enter (.refused ss)

theorem start_tracks (analyze : Analyzer) (ss : List Subproject) : Tracks analyze ss (start ss) [] none [] where
  levels := rfl
  known := rfl
  parts := .refl _
  answers := by simp [start]
  entered := ⟨[], [], .refl _, rfl, rfl⟩

/-- When all of a level have ended, they have come to what they would have come to one after the other. -/
theorem Tracks.level_over (tracks : Tracks analyze ss p before now done) (waiting : p.waiting = [])
    (running : p.running = []) :
    ∃ fates model : List Fate, fates.Perm model ∧ p.resolution = fates.foldl Resolution.enter (.refused ss) ∧
      Resolution.after analyze ss (before ++ now.toList) = model.foldl Resolution.enter (.refused ss) := by
  obtain ⟨fates, model, perm, resolution, behind⟩ := tracks.entered
  have all : done.Perm (Subproject.named (Subproject.valid ss) (now.getD [])) := by
    simpa [waiting, running] using tracks.parts
  refine ⟨fates, _, perm.trans ((all.map _).append_left model), resolution, ?_⟩
  rw [Resolution.after_append, List.foldl_append, ← behind, tracks.known]

theorem Step.tracks (step : Step analyze limit (Subproject.valid ss) p q) (goesOn : q.isCancelled = false)
    (distinct : (p.resolution.analysed.map (·.subproject.name)).Nodup) (tracks : Tracks analyze ss p before now done) :
    ∃ before now done, Tracks analyze ss q before now done := by
  cases step with
  | giveUp free => cases goesOn
  | nextLevel levels waiting running =>
    rename_i names rest
    obtain ⟨fates, model, perm, resolution, behind⟩ := tracks.level_over waiting running
    refine ⟨before ++ now.toList, some names, [], ?_, ?_, ?_, ?_, ?_⟩
    · simp [tracks.levels, levels]
    · -- a snapshot is sorted by name, so it does not tell in which order the level has ended
      exact Resolution.known_eq_of_perm (Resolution.analysed_perm perm resolution behind) distinct
    · simp [running]
    · simp [running]
    · exact ⟨fates, model, by simpa using perm, resolution, behind⟩
  | launch waiting room =>
    refine ⟨before, now, done, tracks.levels, tracks.known, ?_, ?_, tracks.entered⟩
    · simpa [waiting] using tracks.parts
    · intro w member
      rcases List.mem_append.mp member with old | new
      · exact tracks.answers w old
      · cases List.mem_singleton.mp new
        simp
  | look running =>
    refine ⟨before, now, done, tracks.levels, tracks.known, ?_, ?_, tracks.entered⟩
    · simpa [running] using tracks.parts
    · have answers := tracks.answers
      simp only [running, List.forall_mem_append, List.forall_mem_cons] at answers ⊢
      refine ⟨answers.1, ?_, answers.2.2⟩
      simpa using goesOn
  | @finish front back s saw running =>
    have answers := tracks.answers
    simp only [running, List.forall_mem_append, List.forall_mem_cons] at answers
    -- nobody has given up, so the worker comes to the fate that it has in turn
    obtain rfl : saw = false := answers.2.1 saw rfl
    obtain ⟨fates, model, perm, resolution, behind⟩ := tracks.entered
    refine ⟨before, now, done ++ [s], tracks.levels, tracks.known, ?_, ?_, ?_⟩
    · have parts := tracks.parts
      rw [running] at parts
      exact ((finished_perm done front back s _).append_right _).trans parts
    · simp only [List.forall_mem_append]
      exact ⟨answers.1, answers.2.2⟩
    · refine ⟨fates ++ [s.fate analyze false p.known], model, ?_, ?_, behind⟩
      · simpa using perm.append_right [s.fate analyze false p.known]
      · rw [List.foldl_append, ← resolution]
        rfl

theorem tracks_of_moves {ms : List Move} (made : moves analyze limit (Subproject.valid ss) ms (start ss) = some p)
    (goesOn : p.isCancelled = false) : ∃ before now done, Tracks analyze ss p before now done := by
  -- the accounts are needed beside the tracks: only they say that no name has been recorded twice
  let Holds (p : Progress) : Prop := (∃ done fates, Accounts analyze ss p done fates) ∧
    (p.isCancelled = false → ∃ before now done, Tracks analyze ss p before now done)
  have kept : ∀ p q, Step analyze limit (Subproject.valid ss) p q → Holds p → Holds q := by
    rintro p q step ⟨⟨done, fates, acc⟩, tracked⟩
    refine ⟨step.accounts acc, fun goesOn => ?_⟩
    obtain ⟨before, now, done, tracks⟩ := tracked (step.went_on goesOn)
    exact step.tracks goesOn acc.analysed_distinct tracks
  have first : Holds (start ss) := ⟨⟨_, _, start_accounts analyze ss⟩, fun _ => ⟨_, _, _, start_tracks analyze ss⟩⟩
  exact (of_moves kept made first).2 goesOn

theorem reorders_resolve {ms : List Move} (made : moves analyze limit (Subproject.valid ss) ms (start ss) = some p)
    (finished : p.isOver = true) (goesOn : p.isCancelled = false) :
    ∃ fates model : List Fate, fates.Perm model ∧ p.resolution = fates.foldl Resolution.enter (.refused ss) ∧
      resolve analyze {} ss = model.foldl Resolution.enter (.refused ss) := by
  obtain ⟨levels, waiting, running⟩ := isOver_iff.mp finished
  obtain ⟨before, now, done, tracks⟩ := tracks_of_moves made goesOn
  have all : (Graph.ofValid ss).levels = before ++ now.toList := by
    rw [tracks.levels, levels, List.append_nil]
  rw [resolve_eq, all]
  exact tracks.level_over waiting running

theorem sorted_resolve {ms : List Move} (made : moves analyze limit (Subproject.valid ss) ms (start ss) = some p)
    (finished : p.isOver = true) (goesOn : p.isCancelled = false) :
    p.resolution.sorted = (resolve analyze {} ss).sorted := by
  obtain ⟨_, _, acc⟩ := accounts_of_moves made
  obtain ⟨fates, model, perm, resolution, behind⟩ := reorders_resolve made finished goesOn
  exact Resolution.sorted_eq_of_perm (Resolution.analysed_perm perm resolution behind) acc.analysed_distinct

theorem indistinct_resolve {ms : List Move} (made : moves analyze limit (Subproject.valid ss) ms (start ss) = some p)
    (finished : p.isOver = true) (goesOn : p.isCancelled = false) :
    p.resolution.Indistinct (resolve analyze {} ss) := by
  obtain ⟨_, _, acc⟩ := accounts_of_moves made
  obtain ⟨fates, model, perm, resolution, behind⟩ := reorders_resolve made finished goesOn
  have once := acc.failed_distinct (resolution ▸ Resolution.failures_enter fates _)
  exact Resolution.indistinct_of_perm perm resolution behind acc.analysed_distinct once

/-- Two analyses that nobody gives up end alike, however many workers run at a time and in whatever order they do. -/
theorem same_in_any_order {limit' : Int} {ms ms' : List Move}
    (first : moves analyze limit (Subproject.valid ss) ms (start ss) = some p)
    (second : moves analyze limit' (Subproject.valid ss) ms' (start ss) = some q)
    (finished : p.isOver = true ∧ q.isOver = true) (goesOn : p.isCancelled = false ∧ q.isCancelled = false) :
    p.resolution.Indistinct q.resolution ∧ p.resolution.Indistinct (resolve analyze {} ss) := by
  have one := indistinct_resolve first finished.1 goesOn.1
  have other := indistinct_resolve second finished.2 goesOn.2
  exact ⟨one.trans other.symm, one⟩

def sampleInTurn : List Move :=
  [.nextLevel, .launch, .look 0, .finish 0, .nextLevel, .launch, .look 0, .finish 0, .launch, .look 0, .finish 0]

def sampleOvertaking : List Move :=
  [.nextLevel, .launch, .look 0, .finish 0, .nextLevel, .launch, .launch, .look 1, .look 0, .finish 1, .finish 0]

theorem same_in_any_order_sample :
    ∃ p q, moves (sampleAnalyzer ["c"]) 1 (Subproject.valid sampleCrowd) sampleInTurn (start sampleCrowd) = some p ∧
      moves (sampleAnalyzer ["c"]) 0 (Subproject.valid sampleCrowd) sampleOvertaking (start sampleCrowd) = some q ∧
      (p.isOver = true ∧ q.isOver = true) ∧ (p.isCancelled = false ∧ q.isCancelled = false) ∧
      p.resolution.analysed.map (·.subproject.name) = ["e", "f"] ∧
      q.resolution.analysed.map (·.subproject.name) = ["f", "e"] ∧
      p.resolution.Indistinct q.resolution := by
  have run : (moves (sampleAnalyzer ["c"]) 1 (Subproject.valid sampleCrowd) sampleInTurn (start sampleCrowd)).any
      (fun p => p.isOver && !p.isCancelled && p.resolution.analysed.map (·.subproject.name) == ["e", "f"]) = true := by
    decide +kernel
  have run' : (moves (sampleAnalyzer ["c"]) 0 (Subproject.valid sampleCrowd) sampleOvertaking (start sampleCrowd)).any
      (fun q => q.isOver && !q.isCancelled && q.resolution.analysed.map (·.subproject.name) == ["f", "e"]) = true := by
    decide +kernel
  obtain ⟨p, made, facts⟩ := (Option.any_eq_true _ _).mp run
  obtain ⟨q, made', facts'⟩ := (Option.any_eq_true _ _).mp run'
  simp only [Bool.and_eq_true, Bool.not_eq_true', beq_iff_eq] at facts facts'
  obtain ⟨⟨finished, goesOn⟩, order⟩ := facts
  obtain ⟨⟨finished', goesOn'⟩, order'⟩ := facts'
  have same := same_in_any_order made made' ⟨finished, finished'⟩ ⟨goesOn, goesOn'⟩
  exact ⟨p, q, made, made', ⟨finished, finished'⟩, ⟨goesOn, goesOn'⟩, order, order', same.1⟩

end Progress

end MesonCheck
