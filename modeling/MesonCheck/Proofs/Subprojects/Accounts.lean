import Mathlib.Data.List.Forall2
import Mathlib.Data.List.Perm.Basic
import MesonCheck.Proofs.Subprojects.Interleaving

/-! No subproject is lost, and none counts twice. What has been recorded, what the workers hold and what is still to
come make up all subprojects at every moment. Together with those that are refused at the start, each has come to one
fate when nothing is left to do. -/
namespace MesonCheck

open List (Forall₂ Perm)

theorem Subproject.fault_subproject {seen : List String} {s : Subproject} {e : SubprojectError}
    (fault : s.fault? seen = some e) : e.subproject = s.name := by
  unfold fault? at fault
  split at fault
  · rename_i unnamed
    cases fault
    exact unnamed.symm
  · split at fault
    · cases fault
      rfl
    · split at fault
      · cases fault
        rfl
      · contradiction

abbrev Fate.Of (analyze : Analyzer) : List Subproject → List Fate → Prop :=
  Forall₂ (Fate.IsOf analyze)

namespace Fate.Of

variable {analyze : Analyzer} {ss ts : List Subproject} {fs gs : List Fate}

theorem append (first : Fate.Of analyze ss fs) (second : Fate.Of analyze ts gs) :
    Fate.Of analyze (ss ++ ts) (fs ++ gs) :=
  List.rel_append first second

theorem names_eq (own : Fate.Of analyze ss fs) : fs.map Fate.name = ss.map (·.name) := by
  induction own with
  | nil => rfl
  | cons one _ ih => rw [List.map_cons, List.map_cons, one.name_eq, ih]

theorem of_sift {seen : List String} (own : Fate.Of analyze (Subproject.sift seen ss).2 fs) :
    ∃ all, Fate.Of analyze ss all ∧ all.Perm ((Subproject.sift seen ss).1.map Fate.failed ++ fs) := by
  induction ss generalizing seen fs with
  | nil => exact ⟨fs, own, .refl fs⟩
  | cons s ss ih =>
    dsimp only [Subproject.sift] at own ⊢
    cases fault : s.fault? seen with
    | some e =>
      rw [fault] at own
      obtain ⟨all, rest, perm⟩ := ih own
      exact ⟨.failed e :: all, .cons (Subproject.fault_subproject fault) rest, perm.cons _⟩
    | none =>
      rw [fault] at own
      obtain ⟨f, others, one, rest, rfl⟩ := List.forall₂_cons_left_iff.mp own
      obtain ⟨all, rest, perm⟩ := ih rest
      exact ⟨f :: all, .cons one rest, (perm.cons f).trans List.perm_middle.symm⟩

end Fate.Of

namespace Graph

theorem ofValid_parts (ss : List Subproject) :
    ((ofValid ss).levels.flatten ++ (ofValid ss).cyclic).Perm ((Subproject.valid ss).map (·.name)) :=
  (levels_parts _).trans (ofSubprojects_names _ (Subproject.valid_distinct ss))

theorem names_levels (ss : List Subproject) :
    (Subproject.named (Subproject.valid ss) (ofValid ss).levels.flatten).map (·.name) = (ofValid ss).levels.flatten :=
  Subproject.names_named fun _ member => (ofValid_parts ss).mem_iff.mp (List.mem_append_left _ member)

theorem names_cyclic (ss : List Subproject) :
    (Subproject.named (Subproject.valid ss) (ofValid ss).cyclic).map (·.name) = (ofValid ss).cyclic :=
  Subproject.names_named fun _ member => (ofValid_parts ss).mem_iff.mp (List.mem_append_right _ member)

theorem levels_distinct (ss : List Subproject) : (ofValid ss).levels.flatten.Nodup :=
  ((ofValid_parts ss).nodup_iff.mpr (Subproject.valid_distinct ss)).of_append_left

theorem named_parts (ss : List Subproject) :
    (Subproject.named (Subproject.valid ss) (ofValid ss).levels.flatten ++
      Subproject.named (Subproject.valid ss) (ofValid ss).cyclic).Perm (Subproject.valid ss) := by
  rw [← Subproject.named_append]
  have perm := (ofValid_parts ss).filterMap fun n => (Subproject.valid ss).find? (·.name == n)
  exact perm.trans (.of_eq (Subproject.named_names (Subproject.valid_distinct ss)))

theorem cycle_fates (analyze : Analyzer) (ss : List Subproject) :
    Fate.Of analyze (Subproject.named (Subproject.valid ss) (ofValid ss).cyclic)
      (((ofValid ss).cyclic.map (ofValid ss).cycleError).map Fate.failed) := by
  have each : ∀ (g : Graph) (ts : List Subproject),
      Fate.Of analyze ts (((ts.map (·.name)).map g.cycleError).map Fate.failed) := by
    intro g ts
    induction ts with
    | nil => exact .nil
    | cons t ts ih => exact .cons rfl ih
  have all := each (ofValid ss) (Subproject.named (Subproject.valid ss) (ofValid ss).cyclic)
  rwa [names_cyclic] at all

end Graph

namespace Progress

variable {analyze : Analyzer} {limit : Int} {ss : List Subproject} {p q : Progress}

structure Accounts (analyze : Analyzer) (ss : List Subproject) (p : Progress) (done : List Subproject)
    (fates : List Fate) : Prop where
  own : Fate.Of analyze done fates
  entered : p.resolution = fates.foldl Resolution.enter (.refused ss)
  parts : (done ++ p.running.map (·.subproject) ++ p.waiting ++
    Subproject.named (Subproject.valid ss) p.levels.flatten).Perm
      (Subproject.named (Subproject.valid ss) (Graph.ofValid ss).levels.flatten)

theorem start_accounts (analyze : Analyzer) (ss : List Subproject) : Accounts analyze ss (start ss) [] [] :=
  ⟨.nil, rfl, .refl _⟩

theorem finished_perm (done : List Subproject) (front back : List Worker) (s : Subproject) (saw : Option Bool) :
    (done ++ [s] ++ (front ++ back).map (·.subproject)).Perm
      (done ++ (front ++ ⟨s, saw⟩ :: back).map (·.subproject)) := by
  rw [List.append_assoc, List.map_append, List.map_append]
  have moved : (s :: (front.map (·.subproject) ++ back.map (·.subproject))).Perm
      (front.map (·.subproject) ++ s :: back.map (·.subproject)) := List.perm_middle.symm
  exact moved.append_left done

theorem Step.accounts {done : List Subproject} {fates : List Fate}
    (step : Step analyze limit (Subproject.valid ss) p q) (before : Accounts analyze ss p done fates) :
    ∃ done fates, Accounts analyze ss q done fates := by
  obtain ⟨own, entered, parts⟩ := before
  cases step with
  | giveUp free => exact ⟨done, fates, own, entered, parts⟩
  | nextLevel levels waiting running =>
    refine ⟨done, fates, own, entered, ?_⟩
    rw [levels, waiting, running, List.flatten_cons, Subproject.named_append] at parts
    simpa [running] using parts
  | launch waiting room =>
    refine ⟨done, fates, own, entered, ?_⟩
    rw [waiting] at parts
    simpa using parts
  | look running =>
    refine ⟨done, fates, own, entered, ?_⟩
    rw [running] at parts
    simpa using parts
  | @finish front back s saw running =>
    let fate := s.fate analyze saw p.known
    have one : Fate.Of analyze [s] [fate] := .cons (s.fate_isOf analyze saw p.known) .nil
    refine ⟨done ++ [s], fates ++ [fate], own.append one, ?_, ?_⟩
    · rw [List.foldl_append, ← entered]
      rfl
    · rw [running] at parts
      exact (((finished_perm done front back s _).append_right _).append_right _).trans parts

theorem accounts_of_moves {ms : List Move} (made : moves analyze limit (Subproject.valid ss) ms (start ss) = some p) :
    ∃ done fates, Accounts analyze ss p done fates :=
  of_moves (P := fun p => ∃ done fates, Accounts analyze ss p done fates)
    (fun _ _ step ⟨_, _, before⟩ => step.accounts before) made ⟨[], [], start_accounts analyze ss⟩

namespace Accounts

variable {done : List Subproject} {fates : List Fate}

theorem distinct (acc : Accounts analyze ss p done fates) : (fates.map Fate.name).Nodup := by
  have all : ((done ++ p.running.map (·.subproject) ++ p.waiting ++
      Subproject.named (Subproject.valid ss) p.levels.flatten).map (·.name)).Nodup := by
    rw [(acc.parts.map (·.name)).nodup_iff, Graph.names_levels]
    exact Graph.levels_distinct ss
  rw [acc.own.names_eq]
  refine all.sublist (List.Sublist.map _ ?_)
  rw [List.append_assoc, List.append_assoc]
  exact List.sublist_append_left ..

theorem analysed_eq (acc : Accounts analyze ss p done fates) :
    p.resolution.analysed = fates.filterMap Fate.analysed? := by
  rw [acc.entered, Resolution.analysed_enter]
  rfl

theorem failures_eq (acc : Accounts analyze ss p done fates) :
    p.resolution.failures = (Resolution.refused ss).failures ++ fates.filterMap Fate.error? := by
  rw [acc.entered, Resolution.failures_enter]

theorem analysed_distinct (acc : Accounts analyze ss p done fates) :
    (p.resolution.analysed.map (·.subproject.name)).Nodup := by
  rw [acc.analysed_eq]
  exact acc.distinct.sublist (Fate.names_analysed fates)

theorem failed_distinct (acc : Accounts analyze ss p done fates) {es : List SubprojectError}
    (failed : p.resolution.failures = (Resolution.refused ss).failures ++ es) : (es.map (·.subproject)).Nodup := by
  rw [acc.failures_eq] at failed
  rw [← List.append_cancel_left failed]
  exact acc.distinct.sublist (Fate.names_failed fates)

theorem complete (acc : Accounts analyze ss p done fates) (finished : p.isOver = true) :
    ∃ all, Fate.Of analyze ss all ∧ p.resolution.analysed.Perm (all.filterMap Fate.analysed?) ∧
      p.resolution.failures.Perm (all.filterMap Fate.error?) := by
  obtain ⟨levels, waiting, running⟩ := isOver_iff.mp finished
  have ended : done.Perm (Subproject.named (Subproject.valid ss) (Graph.ofValid ss).levels.flatten) := by
    simpa [levels, waiting, running, Subproject.named] using acc.parts
  -- those of the levels have come to what was entered, those on cycles and those refused had failed before
  have valid := (ended.append_right _).trans (Graph.named_parts ss)
  obtain ⟨each, own, same⟩ := List.perm_comp_forall₂ valid.symm (acc.own.append (Graph.cycle_fates analyze ss))
  obtain ⟨all, everyone, split⟩ := Fate.Of.of_sift own
  have perm := split.trans (same.append_left _)
  refine ⟨all, everyone, ?_, ?_⟩
  · have analysed := perm.symm.filterMap Fate.analysed?
    rw [List.filterMap_append, List.filterMap_append, Fate.analysed_failed, Fate.analysed_failed, List.append_nil]
      at analysed
    rw [acc.analysed_eq]
    exact analysed
  · have failed := perm.symm.filterMap Fate.error?
    rw [List.filterMap_append, List.filterMap_append, Fate.errors_failed, Fate.errors_failed] at failed
    rw [acc.failures_eq, Resolution.refused, List.append_assoc]
    exact (List.perm_append_comm.append_left _).trans failed

end Accounts

/-- However the workers take turns and whenever the caller gives up, the analysis comes to an end, and no moment is the
last one before it has. Then each subproject has been analysed or has failed, and that once. -/
theorem each_subproject_once (analyze : Analyzer) (limit : Int) (ss : List Subproject) :
    (∀ ms, (moves analyze limit (Subproject.valid ss) ms (start ss)).isSome → ms.length ≤ (start ss).work) ∧
    ∀ ms p, moves analyze limit (Subproject.valid ss) ms (start ss) = some p →
      (p.isOver = false → ∃ m, m ≠ .giveUp ∧ (p.move analyze limit (Subproject.valid ss) m).isSome) ∧
      (p.isOver = true →
        (∃ fates, Fate.Of analyze ss fates ∧ p.resolution.sorted.Perm (fates.filterMap Fate.analysed?) ∧
          p.resolution.errors.Perm (fates.filterMap Fate.error?)) ∧
        p.resolution.names.length + p.resolution.errors.length = ss.length ∧
        p.resolution.names.Nodup) := by
  constructor
  · intro ms possible
    obtain ⟨p, made⟩ := Option.isSome_iff_exists.mp possible
    have bound := length_moves_le made
    omega
  · intro ms p made
    refine ⟨exists_move, fun finished => ?_⟩
    obtain ⟨done, recorded, acc⟩ := accounts_of_moves made
    obtain ⟨fates, own, analysed, failed⟩ := acc.complete finished
    have sorted : p.resolution.sorted.Perm (fates.filterMap Fate.analysed?) :=
      (Text.sortedOn_perm _).trans analysed
    have errors : p.resolution.errors.Perm (fates.filterMap Fate.error?) :=
      (Text.sortedOn_perm _).trans failed
    refine ⟨⟨fates, own, sorted, errors⟩, ?_, ?_⟩
    · rw [Resolution.names, List.length_map, sorted.length_eq, errors.length_eq, Fate.length_split, own.length_eq]
    · exact ((Text.sortedOn_perm _).map _).nodup_iff.mpr acc.analysed_distinct

def sampleAnalyzer (crashing : List String) : Analyzer := fun s _ =>
  if crashing.contains s.name then .error "index out of range" else .ok ⟨.empty, ∅, none, ∅, ∅, []⟩

/-- Subprojects without a name, on a cycle, declared twice and without files, and two that use another one. -/
def sampleCrowd : List Subproject :=
  [Graph.sampleUser "" [], Graph.sampleUser "a" ["b"], Graph.sampleUser "b" ["a"], Graph.sampleUser "c" [],
    Graph.sampleUser "c" [], { Graph.sampleUser "d" [] with tree := none }, Graph.sampleUser "e" ["c"],
    Graph.sampleUser "f" ["c"]]

/-- The caller gives up when one of two workers has looked already; the other one ends first. -/
def sampleMoves : List Move :=
  [.nextLevel, .launch, .look 0, .finish 0, .nextLevel, .launch, .launch, .look 0, .giveUp, .look 1, .finish 1,
    .finish 0]

theorem each_subproject_once_sample :
    ∃ p, moves (sampleAnalyzer ["e"]) 2 (Subproject.valid sampleCrowd) sampleMoves (start sampleCrowd) = some p ∧
      p.isOver = true ∧ p.resolution.names = ["c"] ∧
      p.resolution.errors.map (·.code) =
        ["EMPTY_NAME", "CYCLE", "CYCLE", "DUPLICATE_NAME", "NO_TREE", "PANIC", "CANCELLED"] ∧
      p.resolution.names.length + p.resolution.errors.length = 8 ∧
      ∃ fates, Fate.Of (sampleAnalyzer ["e"]) sampleCrowd fates ∧
        p.resolution.errors.Perm (fates.filterMap Fate.error?) := by
  have run : ((moves (sampleAnalyzer ["e"]) 2 (Subproject.valid sampleCrowd) sampleMoves (start sampleCrowd)).any
      fun p => p.isOver && p.resolution.names == ["c"] && p.resolution.errors.map (·.code) ==
        ["EMPTY_NAME", "CYCLE", "CYCLE", "DUPLICATE_NAME", "NO_TREE", "PANIC", "CANCELLED"]) = true := by
    decide +kernel
  obtain ⟨p, made, facts⟩ := (Option.any_eq_true _ _).mp run
  simp only [Bool.and_eq_true, beq_iff_eq] at facts
  obtain ⟨⟨finished, names⟩, codes⟩ := facts
  obtain ⟨⟨fates, own, -, errors⟩, count, -⟩ := ((each_subproject_once _ 2 sampleCrowd).2 _ p made).2 finished
  exact ⟨p, made, finished, names, codes, count, fates, own, errors⟩

end Progress

end MesonCheck
