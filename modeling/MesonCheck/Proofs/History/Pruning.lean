import MesonCheck.Lint.Recorded
import MesonCheck.History.Database
import MesonCheck.Proofs.History.Listing
import MesonCheck.Proofs.History.Tables

/-! Pruning and paging. Pages are cut out of the listing, and pruning leaves the first runs of it, with all that is
known of them. A lint run ends with a pruning, unless another one has removed its record meanwhile, so when all runs
have ended there are no more records than they were told to keep. -/
namespace MesonCheck

theorem RunRecord.filter_take {rs : List RunRecord} (distinct : (rs.map (·.id)).Nodup) (k : Nat) :
    rs.filter (((rs.take k).map (·.id)).contains ·.id) = rs.take k := by
  have apart : ((rs.take k).map (·.id)).Disjoint ((rs.drop k).map (·.id)) := by
    rw [← List.take_append_drop k rs, List.map_append] at distinct
    exact (List.nodup_append'.mp distinct).2.2
  have early : (rs.take k).filter (((rs.take k).map (·.id)).contains ·.id) = rs.take k := by
    refine List.filter_eq_self.mpr fun r member => ?_
    exact List.contains_iff_mem.mpr (List.mem_map_of_mem member)
  have late : (rs.drop k).filter (((rs.take k).map (·.id)).contains ·.id) = [] := by
    refine List.filter_eq_nil_iff.mpr fun r member known => ?_
    exact apart (List.contains_iff_mem.mp known) (List.mem_map_of_mem member)
  have parts := List.filter_append (p := (((rs.take k).map (·.id)).contains ·.id)) (rs.take k) (rs.drop k)
  rw [List.take_append_drop, early, late, List.append_nil] at parts
  exact parts

namespace History

variable {h : History}

/-! Pages. -/

theorem list_eq (workspace : String) (limit offset : Nat) :
    h.list workspace limit offset =
      ((RunRecord.listing (h.runs.filter fun r => workspace = "" ∨ r.workspace = workspace)).drop
        offset).take limit := by
  have same : (h.runs.filter fun r => workspace == "" || r.workspace == workspace) =
      h.runs.filter fun r => workspace = "" ∨ r.workspace = workspace := by
    refine List.filter_congr fun r _ => ?_
    rw [Bool.eq_iff_iff]
    simp
  have positive : ¬(limit : Int) < 0 := by omega
  simp only [list, same, positive, if_false, Int.toNat_natCast]

theorem list_all (h : History) : h.list "" h.runs.length 0 = RunRecord.listing h.runs := by
  have length : (RunRecord.listing h.runs).length ≤ h.runs.length := (RunRecord.listing_perm h.runs).length_eq.le
  have everything : h.runs.filter (fun r => "" = "" ∨ r.workspace = "") = h.runs := List.filter_eq_self.mpr (by simp)
  rw [show (0 : Int) = (0 : Nat) from rfl, list_eq, everything, List.drop_zero, List.take_of_length_le length]

/-! What a pruning leaves. -/

def outdated (h : History) (keep : Nat) (id : String) : Bool :=
  !(((RunRecord.listing h.runs).take keep).map (·.id)).contains id

def pruned (h : History) (keep : Nat) : History :=
  (h.deleteRuns (h.outdated keep ·.id)).2

theorem prune_eq (h : History) (keep : Nat) :
    h.prune keep = (.ok (h.deleteRuns (h.outdated keep ·.id)).1, h.pruned keep) := by
  have positive : ¬(keep : Int) < 0 := by omega
  rw [prune, if_neg positive]
  rfl

theorem runs_pruned (h : History) (keep : Nat) : (h.pruned keep).runs = h.runs.filter (!h.outdated keep ·.id) := rfl

theorem listing_pruned (distinct : (h.runs.map (·.id)).Nodup) (keep : Nat) :
    RunRecord.listing (h.pruned keep).runs = (RunRecord.listing h.runs).take keep := by
  have listed : ((RunRecord.listing h.runs).map (·.id)).Nodup :=
    ((RunRecord.listing_perm h.runs).map _).nodup_iff.mpr distinct
  simp only [runs_pruned, RunRecord.listing_filter distinct, outdated, Bool.not_not]
  exact RunRecord.filter_take listed keep

theorem length_pruned (distinct : (h.runs.map (·.id)).Nodup) (keep : Nat) : (h.pruned keep).runs.length ≤ keep := by
  rw [← (RunRecord.listing_perm _).length_eq, listing_pruned distinct]
  exact List.length_take_le keep _

theorem deleted_add_kept (gone : RunRecord → Bool) :
    (h.deleteRuns gone).1 + (h.deleteRuns gone).2.runs.length = h.runs.length := by
  rw [List.length_eq_length_filter_add (l := h.runs) gone]
  simp [deleteRuns]

theorem savedOf_of_kept {drop : String → Bool} {id : String} (kept : drop id = false) :
    (h.deleteRuns (drop ·.id)).2.savedOf id = h.savedOf id := by
  have others : id ∉ (h.runs.filter (drop ·.id)).map (·.id) := by
    intro among
    obtain ⟨r, deleted, rfl⟩ := List.mem_map.mp among
    simp [kept] at deleted
  simp only [savedOf, deleteRuns, List.filter_filter]
  refine List.filter_congr fun s _ => ?_
  by_cases named : s.run = id <;> simp_all

theorem pruned_keeps (distinct : (h.runs.map (·.id)).Nodup) (keep : Nat) {r : RunRecord}
    (member : r ∈ (h.pruned keep).runs) :
    h.run? r.id = some r ∧ (h.pruned keep).run? r.id = some r ∧
      (h.pruned keep).diagnostics r.id = h.diagnostics r.id := by
  obtain ⟨there, kept⟩ := List.mem_filter.mp member
  have kept : h.outdated keep r.id = false := by simpa using kept
  have known : h.run? r.id = some r := (Text.find_key_eq_some distinct).mpr ⟨there, rfl⟩
  refine ⟨known, ?_, ?_⟩
  · rw [pruned, run?_deleteRuns, kept, if_neg (by decide), known]
  · rw [diagnostics, diagnostics, pruned, savedOf_of_kept kept]

/-! Lint runs. -/

theorem runs_insertAll (ss : List SavedDiagnostic) : (h.insertAll ss).2.runs = h.runs := by
  induction ss generalizing h with
  | nil => rfl
  | cons s ss ih =>
    rw [insertAll, insertSaved]
    split
    · rename_i inserted
      split at inserted
      · cases inserted
      · cases inserted
        exact ih
    · rfl

theorem runs_save (id : String) (ds : List Diagnostic) : (h.save id ds).2.runs = h.runs := by
  unfold save
  split
  · rename_i done all
    rw [← congrArg (·.2.runs) all, runs_insertAll]
  · rfl

/-- However the start of a run is answered, there is then a record with its name, and the names stay distinct. -/
theorem start_records (distinct : (h.runs.map (·.id)).Nodup) (id workspace : String) (now : Timestamp) :
    ((h.start id workspace now).run? id).isSome = true ∧ ((h.start id workspace now).runs.map (·.id)).Nodup := by
  unfold start create insertRun
  cases found : h.run? id with
  | some r =>
    simp only [Option.isSome_some, if_true]
    exact ⟨Option.isSome_of_eq_some found, distinct⟩
  | none =>
    simp only [Option.isSome_none, Bool.false_eq_true, if_false]
    exact ⟨isSome_run?.mpr ⟨_, List.mem_append_right _ List.mem_cons_self, rfl⟩, distinct_addRun distinct found⟩

/-- A done run whose record is gone when it ends finds nothing to complete, and leaves the tables as they are. -/
theorem finish_of_missing {id : String} (missing : h.run? id = none) (ds : List Diagnostic) {res : RunResult}
    (done : res.status.isDone = true) (now : Timestamp) (limit : Int) : h.finish id ds res now limit = h := by
  have saved : (h.save id ds).2 = h := by
    cases ds with
    | nil => rfl
    | cons d ds =>
      have refused : h.insertSaved ⟨id, h.nextSeq id, d⟩ = .error .orphans := if_pos (by rw [missing]; rfl)
      simp only [save, List.zipIdx_cons, List.map_cons, insertAll, refused]
  have absent := run?_eq_none.mp missing
  have count : h.runs.countP (·.id == id) = 0 := List.countP_eq_zero.mpr fun r member => by simpa using absent r member
  have same : h.runs.map (fun r => if r.id = id then r.complete res now else r) = h.runs := by
    refine (List.map_congr_left fun r member => if_neg (absent r member)).trans (List.map_id _)
  rw [finish, saved, complete, done]
  simp only [Bool.not_true, Bool.false_eq_true, if_false, updateRuns, count, same, expectRun]

theorem names_complete (id : String) (res : RunResult) (now : Timestamp) :
    (h.complete id res now).2.runs.map (·.id) = h.runs.map (·.id) := by
  have names : (h.updateRuns id (·.complete res now)).2.runs.map (·.id) = h.runs.map (·.id) :=
    map_id_updateRuns fun _ => rfl
  unfold complete
  split
  · rfl
  · cases updated : h.updateRuns id (·.complete res now) with
    | mk count after =>
      rw [updated] at names
      cases count <;> exact names

theorem complete_of_isSome {id : String} (there : (h.run? id).isSome = true) {res : RunResult}
    (done : res.status.isDone = true) (now : Timestamp) :
    h.complete id res now = (.ok (), (h.complete id res now).2) := by
  obtain ⟨r, found⟩ := Option.isSome_iff_exists.mp there
  have completed : h.complete id res now = (.ok (), (h.updateRuns id (·.complete res now)).2) := by
    rw [complete, done]
    exact expectRun_of_pos id (updateRuns_pos found)
  rw [completed]

theorem finish_of_isSome {id : String} (there : (h.run? id).isSome = true) (ds : List Diagnostic) {res : RunResult}
    (done : res.status.isDone = true) (now : Timestamp) {keep : Nat} (positive : 0 < keep) :
    h.finish id ds res now keep = ((h.save id ds).2.complete id res now).2.pruned keep := by
  have known : ((h.save id ds).2.run? id).isSome = true := by rwa [run?, runs_save]
  rw [finish, complete_of_isSome known done now]
  simp only [Int.natCast_pos.mpr positive, if_true, prune_eq]

theorem length_finish_le_iff (distinct : (h.runs.map (·.id)).Nodup) (id : String) (ds : List Diagnostic)
    {res : RunResult} (done : res.status.isDone = true) (now : Timestamp) {limit : Int} (positive : 0 < limit) :
    (h.finish id ds res now limit).runs.length ≤ limit ↔ (h.run? id).isSome = true ∨ h.runs.length ≤ limit := by
  obtain ⟨keep, rfl⟩ := Int.eq_ofNat_of_zero_le positive.le
  cases found : h.run? id with
  | none => simp [finish_of_missing found ds done]
  | some r =>
    have there : (h.run? id).isSome = true := Option.isSome_of_eq_some found
    have distinct' : (((h.save id ds).2.complete id res now).2.runs.map (·.id)).Nodup := by
      rwa [names_complete, runs_save]
    rw [finish_of_isSome there ds done now (Int.natCast_pos.mp positive)]
    simp [length_pruned distinct' keep]

/-! Lint runs that go on at the same time. -/

/-- What runs that share a history make of it, one operation at a time, in any order among them. Each begins, may save
and complete, and ends: with a pruning, or because its record is gone. The lists name the runs that are under way and
those that are over. -/
inductive Overlapping (keep : Nat) (first : History) : List String → List String → History → Prop where
  | none : Overlapping keep first [] [] first
  | begins {under past : List String} {h : History} (id workspace : String) (now : Timestamp) :
      Overlapping keep first under past h → Overlapping keep first (id :: under) past (h.start id workspace now)
  | saves {under past : List String} {h : History} {id : String} (ds : List Diagnostic) :
      Overlapping keep first under past h → id ∈ under → Overlapping keep first under past (h.save id ds).2
  | completes {under past : List String} {h : History} {id : String} (res : RunResult) (now : Timestamp) :
      Overlapping keep first under past h → id ∈ under → Overlapping keep first under past (h.complete id res now).2
  | prunes {under past : List String} {h : History} {id : String} :
      Overlapping keep first under past h → id ∈ under →
      Overlapping keep first (under.erase id) (id :: past) (h.prune keep).2
  | misses {under past : List String} {h : History} {id : String} :
      Overlapping keep first under past h → id ∈ under → h.run? id = none →
      Overlapping keep first (under.erase id) (id :: past) h

namespace Overlapping

variable {keep : Nat} {first : History} {under past : List String}

theorem finishes (overlapping : Overlapping keep first under past h) {id : String} (member : id ∈ under)
    (ds : List Diagnostic) {res : RunResult} (done : res.status.isDone = true) (now : Timestamp)
    (positive : 0 < keep) :
    Overlapping keep first (under.erase id) (id :: past) (h.finish id ds res now keep) := by
  cases found : h.run? id with
  | none =>
    rw [finish_of_missing found ds done]
    exact overlapping.misses member found
  | some r =>
    rw [finish_of_isSome (Option.isSome_of_eq_some found) ds done now positive]
    have pruned := ((overlapping.saves ds member).completes res now member).prunes member
    rwa [prune_eq] at pruned

end Overlapping

def settled (under : List String) (h : History) : Nat :=
  (h.runs.map (·.id)).countP (· ∉ under)

theorem names_start (id workspace : String) (now : Timestamp) :
    (h.start id workspace now).runs.map (·.id) =
      if id ∈ h.runs.map (·.id) then h.runs.map (·.id) else h.runs.map (·.id) ++ [id] := by
  have known : (h.run? id).isSome = true ↔ id ∈ h.runs.map (·.id) := by simp [isSome_run?]
  unfold start create insertRun
  by_cases there : (h.run? id).isSome = true
  · rw [if_pos (known.mp there), if_pos there]
  · rw [if_neg (mt known.mpr there), if_neg there]
    simp

theorem settled_erase_of_missing {under : List String} {id : String} (missing : h.run? id = none) :
    h.settled (under.erase id) = h.settled under := by
  refine List.countP_congr fun name member => ?_
  have other : name ≠ id := by
    obtain ⟨r, there, rfl⟩ := List.mem_map.mp member
    exact run?_eq_none.mp missing r there
  simp [List.mem_erase_of_ne other]

theorem settled_start_le (under : List String) (id workspace : String) (now : Timestamp) :
    (h.start id workspace now).settled (id :: under) ≤ h.settled under := by
  have weaker : (h.runs.map (·.id)).countP (· ∉ id :: under) ≤ h.settled under :=
    List.countP_mono_left fun name _ => by simp
  rw [settled, names_start]
  split
  · exact weaker
  · simpa using weaker

namespace Overlapping

variable {keep : Nat} {first : History} {under past : List String}

theorem distinct (overlapping : Overlapping keep first under past h) (distinct : (first.runs.map (·.id)).Nodup) :
    (h.runs.map (·.id)).Nodup := by
  induction overlapping with
  | none => exact distinct
  | begins id workspace now _ ih => exact (start_records ih id workspace now).2
  | saves ds _ _ ih => rwa [runs_save]
  | completes res now _ _ ih => rwa [names_complete]
  | prunes _ _ ih =>
    rw [prune_eq]
    exact ih.sublist (List.filter_sublist.map _)
  | misses _ _ _ ih => exact ih

/-- Until the first run ends, the records of all runs that have begun are there. -/
theorem recorded (overlapping : Overlapping keep first under past h) (early : past = []) :
    ∀ id ∈ under, id ∈ h.runs.map (·.id) := by
  induction overlapping with
  | none => simp
  | begins id workspace now _ ih =>
    rw [names_start]
    intro name member
    split
    · rename_i there
      rcases List.mem_cons.mp member with rfl | older
      · exact there
      · exact ih early name older
    · rcases List.mem_cons.mp member with rfl | older
      · exact List.mem_append_right _ List.mem_cons_self
      · exact List.mem_append_left _ (ih early name older)
  | saves ds _ _ ih =>
    rw [runs_save]
    exact ih early
  | completes res now _ _ ih =>
    rw [names_complete]
    exact ih early
  | prunes | misses => contradiction

theorem settled_le (overlapping : Overlapping keep first under past h) (distinct : (first.runs.map (·.id)).Nodup)
    (ended : past ≠ []) : h.settled under ≤ keep := by
  induction overlapping with
  | none => contradiction
  | begins id workspace now _ ih => exact (settled_start_le _ id workspace now).trans (ih ended)
  | saves ds _ _ ih =>
    rw [settled, runs_save]
    exact ih ended
  | completes res now _ _ ih =>
    rw [settled, names_complete]
    exact ih ended
  | @prunes _ _ h _ before _ _ =>
    rw [prune_eq]
    calc (h.pruned keep).settled _ ≤ ((h.pruned keep).runs.map (·.id)).length := List.countP_le_length
      _ = (h.pruned keep).runs.length := List.length_map _
      _ ≤ keep := length_pruned (before.distinct distinct) keep
  | @misses _ past _ id before member missing ih =>
    rw [settled_erase_of_missing missing]
    refine ih fun early => ?_
    -- nothing has been pruned before the first end, so the first run to end finds its record
    obtain ⟨r, there, same⟩ := List.mem_map.mp (before.recorded early id member)
    exact run?_eq_none.mp missing r there same

end Overlapping

theorem length_le_settled (distinct : (h.runs.map (·.id)).Nodup) (under : List String) :
    h.runs.length ≤ h.settled under + under.length := by
  let names := h.runs.map (·.id)
  have among : (names.filter (· ∈ under)).length ≤ under.length := by
    refine (List.subperm_of_subset (distinct.filter _) fun name member => ?_).length_le
    simpa using (List.mem_filter.mp member).2
  have split : names.length = (names.filter (· ∈ under)).length + h.settled under := by
    rw [settled, List.countP_eq_length_filter, List.length_eq_length_filter_add (l := names) (· ∈ under)]
    simp [names]
  rw [List.length_map] at split
  omega

end History

theorem Report.status_isDone (r : Report) : r.status.isDone = true := by
  unfold status
  split <;> rfl

namespace History

/-- In every state of the tables, where each run has its own name, pages are cut out of the runs of a workspace, later
starts first and then by name, and a pruning leaves the first runs of the listing of all runs, tells how many went, and
changes nothing about those that stay. When a lint run ends, be it with a report or because the caller gave up, there
are no more runs than the limit exactly if its record is still there or there were no more before. It is there if the
run was the only one. Of runs that go on at the same time, one may find that another has removed its record; but once
one of them has ended, no more records than the limit are of runs that have, so when all have ended the limit holds. -/
theorem prune_follows_listing (h : History) (distinct : (h.runs.map (·.id)).Nodup) :
    (∀ (workspace : String) (limit offset : Nat), ∃ rs : List RunRecord,
      rs.Perm (h.runs.filter fun r => workspace = "" ∨ r.workspace = workspace) ∧
      rs.Pairwise (fun a b => b.startedAt.stored < a.startedAt.stored ∨
        a.startedAt.stored = b.startedAt.stored ∧ a.id < b.id) ∧
      (Database.ready h).list workspace limit offset = .ok ((rs.drop offset).take limit)) ∧
    (∀ keep : Nat, ∃ h' n, (Database.ready h).prune keep = .ok (.ready h', n) ∧
      h'.list "" h'.runs.length 0 = (h.list "" h.runs.length 0).take keep ∧
      n + h'.runs.length = h.runs.length ∧
      ∀ r ∈ h'.runs, h.run? r.id = some r ∧ h'.run? r.id = some r ∧ h'.diagnostics r.id = h.diagnostics r.id) ∧
    (∀ (id : String) (ds : List Diagnostic) (r : Report) (d : Duration) (now : Timestamp) (limit : Int), 0 < limit →
      ∀ res ∈ [r.result d, .aborted d],
        ((h.finish id ds res now limit).runs.length ≤ limit ↔ (h.run? id).isSome = true ∨ h.runs.length ≤ limit) ∧
        ((h.run? id).isSome = false → h.finish id ds res now limit = h) ∧
        ∀ workspace start, ((h.start id workspace start).finish id ds res now limit).runs.length ≤ limit) ∧
    ∀ (limit : Nat) (under past : List String) (h' : History), Overlapping limit h under past h' → past ≠ [] →
      (h'.runs.filter (·.id ∉ under)).length ≤ limit ∧ h'.runs.length ≤ limit + under.length := by
  refine ⟨fun workspace limit offset => ?_, fun keep => ?_, fun id ds r d now limit positive res member => ?_,
    fun limit under past h' overlapping ended => ?_⟩
  · let rs := h.runs.filter fun r => workspace = "" ∨ r.workspace = workspace
    have distinct' : (rs.map (·.id)).Nodup := distinct.sublist (List.filter_sublist.map _)
    refine ⟨RunRecord.listing rs, RunRecord.listing_perm rs, ?_, ?_⟩
    · exact (RunRecord.listing_listed distinct').imp RunRecord.before_iff.mp
    · exact congrArg Except.ok (list_eq workspace limit offset)
  · have positive : ¬(keep : Int) < 0 := by omega
    refine ⟨h.pruned keep, _, ?_, ?_, deleted_add_kept _, fun r member => pruned_keeps distinct keep member⟩
    · simp only [Database.prune, positive, Database.history, prune_eq]
      rfl
    · rw [list_all, list_all, listing_pruned distinct]
  · have done : res.status.isDone = true := by
      rcases List.mem_pair.mp member with rfl | rfl
      · exact r.status_isDone
      · rfl
    refine ⟨length_finish_le_iff distinct id ds done now positive, fun missing => ?_, fun workspace start => ?_⟩
    · exact finish_of_missing (by simpa using missing) ds done now limit
    · obtain ⟨there, distinct'⟩ := start_records distinct id workspace start
      exact (length_finish_le_iff distinct' id ds done now positive).mpr (.inl there)
  · have settled := overlapping.settled_le distinct ended
    have all := length_le_settled (overlapping.distinct distinct) under
    refine ⟨?_, by omega⟩
    rwa [History.settled, List.countP_map, List.countP_eq_length_filter] at settled

/-- Three runs, two of which started at the same time, and a diagnostic of the third. -/
def sampleTables : History where
  runs := [⟨"b", "v", .passed, ⟨0, 0⟩, none, 0, 0, 0, 0, none⟩, ⟨"c", "w", .running, ⟨0, 0⟩, none, 0, 0, 0, 0, none⟩,
    ⟨"a", "w", .failed, ⟨Timestamp.second, 0⟩, none, 0, 1, 0, 0, none⟩]
  saved := [⟨"a", 0, ⟨.error, "meson.build", .zero, "m"⟩⟩]

def samplePassed : RunResult :=
  Report.result ⟨"w", [], [], 0⟩ ⟨0⟩

/-- While one run goes on, a second begins and ends, which leaves one record, and a third begins. -/
def sampleOvertaken : History :=
  let begun := (({} : History).start "a" "w" ⟨0, 0⟩).start "b" "w" ⟨Timestamp.second, 0⟩
  (begun.finish "b" [] samplePassed ⟨Timestamp.second, 0⟩ 1).start "c" "w" ⟨2 * Timestamp.second, 0⟩

theorem sampleOvertaken_overlapping : Overlapping 1 {} ["c", "a"] ["b"] sampleOvertaken := by
  have idle : Overlapping 1 {} [] [] {} := .none
  have begun := (idle.begins "a" "w" ⟨0, 0⟩).begins "b" "w" ⟨Timestamp.second, 0⟩
  have passed : samplePassed.status.isDone = true := rfl
  have ended := begun.finishes (.head _) [] passed ⟨Timestamp.second, 0⟩ (by decide)
  exact ended.begins "c" "w" ⟨2 * Timestamp.second, 0⟩

theorem prune_follows_listing_sample :
    (sampleTables.runs.map (·.id)).Nodup ∧
      (∃ h' n, (Database.ready sampleTables).prune 2 = .ok (.ready h', n) ∧
        (h'.list "" h'.runs.length 0).map (·.id) = ["a", "b"] ∧ n + h'.runs.length = 3) ∧
      ((sampleTables.start "d" "w" ⟨0, 0⟩).finish "d" [] (.aborted ⟨0⟩) ⟨0, 0⟩ 1).runs.length ≤ 1 ∧
      Overlapping 1 {} ["c", "a"] ["b"] sampleOvertaken ∧ sampleOvertaken.runs.length ≤ 3 := by
  have distinct : (sampleTables.runs.map (·.id)).Nodup := by decide
  obtain ⟨-, pruning, ending, -⟩ := prune_follows_listing sampleTables distinct
  refine ⟨distinct, ?_, ?_, ?_⟩
  · obtain ⟨h', n, pruned, listing, count, -⟩ := pruning 2
    have before : ((sampleTables.list "" sampleTables.runs.length 0).take 2).map (·.id) = ["a", "b"] := by
      decide +kernel
    exact ⟨h', n, pruned, listing ▸ before, count⟩
  · exact_mod_cast (ending "d" [] ⟨"w", [], [], 0⟩ ⟨0⟩ ⟨0, 0⟩ 1 (by decide) (.aborted ⟨0⟩) (by simp)).2.2 "w" ⟨0, 0⟩
  · obtain ⟨-, -, -, together⟩ := prune_follows_listing {} .nil
    exact ⟨sampleOvertaken_overlapping, (together 1 _ _ _ sampleOvertaken_overlapping (by simp)).2⟩

/-- The first run ends while the third goes on. Its own record is gone, so it does not prune, and there are more records
than the limit. -/
theorem overtaken_end_exceeds_limit :
    sampleOvertaken.run? "a" = none ∧
      (sampleOvertaken.finish "a" [] samplePassed ⟨2 * Timestamp.second, 0⟩ 1).runs.map (·.id) = ["b", "c"] := by
  decide +kernel

end History

end MesonCheck
