import MesonCheck.History.Basic
import MesonCheck.Proofs.Text.Sorted

/-! The two tables of a history. Every run has a name of its own, every diagnostic has its run, and the diagnostics of a
run are numbered in the order in which they stand. Each change of the tables keeps this. -/
namespace MesonCheck.History

structure Sound (h : History) : Prop where
  distinct : (h.runs.map (·.id)).Nodup
  owned : ∀ s ∈ h.saved, ∃ r ∈ h.runs, r.id = s.run
  numbered : ∀ id, (h.savedOf id).map (·.seq) = List.range (h.savedOf id).length

theorem sound_empty : Sound {} := by
  constructor <;> simp [savedOf]

variable {h : History}

theorem run?_eq_none {id : String} : h.run? id = none ↔ ∀ r ∈ h.runs, r.id ≠ id := by
  simp [run?]

theorem isSome_run? {id : String} : (h.run? id).isSome = true ↔ ∃ r ∈ h.runs, r.id = id := by
  simp [run?]

theorem mem_savedOf {id : String} {s : SavedDiagnostic} : s ∈ h.savedOf id ↔ s ∈ h.saved ∧ s.run = id := by
  simp [savedOf]

namespace Sound

theorem run?_eq_some (sound : h.Sound) {id : String} {r : RunRecord} :
    h.run? id = some r ↔ r ∈ h.runs ∧ r.id = id :=
  Text.find_key_eq_some sound.distinct

theorem savedOf_eq_nil (sound : h.Sound) {id : String} (missing : h.run? id = none) : h.savedOf id = [] := by
  apply List.eq_nil_iff_forall_not_mem.mpr
  intro s member
  obtain ⟨known, rfl⟩ := mem_savedOf.mp member
  obtain ⟨r, there, same⟩ := sound.owned s known
  exact run?_eq_none.mp missing r there same

end Sound

/-! Reading. -/

theorem foldr_placeSaved {ss : List SavedDiagnostic} (inOrder : (ss.map (·.seq)).Pairwise (· < ·)) :
    ss.foldr placeSaved [] = ss := by
  induction ss with
  | nil => rfl
  | cons s ss ih =>
    have ⟨first, rest⟩ := List.pairwise_cons.mp inOrder
    rw [List.foldr_cons, ih rest]
    cases ss with
    | nil => rfl
    | cons t ts =>
      have smaller : s.seq < t.seq := first t.seq List.mem_cons_self
      exact if_pos (Nat.le_of_lt smaller)

theorem Sound.diagnostics_eq (sound : h.Sound) (id : String) :
    h.diagnostics id = (h.savedOf id).map (·.diagnostic) := by
  have inOrder : ((h.savedOf id).map (·.seq)).Pairwise (· < ·) := by
    rw [sound.numbered]
    exact List.pairwise_lt_range
  rw [diagnostics, foldr_placeSaved inOrder]

theorem foldl_max_range (n : Nat) : ((List.range n).map (· + 1)).foldl max 0 = n := by
  induction n with
  | zero => rfl
  | succ n ih => simp [List.range_succ, ih]

theorem Sound.nextSeq_eq (sound : h.Sound) (id : String) : h.nextSeq id = (h.savedOf id).length := by
  have numbers : (h.savedOf id).map (·.seq + 1) = (List.range (h.savedOf id).length).map (· + 1) := by
    rw [← sound.numbered, List.map_map]
    rfl
  rw [nextSeq, numbers, foldl_max_range]

theorem expectRun_of_pos (id : String) {change : Nat × History} (some : 0 < change.1) :
    expectRun id change = (.ok (), change.2) := by
  obtain ⟨n, h⟩ := change
  cases n with
  | zero => cases some
  | succ n => rfl

/-! Adding a run. -/

section

variable {r : RunRecord}

theorem run?_addRun (new : h.run? r.id = none) (id : String) :
    ({ h with runs := h.runs ++ [r] } : History).run? id = if r.id = id then some r else h.run? id := by
  have found : ({ h with runs := h.runs ++ [r] } : History).run? id = (h.run? id).or ([r].find? (·.id == id)) :=
    List.find?_append
  by_cases same : r.id = id
  · subst same
    simp [found, new]
  · simp [found, same]

theorem distinct_addRun (distinct : (h.runs.map (·.id)).Nodup) (new : h.run? r.id = none) :
    ((h.runs ++ [r]).map (·.id)).Nodup := by
  rw [List.map_append, List.map_singleton, ← List.concat_eq_append, List.nodup_concat]
  constructor
  · intro known
    obtain ⟨s, member, same⟩ := List.mem_map.mp known
    exact run?_eq_none.mp new s member same
  · exact distinct

theorem Sound.addRun (sound : h.Sound) (new : h.run? r.id = none) :
    Sound { h with runs := h.runs ++ [r] } where
  distinct := distinct_addRun sound.distinct new
  owned s member := by
    obtain ⟨q, there, same⟩ := sound.owned s member
    exact ⟨q, List.mem_append_left _ there, same⟩
  numbered := sound.numbered

end

/-! Changing a run. -/

section

variable {f : RunRecord → RunRecord} {id : String}

theorem updateRuns_of_missing (missing : h.run? id = none) : h.updateRuns id f = (0, h) := by
  have others := run?_eq_none.mp missing
  have same : h.runs.map (fun r => if r.id = id then f r else r) = h.runs := by
    have kept : ∀ r ∈ h.runs, (if r.id = id then f r else r) = r := by
      intro r member
      exact if_neg (others r member)
    rw [List.map_congr_left kept, List.map_id']
  have count : h.runs.countP (·.id == id) = 0 := by
    apply List.countP_eq_zero.mpr
    simpa using others
  rw [updateRuns, same, count]

theorem updateRuns_pos {r : RunRecord} (known : h.run? id = some r) : 0 < (h.updateRuns id f).1 := by
  obtain ⟨q, member, named⟩ := isSome_run?.mp (Option.isSome_of_eq_some known)
  exact List.countP_pos_iff.mpr ⟨q, member, by simpa using named⟩

theorem id_update (keeps : ∀ r, (f r).id = r.id) (r : RunRecord) : (if r.id = id then f r else r).id = r.id := by
  split
  · exact keeps r
  · rfl

theorem run?_updateRuns (keeps : ∀ r, (f r).id = r.id) (i : String) :
    (h.updateRuns id f).2.run? i = if id = i then (h.run? i).map f else h.run? i := by
  have change : (h.updateRuns id f).2.run? i = (h.run? i).map fun r => if r.id = id then f r else r := by
    simp only [run?, updateRuns, List.find?_map]
    congr 2
    funext r
    exact congrArg (· == i) (id_update keeps r)
  rw [change]
  cases found : h.run? i with
  | none => simp
  | some r =>
    have named : r.id = i := by simpa using List.find?_some found
    simp only [Option.map_some, named, eq_comm (a := i)]
    split <;> rfl

theorem map_id_updateRuns (keeps : ∀ r, (f r).id = r.id) :
    (h.updateRuns id f).2.runs.map (·.id) = h.runs.map (·.id) := by
  simp [updateRuns, Function.comp_def, id_update keeps]

theorem Sound.update (sound : h.Sound) (keeps : ∀ r, (f r).id = r.id) : Sound (h.updateRuns id f).2 where
  distinct := by
    rw [map_id_updateRuns keeps]
    exact sound.distinct
  owned s member := by
    obtain ⟨r, there, same⟩ := sound.owned s member
    exact ⟨_, List.mem_map_of_mem there, (id_update keeps r).trans same⟩
  numbered := sound.numbered

end

/-! Deleting runs by their names. -/

section

variable {drop : String → Bool}

theorem saved_deleteRuns (sound : h.Sound) :
    (h.deleteRuns (drop ·.id)).2.saved = h.saved.filter (!drop ·.run) := by
  apply List.filter_congr
  intro s member
  obtain ⟨r, there, same⟩ := sound.owned s member
  have gone : s.run ∈ (h.runs.filter (drop ·.id)).map (·.id) ↔ drop s.run = true := by
    constructor
    · intro deleted
      obtain ⟨q, among, named⟩ := List.mem_map.mp deleted
      rw [← named]
      exact (List.mem_filter.mp among).2
    · intro dropped
      apply List.mem_map.mpr
      exact ⟨r, List.mem_filter.mpr ⟨there, by rwa [same]⟩, same⟩
  simp only [Bool.not_inj_iff]
  rw [Bool.eq_iff_iff, List.contains_iff_mem, gone]

theorem run?_deleteRuns (id : String) :
    (h.deleteRuns (drop ·.id)).2.run? id = if drop id = true then none else h.run? id := by
  simp only [run?, deleteRuns, List.find?_filter]
  split
  · rename_i dropped
    apply List.find?_eq_none.mpr
    intro r _ kept
    simp only [Bool.not_eq_true', beq_iff_eq, decide_eq_true_eq] at kept
    obtain ⟨stays, rfl⟩ := kept
    simp [stays] at dropped
  · rename_i stays
    congr 1
    funext r
    by_cases named : r.id = id <;> simp [named, stays]

theorem deleteRuns_pos {r : RunRecord} (member : r ∈ h.runs) (dropped : drop r.id = true) :
    0 < (h.deleteRuns (drop ·.id)).1 := by
  simp only [deleteRuns, List.length_map]
  exact List.length_pos_of_mem (List.mem_filter.mpr ⟨member, dropped⟩)

theorem savedOf_deleteRuns (sound : h.Sound) (id : String) :
    (h.deleteRuns (drop ·.id)).2.savedOf id = if drop id = true then [] else h.savedOf id := by
  rw [savedOf, saved_deleteRuns sound, List.filter_filter]
  split
  · rename_i dropped
    apply List.filter_eq_nil_iff.mpr
    intro s _ kept
    simp only [Bool.and_eq_true, Bool.not_eq_true', beq_iff_eq] at kept
    obtain ⟨rfl, stays⟩ := kept
    simp [stays] at dropped
  · rename_i stays
    apply List.filter_congr
    intro s _
    by_cases named : s.run = id <;> simp [named, stays]

theorem Sound.delete (sound : h.Sound) : Sound (h.deleteRuns (drop ·.id)).2 where
  distinct := sound.distinct.sublist (List.filter_sublist.map _)
  owned s member := by
    rw [saved_deleteRuns sound, List.mem_filter] at member
    obtain ⟨r, there, same⟩ := sound.owned s member.1
    exact ⟨r, List.mem_filter.mpr ⟨there, by simpa [same] using member.2⟩, same⟩
  numbered id := by
    rw [savedOf_deleteRuns sound]
    split
    · rfl
    · exact sound.numbered id

theorem deleteRuns_of_missing (sound : h.Sound) (missing : ∀ r ∈ h.runs, drop r.id = false) :
    h.deleteRuns (drop ·.id) = (0, h) := by
  have runs : h.runs.filter (!drop ·.id) = h.runs := by
    apply List.filter_eq_self.mpr
    intro r member
    simp [missing r member]
  have saved : h.saved.filter (!drop ·.run) = h.saved := by
    apply List.filter_eq_self.mpr
    intro s member
    obtain ⟨r, there, same⟩ := sound.owned s member
    simp [← same, missing r there]
  have count : (h.deleteRuns (drop ·.id)).1 = 0 := by
    simpa [deleteRuns] using missing
  apply Prod.ext
  · exact count
  · have tables : (h.deleteRuns (drop ·.id)).2.saved = h.saved := (saved_deleteRuns sound).trans saved
    cases h
    simp_all [deleteRuns]

end

/-! Adding diagnostics. -/

section

variable {ss : List SavedDiagnostic} {id : String}

theorem insertAll_of_known {r : RunRecord} (known : h.run? id = some r) (all : ∀ s ∈ ss, s.run = id) :
    h.insertAll ss = (.ok (), { h with saved := h.saved ++ ss }) := by
  induction ss generalizing h with
  | nil => simp [insertAll]
  | cons s ss ih =>
    have there : (h.run? s.run).isNone = false := by simp [all s List.mem_cons_self, known]
    have next : h.insertSaved s = .ok { h with saved := h.saved ++ [s] } := by simp [insertSaved, there]
    rw [insertAll, next]
    simpa using ih (h := { h with saved := h.saved ++ [s] }) known fun t member => all t (List.mem_cons_of_mem s member)

theorem insertAll_of_missing {s : SavedDiagnostic} (missing : h.run? s.run = none) :
    h.insertAll (s :: ss) = (.error .orphans, h) := by
  have refused : h.insertSaved s = .error .orphans := by simp [insertSaved, missing]
  rw [insertAll, refused]

def rows (h : History) (id : String) (ds : List Diagnostic) : List SavedDiagnostic :=
  (ds.zipIdx (h.nextSeq id)).map fun (d, seq) => ⟨id, seq, d⟩

variable {ds : List Diagnostic}

theorem run_of_mem_rows {s : SavedDiagnostic} (member : s ∈ h.rows id ds) : s.run = id := by
  obtain ⟨⟨d, seq⟩, -, rfl⟩ := List.mem_map.mp member
  rfl

theorem rows_diagnostic : (h.rows id ds).map (·.diagnostic) = ds := by
  rw [rows, List.map_map]
  exact List.zipIdx_map_fst ..

theorem rows_seq : (h.rows id ds).map (·.seq) = List.range' (h.nextSeq id) ds.length := by
  rw [rows, List.map_map]
  exact List.zipIdx_map_snd ..

theorem savedOf_addRows (i : String) :
    ({ h with saved := h.saved ++ h.rows id ds } : History).savedOf i =
      if id = i then h.savedOf i ++ h.rows id ds else h.savedOf i := by
  simp only [savedOf, List.filter_append]
  split
  · rename_i same
    congr 1
    apply List.filter_eq_self.mpr
    intro s member
    simp [run_of_mem_rows member, same]
  · rename_i other
    have none : (h.rows id ds).filter (·.run == i) = [] := by
      apply List.filter_eq_nil_iff.mpr
      intro s member
      simp [run_of_mem_rows member, other]
    rw [none, List.append_nil]

theorem Sound.addRows (sound : h.Sound) {r : RunRecord} (known : h.run? id = some r) :
    Sound { h with saved := h.saved ++ h.rows id ds } where
  distinct := sound.distinct
  owned s member := by
    rcases List.mem_append.mp member with old | new
    · exact sound.owned s old
    · obtain ⟨there, named⟩ := sound.run?_eq_some.mp known
      exact ⟨r, there, named.trans (run_of_mem_rows new).symm⟩
  numbered i := by
    rw [savedOf_addRows]
    split
    · rename_i same
      subst same
      -- the new numbers go on where the old ones end
      have length : (h.rows id ds).length = ds.length := by simp [rows]
      rw [List.map_append, sound.numbered, rows_seq, sound.nextSeq_eq, List.length_append, length,
        List.range_eq_range', List.range_eq_range', ← List.range'_append_1, Nat.zero_add]
    · exact sound.numbered i

end

end MesonCheck.History
