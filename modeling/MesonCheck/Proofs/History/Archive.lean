import Mathlib.Data.List.Nodup
import MesonCheck.History.Database
import MesonCheck.Proofs.History.Listing
import MesonCheck.Proofs.History.Tables
import Std.Data.ExtTreeMap

/-! A history seen as a map. The tables of a history stand for a map from the names of runs to what is known of each:
its record, and its diagnostics in the order they were saved. Every operation on the tables does what the same operation
does on the map, and a refused one does nothing. -/
namespace MesonCheck

open History (Refusal Reply)

inductive Operation where
  | create (r : RunRecord)
  | complete (id : String) (res : RunResult) (now : Timestamp)
  | save (id : String) (ds : List Diagnostic)
  | delete (id : String)
  | prune (keep : Int)

/-- How calls were answered; the last call comes first. -/
abbrev CallLog := List (Operation × Except Refusal (Option Nat))

structure Aftermath (σ : Type) where
  state : σ
  calls : CallLog

namespace Aftermath

variable {σ : Type} (perform : σ → Operation → Except Refusal (Option Nat) × σ)

def call (c : Aftermath σ) (op : Operation) : Aftermath σ :=
  ⟨(perform c.state op).2, (op, (perform c.state op).1) :: c.calls⟩

def run (start : σ) (ops : List Operation) : Aftermath σ :=
  ops.foldl (call perform) ⟨start, []⟩

end Aftermath

namespace History

def Reply.map {α β : Type} (f : α → β) : Reply α → Reply β
  | (.ok a, h) => (.ok (f a), h)
  | (.error e, h) => (.error e, h)

def perform (h : History) : Operation → Reply (Option Nat)
  | .create r => Reply.map (fun _ => none) (h.create r)
  | .complete id res now => Reply.map (fun _ => none) (h.complete id res now)
  | .save id ds => Reply.map (fun _ => none) (h.save id ds)
  | .delete id => Reply.map (fun _ => none) (h.delete id)
  | .prune keep => Reply.map some (h.prune keep)

end History

structure Dossier where
  run : RunRecord
  diagnostics : List Diagnostic

abbrev Archive := Std.ExtTreeMap String Dossier

namespace Archive

def ahead (m : Archive) (r : RunRecord) : Nat :=
  m.toList.countP (·.2.run.before r)

def newest (m : Archive) (keep : Int) : Archive :=
  m.filter fun _ d => m.ahead d.run < keep

def perform (m : Archive) : Operation → Except Refusal (Option Nat × Archive)
  | .create r => if r.id ∈ m then .error .runExists else .ok (none, m.insert r.id ⟨r, []⟩)
  | .complete id res now =>
    if !res.status.isDone then .error (.unfinished id res.status)
    else
      match m[id]? with
      | none => .error (.noRun id)
      | some d => .ok (none, m.insert id { d with run := d.run.complete res now })
  | .save id ds =>
    if ds.isEmpty then .ok (none, m)
    else
      match m[id]? with
      | none => .error .orphans
      | some d => .ok (none, m.insert id { d with diagnostics := d.diagnostics ++ ds })
  | .delete id => if id ∈ m then .ok (none, m.erase id) else .error (.noRun id)
  | .prune keep =>
    if keep < 0 then .error (.negativeKeep keep) else .ok (some (m.size - (m.newest keep).size), m.newest keep)

/-- A refused operation leaves the map as it is. -/
def step (m : Archive) (op : Operation) : Except Refusal (Option Nat) × Archive :=
  match m.perform op with
  | .ok (n, next) => (.ok n, next)
  | .error e => (.error e, m)

end Archive

namespace History

def Shows (h : History) (m : Archive) : Prop :=
  ∀ id, m[id]? = (h.run? id).map fun r => ⟨r, h.diagnostics id⟩

variable {h : History} {m : Archive}

theorem Shows.mem_iff (shown : h.Shows m) {id : String} : id ∈ m ↔ (h.run? id).isSome = true := by
  rw [Std.ExtTreeMap.mem_iff_isSome_getElem?, shown, Option.isSome_map]

theorem Shows.toList_perm (shown : h.Shows m) (sound : h.Sound) :
    m.toList.Perm (h.runs.map fun r => (r.id, ⟨r, h.diagnostics r.id⟩)) := by
  have keys : m.toList.Nodup := by
    apply m.distinct_keys_toList.imp
    rintro a _ differ rfl
    exact differ Std.ReflCmp.compare_self
  have names : (h.runs.map fun r => (r.id, (⟨r, h.diagnostics r.id⟩ : Dossier))).Nodup := by
    apply List.Nodup.of_map Prod.fst
    rw [List.map_map]
    exact sound.distinct
  apply (List.perm_ext_iff_of_nodup keys names).mpr
  rintro ⟨id, d⟩
  rw [Std.ExtTreeMap.mem_toList_iff_getElem?_eq_some, shown, Option.map_eq_some_iff, List.mem_map]
  constructor
  · rintro ⟨r, found, rfl⟩
    obtain ⟨member, rfl⟩ := sound.run?_eq_some.mp found
    exact ⟨r, member, rfl⟩
  · rintro ⟨r, member, same⟩
    cases same
    exact ⟨r, sound.run?_eq_some.mpr ⟨member, rfl⟩, rfl⟩

theorem Shows.size_eq (shown : h.Shows m) (sound : h.Sound) : m.size = h.runs.length := by
  rw [← m.length_toList, (shown.toList_perm sound).length_eq, List.length_map]

theorem Shows.ahead_eq (shown : h.Shows m) (sound : h.Sound) (r : RunRecord) :
    m.ahead r = h.runs.countP (·.before r) := by
  rw [Archive.ahead, (shown.toList_perm sound).countP_eq, List.countP_map, Function.comp_def]

theorem Shows.insert {h' : History} (shown : h.Shows m) (id : String) (r : RunRecord)
    (runs : ∀ i, h'.run? i = if id = i then some r else h.run? i)
    (others : ∀ i, id ≠ i → h'.savedOf i = h.savedOf i) : h'.Shows (m.insert id ⟨r, h'.diagnostics id⟩) := by
  intro i
  simp only [Std.ExtTreeMap.getElem?_insert, Std.compare_eq_iff_eq, runs i]
  by_cases same : id = i
  · simp [same]
  · simp [same, shown i, diagnostics, others i same]

/-- Whether an operation on the tables went as it goes on the map: the same answer with tables that show the map behind
it, or the same refusal with the tables as they were. -/
def Follows (h : History) : Except Refusal (Option Nat × Archive) → Reply (Option Nat) → Prop
  | .ok (n, m), reply => reply.1 = .ok n ∧ reply.2.Sound ∧ reply.2.Shows m
  | .error e, reply => reply = (.error e, h)

theorem Follows.done {n : Option Nat} {h' : History} (sound : h'.Sound) (shown : h'.Shows m) :
    h.Follows (.ok (n, m)) (.ok n, h') :=
  ⟨rfl, sound, shown⟩

theorem create_follows (sound : h.Sound) (shown : h.Shows m) (r : RunRecord) :
    h.Follows (m.perform (.create r)) (h.perform (.create r)) := by
  cases found : h.run? r.id with
  | some q =>
    have known : r.id ∈ m := shown.mem_iff.mpr (by simp [found])
    have refused : h.create r = (.error .runExists, h) := by simp [create, insertRun, found]
    simp only [Archive.perform, known, if_true, perform, refused]
    rfl
  | none =>
    have new : r.id ∉ m := by simp [shown.mem_iff, found]
    have created : h.create r = (.ok (), { h with runs := h.runs ++ [r] }) := by simp [create, insertRun, found]
    have sound' := sound.addRun found
    have empty : ({ h with runs := h.runs ++ [r] } : History).diagnostics r.id = [] := by
      rw [sound'.diagnostics_eq]
      exact congrArg (List.map _) (sound.savedOf_eq_nil found)
    simp only [Archive.perform, new, if_false, perform, created, Reply.map]
    apply Follows.done sound'
    rw [← empty]
    exact shown.insert r.id r (run?_addRun found) fun _ _ => rfl

theorem complete_follows (sound : h.Sound) (shown : h.Shows m) (id : String) (res : RunResult) (now : Timestamp) :
    h.Follows (m.perform (.complete id res now)) (h.perform (.complete id res now)) := by
  cases terminal : res.status.isDone with
  | false =>
    have refused : h.complete id res now = (.error (.unfinished id res.status), h) := by simp [complete, terminal]
    simp only [Archive.perform, terminal, Bool.not_false, if_true, perform, refused]
    rfl
  | true =>
    have attempt : h.complete id res now = expectRun id (h.updateRuns id (·.complete res now)) := by
      simp [complete, terminal]
    cases found : h.run? id with
    | none =>
      have missing : m[id]? = none := by simp [shown id, found]
      rw [updateRuns_of_missing found] at attempt
      simp only [Archive.perform, terminal, missing, perform, attempt]
      rfl
    | some r =>
      have known : m[id]? = some ⟨r, h.diagnostics id⟩ := by simp [shown id, found]
      have keeps : ∀ q : RunRecord, (q.complete res now).id = q.id := fun _ => rfl
      have changed := attempt.trans (expectRun_of_pos id (updateRuns_pos found))
      simp only [Archive.perform, terminal, known, perform, changed]
      apply Follows.done (sound.update keeps)
      have runs : ∀ i, (h.updateRuns id (·.complete res now)).2.run? i =
          if id = i then some (r.complete res now) else h.run? i := by
        intro i
        rw [run?_updateRuns keeps]
        by_cases same : id = i
        · subst same
          simp [found]
        · simp [same]
      exact shown.insert id (r.complete res now) runs fun _ _ => rfl

theorem save_follows (sound : h.Sound) (shown : h.Shows m) (id : String) (ds : List Diagnostic) :
    h.Follows (m.perform (.save id ds)) (h.perform (.save id ds)) := by
  cases ds with
  | nil => exact .done sound shown
  | cons d ds =>
    cases found : h.run? id with
    | none =>
      have missing : m[id]? = none := by simp [shown id, found]
      have refused : h.save id (d :: ds) = (.error .orphans, h) := by
        have first : h.insertAll (h.rows id (d :: ds)) = (.error .orphans, h) := insertAll_of_missing found
        rw [save, ← rows, first]
      simp only [Archive.perform, List.isEmpty_cons, missing, perform, refused]
      rfl
    | some r =>
      have known : m[id]? = some ⟨r, h.diagnostics id⟩ := by simp [shown id, found]
      have saved : h.save id (d :: ds) = (.ok (), { h with saved := h.saved ++ h.rows id (d :: ds) }) := by
        have all := insertAll_of_known found fun s (member : s ∈ h.rows id (d :: ds)) => run_of_mem_rows member
        rw [save, ← rows, all]
      have sound' : Sound { h with saved := h.saved ++ h.rows id (d :: ds) } := sound.addRows found
      have behind : ({ h with saved := h.saved ++ h.rows id (d :: ds) } : History).diagnostics id =
          h.diagnostics id ++ d :: ds := by
        rw [sound'.diagnostics_eq, sound.diagnostics_eq, savedOf_addRows, if_pos rfl, List.map_append, rows_diagnostic]
      simp only [Archive.perform, List.isEmpty_cons, known, perform, saved, Reply.map]
      apply Follows.done sound'
      rw [← behind]
      apply shown.insert id r
      · intro i
        by_cases same : id = i
        · subst same
          rw [if_pos rfl]
          exact found
        · rw [if_neg same]
          rfl
      · intro i other
        rw [savedOf_addRows, if_neg other]

theorem delete_follows (sound : h.Sound) (shown : h.Shows m) (id : String) :
    h.Follows (m.perform (.delete id)) (h.perform (.delete id)) := by
  let drop : String → Bool := (· == id)
  cases found : h.run? id with
  | none =>
    have missing : id ∉ m := by simp [shown.mem_iff, found]
    have nothing : h.deleteRuns (drop ·.id) = (0, h) := by
      apply deleteRuns_of_missing sound
      simpa [drop] using run?_eq_none.mp found
    have refused : h.delete id = (.error (.noRun id), h) := congrArg (expectRun id) nothing
    simp only [Archive.perform, missing, if_false, perform, refused]
    rfl
  | some r =>
    have known : id ∈ m := shown.mem_iff.mpr (by simp [found])
    obtain ⟨member, named⟩ := sound.run?_eq_some.mp found
    have dropped : drop r.id = true := by simpa [drop] using named
    have deleted : h.delete id = (.ok (), (h.deleteRuns (drop ·.id)).2) :=
      expectRun_of_pos id (deleteRuns_pos member dropped)
    simp only [Archive.perform, known, if_true, perform, deleted, Reply.map]
    apply Follows.done sound.delete
    intro i
    simp only [Std.ExtTreeMap.getElem?_erase, Std.compare_eq_iff_eq, run?_deleteRuns, shown i, diagnostics,
      savedOf_deleteRuns sound]
    by_cases same : id = i
    · simp [drop, same]
    · simp [drop, same, Ne.symm same]

theorem kept_iff (sound : h.Sound) {id : String} {r : RunRecord} (found : h.run? id = some r) (k : Nat) :
    id ∈ ((RunRecord.listing h.runs).take k).map (·.id) ↔ h.runs.countP (·.before r) < k := by
  obtain ⟨member, rfl⟩ := sound.run?_eq_some.mp found
  have listed := RunRecord.listing_listed sound.distinct
  have perm := RunRecord.listing_perm h.runs
  rw [← perm.countP_eq, ← RunRecord.mem_take_iff listed (perm.mem_iff.mpr member)]
  constructor
  · intro kept
    obtain ⟨q, early, named⟩ := List.mem_map.mp kept
    have there : q ∈ h.runs := perm.mem_iff.mp (List.mem_of_mem_take early)
    rwa [List.inj_on_of_nodup_map sound.distinct there member named] at early
  · intro early
    exact List.mem_map_of_mem early

theorem prune_follows (sound : h.Sound) (shown : h.Shows m) (keep : Int) :
    h.Follows (m.perform (.prune keep)) (h.perform (.prune keep)) := by
  by_cases negative : keep < 0
  · have refused : h.prune keep = (.error (.negativeKeep keep), h) := by simp [prune, negative]
    simp only [Archive.perform, negative, if_true, perform, refused]
    rfl
  · let ids := ((RunRecord.listing h.runs).take keep.toNat).map (·.id)
    let drop : String → Bool := fun id => !ids.contains id
    let h' := (h.deleteRuns (drop ·.id)).2
    have pruned : h.prune keep = (.ok (h.deleteRuns (drop ·.id)).1, h') := by
      simp only [prune, negative, if_false]
      rfl
    have sound' : h'.Sound := sound.delete
    have shown' : h'.Shows (m.newest keep) := by
      intro i
      simp only [h', Archive.newest, Std.ExtTreeMap.getElem?_filter', run?_deleteRuns, shown i, diagnostics,
        savedOf_deleteRuns sound]
      cases found : h.run? i with
      | none => simp
      | some r =>
        have gone : drop i = true ↔ keep ≤ m.ahead r := by
          rw [shown.ahead_eq sound, ← Int.not_lt, ← Int.lt_toNat, ← kept_iff sound found]
          simp [drop, ids]
        by_cases dropped : drop i = true
        · simp [dropped, gone.mp dropped]
        · simp [dropped, Int.not_le.mp (mt gone.mpr dropped)]
    have number : (h.deleteRuns (drop ·.id)).1 = m.size - (m.newest keep).size := by
      have parts := List.length_eq_length_filter_add (l := h.runs) (drop ·.id)
      have rest : h'.runs.length = (h.runs.filter (!drop ·.id)).length := rfl
      have gone : (h.deleteRuns (drop ·.id)).1 = (h.runs.filter (drop ·.id)).length := List.length_map _
      rw [shown.size_eq sound, shown'.size_eq sound', gone, rest]
      omega
    simp only [Archive.perform, negative, if_false, perform, pruned, Reply.map, number]
    exact .done sound' shown'

theorem perform_follows (sound : h.Sound) (shown : h.Shows m) (op : Operation) :
    h.Follows (m.perform op) (h.perform op) := by
  cases op with
  | create r => exact create_follows sound shown r
  | complete id res now => exact complete_follows sound shown id res now
  | save id ds => exact save_follows sound shown id ds
  | delete id => exact delete_follows sound shown id
  | prune keep => exact prune_follows sound shown keep

theorem perform_step (sound : h.Sound) (shown : h.Shows m) (op : Operation) :
    (h.perform op).1 = (m.step op).1 ∧ (h.perform op).2.Sound ∧ (h.perform op).2.Shows (m.step op).2 := by
  have follows := perform_follows sound shown op
  cases result : m.perform op with
  | ok next =>
    rw [result] at follows
    simp only [Archive.step, result]
    exact follows
  | error e =>
    rw [result] at follows
    have same : h.perform op = (.error e, h) := follows
    simp only [Archive.step, result, same]
    exact ⟨trivial, sound, shown⟩

theorem perform_refused (sound : h.Sound) (shown : h.Shows m) {op : Operation} {e : Refusal} {h' : History}
    (refused : h.perform op = (.error e, h')) : h' = h := by
  have follows := perform_follows sound shown op
  rw [refused] at follows
  cases result : m.perform op with
  | ok next =>
    rw [result] at follows
    cases follows.1
  | error e' =>
    rw [result] at follows
    exact congrArg Prod.snd follows

structure Parallel (c : Aftermath History) (d : Aftermath Archive) : Prop where
  calls : c.calls = d.calls
  sound : c.state.Sound
  shown : c.state.Shows d.state

theorem Parallel.call {c : Aftermath History} {d : Aftermath Archive} (parallel : Parallel c d) (op : Operation) :
    Parallel (c.call perform op) (d.call Archive.step op) := by
  obtain ⟨answer, sound, shown⟩ := perform_step parallel.sound parallel.shown op
  constructor
  · simp only [Aftermath.call, answer, parallel.calls]
  · exact sound
  · exact shown

theorem parallel_run (ops : List Operation) :
    Parallel (Aftermath.run perform {} ops) (Aftermath.run Archive.step ∅ ops) := by
  have start : Parallel ⟨{}, []⟩ ⟨∅, []⟩ := ⟨rfl, sound_empty, fun _ => by simp [run?]⟩
  have rest {c : Aftermath History} {d : Aftermath Archive} (parallel : Parallel c d) :
      Parallel (ops.foldl (·.call perform) c) (ops.foldl (·.call Archive.step) d) := by
    induction ops generalizing c d with
    | nil => exact parallel
    | cons op ops ih => exact ih (parallel.call op)
  exact rest start

end History

/-! What the map remembers. -/

/-- The batches that were saved for a run since it was last created, in order. -/
def CallLog.batches (id : String) : CallLog → List (List Diagnostic)
  | [] => []
  | (.create r, .ok _) :: earlier => if r.id = id then [] else batches id earlier
  | (.save i ds, .ok _) :: earlier => if i = id then batches id earlier ++ [ds] else batches id earlier
  | _ :: earlier => batches id earlier

theorem CallLog.batches_refused (id : String) (op : Operation) (e : Refusal) (log : CallLog) :
    batches id ((op, .error e) :: log) = batches id log := by
  cases op <;> rfl

namespace Archive

theorem getElem?_insert_iff {m : Archive} {id i : String} {d x : Dossier} :
    (m.insert id d)[i]? = some x ↔ id = i ∧ d = x ∨ id ≠ i ∧ m[i]? = some x := by
  simp only [Std.ExtTreeMap.getElem?_insert, Std.compare_eq_iff_eq]
  by_cases same : id = i <;> simp [same]

def Recounts (m : Archive) (log : CallLog) : Prop :=
  ∀ id x, m[id]? = some x → x.diagnostics = (log.batches id).flatten

theorem Recounts.perform {m next : Archive} {log : CallLog} (recounts : Recounts m log) {op : Operation}
    {n : Option Nat} (done : m.perform op = .ok (n, next)) : Recounts next ((op, .ok n) :: log) := by
  intro id x found
  cases op with
  | create r =>
    simp only [Archive.perform] at done
    split at done
    · cases done
    · cases done
      rw [CallLog.batches]
      rcases getElem?_insert_iff.mp found with ⟨same, rfl⟩ | ⟨other, old⟩
      · simp [same]
      · simpa [other] using recounts id x old
  | complete i res now =>
    simp only [Archive.perform] at done
    split at done
    · cases done
    · split at done
      · cases done
      · rename_i d known
        cases done
        rcases getElem?_insert_iff.mp found with ⟨rfl, rfl⟩ | ⟨-, old⟩
        · exact recounts i d known
        · exact recounts id x old
  | save i ds =>
    rw [CallLog.batches]
    simp only [Archive.perform] at done
    split at done
    · rename_i empty
      cases done
      split <;> simp [List.isEmpty_iff.mp empty, recounts id x found]
    · split at done
      · cases done
      · rename_i known
        cases done
        rcases getElem?_insert_iff.mp found with ⟨rfl, rfl⟩ | ⟨other, old⟩
        · simp [recounts i _ known]
        · simpa [other] using recounts id x old
  | delete i =>
    simp only [Archive.perform] at done
    split at done
    · cases done
      simp only [Std.ExtTreeMap.getElem?_erase] at found
      split at found
      · cases found
      · exact recounts id x found
    · cases done
  | prune keep =>
    simp only [Archive.perform] at done
    split at done
    · cases done
    · cases done
      simp only [newest, Std.ExtTreeMap.getElem?_filter', Option.filter_eq_some_iff] at found
      exact recounts id x found.1

theorem Recounts.call {d : Aftermath Archive} (recounts : Recounts d.state d.calls) (op : Operation) :
    Recounts (d.call step op).state (d.call step op).calls := by
  simp only [Aftermath.call, step]
  split
  · rename_i done
    exact recounts.perform done
  · intro id x found
    rw [CallLog.batches_refused]
    exact recounts id x found

theorem recounts_run (ops : List Operation) :
    Recounts (Aftermath.run step ∅ ops).state (Aftermath.run step ∅ ops).calls := by
  have start : Recounts ∅ [] := by
    intro id x found
    simp at found
  have rest {d : Aftermath Archive} (recounts : Recounts d.state d.calls) :
      Recounts (ops.foldl (·.call step) d).state (ops.foldl (·.call step) d).calls := by
    induction ops generalizing d with
    | nil => exact recounts
    | cons op ops ih => exact ih (recounts.call op)
  exact rest (d := ⟨∅, []⟩) start

end Archive

namespace History

/-- A database that has just got its tables behaves like an empty map, whatever is called: every call is answered or
refused as on the map, and the tables then show what the map holds. A refused call leaves both tables as they are. The
diagnostics of a run are the batches saved since it was last created, in order; a run that is not there has none, and no
diagnostic in the table is without its run. -/
theorem refines_archive (path : String) (ops : List Operation) :
    ∃ empty, (Database.closed.openAs path).migrate = .ok (.ready empty) ∧
      let tables := Aftermath.run perform empty ops
      let map := Aftermath.run Archive.step ∅ ops
      tables.calls = map.calls ∧ tables.state.Shows map.state ∧
      (∀ op e h, tables.state.perform op = (.error e, h) → h = tables.state) ∧
      (∀ id, tables.state.diagnostics id = if id ∈ map.state then (tables.calls.batches id).flatten else []) ∧
      ∀ s ∈ tables.state.saved, s.run ∈ map.state := by
  refine ⟨{}, rfl, ?_⟩
  intro tables map
  have parallel : Parallel tables map := parallel_run ops
  refine ⟨parallel.calls, parallel.shown, fun op e h refused => ?_, fun id => ?_, fun s member => ?_⟩
  · exact perform_refused parallel.sound parallel.shown refused
  · cases found : tables.state.run? id with
    | none =>
      have missing : id ∉ map.state := by simp [parallel.shown.mem_iff, found]
      rw [if_neg missing, parallel.sound.diagnostics_eq, parallel.sound.savedOf_eq_nil found, List.map_nil]
    | some r =>
      have known : map.state[id]? = some ⟨r, tables.state.diagnostics id⟩ := by simp [parallel.shown id, found]
      have there : id ∈ map.state := parallel.shown.mem_iff.mpr (by simp [found])
      rw [if_pos there, parallel.calls]
      exact Archive.recounts_run ops id _ known
  · exact parallel.shown.mem_iff.mpr (isSome_run?.mpr (parallel.sound.owned s member))

end History

end MesonCheck
