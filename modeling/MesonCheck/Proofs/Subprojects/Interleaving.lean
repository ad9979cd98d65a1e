import Mathlib.Algebra.GroupWithZero.Nat
import Mathlib.Data.List.Basic
import MesonCheck.Proofs.Subprojects.Order

/-! Analyses side by side. Every subproject of a level has a worker, and at most a certain number of workers run at a
time. A worker looks once whether the caller has given up, analyses its subproject with what the levels before have
left, and records what came of it. Any worker may be the next one to do something, and the caller may give up at any
moment. However this goes, it comes to an end. -/
namespace MesonCheck

inductive Fate where
  | analysed (a : Analysed)
  | failed (e : SubprojectError)

namespace Fate

def name : Fate → String
  | analysed a => a.subproject.name
  | failed e => e.subproject

def analysed? : Fate → Option Analysed
  | analysed a => some a
  | failed _ => none

def error? : Fate → Option SubprojectError
  | analysed _ => none
  | failed e => some e

/-- Whether this can be what became of a subproject: only an analysis of its own gives it a result. -/
def IsOf (analyze : Analyzer) (s : Subproject) : Fate → Prop
  | analysed a => a.subproject = s ∧ ∃ known, analyze s known = .ok a.outcome
  | failed e => e.subproject = s.name

theorem IsOf.name_eq {analyze : Analyzer} {s : Subproject} {f : Fate} (own : f.IsOf analyze s) : f.name = s.name := by
  cases f with
  | analysed a => exact congrArg Subproject.name own.1
  | failed e => exact own

theorem length_split (fs : List Fate) : (fs.filterMap analysed?).length + (fs.filterMap error?).length = fs.length := by
  induction fs with
  | nil => rfl
  | cons f fs ih =>
    cases f <;> simp only [List.filterMap_cons, analysed?, error?, List.length_cons] <;> omega

theorem names_analysed (fs : List Fate) :
    ((fs.filterMap analysed?).map (·.subproject.name)).Sublist (fs.map name) := by
  induction fs with
  | nil => exact .slnil
  | cons f fs ih =>
    cases f with
    | analysed a => exact ih.cons_cons a.subproject.name
    | failed e => exact ih.cons e.subproject

theorem names_failed (fs : List Fate) : ((fs.filterMap error?).map (·.subproject)).Sublist (fs.map name) := by
  induction fs with
  | nil => exact .slnil
  | cons f fs ih =>
    cases f with
    | analysed a => exact ih.cons a.subproject.name
    | failed e => exact ih.cons_cons e.subproject

theorem analysed_failed (es : List SubprojectError) : (es.map failed).filterMap analysed? = [] := by
  simp [List.filterMap_map, Function.comp_def, analysed?]

theorem errors_failed (es : List SubprojectError) : (es.map failed).filterMap error? = es := by
  simp [List.filterMap_map, Function.comp_def, error?]

end Fate

def Subproject.fate (analyze : Analyzer) (isCancelled : Bool) (known : List KnownSubproject) (s : Subproject) : Fate :=
  if isCancelled then .failed (.cancelled s.name cancelledText)
  else
    match analyze s known with
    | .ok o => .analysed ⟨s, o⟩
    | .error crash => .failed (.crashed s.name crash)

theorem Subproject.fate_isOf (analyze : Analyzer) (isCancelled : Bool) (known : List KnownSubproject)
    (s : Subproject) : (s.fate analyze isCancelled known).IsOf analyze s := by
  unfold fate
  split
  · rfl
  · split
    · rename_i o result
      exact ⟨rfl, known, result⟩
    · rfl

namespace Resolution

def enter (st : Resolution) : Fate → Resolution
  | .analysed a => st.add a
  | .failed e => st.fail e

theorem step_eq (analyze : Analyzer) (sched : Schedule) (done : List KnownSubproject) (st : Resolution)
    (s : Subproject) :
    st.step analyze sched done s = st.enter (s.fate analyze (sched.isCancelled s.name) done) := by
  unfold step Subproject.fate
  cases sched.isCancelled s.name with
  | true => rfl
  | false => cases analyze s done <;> rfl

theorem analysed_enter (fs : List Fate) (st : Resolution) :
    (fs.foldl enter st).analysed = st.analysed ++ fs.filterMap Fate.analysed? := by
  induction fs generalizing st with
  | nil => simp
  | cons f fs ih =>
    rw [List.foldl_cons, ih]
    cases f <;> simp [enter, add, fail, List.filterMap_cons, Fate.analysed?]

theorem failures_enter (fs : List Fate) (st : Resolution) :
    (fs.foldl enter st).failures = st.failures ++ fs.filterMap Fate.error? := by
  induction fs generalizing st with
  | nil => simp
  | cons f fs ih =>
    rw [List.foldl_cons, ih]
    cases f <;> simp [enter, add, fail, List.filterMap_cons, Fate.error?]

end Resolution

/-! What there is to analyse. -/

namespace Subproject

def valid (ss : List Subproject) : List Subproject :=
  (sift [] ss).2

def named (ss : List Subproject) (names : List String) : List Subproject :=
  names.filterMap fun n => ss.find? (·.name == n)

theorem sift_distinct (seen : List String) (ss : List Subproject) :
    ((sift seen ss).2.map (·.name)).Nodup ∧ ∀ s ∈ (sift seen ss).2, s.name ∉ seen := by
  induction ss generalizing seen with
  | nil => simp [sift]
  | cons s ss ih =>
    obtain ⟨distinct, fresh⟩ := ih (s.name :: seen)
    dsimp only [sift]
    cases fault : s.fault? seen with
    | some e => exact ⟨distinct, fun t member seen => fresh t member (List.mem_cons_of_mem _ seen)⟩
    | none =>
      have unseen : s.name ∉ seen := by
        intro again
        unfold fault? at fault
        split at fault
        · contradiction
        · simp [again] at fault
      refine ⟨List.nodup_cons.mpr ⟨?_, distinct⟩, ?_⟩
      · intro repeated
        obtain ⟨t, member, same⟩ := List.mem_map.mp repeated
        exact fresh t member (same ▸ List.mem_cons_self)
      · intro t member seen
        rcases List.mem_cons.mp member with rfl | later
        · exact unseen seen
        · exact fresh t later (List.mem_cons_of_mem _ seen)

theorem valid_distinct (ss : List Subproject) : ((valid ss).map (·.name)).Nodup :=
  (sift_distinct [] ss).1

theorem named_names {ss : List Subproject} (distinct : (ss.map (·.name)).Nodup) : named ss (ss.map (·.name)) = ss := by
  have each : ∀ s ∈ ss, ss.find? (·.name == s.name) = some s :=
    fun s member => (Text.find_key_eq_some distinct).mpr ⟨member, rfl⟩
  rw [named, List.filterMap_map]
  calc ss.filterMap (fun s => ss.find? (·.name == s.name)) = ss.filterMap some := List.filterMap_congr each
    _ = ss := List.filterMap_some

theorem names_named {ss : List Subproject} {names : List String} (declared : ∀ n ∈ names, n ∈ ss.map (·.name)) :
    (named ss names).map (·.name) = names := by
  induction names with
  | nil => rfl
  | cons n ns ih =>
    have rest := ih fun m member => declared m (List.mem_cons_of_mem _ member)
    obtain ⟨s, member, same⟩ := List.mem_map.mp (declared n List.mem_cons_self)
    cases found : ss.find? (·.name == n) with
    | none => simpa [same] using List.find?_eq_none.mp found s member
    | some t =>
      have right : t.name = n := by simpa using List.find?_some found
      have first : named ss (n :: ns) = t :: named ss ns := List.filterMap_cons_some found
      rw [first, List.map_cons, right, rest]

theorem mem_named {ss : List Subproject} {names : List String} {s : Subproject} (member : s ∈ named ss names) :
    s ∈ ss ∧ s.name ∈ names := by
  obtain ⟨n, among, found⟩ := List.mem_filterMap.mp member
  have same : s.name = n := by simpa using List.find?_some found
  exact ⟨List.mem_of_find?_eq_some found, same ▸ among⟩

theorem names_named_sublist (ss : List Subproject) (names : List String) :
    ((named ss names).map (·.name)).Sublist names := by
  induction names with
  | nil => exact .slnil
  | cons n ns ih =>
    cases found : ss.find? (·.name == n) with
    | none =>
      have rest : named ss (n :: ns) = named ss ns := List.filterMap_cons_none found
      exact rest ▸ ih.cons n
    | some s =>
      have same : s.name = n := by simpa using List.find?_some found
      have first : named ss (n :: ns) = s :: named ss ns := List.filterMap_cons_some found
      rw [first, List.map_cons, same]
      exact ih.cons_cons n

theorem named_append (ss : List Subproject) (ns ms : List String) :
    named ss (ns ++ ms) = named ss ns ++ named ss ms :=
  List.filterMap_append

end Subproject

def Graph.ofValid (ss : List Subproject) : Graph :=
  .ofSubprojects (Subproject.valid ss)

def Graph.cycleError (g : Graph) (name : String) : SubprojectError :=
  .cycle name (Text.joinWith " -> " ((g.cyclePath name).getD []))

def Resolution.refused (ss : List Subproject) : Resolution :=
  let g := Graph.ofValid ss
  { failures := (Subproject.sift [] ss).1 ++ g.cyclic.map g.cycleError }

theorem resolve_eq (analyze : Analyzer) (sched : Schedule) (ss : List Subproject) :
    resolve analyze sched ss =
      (Graph.ofValid ss).levels.foldl (Resolution.level analyze sched (Subproject.valid ss)) (.refused ss) := rfl

/-! Workers. -/

structure Worker where
  subproject : Subproject
  /-- Whether the caller had given up when the worker looked, once it has looked. -/
  saw : Option Bool

def Worker.work (w : Worker) : Nat :=
  if w.saw.isSome then 1 else 2

structure Progress where
  resolution : Resolution
  isCancelled : Bool := false
  levels : List (List String)
  /-- What the analyses of this level can refer to. -/
  known : List KnownSubproject := []
  waiting : List Subproject := []
  running : List Worker := []

/-- What can happen next. Workers are told apart by their place among those that run. -/
inductive Move where
  | giveUp
  | nextLevel
  | launch
  | look (worker : Nat)
  | finish (worker : Nat)
deriving DecidableEq

namespace Progress

def start (ss : List Subproject) : Progress where
  resolution := .refused ss
  levels := (Graph.ofValid ss).levels

def isOver (p : Progress) : Bool :=
  p.levels.isEmpty && p.waiting.isEmpty && p.running.isEmpty

theorem isOver_iff {p : Progress} : p.isOver = true ↔ p.levels = [] ∧ p.waiting = [] ∧ p.running = [] := by
  simp [isOver, and_assoc]

/-- Whether another worker may be launched; without a positive limit there is none. -/
def hasRoom (limit : Int) (p : Progress) : Bool :=
  limit ≤ 0 || p.running.length < limit

def move (analyze : Analyzer) (limit : Int) (valid : List Subproject) (p : Progress) : Move → Option Progress
  | .giveUp => if p.isCancelled then none else some { p with isCancelled := true }
  | .nextLevel =>
    match p.levels, p.waiting, p.running with
    | names :: levels, [], [] =>
      some { p with levels := levels, known := p.resolution.known, waiting := Subproject.named valid names }
    | _, _, _ => none
  | .launch =>
    match p.waiting with
    | s :: waiting =>
      if p.hasRoom limit then some { p with waiting := waiting, running := p.running ++ [⟨s, none⟩] } else none
    | [] => none
  | .look i =>
    match p.running[i]? with
    | some ⟨s, none⟩ => some { p with running := p.running.set i ⟨s, some p.isCancelled⟩ }
    | _ => none
  | .finish i =>
    match p.running[i]? with
    | some ⟨s, some saw⟩ =>
      some { p with
        running := p.running.eraseIdx i
        resolution := p.resolution.step analyze { isCancelled := fun _ => saw } p.known s }
    | _ => none

def moves (analyze : Analyzer) (limit : Int) (valid : List Subproject) : List Move → Progress → Option Progress
  | [], p => some p
  | m :: ms, p => (p.move analyze limit valid m).bind (moves analyze limit valid ms)

inductive Step (analyze : Analyzer) (limit : Int) (valid : List Subproject) (p : Progress) : Progress → Prop where
  | giveUp : p.isCancelled = false → Step analyze limit valid p { p with isCancelled := true }
  | nextLevel {names : List String} {levels : List (List String)} : p.levels = names :: levels → p.waiting = [] →
      p.running = [] → Step analyze limit valid p
        { p with levels := levels, known := p.resolution.known, waiting := Subproject.named valid names }
  | launch {s : Subproject} {waiting : List Subproject} : p.waiting = s :: waiting → p.hasRoom limit = true →
      Step analyze limit valid p { p with waiting := waiting, running := p.running ++ [⟨s, none⟩] }
  | look {before after : List Worker} {s : Subproject} : p.running = before ++ ⟨s, none⟩ :: after →
      Step analyze limit valid p { p with running := before ++ ⟨s, some p.isCancelled⟩ :: after }
  | finish {before after : List Worker} {s : Subproject} {saw : Bool} : p.running = before ++ ⟨s, some saw⟩ :: after →
      Step analyze limit valid p
        { p with running := before ++ after, resolution := p.resolution.enter (s.fate analyze saw p.known) }

variable {analyze : Analyzer} {limit : Int} {valid : List Subproject} {p q : Progress}

theorem split_at {ws : List Worker} {i : Nat} {w : Worker} (found : ws[i]? = some w) :
    ws = ws.take i ++ w :: ws.drop (i + 1) := by
  obtain ⟨bound, rfl⟩ := List.getElem?_eq_some_iff.mp found
  rw [List.getElem_cons_drop, List.take_append_drop]

theorem step_of_move {m : Move} (made : p.move analyze limit valid m = some q) : Step analyze limit valid p q := by
  unfold move at made
  split at made
  · split at made
    · contradiction
    · cases made
      exact .giveUp (by simpa using ‹¬p.isCancelled = true›)
  · split at made
    · cases made
      exact .nextLevel ‹_› ‹_› ‹_›
    · contradiction
  · split at made
    · split at made
      · cases made
        exact .launch ‹_› ‹_›
      · contradiction
    · contradiction
  · split at made
    · rename_i i s found
      cases made
      have bound := (List.getElem?_eq_some_iff.mp found).1
      rw [List.set_eq_take_append_cons_drop, if_pos bound]
      exact .look (split_at found)
    · contradiction
  · split at made
    · rename_i i s saw found
      cases made
      rw [Resolution.step_eq, List.eraseIdx_eq_take_drop_succ]
      exact .finish (split_at found)
    · contradiction

theorem of_moves {P : Progress → Prop} (step : ∀ p q, Step analyze limit valid p q → P p → P q) {ms : List Move}
    (made : moves analyze limit valid ms p = some q) (holds : P p) : P q := by
  induction ms generalizing p with
  | nil =>
    cases made
    exact holds
  | cons m ms ih =>
    obtain ⟨r, first, rest⟩ := Option.bind_eq_some_iff.mp made
    exact ih rest (step p r (step_of_move first) holds)

theorem moves_append (ms ms' : List Move) (p : Progress) :
    moves analyze limit valid (ms ++ ms') p =
      (moves analyze limit valid ms p).bind (moves analyze limit valid ms') := by
  induction ms generalizing p with
  | nil => rfl
  | cons m ms ih =>
    rw [List.cons_append, moves, moves, Option.bind_assoc]
    exact congrArg _ (funext ih)

theorem Step.went_on (step : Step analyze limit valid p q) (goesOn : q.isCancelled = false) :
    p.isCancelled = false := by
  cases step with
  | giveUp free => exact free
  | nextLevel | launch | look | finish => exact goesOn

theorem went_on_of_moves {ms : List Move} (made : moves analyze limit valid ms p = some q)
    (goesOn : q.isCancelled = false) : p.isCancelled = false :=
  of_moves (P := fun r => r.isCancelled = false → p.isCancelled = false)
    (fun _ _ step before goesOn => before (step.went_on goesOn)) made id goesOn

/-! It ends. -/

def work (p : Progress) : Nat :=
  (if p.isCancelled then 0 else 1) + (p.levels.map fun names => 3 * names.length + 1).sum + 3 * p.waiting.length +
    (p.running.map Worker.work).sum

theorem Step.work_lt (step : Step analyze limit valid p q) : q.work < p.work := by
  cases step with
  | giveUp free => simp [work, free]
  | nextLevel levels waiting running =>
    rename_i names rest
    have fewer : (Subproject.named valid names).length ≤ names.length := List.length_filterMap_le ..
    simp only [work, levels, waiting, running, List.map_cons, List.sum_cons, List.length_nil]
    omega
  | launch waiting room =>
    simp only [work, waiting, List.map_append, List.sum_append, List.length_cons, List.map_cons, List.map_nil,
      List.sum_cons, List.sum_nil, Worker.work, Option.isSome_none]
    simp only [Bool.false_eq_true, if_false]
    omega
  | look running => simp [work, running, Worker.work]
  | finish running => simp [work, running, Worker.work]

theorem length_moves_le {ms : List Move} (made : moves analyze limit valid ms p = some q) :
    ms.length + q.work ≤ p.work := by
  induction ms generalizing p with
  | nil =>
    cases made
    simp
  | cons m ms ih =>
    obtain ⟨r, first, rest⟩ := Option.bind_eq_some_iff.mp made
    have less := (step_of_move first).work_lt
    have bound := ih rest
    rw [List.length_cons]
    omega

/-- Nobody waits for a caller that gives up. -/
theorem exists_move (unfinished : p.isOver = false) : ∃ m, m ≠ .giveUp ∧ (p.move analyze limit valid m).isSome := by
  cases running : p.running with
  | cons w ws =>
    obtain ⟨s, saw⟩ := w
    cases saw with
    | none => exact ⟨.look 0, by decide, by simp [move, running]⟩
    | some saw => exact ⟨.finish 0, by decide, by simp [move, running]⟩
  | nil =>
    cases waiting : p.waiting with
    | cons s rest =>
      have room : p.hasRoom limit = true := by
        simp only [hasRoom, running, List.length_nil, Bool.or_eq_true, decide_eq_true_eq]
        omega
      exact ⟨.launch, by decide, by simp [move, waiting, room]⟩
    | nil =>
      cases levels : p.levels with
      | cons names rest => exact ⟨.nextLevel, by decide, by simp [move, levels, waiting, running]⟩
      | nil => simp [isOver, levels, waiting, running] at unfinished

end Progress

end MesonCheck
