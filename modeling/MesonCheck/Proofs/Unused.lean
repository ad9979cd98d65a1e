import MesonCheck.Proofs.Rerun
import MesonCheck.Proofs.Walk.Moments
import MesonCheck.Proofs.Walk.Opening

/-! Unused assignments. An assignment that is recorded goes into the list of the branch or file around it, a use of its
name takes it out of all open lists, and what a closed list still holds goes on to the list outside. So what is left at
the end of the root file has not been used since, except behind the branch that it was recorded in. -/
namespace MesonCheck

structure Recording where
  debt : Debt
  before : Run

namespace Recording

def deed (d : Recording) : Deed :=
  ⟨.owe d.debt, d.before⟩

def time (d : Recording) : Nat :=
  d.before.log.length

end Recording

/-! Names that are used. -/

def usedIn (es : List Event) (x : String) : Bool :=
  es.any fun
    | .used y => y == x
    | _ => false

def unusedIn (es : List Event) (ds : List Debt) : List Debt :=
  ds.filter fun d => !usedIn es d.name

theorem usedIn_iff {es : List Event} {x : String} : usedIn es x = true ↔ .used x ∈ es := by
  rw [usedIn, List.any_eq_true]
  constructor
  · rintro ⟨e, member, used⟩
    cases e with
    | used y => rwa [← beq_iff_eq.mp used]
    | _ => contradiction
  · exact fun member => ⟨_, member, beq_self_eq_true x⟩

theorem usedIn_eq_false {es : List Event} {x : String} (unused : .used x ∉ es) : usedIn es x = false :=
  Bool.eq_false_iff.mpr (mt usedIn_iff.mp unused)

theorem unusedIn_append (es fs : List Event) (ds : List Debt) :
    unusedIn (es ++ fs) ds = unusedIn fs (unusedIn es ds) := by
  simp only [unusedIn, List.filter_filter, usedIn, List.any_append, Bool.not_or, Bool.and_comm]

theorem unusedIn_eq_self {es : List Event} (unused : ∀ x, .used x ∉ es) (ds : List Debt) : unusedIn es ds = ds :=
  List.filter_eq_self.mpr fun d _ => by rw [usedIn_eq_false (unused d.name), Bool.not_false]

def Event.unusedAssignment? : Event → Option Finding
  | .found ⟨first, last, .unusedAssignment⟩ => some ⟨first, last, .unusedAssignment⟩
  | _ => none

def Event.isIdle : Event → Bool
  | .owed _ | .used _ => false
  | e => e.unusedAssignment?.isNone

theorem Event.isIdle_of_isNeutral {e : Event} (neutral : e.isNeutral = true) : e.isIdle = true := by
  cases e with
  | found f =>
    obtain ⟨_, _, issue⟩ := f
    cases issue <;> trivial
  | _ => trivial

theorem Event.unusedAssignment?_of_isIdle {e : Event} (idle : e.isIdle = true) : e.unusedAssignment? = none := by
  cases e with
  | found => exact Option.isNone_iff_eq_none.mp idle
  | _ => rfl

/-! The accounts of a walk. -/

/-- What a list of recordings has to do with the events between two states: they were recorded there, all uses of their
names since then are beside them, and they are enough to name every assignment that was not used. -/
structure Ledger (done : Deed → Prop) (beside : Nat → Nat → Prop) (r r' : Run) (es : List Event)
    (ds : List Recording) : Prop where
  log : r'.log = es.reverse ++ r.log
  recorded : ∀ d ∈ ds, done d.deed ∧ r.log.length ≤ d.time ∧ d.time < r'.log.length
  unseen : ∀ d ∈ ds, ∀ n, d.time < n → r'.eventAt n = some (.used d.debt.name) → beside d.time n
  distinct : (ds.map (·.time)).Nodup
  complete : ∀ x, .owed x ∈ es → .used x ∉ es → ∃ d ∈ ds, d.debt.name = x
  used : ∀ x, .used x ∈ es → ∃ s, done ⟨.use x, s⟩
  silent : ∀ e ∈ es, e.unusedAssignment? = none

namespace Ledger

variable {done : Deed → Prop} {beside : Nat → Nat → Prop} {r r' r'' : Run} {es fs : List Event}
  {ds ds' kept : List Recording}

theorem idle (log : r'.log = es.reverse ++ r.log) (idle : ∀ e ∈ es, e.isIdle = true) :
    Ledger done beside r r' es [] where
  log := log
  recorded := by simp
  unseen := by simp
  distinct := List.nodup_nil
  complete x owed := by cases idle _ owed
  used x used := by cases idle _ used
  silent e member := Event.unusedAssignment?_of_isIdle (idle e member)

theorem use {x : String} (does : done ⟨.use x, r⟩) : Ledger done beside r (r.use x) [.used x] [] where
  log := rfl
  recorded := by simp
  unseen := by simp
  distinct := List.nodup_nil
  complete := by simp
  used y used := by
    cases List.mem_singleton.mp used
    exact ⟨r, does⟩
  silent := by simp [Event.unusedAssignment?]

theorem owe {d : Debt} (does : done ⟨.owe d, r⟩) (next : r'.log = .owed d.name :: r.log) :
    Ledger done beside r r' [.owed d.name] [⟨d, r⟩] where
  log := next
  recorded := by
    have length := congrArg List.length next
    simpa [Recording.deed, Recording.time, length] using does
  unseen := by
    -- nothing has happened since the assignment was recorded
    intro e member n later found
    cases List.mem_singleton.mp member
    have early := Run.lt_of_eventAt found
    rw [next] at early
    exact absurd later (Nat.not_lt.mpr (Nat.le_of_lt_succ early))
  distinct := List.nodup_singleton _
  complete x owed _ := by
    cases List.mem_singleton.mp owed
    exact ⟨_, List.mem_singleton_self _, rfl⟩
  used := by simp
  silent := by simp [Event.unusedAssignment?]

theorem between {a b : Run} (ledger : Ledger done beside a b es ds) (start : r.log = a.log) (stop : r'.log = b.log) :
    Ledger done beside r r' es ds where
  log := by rw [stop, start, ledger.log]
  recorded := by simpa only [stop, start] using ledger.recorded
  unseen := by simpa only [Run.eventAt, stop] using ledger.unseen
  distinct := ledger.distinct
  complete := ledger.complete
  used := ledger.used
  silent := ledger.silent

theorem perm (ledger : Ledger done beside r r' es ds) (same : ds'.Perm ds) : Ledger done beside r r' es ds' where
  log := ledger.log
  recorded d member := ledger.recorded d (same.mem_iff.mp member)
  unseen d member := ledger.unseen d (same.mem_iff.mp member)
  distinct := (same.map _).nodup_iff.mpr ledger.distinct
  complete x owed unused := by
    obtain ⟨d, member, name⟩ := ledger.complete x owed unused
    exact ⟨d, same.mem_iff.mpr member, name⟩
  used := ledger.used
  silent := ledger.silent

/-- One stretch of a walk behind the other, where some recordings of the first one are kept: those whose names are used
in the second one only beside them, and one at least of every name that is not used there. -/
theorem append (first : Ledger done beside r r' es ds) (second : Ledger done beside r' r'' fs ds')
    (sublist : kept.Sublist ds)
    (unseen : ∀ d ∈ kept, ∀ n, r'.log.length ≤ n → r''.eventAt n = some (.used d.debt.name) → beside d.time n)
    (covers : ∀ d ∈ ds, .used d.debt.name ∉ fs → ∃ k ∈ kept, k.debt.name = d.debt.name) :
    Ledger done beside r r'' (es ++ fs) (kept ++ ds') where
  log := by rw [second.log, first.log, List.reverse_append, List.append_assoc]
  recorded := by
    have started : r.log.length ≤ r'.log.length := by simp [first.log]
    have ended : r'.log.length ≤ r''.log.length := by simp [second.log]
    refine List.forall_mem_append.mpr ⟨fun d member => ?_, fun d member => ?_⟩
    · obtain ⟨does, after, before⟩ := first.recorded d (sublist.subset member)
      exact ⟨does, after, Nat.lt_of_lt_of_le before ended⟩
    · obtain ⟨does, after, before⟩ := second.recorded d member
      exact ⟨does, Nat.le_trans started after, before⟩
  unseen := by
    refine List.forall_mem_append.mpr ⟨fun d member n later found => ?_, second.unseen⟩
    by_cases early : n < r'.log.length
    · rw [Run.eventAt_of_suffix ⟨_, second.log.symm⟩ early] at found
      exact first.unseen d (sublist.subset member) n later found
    · exact unseen d member n (Nat.le_of_not_lt early) found
  distinct := by
    rw [List.map_append]
    refine (first.distinct.sublist (sublist.map _)).append second.distinct fun n here there => ?_
    obtain ⟨d, member, rfl⟩ := List.mem_map.mp here
    obtain ⟨d', member', same⟩ := List.mem_map.mp there
    have before := (first.recorded d (sublist.subset member)).2.2
    have after := (second.recorded d' member').2.1
    omega
  complete x owed unused := by
    obtain ⟨unused, unused'⟩ := not_or.mp (mt List.mem_append.mpr unused)
    rcases List.mem_append.mp owed with owed | owed
    · obtain ⟨d, member, rfl⟩ := first.complete x owed unused
      obtain ⟨k, member, name⟩ := covers d member unused'
      exact ⟨k, List.mem_append_left _ member, name⟩
    · obtain ⟨d, member, name⟩ := second.complete x owed unused'
      exact ⟨d, List.mem_append_right _ member, name⟩
  used x used := (List.mem_append.mp used).elim (first.used x) (second.used x)
  silent := List.forall_mem_append.mpr ⟨first.silent, second.silent⟩

theorem keep (ledger : Ledger done beside r r' es ds) (sublist : kept.Sublist ds)
    (covers : ∀ d ∈ ds, ∃ k ∈ kept, k.debt.name = d.debt.name) : Ledger done beside r r' es kept where
  log := ledger.log
  recorded d member := ledger.recorded d (sublist.subset member)
  unseen d member := ledger.unseen d (sublist.subset member)
  distinct := ledger.distinct.sublist (sublist.map _)
  complete x owed unused := by
    obtain ⟨d, member, rfl⟩ := ledger.complete x owed unused
    exact covers d member
  used := ledger.used
  silent := ledger.silent

end Ledger

/-- How the open lists of unused assignments change between two states: uses take assignments out of all of them, and
new ones come into the innermost list. -/
def Moves (es : List Event) (new : List Recording) (r r' : Run) : Prop :=
  ∀ top outer, r.debts = top :: outer →
    r'.debts = (unusedIn es top ++ new.map (·.debt)) :: outer.map (unusedIn es)

namespace Moves

variable {r r' r'' : Run} {es fs : List Event} {new new' : List Recording}

theorem same (unused : ∀ x, .used x ∉ es) (same : r'.debts = r.debts) : Moves es [] r r' := by
  intro top outer opened
  rw [same, opened, unusedIn_eq_self unused, List.map_nil, List.append_nil]
  simp [funext (unusedIn_eq_self unused)]

theorem trans (first : Moves es new r r') (second : Moves fs new' r' r'') :
    Moves (es ++ fs) (new.filter (fun d => !usedIn fs d.debt.name) ++ new') r r'' := by
  intro top outer opened
  have left (top : List Debt) : unusedIn fs (top ++ new.map (·.debt)) =
      unusedIn fs top ++ (new.filter fun d => !usedIn fs d.debt.name).map (·.debt) := by
    rw [unusedIn, List.filter_append, List.filter_map]
    rfl
  rw [second _ _ (first top outer opened), left, ← unusedIn_append, List.map_append, List.append_assoc, List.map_map]
  congr 2
  funext ds
  exact (unusedIn_append es fs ds).symm

theorem use (x : String) (r : Run) : Moves [.used x] [] r (r.use x) := by
  intro top outer opened
  have left : unusedIn [.used x] = List.filter (·.name != x) := by
    funext ds
    refine List.filter_congr fun d _ => ?_
    simp [usedIn, bne, Bool.beq_comm]
  simp [Run.use, opened, left]

theorem carry (moves : Moves es new r r') (ds : List Recording) :
    Moves es (new ++ ds) r (r'.carry (ds.map (·.debt))) := by
  intro top outer opened
  simp [Run.carry, moves top outer opened]

theorem block (moves : Moves es new r.openDebts r') :
    r'.closeDebts.1 = new.map (·.debt) ∧ Moves es [] r r'.closeDebts.2 := by
  have closed := moves [] r.debts rfl
  refine ⟨?_, fun top outer opened => ?_⟩
  · rw [Run.closeDebts, closed]
    rfl
  · rw [Run.closeDebts, closed, opened, List.map_nil, List.append_nil]
    rfl

end Moves

theorem Place.firstDebts_map (ds : List Recording) :
    ∃ kept : List Recording, kept.Sublist ds ∧ firstDebts (ds.map (·.debt)) = kept.map (·.debt) ∧
      ∀ d ∈ ds, ∃ k ∈ kept, k.debt.name = d.debt.name := by
  induction ds with
  | nil => exact ⟨[], .slnil, rfl, by simp⟩
  | cons d ds ih =>
    obtain ⟨kept, sublist, same, covers⟩ := ih
    refine ⟨d :: kept.filter (·.debt.name != d.debt.name), (List.filter_sublist.trans sublist).cons_cons d, ?_, ?_⟩
    · rw [List.map_cons, firstDebts, same, List.filter_map]
      rfl
    · refine List.forall_mem_cons.mpr ⟨⟨d, List.mem_cons_self, rfl⟩, fun e member => ?_⟩
      obtain ⟨k, kept, name⟩ := covers e member
      by_cases again : k.debt.name = d.debt.name
      · exact ⟨d, List.mem_cons_self, again.symm.trans name⟩
      · exact ⟨k, List.mem_cons_of_mem _ (List.mem_filter.mpr ⟨kept, by simpa using again⟩), name⟩

/-- What a walk leaves unused: recordings in the list that is open, and those of the branches that it has closed. -/
def Leaves (done : Deed → Prop) (beside : Nat → Nat → Prop) (r : Run) (ds : List Debt) (r' : Run) : Prop :=
  ∃ es new aside, Ledger done beside r r' es (new ++ aside) ∧ Moves es new r r' ∧ aside.map (·.debt) = ds

namespace Leaves

variable {done : Deed → Prop} {beside : Nat → Nat → Prop} {r r' r'' : Run} {ds : List Debt}

theorem open_only (leaves : Leaves done beside r [] r') :
    ∃ es new, Ledger done beside r r' es new ∧ Moves es new r r' := by
  obtain ⟨es, new, aside, ledger, moves, none⟩ := leaves
  rw [List.map_eq_nil_iff.mp none, List.append_nil] at ledger
  exact ⟨es, new, ledger, moves⟩

theorem idle (es : List Event) (log : r'.log = es.reverse ++ r.log) (idle : ∀ e ∈ es, e.isIdle = true)
    (kept : r'.debts = r.debts) : Leaves done beside r [] r' :=
  ⟨es, [], [], .idle log idle, .same (fun x used => by cases idle _ used) kept, rfl⟩

theorem deed {d : Deed} (does : done d) : Leaves done beside d.before [] d.after := by
  obtain ⟨act, r⟩ := d
  cases act with
  | bind x ts => exact idle [_] (Trace.bind x ts r).log (List.forall_mem_singleton.mpr rfl) (r.debts_bind x ts)
  | use x => exact ⟨[.used x], [], [], .use does, .use x r, rfl⟩
  | owe d =>
    cases opened : r.debts with
    | nil =>
      have same : Deed.after ⟨.owe d, r⟩ = r := by simp [Deed.after, Act.perform, Run.owe, opened]
      rw [same]
      exact idle [] rfl (by simp) rfl
    | cons top outer =>
      have next : Deed.after ⟨.owe d, r⟩ = Run.carry [d] (r.emit (.owed d.name)) := by
        simp [Deed.after, Act.perform, Run.owe, Run.carry, Run.emit, opened]
      have noted : Moves [.owed d.name] [] r (r.emit (.owed d.name)) := .same (by simp) rfl
      rw [next]
      exact ⟨[.owed d.name], [⟨d, r⟩], [], .owe does (Run.carry_log ..), noted.carry [⟨d, r⟩], rfl⟩

theorem trans (first : Leaves done beside r [] r') (second : Leaves done beside r' ds r'') :
    Leaves done beside r ds r'' := by
  obtain ⟨es, new, ledger, moves⟩ := first.open_only
  obtain ⟨fs, new', aside, ledger', moves', same⟩ := second
  refine ⟨es ++ fs, _, aside, ?_, moves.trans moves', same⟩
  rw [List.append_assoc]
  refine ledger.append ledger' List.filter_sublist (fun d member n later found => ?_) fun d member unused => ?_
  · -- what is used later on has been taken out
    have used := usedIn_iff.mpr (Run.mem_of_eventAt_later ledger'.log later found)
    have unused := (List.mem_filter.mp member).2
    rw [used] at unused
    contradiction
  · exact ⟨d, List.mem_filter.mpr ⟨member, by rw [usedIn_eq_false unused]; rfl⟩, rfl⟩

/-- The body of a branch and what comes behind it in the same selection. No use there takes anything out of the list of
the branch, since that list is closed. -/
theorem branch {b c : Run} {names : List String} (body : Leaves done beside r.openDebts [] b)
    (rest : Leaves done beside (b.closeDebts.2.unignore names) ds c)
    (spans : ∀ m n, r.log.length ≤ m → m < b.log.length → b.log.length ≤ n → n < c.log.length → beside m n) :
    Leaves done beside r (b.closeDebts.1 ++ ds) c := by
  obtain ⟨es, new, inside, moves⟩ := body.open_only
  obtain ⟨fs, new', aside, outside, moves', same⟩ := rest
  obtain ⟨left, closed⟩ := moves.block
  have inside : Ledger done beside r b es new := inside.between rfl rfl
  have outside : Ledger done beside b c fs (new' ++ aside) := outside.between rfl rfl
  have both : Ledger done beside r c (es ++ fs) (new ++ (new' ++ aside)) := by
    refine inside.append outside (.refl new) (fun d member n later found => ?_) fun d member _ => ⟨d, member, rfl⟩
    obtain ⟨_, after, before⟩ := inside.recorded d member
    exact spans _ _ after before later (Run.lt_of_eventAt found)
  refine ⟨es ++ fs, new', new ++ aside, both.perm (List.perm_append_comm_assoc ..), closed.trans moves', ?_⟩
  rw [List.map_append, left, same]

theorem selection (inside : Leaves done beside (Place.openSelection r) ds r') :
    Leaves done beside r [] (r'.carry (Place.firstDebts ds)) := by
  obtain ⟨es, new, aside, ledger, moves, rfl⟩ := inside
  obtain ⟨kept, sublist, same, covers⟩ := Place.firstDebts_map aside
  have all : Ledger done beside r (r'.carry (Place.firstDebts (aside.map (·.debt)))) es (new ++ aside) :=
    ledger.between rfl (Run.carry_log ..)
  refine ⟨es, new ++ kept, [], ?_, ?_, rfl⟩
  · rw [List.append_nil]
    refine all.keep ((List.Sublist.refl new).append sublist) (List.forall_mem_append.mpr ⟨?_, ?_⟩)
    · exact fun d member => ⟨d, List.mem_append_left _ member, rfl⟩
    · intro d member
      obtain ⟨k, member, name⟩ := covers d member
      exact ⟨k, List.mem_append_right _ member, name⟩
  · rw [same]
    exact moves.carry kept

theorem file {id : Nat} (inside : Leaves done beside (Run.openFile id { r with scope := r.scope.push }).openDebts [] r')
    (same : r'' = r'.closeDebts.2.closeFile.carry r'.closeDebts.1) :
    Leaves done beside r [] { r'' with scope := r''.scope.flush } := by
  obtain ⟨es, new, ledger, moves⟩ := inside.open_only
  obtain ⟨left, closed⟩ := moves.block
  have closed : Moves es [] r r'.closeDebts.2.closeFile := closed
  rw [left] at same
  subst same
  refine ⟨es, new, [], ?_, closed.carry new, rfl⟩
  rw [List.append_nil]
  exact ledger.between rfl (Run.carry_log ..)

end Leaves

theorem Course.leaves {old : Leftovers} {done : Deed → Prop} {beside : Nat → Nat → Prop} {r r' : Run} {ds : List Debt}
    (course : Course old done beside r ds r') : Leaves done beside r ds r' := by
  induction course with
  | still still =>
    obtain ⟨es, log, neutral, kept⟩ := still.neutral
    exact .idle es log (fun e member => Event.isIdle_of_isNeutral (neutral e member)) kept
  | read id r => exact .idle [_] rfl (List.forall_mem_singleton.mpr rfl) rfl
  | deed does => exact .deed does
  | trans _ _ first second => exact first.trans second
  | @branch r start b c ds names still _ _ spans body rest =>
    obtain ⟨es, log, neutral, kept⟩ := still.neutral
    have begun : Leaves done beside r [] start :=
      .idle es log (fun e member => Event.isIdle_of_isNeutral (neutral e member)) kept
    exact begun.trans (body.branch rest spans)
  | selection isExhaustive inside ih =>
    obtain ⟨_, fs, _, ends, merged⟩ := inside.closing isExhaustive
    refine ih.selection.trans (.idle fs ?_ (fun e member => ?_) ?_)
    · rw [ends, Run.carry_log]
    · obtain ⟨x, ts, rfl⟩ := merged.bindings e member
      rfl
    · exact Run.closeSelection_keeps _ Run.debts_bind (fun _ _ => rfl) ..
  | file id fresh _ same ih => exact ih.file same

/-! The end of the root file. -/

def Outcome.unusedAssignments (o : Outcome) : List Finding :=
  o.events.filterMap Event.unusedAssignment?

namespace Setting

variable {cx : Setting}

theorem Does.eventAt_owe {d : Recording} (does : cx.Does d.deed) :
    cx.finish.eventAt d.time = some (.owed d.debt.name) := by
  refine does.eventAt ?_
  obtain ⟨fuel, f, v, makes, member⟩ := does
  have opened : v.before.debts ≠ [] := by
    refine makes.debts_ne.resolve_left fun task => ?_
    rw [Place.deeds, task] at member
    exact absurd member List.not_mem_nil
  have kept := (Opens.walks (Place.deeds_around (cx.place_enters fuel f) v _ member).1).debts_ne opened
  obtain ⟨top, outer, debts⟩ := List.exists_cons_of_ne_nil kept
  simp only [Recording.deed] at debts
  simp [Deed.after, Recording.deed, Act.perform, Run.owe, debts]

theorem finish_ledger (cx : Setting) :
    ∃ r es ds, Ledger cx.Does cx.Sidelines cx.start r es ds ∧
      cx.finish.log = ((cx.unsettled (ds.map (·.debt))).map Debt.report).reverse ++ r.log := by
  cases root : cx.tree.root with
  | none =>
    refine ⟨cx.start, [], [], .idle rfl (by simp), ?_⟩
    rw [finish, root]
    rfl
  | some f =>
    obtain ⟨r, course, finish⟩ := cx.finish_course root
    obtain ⟨es, new, ledger, moves⟩ := course.leaves.open_only
    refine ⟨r, es, new, ledger.between rfl rfl, ?_⟩
    rw [finish, Run.log_settle, moves.block.1]
    rfl

/-- The unused assignments that an analysis reports are recorded ones, each at its own moment, and every later use of
their names is in a condition or branch behind the branch they stand in. A name that is recorded, never used, not
provided and never assigned from `declare_dependency` is reported. -/
theorem analyze_unused (cx : Setting) (o : Outcome) (analysed : cx.analyze = .ok o) :
    ∃ left : List Recording, (left.map (·.time)).Nodup ∧
      o.unusedAssignments = left.map (fun d => .about d.debt.site .unusedAssignment) ∧
      (∀ d ∈ left, cx.Does d.deed ∧ d.debt.name ∉ cx.provides ∧ d.debt.isExempt = false ∧
        ∀ u, cx.Does ⟨.use d.debt.name, u⟩ → d.time < u.log.length → cx.Sidelines d.time u.log.length) ∧
      ∀ x, (∃ d : Recording, cx.Does d.deed ∧ d.debt.name = x) → (∀ u, ¬cx.Does ⟨.use x, u⟩) → x ∉ cx.provides →
        (∀ d : Recording, cx.Does d.deed → d.debt.name = x → d.debt.isExempt = false) →
        ∃ d ∈ left, d.debt.name = x := by
  obtain ⟨_, rfl⟩ := (cx.analyze_eq_ok_iff o).mp analysed
  obtain ⟨r, es, ds, ledger, log⟩ := cx.finish_ledger
  have reported (d : Recording) : (!cx.provides.contains d.debt.name && !d.debt.isExempt) = true ↔
      d.debt.name ∉ cx.provides ∧ d.debt.isExempt = false := by
    simp
  refine ⟨ds.filter fun d => !cx.provides.contains d.debt.name && !d.debt.isExempt, ?_, ?_, ?_, ?_⟩
  · exact ledger.distinct.sublist (List.filter_sublist.map _)
  · have events : cx.finish.log.reverse = es ++ (cx.unsettled (ds.map (·.debt))).map Debt.report := by
      rw [log, ledger.log]
      simp [start]
    have silent : es.filterMap Event.unusedAssignment? = [] := List.filterMap_eq_nil_iff.mpr ledger.silent
    rw [Outcome.unusedAssignments, Run.outcome, events, List.filterMap_append, silent, unsettled, List.filter_map,
      List.map_map, List.filterMap_map]
    exact congrFun List.filterMap_eq_map _
  · intro d member
    obtain ⟨member, kept⟩ := List.mem_filter.mp member
    obtain ⟨provided, exempt⟩ := (reported d).mp kept
    refine ⟨(ledger.recorded d member).1, provided, exempt, fun u does later => ?_⟩
    exact ledger.unseen d member _ later (Run.eventAt_before log does.eventAt_use (by simp [Debt.report]))
  · rintro x ⟨d, does, rfl⟩ unused provided exempt
    have before := Run.eventAt_before log does.eventAt_owe (by simp [Debt.report])
    have owed := Run.mem_of_eventAt_later ledger.log (Nat.zero_le _) before
    have never : .used d.debt.name ∉ es := fun used => (ledger.used _ used).elim unused
    obtain ⟨k, member, name⟩ := ledger.complete _ owed never
    have kept := (reported k).mpr ⟨name ▸ provided, exempt k (ledger.recorded k member).1 name⟩
    exact ⟨k, List.mem_filter.mpr ⟨member, kept⟩, name⟩

def sampleAssignAt (line : Int) (name : String) : Node :=
  .assign (.at .zero) .assign (.ident ⟨.at ⟨⟨line, 0⟩, ⟨line, 1⟩⟩, name⟩) (.int (.at .zero) 1)

/-- `if true; x = 1; else; x; endif; y = 1`, where the assignments stand in different lines. -/
def sampleLeft : Setting where
  catalogue := ⟨[], [], [], [], [], [], fun _ => []⟩
  tree := .ofFiles [⟨0, .at .zero, "meson.build", some ⟨.at .zero, [.select (.at .zero) [
      .guarded (.bool (.at .zero) true) [sampleAssignAt 1 "x"], .otherwise [Place.sampleRead]], sampleAssignAt 2 "y"]⟩⟩]

/-- Both assignments are reported: the only use of `x` is in the branch beside its assignment. -/
theorem analyze_unused_sample :
    ∃ (o : Outcome) (left : List Recording) (u : Run), sampleLeft.analyze = .ok o ∧
      o.unusedAssignments.map (fun f => (o.tree.linked.pathOf f.first, f.range)) =
        [("meson.build", ⟨⟨1, 0⟩, ⟨1, 1⟩⟩), ("meson.build", ⟨⟨2, 0⟩, ⟨2, 1⟩⟩)] ∧
      o.unusedAssignments = left.map (fun d => .about d.debt.site .unusedAssignment) ∧
      sampleLeft.Does ⟨.use "x", u⟩ ∧
      (∃ d : Recording, sampleLeft.Does d.deed ∧ d.debt.name = "x" ∧ d.time < u.log.length) ∧
      ∀ d ∈ left, d.debt.name = "x" → d.time < u.log.length → sampleLeft.Sidelines d.time u.log.length := by
  have root : sampleLeft.Makes 1 _ _ := .root rfl
  have branches := Makes.part (.part (.part root (.head _)) (.head _)) (.head _)
  have assignment := Makes.part (.part branches (.tail _ (.head _))) (.head _)
  have reading := Makes.part (.part (.part branches (.tail _ (.tail _ (.head _)))) (.head _)) (.head _)
  have use : sampleLeft.Does _ := ⟨_, _, _, reading, .head _⟩
  have owe : sampleLeft.Does _ := ⟨_, _, _, assignment, .tail _ (.head _)⟩
  have analysed : sampleLeft.analyze = .ok (sampleLeft.finish.outcome sampleLeft) := rfl
  obtain ⟨left, _, reports, unused, _⟩ := analyze_unused sampleLeft _ analysed
  refine ⟨_, left, _, analysed, rfl, reports, use, ⟨⟨_, _⟩, owe, rfl, by decide⟩, fun d member name later => ?_⟩
  exact (unused d member).2.2.2 _ (name ▸ use) later

end Setting

end MesonCheck
