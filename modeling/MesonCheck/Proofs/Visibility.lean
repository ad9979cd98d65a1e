import MesonCheck.Proofs.Walk.Moments
import MesonCheck.Proofs.Walk.Opening

/-! Visible names. At every moment of an analysis the names that can be looked up are the predefined ones and those that
an assignment, a loop or a call of `set_variable` has bound before, wherever that was. So an identifier is reported as
unknown exactly where its name is none of these and no branch around asks whether it is a variable. -/
namespace MesonCheck

/-! Where bindings come from. -/

namespace Course

variable {old : Leftovers} {done : Deed → Prop} {beside : Nat → Nat → Prop} {r r' : Run} {ds : List Debt}

/-- Every binding goes back to something that a rule has done before. Only the end of a selection binds names by itself,
and its branches have bound these. -/
theorem exists_bind (course : Course old done beside r ds r') {n : Nat} {x : String} {ts : TypeSet} {l : Nat}
    (later : r.log.length ≤ n) (bound : r'.eventAt n = some (.bound x ts l)) :
    ∃ us s, done ⟨.bind x us, s⟩ ∧ r.log.length ≤ s.log.length ∧ s.log.length ≤ n := by
  induction course generalizing n ts l with
  | still still =>
    obtain ⟨es, log, neutral, _⟩ := still.neutral
    have silent := neutral _ (Run.mem_of_eventAt_later log later bound)
    contradiction
  | read id r => cases Run.eq_of_eventAt_next rfl later bound
  | @deed d does =>
    obtain ⟨act, s⟩ := d
    cases act with
    | bind y us =>
      cases Run.eq_of_eventAt_next (Trace.bind y us s).log later bound
      exact ⟨_, s, does, Nat.le_refl _, later⟩
    | use y => cases Run.eq_of_eventAt_next rfl later bound
    | owe d =>
      rcases s.log_owe d with same | next
      · have early := Run.lt_of_eventAt bound
        rw [Deed.after, Act.perform, same] at early
        exact absurd early (Nat.not_lt_of_le later)
      · cases Run.eq_of_eventAt_next next later bound
  | @trans a b c ds first second ih₁ ih₂ =>
    by_cases early : n < b.log.length
    · rw [Run.eventAt_of_suffix second.walks.log_suffix early] at bound
      exact ih₁ later bound
    · obtain ⟨us, s, does, after, before⟩ := ih₂ (Nat.le_of_not_lt early) bound
      exact ⟨us, s, does, Nat.le_trans first.walks.log_suffix.length_le after, before⟩
  | @branch r start b c ds names still body rest _ ih₁ ih₂ =>
    obtain ⟨es, log, neutral, _⟩ := still.neutral
    have begun : r.log <:+ start.log := ⟨es.reverse, log.symm⟩
    have inside : start.log <:+ b.log := body.walks.log_suffix
    have outside : b.log <:+ c.log := rest.walks.log_suffix
    by_cases first : n < start.log.length
    · rw [Run.eventAt_of_suffix (inside.trans outside) first] at bound
      have silent := neutral _ (Run.mem_of_eventAt_later log later bound)
      contradiction
    · by_cases early : n < b.log.length
      · rw [Run.eventAt_of_suffix outside early] at bound
        obtain ⟨us, s, does, after, before⟩ := ih₁ (Nat.le_of_not_lt first) bound
        exact ⟨us, s, does, Nat.le_trans begun.length_le after, before⟩
      · obtain ⟨us, s, does, after, before⟩ := ih₂ (Nat.le_of_not_lt early) bound
        exact ⟨us, s, does, Nat.le_trans (begun.trans inside).length_le after, before⟩
  | @selection r r' ds isExhaustive inside ih =>
    obtain ⟨es, fs, log, ends, merged⟩ := inside.closing isExhaustive
    by_cases early : n < r'.log.length
    · rw [Run.eventAt_of_suffix ⟨_, ends.symm⟩ early] at bound
      exact ih later bound
    · -- the name is merged, so one of the branches has bound it
      have merging := Run.mem_of_eventAt_later ends (Nat.le_of_not_lt early) bound
      have given : lastBound x es ≠ none := by
        rw [ne_eq, ← merged.names]
        exact fun unbound => (lastBound_eq_none_iff x fs).mp unbound _ _ merging
      obtain ⟨us, last⟩ := Option.ne_none_iff_exists'.mp given
      obtain ⟨k, member⟩ := mem_of_lastBound last
      obtain ⟨m, after, found⟩ := Run.exists_eventAt log member
      have before := Run.lt_of_eventAt found
      obtain ⟨us, s, does, after, earlier⟩ := ih after found
      exact ⟨us, s, does, after, by omega⟩
  | file id fresh inside same ih =>
    subst same
    rw [Run.eventAt] at bound
    dsimp only at bound
    rw [Run.carry_log] at bound
    exact ih later bound

end Course

def Catalogue.IsGlobal (c : Catalogue) (x : String) : Prop :=
  ∃ ts, (x, ts) ∈ c.globals

theorem Place.found_unknown_iff (p : Place) (inLoop : Bool) (id : Ident) (r : Run) :
    .found (.about id.site (.unknownIdentifier id.name)) ∈
      r.eventsSince (p.visit inLoop (.ident id) r).2 ↔ r.misses id.name = true := by
  rw [visit]
  cases missed : r.misses id.name with
  | false =>
    have log : (readVariable id r).2.log =
        [Event.read id (r.reading id.name), .used id.name, .mentioned id].reverse ++ r.log := by
      have unknown : Run.misses (((r.emit (.read id (r.reading id.name))).annotate id.site
        (r.reading id.name)).use id.name) id.name = false := missed
      simp only [readVariable, unknown]
      rfl
    rw [Run.eventsSince_of_log log]
    simp
  | true =>
    have log : (readVariable id r).2.log = [Event.read id (r.reading id.name), .used id.name,
        .found (.about id.site (.unknownIdentifier id.name)), .mentioned id].reverse ++ r.log := by
      have unknown : Run.misses (((r.emit (.read id (r.reading id.name))).annotate id.site
        (r.reading id.name)).use id.name) id.name = true := missed
      simp only [readVariable, unknown]
      rfl
    rw [Run.eventsSince_of_log log]
    simp

namespace Setting

variable {cx : Setting}

/-- Whether an assignment, a loop or a call of `set_variable` has bound a name before a state of the analysis. -/
def BoundBefore (cx : Setting) (x : String) (r : Run) : Prop :=
  ∃ ts s, cx.Does ⟨.bind x ts, s⟩ ∧ s.log.length < r.log.length

theorem start_has_iff (x : String) : cx.start.scope.has x = true ↔ cx.catalogue.IsGlobal x := by
  have frame : cx.start.scope.has x = (Std.ExtTreeMap.ofList cx.catalogue.globals).contains x := by
    simp [start, Scope.ofBindings, Scope.has, Scope.lookup, Scope.frames]
  rw [frame, Std.ExtTreeMap.contains_ofList, Catalogue.IsGlobal]
  simp

theorem finish_exists_bind {n : Nat} {x : String} {ts : TypeSet} {l : Nat}
    (bound : cx.finish.eventAt n = some (.bound x ts l)) :
    ∃ us s, cx.Does ⟨.bind x us, s⟩ ∧ s.log.length ≤ n := by
  cases root : cx.tree.root with
  | none =>
    rw [finish, root] at bound
    cases bound
  | some f =>
    obtain ⟨r, course, finish⟩ := cx.finish_course root
    have log := Run.log_settle cx r.closeDebts.1 r.closeDebts.2.closeFile
    rw [← finish] at log
    have early := Run.eventAt_before log bound (by simp [Debt.report])
    obtain ⟨us, s, does, _, before⟩ := course.exists_bind (Nat.zero_le n) early
    exact ⟨us, s, does, before⟩

theorem Passes.opens {r : Run} (passes : cx.Passes r) :
    (∃ names, Opens cx.earlier names cx.start r) ∧ r.log <:+ cx.finish.log := by
  cases passes with
  | start => exact ⟨⟨[], .walks (.refl _)⟩, List.nil_suffix⟩
  | before makes =>
    obtain ⟨conds, guards⟩ := exists_guards_iff.mpr makes
    obtain ⟨outer, nests⟩ := exists_nests_iff.mpr makes
    exact ⟨⟨_, guards.opens⟩, nests.walks.log_suffix.trans nests.log_suffix⟩
  | after makes =>
    obtain ⟨conds, guards⟩ := exists_guards_iff.mpr makes
    obtain ⟨outer, nests⟩ := exists_nests_iff.mpr makes
    exact ⟨⟨_, guards.opens.trans (.walks nests.walks)⟩, nests.log_suffix⟩

theorem Passes.has_iff {r : Run} (passes : cx.Passes r) (x : String) :
    r.scope.has x = true ↔ cx.catalogue.IsGlobal x ∨ cx.BoundBefore x r := by
  obtain ⟨⟨names, opens⟩, kept⟩ := passes.opens
  obtain ⟨es, log, lookup⟩ := opens.lookup_eq
  have visible : r.scope.has x = true ↔ cx.start.scope.has x = true ∨ lastBound x es ≠ none := by
    rw [Scope.has, Scope.has, lookup]
    cases lastBound x es <;> simp
  rw [visible, start_has_iff]
  refine or_congr_right ⟨fun given => ?_, ?_⟩
  · obtain ⟨ts, last⟩ := Option.ne_none_iff_exists'.mp given
    obtain ⟨l, member⟩ := mem_of_lastBound last
    obtain ⟨n, _, found⟩ := Run.exists_eventAt log member
    have early := Run.lt_of_eventAt found
    rw [← Run.eventAt_of_suffix kept early] at found
    obtain ⟨us, s, does, before⟩ := finish_exists_bind found
    exact ⟨us, s, does, Nat.lt_of_le_of_lt before early⟩
  · rintro ⟨ts, s, does, early⟩ unbound
    have found := does.eventAt_bind
    rw [Run.eventAt_of_suffix kept early] at found
    have member := Run.mem_of_eventAt_later log (Nat.zero_le _) found
    exact (lastBound_eq_none_iff x es).mp unbound _ _ member

/-- In every state of an analysis the visible names are the predefined ones and those that something has bound before.
An identifier is reported as unknown exactly where its name is not visible and no branch around it is guarded by a call
of `is_variable` with that name. -/
theorem visible_names (cx : Setting) :
    (∀ r, cx.Passes r → ∀ x, r.scope.has x = true ↔ cx.catalogue.IsGlobal x ∨ cx.BoundBefore x r) ∧
    ∀ fuel f conds inLoop id r, cx.Guards fuel f conds ⟨inLoop, .node (.ident id), r⟩ →
      (.found (.about id.site (.unknownIdentifier id.name)) ∈
          r.eventsSince ((cx.place fuel f).visit inLoop (.ident id) r).2 ↔
        ¬cx.catalogue.IsGlobal id.name ∧ ¬cx.BoundBefore id.name r ∧
          ∀ c ∈ conds, Place.askedName? c ≠ some id.name) := by
  refine ⟨fun r passes => passes.has_iff, fun fuel f conds inLoop id r guards => ?_⟩
  have visible : r.scope.has id.name = true ↔ _ :=
    (Passes.before (exists_guards_iff.mp ⟨conds, guards⟩)).has_iff id.name
  have ignored : r.ignored = conds.filterMap Place.askedName? := by
    rw [guards.opens.ignored_eq]
    exact List.append_nil _
  have missed : r.misses id.name = true ↔ ¬r.scope.has id.name = true ∧ id.name ∉ r.ignored := by
    simp [Run.misses]
  refine ((cx.place fuel f).found_unknown_iff inLoop id r).trans ?_
  rw [missed, visible, ignored]
  simp [List.mem_filterMap, not_or, and_assoc]

/-- `if is_variable('x'); x; endif; x`. -/
def sampleAsked : Setting where
  catalogue := ⟨[], [], [], [], [], [], fun _ => []⟩
  tree := .ofFiles [⟨0, .at .zero, "meson.build", some ⟨.at .zero, [.select (.at .zero) [.guarded
      (.call (.at .zero) ⟨.at .zero, "is_variable"⟩ (.at .zero) [.str (.at .zero) "x" false]) [Place.sampleRead]],
    Place.sampleRead]⟩⟩]

theorem visible_names_sample :
    ∃ fuel f cond id r id' r', id.name = "x" ∧ id'.name = "x" ∧ Place.askedName? cond = some "x" ∧
      sampleAsked.Guards fuel f [cond] ⟨false, .node (.ident id), r⟩ ∧
      .found (.about id.site (.unknownIdentifier "x")) ∉
        r.eventsSince ((sampleAsked.place fuel f).visit false (.ident id) r).2 ∧
      sampleAsked.Guards fuel f [] ⟨false, .node (.ident id'), r'⟩ ∧
      .found (.about id'.site (.unknownIdentifier "x")) ∈
        r'.eventsSince ((sampleAsked.place fuel f).visit false (.ident id') r').2 ∧
      ¬sampleAsked.BoundBefore "x" r' := by
  have root : sampleAsked.Guards 1 _ _ _ := .root rfl
  have block := Guards.part root (.head _)
  have branches := Guards.part (.part block (.head _)) (.head _)
  have inside := Guards.part (.part branches (.tail _ (.head _))) (.head _)
  have outside := Guards.part (.part block (.tail _ (.head _))) (.head _)
  have silent := (visible_names sampleAsked).2 _ _ _ _ _ _ inside
  have reported := (visible_names sampleAsked).2 _ _ _ _ _ _ outside
  refine ⟨_, _, _, _, _, _, _, rfl, rfl, rfl, inside, fun found => ?_, outside, ?_, ?_⟩
  · exact (silent.mp found).2.2 _ (.head _) rfl
  · exact .tail _ (.tail _ (.head _))
  · exact (reported.mp (.tail _ (.tail _ (.head _)))).2.1

end Setting

end MesonCheck
