import MesonCheck.Proofs.Walk.Trace

/-! Selections: what a variable stands for behind one, and what it is read as inside. -/
namespace MesonCheck

def Run.eventsSince (r r' : Run) : List Event :=
  (r'.log.take (r'.log.length - r.log.length)).reverse

theorem Run.eventsSince_of_log {r r' : Run} {es : List Event} (log : r'.log = es.reverse ++ r.log) :
    r.eventsSince r' = es := by
  rw [eventsSince, log, List.length_append, Nat.add_sub_cancel, List.take_left, List.reverse_reverse]

theorem Trace.eventsSince_eq {r r' : Run} {es : List Event} (trace : Trace r r' es) : r.eventsSince r' = es :=
  Run.eventsSince_of_log trace.log

/-! What is carried out of a block of statements is neither logged nor part of what variables stand for. -/

theorem Run.carry_log (ds : List Debt) (r : Run) : (r.carry ds).log = r.log := by
  unfold Run.carry
  split <;> rfl

theorem Run.carry_scope (ds : List Debt) (r : Run) : (r.carry ds).scope = r.scope := by
  unfold Run.carry
  split <;> rfl

theorem Run.carry_selections (ds : List Debt) (r : Run) : (r.carry ds).selections = r.selections := by
  unfold Run.carry
  split <;> rfl

namespace Place

def afterBranches (p : Place) (inLoop : Bool) (bs : List Branch) (r : Run) : Run :=
  (p.visitBranches inLoop bs (openSelection r)).2

def branchesEvents (p : Place) (inLoop : Bool) (bs : List Branch) (r : Run) : List Event :=
  (openSelection r).eventsSince (p.afterBranches inLoop bs r)

def branchEvents (p : Place) (inLoop : Bool) (before : List Branch) (b : Branch) (r : Run) : List Event :=
  (p.afterBranches inLoop before r).eventsSince (p.afterBranches inLoop (before ++ [b]) r)

theorem visitBranches_append (p : Place) (inLoop : Bool) (as bs : List Branch) (r : Run) :
    (p.visitBranches inLoop (as ++ bs) r).2 = (p.visitBranches inLoop bs (p.visitBranches inLoop as r).2).2 := by
  induction as generalizing r with
  | nil => simp only [List.nil_append, visitBranches]
  | cons a as ih => cases a <;> simp only [List.cons_append, visitBranches, ih]

section

variable {p : Place} (enters : p.EntersInSteps) (inLoop : Bool) (r : Run)
include enters

theorem branches_trace (bs : List Branch) :
    Trace (openSelection r) (p.afterBranches inLoop bs r) (p.branchesEvents inLoop bs r) ∧
      Covered (r.selections.length + 1) (p.branchesEvents inLoop bs r) := by
  obtain ⟨es, trace, covered, _⟩ := (visitBranches_walks p enters inLoop bs (openSelection r)).trace
  have same : p.branchesEvents inLoop bs r = es := trace.eventsSince_eq
  rw [same]
  exact ⟨trace, covered⟩

theorem branch_trace (before : List Branch) (b : Branch) :
    Trace (p.afterBranches inLoop before r) (p.afterBranches inLoop (before ++ [b]) r)
      (p.branchEvents inLoop before b r) := by
  have walks := visitBranches_walks p enters inLoop [b] (p.afterBranches inLoop before r)
  rw [afterBranches, ← visitBranches_append] at walks
  obtain ⟨es, trace, _⟩ := walks.trace
  have same : p.branchEvents inLoop before b r = es := trace.eventsSince_eq
  rw [same]
  exact trace

theorem branchEvents_subset (before : List Branch) (b : Branch) (after : List Branch) :
    p.branchEvents inLoop before b r ⊆ p.branchesEvents inLoop (before ++ b :: after) r := by
  have walks := visitBranches_walks p enters inLoop after (p.afterBranches inLoop (before ++ [b]) r)
  rw [afterBranches, ← visitBranches_append, List.append_assoc] at walks
  obtain ⟨es, rest, _⟩ := walks.trace
  have first := (branches_trace enters inLoop r before).1
  have all := (first.trans (branch_trace enters inLoop r before b)).trans rest
  have split : p.branchesEvents inLoop (before ++ b :: after) r =
      p.branchesEvents inLoop before r ++ p.branchEvents inLoop before b r ++ es := all.eventsSince_eq
  rw [split]
  intro e member
  exact List.mem_append_left _ (List.mem_append_right _ member)

/-- A selection as a whole: the events of its branches, then one more binding of everything that they bound. -/
theorem select_trace (s : Site) (bs : List Branch) :
    ∃ fs, Trace r (p.visit inLoop (.select s bs) r).2 (p.branchesEvents inLoop bs r ++ fs) ∧
      Merged (bs.any (!·.isGuarded)) r.scope r.selections.length (p.branchesEvents inLoop bs r) fs := by
  obtain ⟨trace, covered⟩ := branches_trace enters inLoop r bs
  rw [visit]
  refine Trace.selection (r := r) _ (trace.of_bracket rfl rfl rfl ?_ ?_ ?_) covered
  · exact Run.carry_log ..
  · exact Run.carry_scope ..
  · exact Run.carry_selections ..

end

/-! Behind a selection. -/

def typesBound (x : String) (es : List Event) : List TypeSet :=
  es.filterMap (·.boundTo x)

theorem mem_typesBound {x : String} {es : List Event} {ts : TypeSet} :
    ts ∈ typesBound x es ↔ ∃ l, Event.bound x ts l ∈ es := by
  rw [typesBound, List.mem_filterMap]
  constructor
  · rintro ⟨e, member, bound⟩
    cases e with
    | bound y us l =>
      simp only [Event.boundTo, Option.ite_none_right_eq_some, Option.some.injEq] at bound
      obtain ⟨rfl, rfl⟩ := bound
      exact ⟨l, member⟩
    | _ => simp [Event.boundTo] at bound
  · rintro ⟨l, member⟩
    exact ⟨_, member, by simp [Event.boundTo]⟩

theorem mem_typesBound_of_branch {p : Place} (enters : p.EntersInSteps) (inLoop : Bool) (r : Run)
    {before : List Branch} {b : Branch} (after : List Branch) {x : String} {ts : TypeSet}
    (last : lastBound x (p.branchEvents inLoop before b r) = some ts) :
    ts ∈ typesBound x (p.branchesEvents inLoop (before ++ b :: after) r) := by
  obtain ⟨l, member⟩ := mem_of_lastBound last
  exact mem_typesBound.mpr ⟨l, branchEvents_subset enters inLoop r before b after member⟩

theorem lookup_select_of_unbound {p : Place} (enters : p.EntersInSteps) (inLoop : Bool) (s : Site) (bs : List Branch)
    (r : Run) {x : String} (unbound : lastBound x (p.branchesEvents inLoop bs r) = none) :
    (p.visit inLoop (.select s bs) r).2.scope.lookup x = r.scope.lookup x := by
  obtain ⟨fs, trace, merged⟩ := select_trace enters inLoop r s bs
  rw [trace.lookup, lastBound_append, (merged.names x).mpr unbound, unbound]
  rfl

theorem lookup_select_of_bound {p : Place} (enters : p.EntersInSteps) (inLoop : Bool) (s : Site) (bs : List Branch)
    (r : Run) {x : String} (bound : lastBound x (p.branchesEvents inLoop bs r) ≠ none) :
    ∃ Q, (p.visit inLoop (.select s bs) r).2.scope.lookup x = some Q ∧ ∀ t, TypeSet.Allows Q t ↔
      TypeSet.Allows (TypeSet.unionAll (typesBound x (p.branchesEvents inLoop bs r))) t ∨
        (∀ b ∈ bs, b.isGuarded = true) ∧ TypeSet.Allows ((r.scope.lookup x).getD []) t := by
  obtain ⟨fs, trace, merged⟩ := select_trace enters inLoop r s bs
  obtain ⟨Q, last⟩ := Option.ne_none_iff_exists'.mp (mt (merged.names x).mp bound)
  obtain ⟨l, member⟩ := mem_of_lastBound last
  cases merged.level_eq x Q l member
  refine ⟨Q, ?_, fun t => ?_⟩
  · rw [trace.lookup, lastBound_append, last]
    rfl
  · rw [merged.types x Q member, TypeSet.allows_unionAll]
    simp [mem_typesBound, ← exists_and_right]

/-- Behind a selection a variable has what each branch bound it to last. It also has what it stood for before if no
branch has to be taken or no branch binds it; otherwise it has that only as far as the branches bind it to the same. -/
theorem lookup_select (cx : Setting) (fuel : Nat) (f : SourceFile) (inLoop : Bool) (s : Site) (bs : List Branch)
    (r : Run) (x : String) (P : TypeSet) (known : r.scope.lookup x = some P) :
    ∃ Q, ((cx.place fuel f).visit inLoop (.select s bs) r).2.scope.lookup x = some Q ∧
      (∀ before b after T, bs = before ++ b :: after →
        lastBound x ((cx.place fuel f).branchEvents inLoop before b r) = some T → T.Within Q) ∧
      (P.Within Q ↔
        (∀ b ∈ bs, b.isGuarded = true) ∨ lastBound x ((cx.place fuel f).branchesEvents inLoop bs r) = none ∨
          P.Within (.unionAll (typesBound x ((cx.place fuel f).branchesEvents inLoop bs r)))) := by
  have enters := cx.place_enters fuel f
  by_cases unbound : lastBound x ((cx.place fuel f).branchesEvents inLoop bs r) = none
  · refine ⟨P, (lookup_select_of_unbound enters inLoop s bs r unbound).trans known, ?_, ?_⟩
    · rintro before b after T rfl last
      obtain ⟨l, member⟩ := mem_typesBound.mp (mem_typesBound_of_branch enters inLoop r after last)
      exact absurd member ((lastBound_eq_none_iff x _).mp unbound T l)
    · exact iff_of_true (TypeSet.within_refl P) (.inr (.inl unbound))
  · obtain ⟨Q, visible, allows⟩ := lookup_select_of_bound enters inLoop s bs r unbound
    rw [known, Option.getD_some] at allows
    refine ⟨Q, visible, ?_, ?_⟩
    · rintro before b after T rfl last
      have among := TypeSet.within_unionAll (mem_typesBound_of_branch enters inLoop r after last)
      refine (TypeSet.within_iff T Q).mpr fun t allowed => (allows t).mpr (.inl ?_)
      exact (TypeSet.within_iff _ _).mp among t allowed
    · simp only [TypeSet.within_iff, allows, unbound, false_or]
      constructor
      · intro kept
        by_cases guarded : ∀ b ∈ bs, b.isGuarded = true
        · exact .inl guarded
        · exact .inr fun t allowed => (kept t allowed).resolve_right fun h => guarded h.1
      · rintro (guarded | among) t allowed
        · exact .inr ⟨guarded, allowed⟩
        · exact .inl (among t allowed)

/-! Small walks to look at: nothing is predefined, and the one variable holds a text at first. -/

def sampleSetting : Setting where
  catalogue := ⟨[], [], [], [], [], [], fun _ => []⟩
  tree := .empty

def samplePlace : Place :=
  sampleSetting.place 0 ⟨0, .at .zero, "meson.build", none⟩

def sampleRun : Run where
  scope := .ofBindings [("x", [.str])]

def sampleBool : Node := .bool (.at .zero) true

def sampleRead : Node := .ident ⟨.at .zero, "x"⟩

def sampleAssign (value : Node) : Node :=
  .assign (.at .zero) .assign sampleRead value

/-- `if true; if true; x = 1; endif; elif true; x = true; endif`. -/
def sampleNested : List Branch :=
  [.guarded sampleBool [.select (.at .zero) [.guarded sampleBool [sampleAssign (.int (.at .zero) 1)]]],
    .guarded sampleBool [sampleAssign sampleBool]]

theorem lookup_select_sample :
    ∃ Q, (samplePlace.visit false (.select (.at .zero) sampleNested) sampleRun).2.scope.lookup "x" = some Q ∧
      TypeSet.Within [.int, .str] Q ∧ TypeSet.Within [.bool] Q ∧ TypeSet.Within [.str] Q := by
  obtain ⟨Q, visible, branches, before⟩ := lookup_select sampleSetting 0 ⟨0, .at .zero, "meson.build", none⟩ false
    (.at .zero) sampleNested sampleRun "x" [.str] rfl
  exact ⟨Q, visible, branches [] _ _ _ rfl rfl, branches [_] _ [] _ rfl rfl, before.mpr (.inl (by decide))⟩

/-- With an `else` that leaves `x` alone, the text that `x` held before is lost. -/
theorem select_forgets_untouched :
    lastBound "x" (samplePlace.branchEvents false [.guarded sampleBool [sampleAssign sampleBool]] (.otherwise [])
      sampleRun) = none ∧
    (samplePlace.visit false (.select (.at .zero) [.guarded sampleBool [sampleAssign sampleBool], .otherwise []])
      sampleRun).2.scope.lookup "x" = some [.bool] ∧
    ¬ TypeSet.Within [.str] [.bool] := by
  refine ⟨rfl, rfl, by decide⟩

/-! Inside a selection. -/

/-- What a branch sees of a variable: what is hidden from outside the selection, what the selection has saved of it when
an earlier branch bound it, and what it was bound to last. -/
theorem allows_reading_afterBranches {p : Place} (enters : p.EntersInSteps) (inLoop : Bool) (before : List Branch)
    (r : Run) (x : String) (t : Trait) :
    TypeSet.Allows ((p.afterBranches inLoop before r).reading x) t ↔
      (TypeSet.Allows (r.hidden x) t ∨
        TypeSet.Allows ((shadowed x (r.selections.length + 1) (r.scope.lookup x)
          (p.branchesEvents inLoop before r)).getD []) t) ∨
        TypeSet.Allows (((lastBound x (p.branchesEvents inLoop before r)).or (r.scope.lookup x)).getD []) t := by
  have trace := (branches_trace enters inLoop r before).1
  obtain ⟨s, opened, noted⟩ := trace.frames
  have saved := noted.overridden x
  rw [Std.ExtTreeMap.getElem?_empty, Option.none_or] at saved
  have hidden : (p.afterBranches inLoop before r).hidden x =
      TypeSet.unionAll (r.selections.reverse.map (·.overridden.getD x []) ++ [s.overridden.getD x []]) := by
    rw [Run.hidden, opened, List.reverse_cons, List.map_append]
    rfl
  rw [Run.reading, TypeSet.allows_union, hidden, TypeSet.allows_unionAll_concat,
    Std.ExtTreeMap.getD_eq_getD_getElem?, saved, trace.lookup]
  rfl

/-- A branch that has not bound a variable itself sees what the variable stood for before the selection if the earlier
branches bind it directly in the first place. If they do so in a nested selection first, the selection saves what the
variable stands for there, and what it stood for before is seen only where something else brings it in. -/
theorem within_read_iff (cx : Setting) (fuel : Nat) (f : SourceFile) (inLoop : Bool) (before : List Branch)
    (b : Branch) (r : Run) (x : String) (P T : TypeSet) (id : Ident) (es fs : List Event)
    (known : r.scope.lookup x = some P) (named : id.name = x)
    (happened : (cx.place fuel f).branchEvents inLoop before b r = es ++ .read id T :: fs)
    (unbound : lastBound x es = none) :
    P.Within T ↔
      (∀ l ∈ firstLevel x ((cx.place fuel f).branchesEvents inLoop before r), l = r.selections.length + 1) ∨
      P.Within (TypeSet.unionAll [r.hidden x,
        (shadowed x (r.selections.length + 1) (some P) ((cx.place fuel f).branchesEvents inLoop before r)).getD [],
        (lastBound x ((cx.place fuel f).branchesEvents inLoop before r)).getD P]) := by
  have enters := cx.place_enters fuel f
  have reads := (branch_trace enters inLoop r before b).reads x
  rw [happened] at reads
  rw [reads.types_eq unbound named]
  have seen := allows_reading_afterBranches enters inLoop before r x
  generalize (cx.place fuel f).branchesEvents inLoop before r = earlier at seen ⊢
  have same : P.Within (((cx.place fuel f).afterBranches inLoop before r).reading x) ↔
      P.Within (TypeSet.unionAll [r.hidden x, (shadowed x (r.selections.length + 1) (some P) earlier).getD [],
        (lastBound x earlier).getD P]) := by
    simp only [TypeSet.within_iff, seen, known, TypeSet.allows_unionAll]
    cases lastBound x earlier <;> simp [or_assoc]
  rw [same]
  refine ⟨.inr, fun h => h.elim (fun direct => ?_) fun h => h⟩
  cases first : firstLevel x earlier with
  | none =>
    rw [lastBound_eq_none_of_firstLevel first]
    exact TypeSet.within_unionAll (by simp)
  | some l =>
    cases direct l first
    rw [shadowed_of_firstLevel first]
    exact TypeSet.within_unionAll (by simp)

theorem within_read_sample :
    ∃ T fs, samplePlace.branchEvents false [.guarded sampleBool [sampleAssign sampleBool]]
        (.guarded sampleBool [sampleRead]) sampleRun = .read ⟨.at .zero, "x"⟩ T :: fs ∧ TypeSet.Within [.str] T := by
  have happened : ∃ fs, samplePlace.branchEvents false [.guarded sampleBool [sampleAssign sampleBool]]
      (.guarded sampleBool [sampleRead]) sampleRun = .read ⟨.at .zero, "x"⟩ [.bool, .str] :: fs := ⟨_, rfl⟩
  obtain ⟨fs, happened⟩ := happened
  have seen := within_read_iff sampleSetting 0 ⟨0, .at .zero, "meson.build", none⟩ false
    [.guarded sampleBool [sampleAssign sampleBool]] (.guarded sampleBool [sampleRead]) sampleRun "x" [.str] _ _ [] fs
    rfl rfl happened rfl
  exact ⟨_, fs, happened, seen.mpr (.inl fun l first => (Option.some.inj first).symm)⟩

/-- Behind `if true; if true; x = 1; else; x = true; endif` another branch does not see the text that `x` held. -/
theorem nested_selection_hides_text :
    sampleRun.scope.lookup "x" = some [.str] ∧
    (∃ fs, samplePlace.branchEvents false [.guarded sampleBool [.select (.at .zero)
        [.guarded sampleBool [sampleAssign (.int (.at .zero) 1)], .otherwise [sampleAssign sampleBool]]]]
      (.guarded sampleBool [sampleRead]) sampleRun = .read ⟨.at .zero, "x"⟩ [.bool, .int] :: fs) ∧
    ¬ TypeSet.Within [.str] [.bool, .int] := by
  exact ⟨rfl, ⟨_, rfl⟩, by decide⟩

end Place

end MesonCheck
