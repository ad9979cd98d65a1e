import MesonCheck.Proofs.Walk.Branches

/-! Exactly what a variable stands for behind a selection. While a selection is the innermost open one, one more is open
than before it. What its branches bind directly or through included files is bound at that level, and what selections
nested in them bind is bound there again when these close. -/
namespace MesonCheck

def typesBoundAt (x : String) (level : Nat) (es : List Event) : List TypeSet :=
  es.filterMap fun
    | .bound y ts l => if y = x ∧ l = level then some ts else none
    | _ => none

theorem mem_typesBoundAt {x : String} {level : Nat} {es : List Event} {ts : TypeSet} :
    ts ∈ typesBoundAt x level es ↔ Event.bound x ts level ∈ es := by
  rw [typesBoundAt, List.mem_filterMap]
  constructor
  · rintro ⟨e, member, bound⟩
    cases e with
    | bound y us l =>
      simp only [Option.ite_none_right_eq_some, Option.some.injEq] at bound
      obtain ⟨⟨rfl, rfl⟩, rfl⟩ := bound
      exact member
    | _ => simp at bound
  · intro member
    exact ⟨_, member, by simp⟩

/-- What is bound while more selections are open adds nothing to what is bound when they have closed. -/
theorem Covered.allows_iff {level : Nat} {es : List Event} (covered : Covered level es) (x : String) (t : Trait) :
    (∃ ts l, Event.bound x ts l ∈ es ∧ TypeSet.Allows ts t) ↔
      ∃ ts, Event.bound x ts level ∈ es ∧ TypeSet.Allows ts t := by
  constructor
  · rintro ⟨ts, l, bound, allowed⟩
    obtain ⟨us, outermost, within⟩ := covered x ts l bound
    exact ⟨us, outermost, (TypeSet.within_iff ts us).mp within t allowed⟩
  · rintro ⟨ts, bound, allowed⟩
    exact ⟨ts, level, bound, allowed⟩

/-- The bindings at the end of a selection are made when it is no longer open. -/
theorem Merged.typesBoundAt_append {isExhaustive : Bool} {scope : Scope} {level : Nat} {es fs : List Event}
    (merged : Merged isExhaustive scope level es fs) (x : String) (ts : TypeSet) :
    ts ∈ typesBoundAt x (level + 1) (es ++ fs) ↔ Event.bound x ts (level + 1) ∈ es := by
  rw [mem_typesBoundAt, List.mem_append]
  refine ⟨fun member => member.resolve_right fun late => ?_, .inl⟩
  exact absurd (merged.level_eq x ts _ late) (Nat.succ_ne_self level)

namespace Place

def selectEvents (p : Place) (inLoop : Bool) (s : Site) (bs : List Branch) (r : Run) : List Event :=
  r.eventsSince (p.visit inLoop (.select s bs) r).2

/-- A selection leaves a variable alone that is not bound in it. Behind any other selection the variable has exactly
what it was bound to while the selection was the innermost open one and, if no branch has to be taken, what it stood
for before. -/
theorem lookup_select_exact (cx : Setting) (fuel : Nat) (f : SourceFile) (inLoop : Bool) (s : Site) (bs : List Branch)
    (r : Run) (x : String) :
    ((∀ ts l, Event.bound x ts l ∉ (cx.place fuel f).selectEvents inLoop s bs r) →
      ((cx.place fuel f).visit inLoop (.select s bs) r).2.scope.lookup x = r.scope.lookup x) ∧
    ∀ ts l, Event.bound x ts l ∈ (cx.place fuel f).selectEvents inLoop s bs r →
      ∃ Q, ((cx.place fuel f).visit inLoop (.select s bs) r).2.scope.lookup x = some Q ∧
        Q.equal (.unionAll (typesBoundAt x (r.selections.length + 1) ((cx.place fuel f).selectEvents inLoop s bs r) ++
          if bs.any (!·.isGuarded) then [] else (r.scope.lookup x).toList)) = true := by
  have enters := cx.place_enters fuel f
  have covered := (branches_trace enters inLoop r bs).2
  obtain ⟨fs, trace, merged⟩ := select_trace enters inLoop r s bs
  have happened : (cx.place fuel f).selectEvents inLoop s bs r =
      (cx.place fuel f).branchesEvents inLoop bs r ++ fs := trace.eventsSince_eq
  rw [happened]
  constructor
  · intro unbound
    rw [trace.lookup, (lastBound_eq_none_iff x _).mpr unbound]
    rfl
  · intro ts l bound
    obtain ⟨Q, last⟩ := exists_lastBound bound
    have visible : ((cx.place fuel f).visit inLoop (.select s bs) r).2.scope.lookup x = some Q := by
      rw [trace.lookup, last]
      rfl
    refine ⟨Q, visible, (TypeSet.equal_iff _ _).mpr fun t => ?_⟩
    -- a name that the selection binds is bound last when the selection closes
    have closed : lastBound x fs = some Q := by
      rw [lastBound_append] at last
      cases merge : lastBound x fs with
      | some us => rwa [merge] at last
      | none =>
        rw [merge, (merged.names x).mp merge] at last
        exact absurd last (by simp)
    obtain ⟨k, member⟩ := mem_of_lastBound closed
    cases merged.level_eq x Q k member
    rw [merged.types x Q member, covered.allows_iff, TypeSet.allows_unionAll]
    simp only [List.mem_append, merged.typesBoundAt_append, or_and_right, exists_or]
    refine or_congr_right ?_
    cases bs.any (!·.isGuarded) with
    | true => simp
    | false => cases r.scope.lookup x <;> simp [TypeSet.Allows]

/-- In `if true; if true; x = 1; endif; elif true; x = true; endif` the nested selection binds `x` to a number or to the
text it held before. -/
theorem lookup_select_exact_sample :
    ∃ Q, (samplePlace.visit false (.select (.at .zero) sampleNested) sampleRun).2.scope.lookup "x" = some Q ∧
      Q.equal (.unionAll [[.int, .str], [.bool], [.str]]) = true := by
  have merge := (lookup_select_exact sampleSetting 0 ⟨0, .at .zero, "meson.build", none⟩ false (.at .zero) sampleNested
    sampleRun "x").2 [.int] 2 (.head _)
  exact merge

end Place

end MesonCheck
