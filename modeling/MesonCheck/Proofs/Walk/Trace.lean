import MesonCheck.Proofs.Types.Canonical
import MesonCheck.Proofs.Walk.Events
import MesonCheck.Proofs.Walk.Scope
import MesonCheck.Proofs.Walk.Visit

/-! What a walk does to variables, told by the events it logs: the bindings after a walk, what the innermost open
selection has noted, and the types that variables were read with follow from the state before and the events alone. -/
namespace MesonCheck

/-- What events have added to an open selection, with bindings `scope` before them. Only bindings made while this was
the innermost selection count; `level` is the number of selections that are open then. -/
structure Noted (scope : Scope) (level : Nat) (es : List Event) (s s' : OpenSelection) : Prop where
  assigned : ∀ x t, TypeSet.Allows (s'.assigned.getD x []) t ↔
    TypeSet.Allows (s.assigned.getD x []) t ∨ ∃ ts, Event.bound x ts level ∈ es ∧ TypeSet.Allows ts t
  names : ∀ x, x ∈ s'.assigned ↔ x ∈ s.assigned ∨ ∃ ts, Event.bound x ts level ∈ es
  overridden : ∀ x, s'.overridden[x]? = s.overridden[x]?.or (shadowed x level (scope.lookup x) es)

def FramesNoted (scope : Scope) (es : List Event) : List OpenSelection → List OpenSelection → Prop
  | [], after => after = []
  | s :: outer, after => ∃ s', after = s' :: outer ∧ Noted scope (outer.length + 1) es s s'

/-- The events between two states, and how they account for all variables of the second. -/
structure Trace (r r' : Run) (es : List Event) : Prop where
  log : r'.log = es.reverse ++ r.log
  outer : r'.scope.outer = r.scope.outer
  lookup : ∀ x, r'.scope.lookup x = (lastBound x es).or (r.scope.lookup x)
  levels : ∀ x ts l, Event.bound x ts l ∈ es → r.selections.length ≤ l
  frames : FramesNoted r.scope es r.selections r'.selections
  reads : ∀ x, ReadsAs x (r.reading x) es

namespace Noted

theorem of_elsewhere {scope : Scope} {level : Nat} {es : List Event}
    (elsewhere : ∀ x ts, Event.bound x ts level ∉ es) (s : OpenSelection) : Noted scope level es s s where
  assigned x t := by simp [elsewhere]
  names x := by simp [elsewhere]
  overridden x := by simp [shadowed_eq_none (elsewhere x)]

theorem trans {scope scope' : Scope} {level : Nat} {es fs : List Event} {s s' s'' : OpenSelection}
    (first : Noted scope level es s s') (second : Noted scope' level fs s' s'')
    (lookup : ∀ x, scope'.lookup x = (lastBound x es).or (scope.lookup x)) :
    Noted scope level (es ++ fs) s s'' where
  assigned x t := by
    rw [second.assigned, first.assigned]
    simp only [List.mem_append, or_and_right, exists_or, or_assoc]
  names x := by
    rw [second.names, first.names]
    simp only [List.mem_append, exists_or, or_assoc]
  overridden x := by
    rw [second.overridden, first.overridden, shadowed_append, lookup, Option.or_assoc]

end Noted

namespace FramesNoted

theorem of_elsewhere {scope : Scope} {es : List Event} (sel : List OpenSelection)
    (elsewhere : ∀ x ts, Event.bound x ts sel.length ∉ es) : FramesNoted scope es sel sel := by
  cases sel with
  | nil => rfl
  | cons s outer => exact ⟨s, rfl, .of_elsewhere elsewhere s⟩

theorem length_eq {scope : Scope} {es : List Event} {sel sel' : List OpenSelection}
    (noted : FramesNoted scope es sel sel') : sel'.length = sel.length := by
  cases sel with
  | nil => exact congrArg List.length noted
  | cons s outer =>
    obtain ⟨s', rfl, _⟩ := noted
    rfl

theorem trans {scope scope' : Scope} {es fs : List Event} {a b c : List OpenSelection}
    (first : FramesNoted scope es a b) (second : FramesNoted scope' fs b c)
    (lookup : ∀ x, scope'.lookup x = (lastBound x es).or (scope.lookup x)) : FramesNoted scope (es ++ fs) a c := by
  cases a with
  | nil =>
    cases first
    exact second
  | cons s outer =>
    obtain ⟨s', rfl, hs⟩ := first
    obtain ⟨s'', rfl, hs'⟩ := second
    exact ⟨s'', rfl, hs.trans hs' lookup⟩

theorem hidden_eq {scope : Scope} {es : List Event} {sel sel' : List OpenSelection}
    (noted : FramesNoted scope es sel sel') {x : String} (unbound : lastBound x es = none) :
    sel'.map (·.overridden.getD x []) = sel.map (·.overridden.getD x []) := by
  cases sel with
  | nil => exact congrArg _ noted
  | cons s outer =>
    obtain ⟨s', rfl, hs⟩ := noted
    have kept := hs.overridden x
    rw [shadowed_eq_none fun ts => (lastBound_eq_none_iff x es).mp unbound ts _] at kept
    simp [Std.ExtTreeMap.getD_eq_getD_getElem?, kept]

end FramesNoted

theorem Run.hidden_eq (r : Run) (x : String) :
    r.hidden x = TypeSet.unionAll ((r.selections.map (·.overridden.getD x [])).reverse) := by
  rw [Run.hidden, List.map_reverse]

theorem Event.isStill_of_isPlain (e : Event) (plain : e.isPlain = true) : e.isStill = true := by
  cases e <;> trivial

theorem Event.fits_of_isPlain (old : Leftovers) (e : Event) (plain : e.isPlain = true) : e.Fits old := by
  cases e <;> trivial

namespace Trace

theorem refl (r : Run) : Trace r r [] where
  log := rfl
  outer := rfl
  lookup _ := rfl
  levels := by simp
  frames := .of_elsewhere _ (by simp)
  reads _ := trivial

theorem reading_eq {r r' : Run} {es : List Event} (trace : Trace r r' es) {x : String}
    (unbound : lastBound x es = none) : r'.reading x = r.reading x := by
  have visible := trace.lookup x
  rw [unbound, Option.none_or] at visible
  rw [Run.reading, Run.reading, Run.hidden_eq, Run.hidden_eq, visible, trace.frames.hidden_eq unbound]

theorem trans {a b c : Run} {es fs : List Event} (first : Trace a b es) (second : Trace b c fs) :
    Trace a c (es ++ fs) where
  log := by rw [second.log, first.log, List.reverse_append, List.append_assoc]
  outer := second.outer.trans first.outer
  lookup x := by rw [second.lookup, first.lookup, lastBound_append, Option.or_assoc]
  levels x ts l member := by
    rcases List.mem_append.mp member with h | h
    · exact first.levels x ts l h
    · exact first.frames.length_eq ▸ second.levels x ts l h
  frames := first.frames.trans second.frames first.lookup
  reads x := by
    refine (readsAs_append ..).mpr ⟨first.reads x, ?_⟩
    intro unbound
    exact first.reading_eq unbound ▸ second.reads x

theorem of_still {r r' : Run} {es : List Event} (log : r'.log = es.reverse ++ r.log) (scope : r'.scope = r.scope)
    (selections : r'.selections = r.selections) (still : ∀ e ∈ es, e.isStill = true) : Trace r r' es where
  log := log
  outer := congrArg Scope.outer scope
  lookup x := by
    rw [(lastBound_eq_none_iff x es).mpr ((still_facts still).1 x), scope]
    rfl
  levels x ts l member := absurd member ((still_facts still).1 x ts l)
  frames := by
    rw [selections]
    exact .of_elsewhere _ fun x ts => (still_facts still).1 x ts _
  reads x := (still_facts still).2 x _

theorem quiet {old : Leftovers} {r r' : Run} (step : Quiet old r r') :
    ∃ es, Trace r r' es ∧ ∀ e ∈ es, e.isStill = true ∧ e.Fits old := by
  have silent : ∀ {r r' : Run}, r'.log = r.log → r'.scope = r.scope → r'.selections = r.selections →
      ∃ es, Trace r r' es ∧ ∀ e ∈ es, e.isStill = true ∧ e.Fits old :=
    fun log scope selections => ⟨[], of_still log scope selections (by simp), by simp⟩
  have single : ∀ {r r' : Run} (e : Event), r'.log = e :: r.log → r'.scope = r.scope →
      r'.selections = r.selections → e.isStill = true → e.Fits old →
      ∃ es, Trace r r' es ∧ ∀ e ∈ es, e.isStill = true ∧ e.Fits old :=
    fun e log scope selections still fits =>
      ⟨[e], of_still log scope selections (by simpa using still), by simpa using ⟨still, fits⟩⟩
  cases step with
  | emit e plain => exact single e rfl rfl rfl (e.isStill_of_isPlain plain) (e.fits_of_isPlain old plain)
  | stale s => exact single (.stale s _) rfl rfl rfl rfl rfl
  | annotate s ts => exact silent rfl rfl rfl
  | resolve s f => exact single (.resolved s f) rfl rfl rfl rfl trivial
  | use x => exact single (.used x) rfl rfl rfl rfl trivial
  | owe d =>
    unfold Run.owe
    split
    · exact silent rfl rfl rfl
    · exact single (.owed d.name) rfl rfl rfl rfl trivial
  | carry ds =>
    unfold Run.carry
    split
    · exact silent rfl rfl rfl
    · exact silent rfl rfl rfl
  | fail f => exact silent rfl rfl rfl
  | version v => exact silent rfl rfl rfl

theorem read (id : Ident) (r : Run) :
    Trace r (r.emit (.read id (r.reading id.name))) [.read id (r.reading id.name)] where
  log := rfl
  outer := rfl
  lookup _ := rfl
  levels := by simp
  frames := .of_elsewhere _ (by simp)
  reads x := ⟨fun same => same ▸ rfl, trivial⟩

end Trace

/-! Binding. -/

@[simp] theorem Run.note_scope (x : String) (ts : TypeSet) (r : Run) : (r.note x ts).scope = r.scope := by
  unfold Run.note
  split <;> rfl

@[simp] theorem Run.note_log (x : String) (ts : TypeSet) (r : Run) : (r.note x ts).log = r.log := by
  unfold Run.note
  split <;> rfl

theorem Noted.note {scope : Scope} (level : Nat) (x : String) (ts : TypeSet) (s : OpenSelection) :
    Noted scope level [.bound x ts level] s
      ⟨s.assigned.insert x ((s.assigned.getD x []).union ts), match scope.lookup x with
        | some prev => s.overridden.insertIfNew x prev
        | none => s.overridden⟩ where
  assigned y t := by
    simp only [Std.ExtTreeMap.getD_insert, Std.compare_eq_iff_eq]
    by_cases same : x = y
    · subst same
      rw [if_pos rfl, TypeSet.allows_union]
      simp
    · rw [if_neg same]
      simp [Ne.symm same]
  names y := by
    rw [Std.ExtTreeMap.mem_insert, Std.compare_eq_iff_eq]
    simp [or_comm, eq_comm]
  overridden y := by
    by_cases same : x = y
    · subst same
      cases scope.lookup x with
      | none => simp [shadowed]
      | some prev =>
        simp only [shadowed, if_true, Option.some_or, Std.ExtTreeMap.getElem?_insertIfNew, Std.compare_self, true_and]
        by_cases first : x ∈ s.overridden <;> simp [first]
    · simp only [shadowed, if_neg same, Option.or_none]
      cases scope.lookup x with
      | none => rfl
      | some prev => simp [Std.ExtTreeMap.getElem?_insertIfNew, same]

namespace Trace

theorem note_frames (x : String) (ts : TypeSet) (r : Run) :
    FramesNoted r.scope [.bound x ts r.selections.length] r.selections (r.note x ts).selections := by
  unfold Run.note
  split
  · rename_i none
    rw [none]
    rfl
  · rename_i s outer some
    rw [some]
    exact ⟨_, rfl, .note (outer.length + 1) x ts s⟩

theorem bind (x : String) (ts : TypeSet) (r : Run) : Trace r (r.bind x ts) [.bound x ts r.selections.length] where
  log := by
    have length := (note_frames x ts r).length_eq
    simp [Run.bind, length]
  outer := by simp [Run.bind]
  lookup y := by
    simp only [Run.bind, Run.note_scope, Scope.lookup_bind, lastBound, Event.boundTo, Option.none_or]
    by_cases same : x = y
    · simp [same]
    · simp [same, Ne.symm same]
  levels y us l member := by
    cases List.mem_singleton.mp member
    exact Nat.le_refl _
  frames := note_frames x ts r
  reads y := by
    by_cases same : x = y
    · exact .inl same
    · exact .inr trivial

theorem bindAll (bs : List (String × TypeSet)) (r : Run) :
    Trace r (bs.foldl (fun r (x, ts) => r.bind x ts) r) (bs.map fun (x, ts) => .bound x ts r.selections.length) := by
  induction bs generalizing r with
  | nil => exact refl r
  | cons b bs ih =>
    have head := bind b.1 b.2 r
    have tail := ih (r.bind b.1 b.2)
    rw [head.frames.length_eq] at tail
    exact head.trans tail

/-! Brackets. -/

/-- Brackets that concern neither variables nor selections do not show. -/
theorem of_bracket {r r' a b : Run} {es : List Event} (inner : Trace a b es) (log : a.log = r.log)
    (scope : a.scope = r.scope) (selections : a.selections = r.selections) (log' : r'.log = b.log)
    (scope' : r'.scope = b.scope) (selections' : r'.selections = b.selections) : Trace r r' es where
  log := by rw [log', inner.log, log]
  outer := by rw [scope', inner.outer, scope]
  lookup := by rw [scope', ← scope]; exact inner.lookup
  levels := by rw [← selections]; exact inner.levels
  frames := by rw [selections', ← scope, ← selections]; exact inner.frames
  reads x := by
    have same : r.reading x = a.reading x := by simp only [Run.reading, Run.hidden, scope, selections]
    rw [same]
    exact inner.reads x

theorem included {r r' : Run} {es : List Event} (inner : Trace { r with scope := r.scope.push } r' es) :
    Trace r { r' with scope := r'.scope.flush } es where
  log := inner.log
  outer := Scope.outer_flush _ _ _ inner.outer
  lookup x := by
    have visible := inner.lookup x
    rw [Scope.lookup_push] at visible
    exact (Scope.lookup_flush _ _ _ inner.outer x).trans visible
  levels := inner.levels
  frames := by
    have unmoved : FramesNoted r.scope [] r.selections r.selections := .of_elsewhere _ (by simp)
    exact unmoved.trans inner.frames (Scope.lookup_push r.scope)
  reads x := by
    have same : Run.reading { r with scope := r.scope.push } x = r.reading x := by
      simp [Run.reading, Run.hidden]
    exact same ▸ inner.reads x

theorem reading_openSelection (r : Run) (x : String) : (Place.openSelection r).reading x = r.reading x := by
  have hidden : (Place.openSelection r).hidden x = r.hidden x := by
    simp [Place.openSelection, Run.hidden, TypeSet.unionAll]
  rw [Run.reading, hidden]
  rfl

/-- The branches of a selection, seen from outside: the selection that they were noted in is gone. -/
theorem popped {r r' : Run} {es : List Event} (inner : Trace (Place.openSelection r) r' es) :
    Trace r { r' with selections := r.selections } es where
  log := inner.log
  outer := inner.outer
  lookup := inner.lookup
  levels x ts l member := Nat.le_of_succ_le (inner.levels x ts l member)
  frames := .of_elsewhere _ fun x ts member => absurd (inner.levels x ts _ member) (Nat.not_succ_le_self _)
  reads x := reading_openSelection r x ▸ inner.reads x

end Trace

/-! Selections. -/

/-- Whether everything that a name is bound to is also part of what it is bound to with as few open selections as
`level` says: what nested selections assign comes out of them. -/
def Covered (level : Nat) (es : List Event) : Prop :=
  ∀ x ts l, Event.bound x ts l ∈ es → ∃ us, Event.bound x us level ∈ es ∧ ts.Within us

structure Merged (isExhaustive : Bool) (scope : Scope) (level : Nat) (es fs : List Event) : Prop where
  bindings : ∀ e ∈ fs, ∃ x ts, e = Event.bound x ts level
  names : ∀ x, lastBound x fs = none ↔ lastBound x es = none
  types : ∀ x us, Event.bound x us level ∈ fs → ∀ t, TypeSet.Allows us t ↔
    (∃ ts l, Event.bound x ts l ∈ es ∧ TypeSet.Allows ts t) ∨
      isExhaustive = false ∧ TypeSet.Allows ((scope.lookup x).getD []) t

theorem Covered.append {level : Nat} {es fs : List Event} (first : Covered level es) (second : Covered level fs) :
    Covered level (es ++ fs) := by
  intro x ts l member
  rcases List.mem_append.mp member with h | h
  · obtain ⟨us, hus, within⟩ := first x ts l h
    exact ⟨us, List.mem_append_left fs hus, within⟩
  · obtain ⟨us, hus, within⟩ := second x ts l h
    exact ⟨us, List.mem_append_right es hus, within⟩

theorem Covered.of_level {level : Nat} {es : List Event} (here : ∀ x ts l, Event.bound x ts l ∈ es → l = level) :
    Covered level es :=
  fun x ts l member => ⟨ts, here x ts l member ▸ member, TypeSet.within_refl ts⟩

theorem Merged.level_eq {isExhaustive : Bool} {scope : Scope} {level : Nat} {es fs : List Event}
    (merged : Merged isExhaustive scope level es fs) (x : String) (ts : TypeSet) (l : Nat)
    (member : Event.bound x ts l ∈ fs) : l = level := by
  obtain ⟨y, us, same⟩ := merged.bindings _ member
  cases same
  rfl

theorem Merged.covered {isExhaustive : Bool} {scope : Scope} {level : Nat} {es fs : List Event}
    (merged : Merged isExhaustive scope level es fs) : Covered level (es ++ fs) := by
  intro x ts l member
  rcases List.mem_append.mp member with branch | merge
  · obtain ⟨vs, given⟩ := exists_lastBound branch
    have bound : lastBound x fs ≠ none := by
      rw [ne_eq, merged.names, given]
      exact Option.some_ne_none vs
    obtain ⟨us, last⟩ := Option.ne_none_iff_exists'.mp bound
    obtain ⟨k, hus⟩ := mem_of_lastBound last
    cases merged.level_eq x us k hus
    refine ⟨us, List.mem_append_right es hus, (TypeSet.within_iff ts us).mpr ?_⟩
    exact fun t allowed => (merged.types x us hus t).mpr (.inl ⟨ts, l, branch, allowed⟩)
  · cases merged.level_eq x ts l merge
    exact ⟨ts, member, TypeSet.within_refl ts⟩

theorem allows_mergedTypes (isExhaustive : Bool) (before : Frame) (r : Run) (x : String) (assigned : TypeSet)
    (t : Trait) :
    TypeSet.Allows (Place.mergedTypes isExhaustive before r x assigned) t ↔
      (TypeSet.Allows ((r.scope.lookup x).getD []) t ∨ TypeSet.Allows assigned t) ∨
        isExhaustive = false ∧ TypeSet.Allows (before.getD x []) t := by
  cases isExhaustive <;> simp [Place.mergedTypes, TypeSet.allows_union]

def closing (isExhaustive : Bool) (before : Frame) (r : Run) (s : OpenSelection) (level : Nat) : List Event :=
  (s.assigned.toList.map fun (x, ts) => (x, Place.mergedTypes isExhaustive before r x ts)).map fun (x, ts) =>
    .bound x ts level

theorem bound_mem_closing {isExhaustive : Bool} {before : Frame} {r : Run} {s : OpenSelection} {level l : Nat}
    {x : String} {us : TypeSet} :
    Event.bound x us l ∈ closing isExhaustive before r s level ↔
      l = level ∧ x ∈ s.assigned ∧ us = Place.mergedTypes isExhaustive before r x (s.assigned.getD x []) := by
  rw [closing, List.map_map, List.mem_map]
  constructor
  · rintro ⟨⟨y, ts⟩, entry, same⟩
    cases same
    rw [Std.ExtTreeMap.mem_toList_iff_getElem?_eq_some] at entry
    refine ⟨rfl, Std.ExtTreeMap.mem_iff_isSome_getElem?.mpr (by rw [entry]; rfl), ?_⟩
    rw [Std.ExtTreeMap.getD_eq_getD_getElem?, entry, Option.getD_some]
  · rintro ⟨rfl, member, rfl⟩
    obtain ⟨ts, entry⟩ := Option.isSome_iff_exists.mp (Std.ExtTreeMap.mem_iff_isSome_getElem?.mp member)
    refine ⟨(x, ts), Std.ExtTreeMap.mem_toList_iff_getElem?_eq_some.mpr entry, ?_⟩
    rw [Std.ExtTreeMap.getD_eq_getD_getElem?, entry]
    rfl

/-- What the branches noted is what they bound, whether directly or in selections of their own. -/
theorem merged_closing {scope : Scope} {level : Nat} {es : List Event} {s : OpenSelection} {r : Run}
    (isExhaustive : Bool) (noted : Noted scope (level + 1) es ⟨∅, ∅⟩ s) (covered : Covered (level + 1) es)
    (lookup : ∀ x, r.scope.lookup x = (lastBound x es).or (scope.lookup x)) :
    Merged isExhaustive scope level es (closing isExhaustive scope.flatten r s level) where
  bindings e member := by
    rw [closing, List.map_map, List.mem_map] at member
    obtain ⟨b, _, same⟩ := member
    exact ⟨_, _, same.symm⟩
  names x := by
    simp only [lastBound_eq_none_iff, bound_mem_closing, noted.names]
    constructor
    · intro unbound ts l member
      obtain ⟨us, hus, _⟩ := covered x ts l member
      exact unbound _ level ⟨rfl, .inr ⟨us, hus⟩, rfl⟩
    · rintro unbound _ _ ⟨_, initially | ⟨ts, member⟩, _⟩
      · exact Std.ExtTreeMap.not_mem_empty initially
      · exact unbound ts _ member
  types x us member t := by
    obtain ⟨_, assigned, rfl⟩ := bound_mem_closing.mp member
    have before : scope.flatten.getD x [] = (scope.lookup x).getD [] := by
      rw [Std.ExtTreeMap.getD_eq_getD_getElem?, Scope.getElem?_flatten]
    rw [allows_mergedTypes, noted.assigned, before]
    refine or_congr_left ⟨?_, ?_⟩
    · rintro (current | initially | ⟨ts, bound, allowed⟩)
      · -- the name is among those noted, so what it has now is what a branch gave it last
        rcases (noted.names x).mp assigned with initially | ⟨ts, bound⟩
        · exact absurd initially Std.ExtTreeMap.not_mem_empty
        · obtain ⟨us, last⟩ := exists_lastBound bound
          rw [lookup, last] at current
          obtain ⟨l, hl⟩ := mem_of_lastBound last
          exact ⟨us, l, hl, current⟩
      · rw [Std.ExtTreeMap.getD_empty] at initially
        exact absurd initially (by simp [TypeSet.Allows])
      · exact ⟨ts, _, bound, allowed⟩
    · rintro ⟨ts, l, bound, allowed⟩
      obtain ⟨us, hus, within⟩ := covered x ts l bound
      exact .inr (.inr ⟨us, hus, (TypeSet.within_iff ts us).mp within t allowed⟩)

theorem Trace.selection {r r' : Run} {es : List Event} (isExhaustive : Bool)
    (inner : Trace (Place.openSelection r) r' es) (covered : Covered (r.selections.length + 1) es) :
    ∃ fs, Trace r (Place.closeSelection isExhaustive r.scope.flatten r') (es ++ fs) ∧
      Merged isExhaustive r.scope r.selections.length es fs := by
  obtain ⟨s, opened, noted⟩ := inner.frames
  refine ⟨closing isExhaustive r.scope.flatten r' s r.selections.length, ?_, ?_⟩
  · rw [Place.closeSelection, opened]
    exact inner.popped.trans (bindAll ..)
  · exact merged_closing isExhaustive noted covered inner.lookup

/-- The events of a walk account for everything it does to variables. -/
theorem Walks.trace {old : Leftovers} {r r' : Run} (walks : Walks old r r') :
    ∃ es, Trace r r' es ∧ Covered r.selections.length es ∧ ∀ e ∈ es, e.Fits old := by
  induction walks with
  | refl r => exact ⟨[], .refl r, by simp [Covered], by simp⟩
  | trans _ _ ih₁ ih₂ =>
    obtain ⟨es, first, covered, fits⟩ := ih₁
    obtain ⟨fs, second, covered', fits'⟩ := ih₂
    rw [first.frames.length_eq] at covered'
    refine ⟨es ++ fs, first.trans second, covered.append covered', fun e member => ?_⟩
    exact (List.mem_append.mp member).elim (fits e) (fits' e)
  | quiet step =>
    obtain ⟨es, trace, facts⟩ := Trace.quiet step
    refine ⟨es, trace, fun x ts l member => ?_, fun e member => (facts e member).2⟩
    exact absurd member ((still_facts fun e member => (facts e member).1).1 x ts l)
  | bind x ts r =>
    refine ⟨_, .bind x ts r, .of_level fun y us l member => ?_, fun e member => ?_⟩
    · cases List.mem_singleton.mp member
      rfl
    · cases List.mem_singleton.mp member
      trivial
  | read id r =>
    refine ⟨_, .read id r, by simp [Covered], fun e member => ?_⟩
    cases List.mem_singleton.mp member
    trivial
  | block _ ih | guarded _ _ ih | file _ _ _ ih =>
    obtain ⟨es, trace, facts⟩ := ih
    exact ⟨es, trace.of_bracket rfl rfl rfl rfl rfl rfl, facts⟩
  | selection isExhaustive _ ih =>
    obtain ⟨es, trace, covered, fits⟩ := ih
    obtain ⟨fs, closed, merged⟩ := trace.selection isExhaustive covered
    refine ⟨es ++ fs, closed, merged.covered, fun e member => ?_⟩
    refine (List.mem_append.mp member).elim (fits e) fun merge => ?_
    obtain ⟨x, ts, rfl⟩ := merged.bindings e merge
    trivial
  | included _ ih =>
    obtain ⟨es, trace, facts⟩ := ih
    exact ⟨es, trace.included, facts⟩

end MesonCheck
