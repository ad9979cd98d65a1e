import Mathlib.Data.List.Forall2
import MesonCheck.Proofs.IncludeStack
import MesonCheck.Proofs.Walk.Opening

/-! The stacks of an analysis: the files that are being walked, the names whose absence is not reported, the frames of
the scope, the open selections and the open lists of unused assignments. A visit may push on all of them, but it never
touches what lies below the top, except that assignments below are used, and it pops all that it has pushed. -/
namespace MesonCheck

/-! Lists of unused assignments. -/

abbrev Thinned (before after : List (List Debt)) : Prop :=
  List.Forall₂ List.Sublist after before

namespace Thinned

variable {as bs cs : List (List Debt)}

theorem refl (as : List (List Debt)) : Thinned as as :=
  List.forall₂_same.mpr fun ds _ => .refl ds

theorem trans (first : Thinned as bs) (second : Thinned bs cs) : Thinned as cs := by
  induction first generalizing cs with
  | nil => exact second
  | cons less _ ih =>
    cases second with
    | cons lesser rest => exact .cons (lesser.trans less) (ih rest)

theorem tail (thinned : Thinned as bs) : Thinned as.tail bs.tail := by
  rw [← List.drop_one, ← List.drop_one]
  exact List.forall₂_drop 1 thinned

end Thinned

theorem Run.thinned_use (x : String) (r : Run) : Thinned r.debts (r.use x).debts :=
  List.forall₂_map_left_iff.mpr (List.forall₂_same.mpr fun _ _ => List.filter_sublist)

theorem Run.debts_owe (d : Debt) (r : Run) : (r.owe d).debts = (r.carry [d]).debts := by
  unfold Run.owe Run.carry
  split <;> rfl

theorem Run.tail_debts_carry (ds : List Debt) (r : Run) : (r.carry ds).debts.tail = r.debts.tail := by
  unfold Run.carry
  split
  · rfl
  · rename_i opened
    rw [opened]
    rfl

theorem Walks.thinned_tail {old : Leftovers} {r r' : Run} (walks : Walks old r r') :
    Thinned r.debts.tail r'.debts.tail := by
  induction walks with
  | refl r => exact .refl _
  | trans _ _ first second => exact first.trans second
  | quiet step =>
    cases step with
    | use x => exact (Run.thinned_use x _).tail
    | owe d =>
      rw [Run.debts_owe, Run.tail_debts_carry]
      exact .refl _
    | carry ds =>
      rw [Run.tail_debts_carry]
      exact .refl _
    | _ => exact .refl _
  | bind x ts r =>
    rw [r.debts_bind]
    exact .refl _
  | read id r => exact .refl _
  -- inside a block even the innermost list of the state before lies below the top
  | block _ ih => exact ih.tail
  | guarded _ _ ih | included _ ih | file _ _ _ ih => exact ih
  | selection isExhaustive _ ih =>
    rw [Run.closeSelection_keeps (·.debts) (fun x ts r => r.debts_bind x ts) fun _ _ => rfl]
    exact ih

/-! What a visit leaves as it was. -/

namespace Run

/-- Whether all stacks are as high as they were, and below their tops hold what they held, except that assignments have
been used. -/
structure Balanced (r r' : Run) : Prop where
  active : r'.active = r.active
  ignored : r'.ignored = r.ignored
  depth : r'.scope.depth = r.scope.depth
  outer : r'.scope.outer = r.scope.outer
  selections : r'.selections.length = r.selections.length
  beneath : r'.selections.tail = r.selections.tail
  debts : r'.debts.length = r.debts.length
  unused : Thinned r.debts.tail r'.debts.tail

structure Upholds (r r' : Run) : Prop where
  active : r.active <:+ r'.active
  ignored : r.ignored <:+ r'.ignored
  outer : r.scope.outer <:+ r'.scope.outer
  selections : r.selections.tail <:+ r'.selections.tail
  unused : ∃ kept, kept <:+ r'.debts.tail ∧ Thinned r.debts.tail kept

theorem Balanced.upholds {r r' : Run} (balanced : r.Balanced r') : r.Upholds r' where
  active := balanced.active ▸ List.suffix_rfl
  ignored := balanced.ignored ▸ List.suffix_rfl
  outer := balanced.outer ▸ List.suffix_rfl
  selections := balanced.beneath ▸ List.suffix_rfl
  unused := ⟨_, List.suffix_rfl, balanced.unused⟩

theorem Upholds.refl (r : Run) : r.Upholds r :=
  ⟨List.suffix_rfl, List.suffix_rfl, List.suffix_rfl, List.suffix_rfl, _, List.suffix_rfl, .refl _⟩

theorem Upholds.trans {a b c : Run} (first : a.Upholds b) (second : b.Upholds c) : a.Upholds c where
  active := first.active.trans second.active
  ignored := first.ignored.trans second.ignored
  outer := first.outer.trans second.outer
  selections := first.selections.trans second.selections
  unused := by
    obtain ⟨kept, ⟨newer, below⟩, thinned⟩ := first.unused
    obtain ⟨kept', below', thinned'⟩ := second.unused
    rw [← below] at thinned'
    exact ⟨kept'.drop newer.length, (List.drop_suffix ..).trans below',
      thinned.trans (List.forall₂_drop_append _ _ _ thinned')⟩

end Run

section

variable {old : Leftovers} {r r' : Run}

theorem Trace.tail_selections {es : List Event} (trace : Trace r r' es) : r'.selections.tail = r.selections.tail := by
  have frames := trace.frames
  cases opened : r.selections with
  | nil =>
    rw [opened] at frames
    exact congrArg List.tail frames
  | cons s outer =>
    rw [opened] at frames
    obtain ⟨s', after, _⟩ := frames
    rw [after]
    rfl

theorem Walks.balanced (walks : Walks old r r') : r.Balanced r' := by
  obtain ⟨es, trace, _⟩ := walks.trace
  exact {
    active := walks.active_eq
    ignored := walks.ignored_eq
    depth := congrArg (·.length + 1) trace.outer
    outer := trace.outer
    selections := trace.frames.length_eq
    beneath := trace.tail_selections
    debts := walks.length_debts
    unused := walks.thinned_tail }

theorem Opens.upholds {names : List String} (opens : Opens old names r r') : r.Upholds r' := by
  induction opens with
  | walks walks => exact walks.balanced.upholds
  | trans _ _ first second => exact first.trans second
  | ignore names r => exact { Run.Upholds.refl r with ignored := List.suffix_append .. }
  | block r => exact { Run.Upholds.refl r with unused := ⟨_, List.tail_suffix _, .refl _⟩ }
  | selection r => exact { Run.Upholds.refl r with selections := List.tail_suffix _ }
  | file id r => exact { Run.Upholds.refl r with active := List.suffix_cons .. }
  | frame r => exact { Run.Upholds.refl r with outer := List.suffix_cons .. }

end

namespace Setting

/-- The visits that go on while another one does: the visit itself, its parts, and the files that it enters. -/
inductive Comprises (cx : Setting) (fuel : Nat) (f : SourceFile) (v : Visit) : Nat → SourceFile → Visit → Prop where
  | self : Comprises cx fuel f v fuel f v
  | part {rest : Nat} {g : SourceFile} {w u : Visit} :
      Comprises cx fuel f v rest g w → u ∈ (cx.place rest g).parts w → Comprises cx fuel f v rest g u
  | included {rest : Nat} {g h : SourceFile} {w : Visit} {r : Run} :
      Comprises cx fuel f v (rest + 1) g w → (h, r) ∈ (cx.place (rest + 1) g).entered w →
      Comprises cx fuel f v rest h ⟨false, .file, { r with scope := r.scope.push }⟩

variable {cx : Setting} {fuel rest : Nat} {f g : SourceFile} {v w : Visit}

theorem Comprises.makes (comprises : cx.Comprises fuel f v rest g w) (makes : cx.Makes fuel f v) :
    cx.Makes rest g w := by
  induction comprises with
  | self => exact makes
  | part _ member ih => exact .part ih member
  | included _ member ih => exact .included ih member

theorem Comprises.upholds (comprises : cx.Comprises fuel f v rest g w) : v.before.Upholds w.before := by
  induction comprises with
  | self => exact .refl _
  | part _ member ih => exact ih.trans (Place.parts_opens (cx.place_enters _ _) _ _ member).upholds
  | included _ member ih =>
    obtain ⟨i, resolved, _, rfl, rfl⟩ := (Place.mem_entered_iff _).mp member
    have walks := (Place.inclusions_isInclusion (cx.place_enters _ _) _ i resolved).walks
    have opens : Opens cx.earlier [] _ _ := .before walks (.frame i.before)
    exact ih.trans opens.upholds

theorem Makes.balanced (makes : cx.Makes fuel f v) : v.before.Balanced ((cx.place fuel f).after v) := by
  obtain ⟨outer, nests⟩ := exists_nests_iff.mpr makes
  exact nests.walks.balanced

/-- Every visit that an analysis makes, of a file, a node or a list of parts, leaves the files that are being walked,
the ignored names and all frames of the scope but the innermost one as they were. It leaves as many selections and as
many lists of unused assignments open as there were, all but the innermost of them as they were, except that assignments
have been used. The same holds of any node and any list of arguments that is visited in any state. While a visit goes
on, in whatever it includes, all of this still lies under what the visit has opened. -/
theorem visits_balanced (cx : Setting) :
    (∀ fuel f v, cx.Makes fuel f v → v.before.Balanced ((cx.place fuel f).after v)) ∧
    (∀ fuel f inLoop n (r : Run), r.Balanced ((cx.place fuel f).visit inLoop n r).2) ∧
    (∀ fuel f inLoop ns (r : Run), r.Balanced ((cx.place fuel f).visitAll inLoop ns r).2) ∧
    ∀ fuel f v, cx.Makes fuel f v → ∀ rest g w, cx.Comprises fuel f v rest g w →
      v.before.Upholds w.before ∧ v.before.Upholds ((cx.place rest g).after w) := by
  refine ⟨fun fuel f v => Makes.balanced, fun fuel f inLoop n r => ?_, fun fuel f inLoop ns r => ?_, ?_⟩
  · exact ((cx.place fuel f).visit_walks (cx.place_enters fuel f) inLoop n r).balanced
  · exact ((cx.place fuel f).visitAll_walks (cx.place_enters fuel f) inLoop ns r).balanced
  · intro fuel f v makes rest g w comprises
    exact ⟨comprises.upholds, comprises.upholds.trans (comprises.makes makes).balanced.upholds⟩

def sampleInBranch : Setting where
  catalogue := ⟨[], [], [⟨"subdir", none, [⟨[.str], false, false⟩], [], []⟩], [], [], [], fun _ => []⟩
  tree :=
    let call (name text : String) : Node :=
      .call (.at .zero) ⟨.at .zero, name⟩ (.at .zero) [.str (.at .zero) text false]
    let assign : Node := .assign (.at .zero) .assign (.ident ⟨.at .zero, "x"⟩) (.int (.at .zero) 1)
    .ofFiles [⟨0, .at .zero, "meson.build", some ⟨.at .zero,
        [.select (.at .zero) [.guarded (call "is_variable" "x") [assign, call "subdir" "sub"]]]⟩⟩,
      ⟨0, .at .zero, "sub/meson.build", some ⟨.at .zero, [assign]⟩⟩]

theorem visits_balanced_sample :
    let v : Visit := ⟨false, .file, sampleInBranch.start⟩
    ∃ f, sampleInBranch.Makes 2 f v ∧ v.before.Balanced ((sampleInBranch.place 2 f).after v) ∧
      ∃ g w, sampleInBranch.Comprises 2 f v 1 g w ∧ w.before.active = [0] ∧ w.before.ignored = ["x"] ∧
        w.before.scope.depth = 2 ∧ w.before.selections.length = 1 ∧ w.before.debts.length = 2 ∧
        v.before.Upholds ((sampleInBranch.place 1 g).after w) := by
  intro v
  obtain ⟨every, _, _, during⟩ := visits_balanced sampleInBranch
  have root : sampleInBranch.Makes 2 (sampleInBranch.tree.root.get rfl) v := .root rfl
  have whole : sampleInBranch.Comprises 2 (sampleInBranch.tree.root.get rfl) v 2 _ v := .self
  have body := whole.part (.head _)
  have select := body.part (.head _)
  have branches := select.part (.head _)
  have branch := branches.part (.tail _ (.head _))
  have rest := branch.part (.tail _ (.head _))
  have call := rest.part (.head _)
  have file := call.included (.head _)
  exact ⟨_, root, every _ _ _ root, _, _, file, rfl, rfl, rfl, rfl, rfl, (during _ _ _ root _ _ _ file).2⟩

end Setting

end MesonCheck
