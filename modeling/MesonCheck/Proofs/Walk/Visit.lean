import MesonCheck.Analysis.Outcome
import MesonCheck.Proofs.Walk.Steps

/-! The walk over nodes, files and trees goes in steps. -/
namespace MesonCheck

namespace Place

/-! What a visit does, part by part. -/

section

variable (p : Place) (inLoop : Bool) (s : Site) (r : Run)

theorem visit_method (receiver : Node) (callee : Ident) (argSite : Site) (as : List Node) :
    p.visit inLoop (.method s receiver callee argSite as) r =
      let recv := p.visit inLoop receiver r
      let args := p.visitAll inLoop as recv.2
      p.callMethod s receiver recv.1 callee (as.zipWith Argument.mk args.1) args.2 := rfl

theorem visit_index (outer inner : Node) :
    p.visit inLoop (.index s outer inner) r =
      let o := p.visit inLoop outer r
      readIndex s o.1 (p.visit inLoop inner o.2).2 := rfl

theorem visit_binary (op : Option Operator) (a b : Node) :
    p.visit inLoop (.binary s op a b) r =
      let left := p.visit inLoop a r
      let right := p.visit inLoop b left.2
      p.applyOperator s op a b left.1 right.1 right.2 := rfl

theorem visit_ternary (c y z : Node) :
    p.visit inLoop (.ternary s c y z) r =
      let cond := p.visit inLoop c r
      let yes := p.visit inLoop y cond.2
      let no := p.visit inLoop z yes.2
      (yes.1.union no.1, (no.2.annotate s (yes.1.union no.1)).checkBool s cond.1) := rfl

/-- The target of a plain assignment to a variable is not visited. -/
theorem visit_assign (op : Operator) (t v : Node) :
    p.visit inLoop (.assign s op t v) r =
      let before := if op = .assign ∧ t.isIdent then (([] : TypeSet), r) else p.visit inLoop t r
      let value := p.visit inLoop v before.2
      ([], p.assignTo s op t v before.1 value.1 value.2) := rfl

theorem visit_loop (ids : List Ident) (subject : Node) (body : List Node) :
    p.visit inLoop (.loop s ids subject body) r =
      let looped := p.visit true subject r
      ([], p.visitStatements true body body (p.bindLoop ids subject looped.1 looped.2)) := rfl

theorem visitAll_cons (n : Node) (ns : List Node) :
    p.visitAll inLoop (n :: ns) r =
      let first := p.visit inLoop n r
      let rest := p.visitAll inLoop ns first.2
      (first.1 :: rest.1, rest.2) := rfl

theorem visitEntries_cons (seen : List String) (k v : Node) (es : List Entry) :
    p.visitEntries inLoop seen (.mk s k v :: es) r =
      let value := p.visit inLoop v (p.visit inLoop k r).2
      let noted := noteKey seen k (value.2.annotate s value.1)
      let rest := p.visitEntries inLoop noted.1 es noted.2
      (value.1 :: rest.1, rest.2) := rfl

theorem visitBranches_guarded (c : Node) (body : List Node) (bs : List Branch) :
    p.visitBranches inLoop (.guarded c body :: bs) r =
      let cond := p.visit inLoop c r
      let start := (cond.2.ignore (askedName? c).toList).checkBool c.site cond.1
      let done := (p.visitStatements inLoop body body start.openDebts).closeDebts
      let rest := p.visitBranches inLoop bs (done.2.unignore (askedName? c).toList)
      (done.1 ++ rest.1, rest.2) := rfl

theorem visitBranches_otherwise (body : List Node) (bs : List Branch) :
    p.visitBranches inLoop (.otherwise body :: bs) r =
      let done := (p.visitStatements inLoop body body r.openDebts).closeDebts
      let rest := p.visitBranches inLoop bs done.2
      (done.1 ++ rest.1, rest.2) := rfl

end

mutual
theorem visit_walks (p : Place) (enters : p.EntersInSteps) (inLoop : Bool) :
    ∀ (n : Node) (r : Run), Walks p.cx.earlier r (p.visit inLoop n r).2
  | .int s _, r | .bool s _, r => by
    rw [visit]
    exact .quiet (.annotate ..)
  | .str s t isFormat, r => by
    rw [visit]
    refine .trans (.quiet (.annotate s [.str] r)) ?_
    exact .ite (checkPlaceholders_acts ..).walks (.refl _)
  | .array s es, r => by
    rw [visit]
    exact .trans (visitAll_walks p enters inLoop es r) (.quiet (.annotate ..))
  | .dict s es, r => by
    rw [visit]
    exact .trans (visitEntries_walks p enters inLoop [] es r) (.quiet (.annotate ..))
  | .ident id, r => by
    rw [visit]
    exact (p.readVariable_acts r id).walks
  | .call s callee _ as, r => by
    rw [visit]
    exact .trans (visitAll_walks p enters inLoop as r) (p.callFunction_walks _ enters ..)
  | .method s receiver callee _ as, r => by
    rw [visit]
    refine .trans (visit_walks p enters inLoop receiver r) ?_
    exact .trans (visitAll_walks p enters inLoop as _) (p.callMethod_still ..).walks
  | .keyword s key v, r => by
    rw [visit]
    refine .trans (visit_walks p enters inLoop v r) ?_
    exact .trans (.quiet (.annotate ..)) (Run.checkKeyword_still ..).walks
  | .index s outer inner, r => by
    rw [visit]
    refine .trans (visit_walks p enters inLoop outer r) ?_
    exact .trans (visit_walks p enters inLoop inner _) (readIndex_still ..).walks
  | .unary s op x, r => by
    rw [visit]
    exact .trans (visit_walks p enters inLoop x r) (.quiet (.annotate ..))
  | .binary s op a b, r => by
    rw [visit]
    refine .trans (visit_walks p enters inLoop a r) ?_
    exact .trans (visit_walks p enters inLoop b _) (p.applyOperator_still ..).walks
  | .ternary s c y z, r => by
    rw [visit]
    refine .trans (visit_walks p enters inLoop c r) ?_
    refine .trans (visit_walks p enters inLoop y _) ?_
    refine .trans (visit_walks p enters inLoop z _) ?_
    exact .trans (.quiet (.annotate ..)) (Run.checkBool_still ..).walks
  | .assign s op t v, r => by
    rw [visit_assign]
    have target : Walks p.cx.earlier r
        (if op = .assign ∧ t.isIdent then (([] : TypeSet), r) else visit p inLoop t r).2 := by
      by_cases plain : op = .assign ∧ t.isIdent
      · rw [if_pos plain]
        exact .refl r
      · rw [if_neg plain]
        exact visit_walks p enters inLoop t r
    refine .trans target ?_
    exact .trans (visit_walks p enters inLoop v _) (p.assignTo_acts ..).walks
  | .select s bs, r => by
    rw [visit]
    exact .selection _ (.trans (visitBranches_walks p enters inLoop bs _) (.quiet (.carry ..)))
  | .loop s ids subject body, r => by
    rw [visit]
    refine .trans (visit_walks p enters true subject r) ?_
    exact .trans (p.bindLoop_acts ..).walks (visitStatements_walks p enters true body body _)
  | .breakLoop s, r | .continueLoop s, r => by
    rw [visit]
    exact .reportIf ..
  | .error s m, r => by
    rw [visit]
    exact .report ..

theorem visitAll_walks (p : Place) (enters : p.EntersInSteps) (inLoop : Bool) :
    ∀ (ns : List Node) (r : Run), Walks p.cx.earlier r (p.visitAll inLoop ns r).2
  | [], r => by
    rw [visitAll]
    exact .refl r
  | n :: ns, r => by
    rw [visitAll]
    exact .trans (visit_walks p enters inLoop n r) (visitAll_walks p enters inLoop ns _)

theorem visitEntries_walks (p : Place) (enters : p.EntersInSteps) (inLoop : Bool) :
    ∀ (seen : List String) (es : List Entry) (r : Run), Walks p.cx.earlier r (p.visitEntries inLoop seen es r).2
  | _, [], r => by
    rw [visitEntries]
    exact .refl r
  | seen, .mk s k v :: es, r => by
    rw [visitEntries]
    refine .trans (visit_walks p enters inLoop k r) ?_
    refine .trans (visit_walks p enters inLoop v _) ?_
    refine .trans ?_ (visitEntries_walks p enters inLoop _ es _)
    exact .trans (.quiet (.annotate ..)) (p.noteKey_still ..).walks

theorem visitStatements_walks (p : Place) (enters : p.EntersInSteps) (inLoop : Bool) (block : List Node) :
    ∀ (ns : List Node) (r : Run), Walks p.cx.earlier r (p.visitStatements inLoop block ns r)
  | [], r => by
    rw [visitStatements]
    split
    · exact .report ..
    · exact .refl r
  | n :: ns, r => by
    rw [visitStatements]
    refine .trans (visit_walks p enters inLoop n r) ?_
    exact .trans (.reportIf ..) (visitStatements_walks p enters inLoop block ns _)

theorem visitBranches_walks (p : Place) (enters : p.EntersInSteps) (inLoop : Bool) :
    ∀ (bs : List Branch) (r : Run), Walks p.cx.earlier r (p.visitBranches inLoop bs r).2
  | [], r => by
    rw [visitBranches]
    exact .refl r
  | .guarded c body :: bs, r => by
    rw [visitBranches]
    refine .trans (visit_walks p enters inLoop c r) ?_
    refine .trans (.guarded (askedName? c).toList ?_) (visitBranches_walks p enters inLoop bs _)
    exact .trans (Run.checkBool_still ..).walks (.block (visitStatements_walks p enters inLoop body body _))
  | .otherwise body :: bs, r => by
    rw [visitBranches]
    refine .trans (.block (visitStatements_walks p enters inLoop body body _)) ?_
    exact visitBranches_walks p enters inLoop bs _
end

theorem checkProject_still (p : Place) (b : Body) (r : Run) : Still p.cx.earlier r (checkProject b r) := by
  unfold checkProject
  split
  · exact .report _ rfl _
  · exact .ite (.version ..) (.report _ rfl _)
  · exact .report _ rfl _

theorem walkBody_walks (p : Place) (enters : p.EntersInSteps) (isRoot : Bool) (r : Run) :
    Walks p.cx.earlier r (p.walkBody isRoot r) := by
  unfold walkBody
  split
  · refine .trans ?_ (visitStatements_walks p enters ..)
    exact .ite (p.checkProject_still ..).walks (.refl _)
  · exact .reportIf ..

theorem walk_walks (p : Place) (enters : p.EntersInSteps) (r : Run) (fresh : r.active.contains p.file.id = false) :
    Walks p.cx.earlier r (p.walk r) := by
  refine .trans (.file p.file.id fresh (.block (p.walkBody_walks enters r.active.isEmpty _))) ?_
  exact .ite (Run.settle_walks ..) (.quiet (.carry ..))

end Place

namespace Setting

/-- A file of the tree as a place to walk: what it includes is walked with the remaining fuel, in a frame of its own. -/
def place (cx : Setting) (fuel : Nat) (f : SourceFile) : Place :=
  ⟨cx, f, fun g r =>
    let r := cx.walk fuel g { r with scope := r.scope.push }
    { r with scope := r.scope.flush }⟩

theorem walk_succ (cx : Setting) (fuel : Nat) (f : SourceFile) (r : Run) :
    cx.walk (fuel + 1) f r = (cx.place fuel f).walk r := rfl

theorem walk_walks (cx : Setting) (fuel : Nat) (f : SourceFile) (r : Run) (fresh : r.active.contains f.id = false) :
    Walks cx.earlier r (cx.walk fuel f r) := by
  induction fuel generalizing f r with
  | zero => exact .refl r
  | succ fuel ih =>
    rw [walk_succ]
    refine (cx.place fuel f).walk_walks ?_ r fresh
    exact fun g r fresh => .included (ih g _ fresh)

theorem place_enters (cx : Setting) (fuel : Nat) (f : SourceFile) : (cx.place fuel f).EntersInSteps :=
  fun g _ fresh => .included (cx.walk_walks fuel g _ fresh)

theorem finish_walks (cx : Setting) : Walks cx.earlier cx.start cx.finish := by
  unfold finish
  split
  · exact cx.walk_walks _ _ _ rfl
  · exact .refl _

end Setting

end MesonCheck
