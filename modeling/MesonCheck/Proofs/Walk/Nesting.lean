import MesonCheck.Proofs.Tree.Numbering
import MesonCheck.Proofs.Walk.Inclusion
import MesonCheck.Proofs.Walk.Trace

/-! How files are nested. While a visit goes on, the files that are being walked are its own file and those through
which that file has been included. None of them comes twice, so there are never more of them than the tree has. -/
namespace MesonCheck

/-! What a walk keeps. -/

theorem Run.active_bind (x : String) (ts : TypeSet) (r : Run) : (r.bind x ts).active = r.active := by
  unfold Run.bind Run.note
  cases r.selections <;> rfl

theorem Run.fault_bind (x : String) (ts : TypeSet) (r : Run) : (r.bind x ts).fault = r.fault := by
  unfold Run.bind Run.note
  cases r.selections <;> rfl

structure Run.Kept (r r' : Run) : Prop where
  log : r.log <:+ r'.log
  fault : ∀ f, r.fault = some f → r'.fault = some f

theorem Run.Kept.refl (r : Run) : r.Kept r :=
  ⟨List.suffix_rfl, fun _ => id⟩

theorem Run.Kept.trans {r s t : Run} (first : r.Kept s) (second : s.Kept t) : r.Kept t :=
  ⟨first.log.trans second.log, fun f failed => second.fault f (first.fault f failed)⟩

theorem Run.foldl_bind_keeps {α : Type} {view : Run → α} (bind : ∀ x ts r, view (r.bind x ts) = view r)
    (bs : List (String × TypeSet)) (r : Run) : view (bs.foldl (fun r (x, ts) => r.bind x ts) r) = view r := by
  induction bs generalizing r with
  | nil => rfl
  | cons b bs ih => exact (ih _).trans (bind b.1 b.2 r)

theorem Run.closeSelection_keeps {α : Type} (view : Run → α) (bind : ∀ x ts r, view (r.bind x ts) = view r)
    (selections : ∀ (r : Run) ss, view { r with selections := ss } = view r) (isExhaustive : Bool) (before : Frame)
    (r : Run) : view (Place.closeSelection isExhaustive before r) = view r := by
  unfold Place.closeSelection
  split
  · rfl
  · exact (Run.foldl_bind_keeps bind _ _).trans (selections r _)

namespace Walks

variable {old : Leftovers} {r r' : Run}

/-- Every file that a walk opens is closed again. -/
theorem active_eq (walks : Walks old r r') : r'.active = r.active := by
  induction walks with
  | refl r => rfl
  | trans _ _ first second => exact second.trans first
  | quiet step =>
    cases step with
    | owe d r =>
      unfold Run.owe
      split <;> rfl
    | carry ds r =>
      unfold Run.carry
      split <;> rfl
    | _ => rfl
  | bind x ts r => exact r.active_bind x ts
  | read id r => rfl
  | block _ ih | guarded _ _ ih | included _ ih => exact ih
  | selection isExhaustive _ ih => exact (Run.closeSelection_keeps _ Run.active_bind (fun _ _ => rfl) ..).trans ih
  | file id _ _ ih => exact congrArg List.tail ih

theorem log_suffix (walks : Walks old r r') : r.log <:+ r'.log := by
  obtain ⟨es, trace, _⟩ := walks.trace
  exact ⟨es.reverse, trace.log.symm⟩

theorem fault_eq (walks : Walks old r r') {f : Fault} (failed : r.fault = some f) : r'.fault = some f := by
  induction walks with
  | refl r => exact failed
  | trans _ _ first second => exact second (first failed)
  | quiet step =>
    cases step with
    | owe d r =>
      unfold Run.owe
      split <;> exact failed
    | carry ds r =>
      unfold Run.carry
      split <;> exact failed
    | fail g r => simp [Run.fail, failed]
    | _ => exact failed
  | bind x ts r => rw [r.fault_bind, failed]
  | read id r => exact failed
  | block _ ih | guarded _ _ ih | included _ ih | file _ _ _ ih => exact ih failed
  | selection isExhaustive _ ih =>
    rw [Run.closeSelection_keeps Run.fault Run.fault_bind fun _ _ => rfl]
    exact ih failed

theorem kept (walks : Walks old r r') : r.Kept r' :=
  ⟨walks.log_suffix, fun _ => walks.fault_eq⟩

end Walks

theorem Run.kept_closeSelection (isExhaustive : Bool) (before : Frame) (r : Run) :
    r.Kept (Place.closeSelection isExhaustive before r) := by
  unfold Place.closeSelection
  split
  · exact .refl r
  · rename_i s outer _
    have merged (bs : List (String × TypeSet)) (r : Run) : Walks ∅ r (bs.foldl (fun r (x, ts) => r.bind x ts) r) :=
      .foldl _ (fun r b => .bind b.1 b.2 r) bs r
    have kept := (merged (s.assigned.toList.map fun (x, ts) => (x, Place.mergedTypes isExhaustive before r x ts))
      { r with selections := outer }).kept
    exact ⟨kept.log, kept.fault⟩

namespace Place

variable {p : Place}

def within (p : Place) (v : Visit) : List Nat :=
  match v.task with
  | .file => p.file.id :: v.before.active
  | _ => v.before.active

structure IsPart (p : Place) (v w : Visit) : Prop where
  within : p.within w = p.within v
  kept : (p.after w).Kept (p.after v)

structure IsInclusion (p : Place) (v : Visit) (i : Inclusion) : Prop where
  walks : Walks p.cx.earlier v.before i.before
  active : i.before.active = p.within v
  kept : (p.includeFile i.site i.file i.before).Kept (p.after v)
  registered : i.file ∈ p.cx.tree.sources

variable (enters : p.EntersInSteps)
include enters

/-! Parts. -/

theorem inTurn_within (inLoop : Bool) (ns : List Node) (r : Run) :
    ∀ w ∈ p.inTurn inLoop ns r, p.within w = r.active ∧ (p.after w).Kept (p.visitAll inLoop ns r).2 := by
  induction ns generalizing r with
  | nil => simp [inTurn]
  | cons n ns ih =>
    have head := visit_walks p enters inLoop n r
    refine List.forall_mem_cons.mpr ⟨⟨rfl, (visitAll_walks p enters inLoop ns _).kept⟩, fun w member => ?_⟩
    obtain ⟨within, kept⟩ := ih _ w member
    exact ⟨within.trans head.active_eq, kept⟩

theorem nodeParts_isPart (inLoop : Bool) (n : Node) (r : Run) :
    ∀ w ∈ p.nodeParts inLoop n r, p.IsPart ⟨inLoop, .node n, r⟩ w := by
  have turns {n : Node} (ns : List Node) (rest : Walks p.cx.earlier (p.visitAll inLoop ns r).2 (p.visit inLoop n r).2) :
      ∀ w ∈ p.inTurn inLoop ns r, p.IsPart ⟨inLoop, .node n, r⟩ w := by
    intro w member
    obtain ⟨within, kept⟩ := inTurn_within enters inLoop ns r w member
    exact ⟨within, kept.trans rest.kept⟩
  cases n with
  | int | bool | str | ident | breakLoop | continueLoop | error => simp [nodeParts]
  | array s es =>
    refine turns es ?_
    rw [visit]
    exact .quiet (.annotate ..)
  | dict s es => exact List.forall_mem_singleton.mpr ⟨rfl, List.suffix_rfl, fun _ => id⟩
  | call s callee argSite as =>
    refine turns as ?_
    rw [visit]
    exact p.callFunction_walks _ enters ..
  | method s receiver callee argSite as =>
    refine turns (receiver :: as) ?_
    rw [visit_method, visitAll_cons]
    exact (p.callMethod_still ..).walks
  | keyword s key v =>
    refine turns [v] ?_
    rw [visit]
    exact .trans (.quiet (.annotate ..)) (Run.checkKeyword_still ..).walks
  | index s outer inner =>
    refine turns [outer, inner] ?_
    rw [visit_index]
    exact (readIndex_still ..).walks
  | unary s op x =>
    refine turns [x] ?_
    rw [visit]
    exact .quiet (.annotate ..)
  | binary s op a b =>
    refine turns [a, b] ?_
    rw [visit_binary]
    exact (p.applyOperator_still ..).walks
  | ternary s c y z =>
    refine turns [c, y, z] ?_
    rw [visit_ternary]
    exact .trans (.quiet (.annotate ..)) (Run.checkBool_still ..).walks
  | assign s op t v =>
    refine turns _ ?_
    rw [visit_assign]
    by_cases plain : op = .assign ∧ t.isIdent
    · simp only [if_pos plain]
      exact (p.assignTo_acts ..).walks
    · simp only [if_neg plain]
      exact (p.assignTo_acts ..).walks
  | select s bs =>
    refine List.forall_mem_singleton.mpr ⟨rfl, ?_⟩
    let inside := p.visitBranches inLoop bs (openSelection r)
    have carried : Walks p.cx.earlier inside.2 (inside.2.carry (firstDebts inside.1)) := .quiet (.carry ..)
    exact carried.kept.trans (Run.kept_closeSelection ..)
  | loop s ids subject body =>
    have looped := visit_walks p enters true subject r
    have bound := (p.bindLoop_acts (p.visit true subject r).2 ids subject (p.visit true subject r).1).walks
    have body := visitStatements_walks p enters true body body (p.bindLoop ids subject (p.visit true subject r).1
      (p.visit true subject r).2)
    refine List.forall_mem_cons.mpr ⟨⟨rfl, ?_⟩, List.forall_mem_singleton.mpr ⟨?_, ?_⟩⟩
    · exact (bound.trans body).kept
    · exact (looped.trans bound).active_eq
    · exact .refl _

theorem parts_isPart (v : Visit) : ∀ w ∈ p.parts v, p.IsPart v w := by
  obtain ⟨inLoop, task, r⟩ := v
  cases task with
  | node n => exact nodeParts_isPart enters inLoop n r
  | file =>
    dsimp only [parts]
    split
    · simp
    · rename_i b parsed
      have checked := (p.checkProject_still b (r.openFile p.file.id).openDebts).walks
      refine List.forall_mem_singleton.mpr ⟨?_, ?_⟩
      · dsimp only [within]
        split
        · exact checked.active_eq
        · rfl
      · let body := p.walkBody r.active.isEmpty (r.openFile p.file.id).openDebts
        have ended : Walks p.cx.earlier body.closeDebts.2.closeFile (p.walk r) :=
          .ite (Run.settle_walks ..) (.quiet (.carry ..))
        have walked : body = p.visitStatements false b.statements b.statements
            (if r.active.isEmpty then checkProject b (r.openFile p.file.id).openDebts
              else (r.openFile p.file.id).openDebts) := by
          dsimp only [body, walkBody]
          rw [parsed]
        dsimp only [after]
        rw [← walked]
        exact ⟨ended.kept.log, ended.kept.fault⟩
  | entries seen es =>
    cases es with
    | nil => simp [parts]
    | cons e es =>
      obtain ⟨s, k, v⟩ := e
      have keyed := visit_walks p enters inLoop k r
      have valued := visit_walks p enters inLoop v (p.visit inLoop k r).2
      let value := p.visit inLoop v (p.visit inLoop k r).2
      have noted : Walks p.cx.earlier value.2 (noteKey seen k (value.2.annotate s value.1)).2 :=
        .trans (.quiet (.annotate ..)) (p.noteKey_still ..).walks
      have rest := visitEntries_walks p enters inLoop (noteKey seen k (value.2.annotate s value.1)).1 es
        (noteKey seen k (value.2.annotate s value.1)).2
      refine List.forall_mem_append.mpr ⟨fun w member => ?_, List.forall_mem_singleton.mpr ⟨?_, .refl _⟩⟩
      · obtain ⟨within, kept⟩ := inTurn_within enters inLoop [k, v] r w member
        exact ⟨within, kept.trans (noted.trans rest).kept⟩
      · exact (keyed.trans (valued.trans noted)).active_eq
  | statements block ns =>
    cases ns with
    | nil => simp [parts]
    | cons n ns =>
      let done := (p.visit inLoop n r).2
      have visited : Walks p.cx.earlier r done := visit_walks p enters inLoop n r
      have checked : Walks p.cx.earlier done (done.reportIf (done.isIdle p.cx n) (.about n.site .noEffect)) :=
        .reportIf ..
      have rest := visitStatements_walks p enters inLoop block ns
        (done.reportIf (done.isIdle p.cx n) (.about n.site .noEffect))
      refine List.forall_mem_cons.mpr ⟨⟨rfl, (checked.trans rest).kept⟩, ?_⟩
      exact List.forall_mem_singleton.mpr ⟨(visited.trans checked).active_eq, .refl _⟩
  | branches bs =>
    cases bs with
    | nil => simp [parts]
    | cons b bs =>
      cases b with
      | guarded c body =>
        let cond := p.visit inLoop c r
        let asked := (askedName? c).toList
        let start := ((cond.2.ignore asked).checkBool c.site cond.1).openDebts
        have visited : Walks p.cx.earlier r cond.2 := visit_walks p enters inLoop c r
        have checked : Walks p.cx.earlier (cond.2.ignore asked)
            ((cond.2.ignore asked).checkBool c.site cond.1) := (Run.checkBool_still ..).walks
        have block : Walks p.cx.earlier start (p.visitStatements inLoop body body start) :=
          visitStatements_walks p enters inLoop body body start
        have rest := (visitBranches_walks p enters inLoop bs
          ((p.visitStatements inLoop body body start).closeDebts.2.unignore asked)).kept
        have closed : (p.visitStatements inLoop body body start).Kept _ := ⟨rest.log, rest.fault⟩
        have checked' : cond.2.Kept start := ⟨checked.kept.log, checked.kept.fault⟩
        have active := checked.active_eq.trans visited.active_eq
        refine List.forall_mem_cons.mpr ⟨⟨rfl, ?_⟩, List.forall_mem_cons.mpr ⟨⟨active, closed⟩,
          List.forall_mem_singleton.mpr ⟨block.active_eq.trans active, .refl _⟩⟩⟩
        exact checked'.trans (block.kept.trans closed)
      | otherwise body =>
        have block := visitStatements_walks p enters inLoop body body r.openDebts
        have rest := (visitBranches_walks p enters inLoop bs
          (p.visitStatements inLoop body body r.openDebts).closeDebts.2).kept
        exact List.forall_mem_cons.mpr ⟨⟨rfl, rest.log, rest.fault⟩,
          List.forall_mem_singleton.mpr ⟨block.active_eq, .refl _⟩⟩

/-! Inclusions. -/

omit enters in
theorem mem_sources_of_lookup {t : SourceTree} {path : String} {f : SourceFile} (found : t.lookup path = some f) :
    f ∈ t.sources := by
  obtain ⟨before, after, files, _⟩ := List.lookup_eq_some_iff.mp found
  refine List.mem_map.mpr ⟨(Path.clean path, f), ?_, rfl⟩
  rw [files]
  exact List.mem_append_right _ List.mem_cons_self

theorem resolvedBy_spec (site : Site) (dirs : List String) (r : Run) :
    ∀ i ∈ p.resolvedBy site dirs r, Walks p.cx.earlier r i.before ∧
      (p.includeFile i.site i.file i.before).Kept (dirs.foldl (p.includeDir site id) r) ∧
      i.file ∈ p.cx.tree.sources := by
  induction dirs generalizing r with
  | nil => simp [resolvedBy]
  | cons dir dirs ih =>
    have head : Walks p.cx.earlier r (p.includeDir site id r dir) :=
      p.includeDir_walks r enters _ _ _ fun r => .refl r
    have rest (r : Run) : Walks p.cx.earlier r (dirs.foldl (p.includeDir site id) r) :=
      .foldl _ (fun r dir => p.includeDir_walks r enters _ _ _ fun r => .refl r) dirs r
    refine List.forall_mem_append.mpr ⟨?_, fun i member => ?_⟩
    · intro i member
      rw [Option.mem_toList, Option.map_eq_some_iff] at member
      obtain ⟨f, found, rfl⟩ := member
      refine ⟨.refl r, ?_, mem_sources_of_lookup found⟩
      have step : p.includeDir site id r dir = p.includeFile site f r := by rw [includeDir, found]
      rw [← step]
      exact (rest _).kept
    · obtain ⟨walks, kept, registered⟩ := ih _ i member
      exact ⟨head.trans walks, kept, registered⟩

theorem resolved_spec (site : Site) (args : List Argument) (r : Run) :
    ∀ i ∈ p.resolved site args r, Walks p.cx.earlier r i.before ∧
      (p.includeFile i.site i.file i.before).Kept (p.subdir site args r) ∧ i.file ∈ p.cx.tree.sources := by
  intro i member
  have noted : Walks p.cx.earlier r (r.emit (.included site.range)) := .quiet (.emit _ rfl r)
  cases args with
  | nil => simp [resolved] at member
  | cons a rest =>
    dsimp only [resolved, subdir] at member ⊢
    cases literal : a.node.text? with
    | some dir =>
      simp only [literal, resolvedBy, List.append_nil, Option.mem_toList, Option.map_eq_some_iff] at member
      obtain ⟨f, found, rfl⟩ := member
      refine ⟨noted, ?_, mem_sources_of_lookup found⟩
      simp only [includeDir, found]
      exact .refl _
    | none =>
      rw [literal] at member
      obtain ⟨walks, kept, registered⟩ := resolvedBy_spec enters site _ _ i member
      exact ⟨noted.trans ((p.guess_still _ a.node).walks.trans walks), kept, registered⟩

theorem inclusions_isInclusion (v : Visit) : ∀ i ∈ p.inclusions v, p.IsInclusion v i := by
  obtain ⟨inLoop, task, r⟩ := v
  intro i member
  cases task with
  | node n =>
    cases n with
    | call s callee argSite as =>
      dsimp only [inclusions] at member
      cases found : p.cx.catalogue.function? callee.name with
      | none => simp [found] at member
      | some f =>
        by_cases called : f.name = "subdir"
        · simp only [found, called, if_true] at member
          obtain ⟨resolved, kept, registered⟩ := resolved_spec enters s _ _ i member
          have walks := (visitAll_walks p enters inLoop as r).trans resolved
          have checked (args : List Argument) (r : Run) :
              Walks p.cx.earlier (p.subdir s args r) (p.callFunction s callee args r).2 := by
            simp only [callFunction, found, applyFunction, called]
            exact .trans (.quiet (.annotate ..)) (p.checkCall_still ..).walks
          refine ⟨walks, walks.active_eq, ?_, registered⟩
          exact kept.trans (checked ..).kept
        · simp [found, called] at member
    | _ => simp [inclusions] at member
  | _ => simp [inclusions] at member

end Place

namespace Setting

/-! Visits and the files around them. -/

/-- The visits of an analysis, each in a file, with the fuel that is left for what the file includes and with the files
through which it has been included, innermost first. -/
inductive Nests (cx : Setting) : Nat → SourceFile → List SourceFile → Visit → Prop where
  | root {f : SourceFile} : cx.tree.root = some f → Nests cx cx.tree.files.length f [] ⟨false, .file, cx.start⟩
  | part {fuel : Nat} {f : SourceFile} {outer : List SourceFile} {v w : Visit} :
      Nests cx fuel f outer v → w ∈ (cx.place fuel f).parts v → Nests cx fuel f outer w
  | included {fuel : Nat} {f g : SourceFile} {outer : List SourceFile} {v : Visit} {r : Run} :
      Nests cx (fuel + 1) f outer v → (g, r) ∈ (cx.place (fuel + 1) f).entered v →
      Nests cx fuel g (f :: outer) ⟨false, .file, { r with scope := r.scope.push }⟩

theorem exists_nests_iff {cx : Setting} {fuel : Nat} {f : SourceFile} {v : Visit} :
    (∃ outer, cx.Nests fuel f outer v) ↔ cx.Makes fuel f v := by
  constructor
  · rintro ⟨outer, nests⟩
    induction nests with
    | root found => exact .root found
    | part _ member ih => exact .part ih member
    | included _ member ih => exact .included ih member
  · intro makes
    induction makes with
    | root found => exact ⟨[], .root found⟩
    | part _ member ih =>
      obtain ⟨outer, nests⟩ := ih
      exact ⟨outer, .part nests member⟩
    | included _ member ih =>
      obtain ⟨outer, nests⟩ := ih
      exact ⟨_, .included nests member⟩

end Setting

structure SourceTree.IsStack (t : SourceTree) (fs : List SourceFile) : Prop where
  distinct : (fs.map (·.id)).Nodup
  known : ∀ f ∈ fs, f ∈ t.all

theorem SourceTree.IsStack.tail {t : SourceTree} {f : SourceFile} {fs : List SourceFile} (stack : t.IsStack (f :: fs)) :
    t.IsStack fs :=
  ⟨(List.nodup_cons.mp stack.distinct).2, fun g member => stack.known g (List.mem_cons_of_mem f member)⟩

theorem SourceTree.IsStack.length_le {t : SourceTree} {fs : List SourceFile} (stack : t.IsStack fs) :
    fs.length ≤ t.files.length + 1 := by
  have distinct := stack.distinct.of_map
  exact Nat.le_trans (distinct.length_le_of_subset stack.known) t.length_all

namespace Setting.Nests

variable {cx : Setting} {fuel : Nat} {f : SourceFile} {outer : List SourceFile} {v : Visit}

theorem within_eq (nests : cx.Nests fuel f outer v) : (cx.place fuel f).within v = (f :: outer).map (·.id) := by
  induction nests with
  | root => rfl
  | part nests member ih => exact (Place.parts_isPart (cx.place_enters _ _) _ _ member).within.trans ih
  | included nests member ih =>
    obtain ⟨i, resolved, _, rfl, rfl⟩ := (Place.mem_entered_iff _).mp member
    have active := (Place.inclusions_isInclusion (cx.place_enters _ _) _ i resolved).active
    exact congrArg (i.file.id :: ·) (active.trans ih)

theorem fuel_eq (nests : cx.Nests fuel f outer v) : fuel + outer.length = cx.tree.files.length := by
  induction nests with
  | root => rfl
  | part _ _ ih => exact ih
  | included _ _ ih =>
    rw [List.length_cons]
    omega

theorem isStack_entered (nests : cx.Nests fuel f outer v) (stack : cx.tree.IsStack (f :: outer)) {g : SourceFile}
    {r : Run} (member : (g, r) ∈ (cx.place fuel f).entered v) : cx.tree.IsStack (g :: f :: outer) := by
  obtain ⟨i, resolved, fresh, rfl, rfl⟩ := (Place.mem_entered_iff _).mp member
  obtain ⟨_, active, _, registered⟩ := Place.inclusions_isInclusion (cx.place_enters _ _) _ i resolved
  rw [active, nests.within_eq] at fresh
  refine ⟨List.nodup_cons.mpr ⟨by simpa using fresh, stack.distinct⟩, ?_⟩
  exact List.forall_mem_cons.mpr ⟨List.mem_append_right _ registered, stack.known⟩

theorem isStack (nests : cx.Nests fuel f outer v) : cx.tree.IsStack (f :: outer) := by
  induction nests with
  | root found => exact ⟨List.nodup_singleton _, by simp [SourceTree.all, found]⟩
  | part _ _ ih => exact ih
  | included nests member ih => exact nests.isStack_entered ih member

theorem fuel_pos (nests : cx.Nests fuel f outer v) {g : SourceFile} {r : Run}
    (member : (g, r) ∈ (cx.place fuel f).entered v) : 0 < fuel := by
  -- without fuel the files around would be all that there are, and one more is entered
  have depth := (nests.isStack_entered nests.isStack member).length_le
  have fuel := nests.fuel_eq
  simp only [List.length_cons] at depth
  omega

end Setting.Nests

end MesonCheck
