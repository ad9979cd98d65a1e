import MesonCheck.Proofs.Walk.Branches

/-! A second analysis of a tree. It differs from the first one in nothing but the types that nodes have from the start,
and only calls that are not resolved ever look at those. -/
namespace MesonCheck

/-- Whether everything from before that a walk has looked at is the same in certain leftovers. -/
def Agrees (new : Leftovers) (r : Run) : Prop :=
  ∀ e ∈ r.log, e.Fits new

theorem Agrees.of_walks {new old : Leftovers} {r r' : Run} (agrees : Agrees new r') (walks : Walks old r r') :
    Agrees new r := by
  obtain ⟨es, trace, _⟩ := walks.trace
  intro e member
  exact agrees e (trace.log ▸ List.mem_append_right _ member)

theorem Walks.agrees {old : Leftovers} {r r' : Run} (walks : Walks old r r') (agrees : Agrees old r) :
    Agrees old r' := by
  obtain ⟨es, trace, _, fits⟩ := walks.trace
  intro e member
  rw [trace.log, List.mem_append, List.mem_reverse] at member
  exact member.elim (fits e) (agrees e)

theorem foldl_rerun {α : Type} {new old : Leftovers} {f g : Run → α → Run} (steps : ∀ r a, Walks old r (f r a))
    (same : ∀ r a, Agrees new (f r a) → g r a = f r a) (as : List α) (r : Run) (agrees : Agrees new (as.foldl f r)) :
    as.foldl g r = as.foldl f r := by
  induction as generalizing r with
  | nil => rfl
  | cons a as ih =>
    rw [List.foldl_cons, List.foldl_cons, same r a (agrees.of_walks (.foldl f steps as _))]
    exact ih _ agrees

namespace Place

def rerun (p : Place) (new : Leftovers) (enter : SourceFile → Run → Run) : Place :=
  ⟨{ p.cx with earlier := new }, p.file, enter⟩

/-- What a part of the walk has looked at when it ends, as far as it had before it began. -/
theorem before (p : Place) {new : Leftovers} {r r' : Run} (agrees : Agrees new r') (walks : Walks p.cx.earlier r r') :
    Agrees new r :=
  agrees.of_walks walks

theorem before_closeSelection (p : Place) {new : Leftovers} {isExhaustive : Bool} {frame : Frame} {r : Run}
    (agrees : Agrees new (closeSelection isExhaustive frame r)) : Agrees new r := by
  unfold closeSelection at agrees
  split at agrees
  · exact agrees
  · have popped := p.before agrees (.foldl _ (fun r (b : String × TypeSet) => .bind b.1 b.2 r) _ _)
    exact popped

def EntersAlike (p : Place) (new : Leftovers) (enter : SourceFile → Run → Run) : Prop :=
  ∀ f r, r.active.contains f.id = false → Agrees new (p.enter f r) → enter f r = p.enter f r

variable {p : Place} {new : Leftovers} {enter : SourceFile → Run → Run}

/-! Calls. -/

theorem keep_rerun {s : Site} {r : Run} (agrees : Agrees new (p.keep s r).2) :
    (p.rerun new enter).keep s r = p.keep s r := by
  unfold keep at agrees ⊢
  split
  · rfl
  · rename_i unseen
    rw [unseen] at agrees
    have same : new.getD s.slot [] = p.cx.earlier.getD s.slot [] := agrees _ List.mem_cons_self
    simp only [rerun, same]

theorem includeFile_rerun (alike : p.EntersAlike new enter) {site : Site} {f : SourceFile} {r : Run}
    (agrees : Agrees new (p.includeFile site f r)) :
    (p.rerun new enter).includeFile site f r = p.includeFile site f r := by
  unfold includeFile at agrees ⊢
  split
  · rfl
  · rename_i fresh
    rw [if_neg fresh] at agrees
    exact alike f r (by simpa using fresh) agrees

theorem includeDir_rerun (alike : p.EntersAlike new enter) {site : Site} {missing : Run → Run} {r : Run} {dir : String}
    (agrees : Agrees new (p.includeDir site missing r dir)) :
    (p.rerun new enter).includeDir site missing r dir = p.includeDir site missing r dir := by
  have found : (p.rerun new enter).cx.tree.lookup (subdirPath (p.rerun new enter).file.path dir) =
    p.cx.tree.lookup (subdirPath p.file.path dir) := rfl
  unfold includeDir at agrees ⊢
  rw [found]
  split
  · rename_i known
    rw [known] at agrees
    exact includeFile_rerun alike agrees
  · rfl

theorem subdir_rerun (enters : p.EntersInSteps) (alike : p.EntersAlike new enter) {site : Site} {args : List Argument}
    {r : Run} (agrees : Agrees new (p.subdir site args r)) :
    (p.rerun new enter).subdir site args r = p.subdir site args r := by
  cases args with
  | nil => rfl
  | cons a args =>
    unfold subdir at agrees ⊢
    dsimp only at agrees ⊢
    cases literal : a.node.text? with
    | some dir =>
      rw [literal] at agrees
      exact includeDir_rerun alike agrees
    | none =>
      rw [literal] at agrees
      have steps : ∀ r dir, Walks p.cx.earlier r (p.includeDir site id r dir) :=
        fun r dir => p.includeDir_walks r enters _ _ _ fun r => .refl r
      exact foldl_rerun steps (fun r dir => includeDir_rerun alike) _ _ agrees

theorem applyFunction_rerun (enters : p.EntersInSteps) (alike : p.EntersAlike new enter) {site : Site} {f : Callable}
    {args : List Argument} {r : Run} (agrees : Agrees new (p.applyFunction site f args r).2) :
    (p.rerun new enter).applyFunction site f args r = p.applyFunction site f args r := by
  unfold applyFunction at agrees ⊢
  split
  case h_5 called =>
    rw [called] at agrees
    rw [subdir_rerun enters alike agrees]
  all_goals rfl

theorem callFunction_rerun (enters : p.EntersInSteps) (alike : p.EntersAlike new enter) {site : Site} {callee : Ident}
    {args : List Argument} {r : Run} (agrees : Agrees new (p.callFunction site callee args r).2) :
    (p.rerun new enter).callFunction site callee args r = p.callFunction site callee args r := by
  have known : (p.rerun new enter).cx.catalogue.function? callee.name = p.cx.catalogue.function? callee.name := rfl
  unfold callFunction at agrees ⊢
  rw [known]
  split
  · rename_i unknown
    rw [unknown] at agrees
    rw [keep_rerun (p.before agrees (.report ..))]
  · rename_i f found
    rw [found] at agrees
    have checked := p.before agrees (.trans (.quiet (.annotate ..)) (p.checkCall_still ..).walks)
    rw [applyFunction_rerun enters alike checked]
    rfl

theorem callMethod_rerun {site : Site} {receiver : Node} {types : TypeSet} {callee : Ident} {args : List Argument}
    {r : Run} (agrees : Agrees new (p.callMethod site receiver types callee args r).2) :
    (p.rerun new enter).callMethod site receiver types callee args r =
      p.callMethod site receiver types callee args r := by
  have resolved : (p.rerun new enter).resolveMethod site callee.name types args r =
    p.resolveMethod site callee.name types args r := rfl
  unfold callMethod at agrees ⊢
  rw [resolved]
  generalize p.resolveMethod site callee.name types args r = found at agrees ⊢
  have guessed : (p.rerun new enter).guessMethod callee.name types found.1 =
    p.guessMethod callee.name types found.1 := rfl
  dsimp only at agrees ⊢
  rw [guessed]
  split
  · rename_i unresolved
    rw [unresolved] at agrees
    rw [keep_rerun (p.before agrees (p.missMethod_still ..).walks)]
  · rfl

/-! The walk. In every case the last part to run has looked at everything; what the parts before it looked at follows
backwards, one part after the other. -/

mutual
theorem visit_rerun (enters : p.EntersInSteps) (alike : p.EntersAlike new enter) (inLoop : Bool) :
    ∀ (n : Node) (r : Run), Agrees new (p.visit inLoop n r).2 →
      (p.rerun new enter).visit inLoop n r = p.visit inLoop n r
  | .int .., _, _ | .bool .., _, _ | .str .., _, _ | .ident _, _, _ | .breakLoop _, _, _ | .continueLoop _, _, _
  | .error .., _, _ => rfl
  | .array s es, r, agrees => by
    rw [visit] at agrees
    rw [visit, visit, visitAll_rerun enters alike inLoop es r (p.before agrees (.quiet (.annotate ..)))]
  | .dict s es, r, agrees => by
    rw [visit] at agrees
    rw [visit, visit, visitEntries_rerun enters alike inLoop [] es r (p.before agrees (.quiet (.annotate ..)))]
  | .call s callee _ as, r, agrees => by
    rw [visit] at agrees
    have args := p.before agrees (p.callFunction_walks _ enters ..)
    rw [visit, visit, visitAll_rerun enters alike inLoop as r args]
    exact callFunction_rerun enters alike agrees
  | .method s receiver callee _ as, r, agrees => by
    rw [visit_method] at agrees
    have args := p.before agrees (p.callMethod_still ..).walks
    have recv := p.before args (visitAll_walks p enters inLoop as _)
    simp only [visit_method]
    rw [visit_rerun enters alike inLoop receiver r recv, visitAll_rerun enters alike inLoop as _ args]
    exact callMethod_rerun agrees
  | .keyword s key v, r, agrees => by
    rw [visit] at agrees
    have value := p.before agrees (.trans (.quiet (.annotate ..)) (Run.checkKeyword_still ..).walks)
    rw [visit, visit, visit_rerun enters alike inLoop v r value]
    rfl
  | .index s outer inner, r, agrees => by
    rw [visit_index] at agrees
    have second := p.before agrees (readIndex_still ..).walks
    have first := p.before second (visit_walks p enters inLoop inner _)
    simp only [visit_index]
    rw [visit_rerun enters alike inLoop outer r first, visit_rerun enters alike inLoop inner _ second]
  | .unary s op x, r, agrees => by
    rw [visit] at agrees
    rw [visit, visit, visit_rerun enters alike inLoop x r (p.before agrees (.quiet (.annotate ..)))]
  | .binary s op a b, r, agrees => by
    rw [visit_binary] at agrees
    have right := p.before agrees (p.applyOperator_still ..).walks
    have left := p.before right (visit_walks p enters inLoop b _)
    simp only [visit_binary]
    rw [visit_rerun enters alike inLoop a r left, visit_rerun enters alike inLoop b _ right]
    rfl
  | .ternary s c y z, r, agrees => by
    rw [visit_ternary] at agrees
    have no := p.before agrees (.trans (.quiet (.annotate ..)) (Run.checkBool_still ..).walks)
    have yes := p.before no (visit_walks p enters inLoop z _)
    have cond := p.before yes (visit_walks p enters inLoop y _)
    simp only [visit_ternary]
    rw [visit_rerun enters alike inLoop c r cond, visit_rerun enters alike inLoop y _ yes,
      visit_rerun enters alike inLoop z _ no]
  | .assign s op t v, r, agrees => by
    rw [visit_assign] at agrees
    have value := p.before agrees (p.assignTo_acts ..).walks
    have target := p.before value (visit_walks p enters inLoop v _)
    have same : (if op = .assign ∧ t.isIdent then (([] : TypeSet), r) else (p.rerun new enter).visit inLoop t r) =
        if op = .assign ∧ t.isIdent then ([], r) else p.visit inLoop t r := by
      by_cases plain : op = .assign ∧ t.isIdent
      · rw [if_pos plain, if_pos plain]
      · rw [if_neg plain] at target
        rw [if_neg plain, if_neg plain]
        exact visit_rerun enters alike inLoop t r target
    simp only [visit_assign]
    rw [same, visit_rerun enters alike inLoop v _ value]
    rfl
  | .select s bs, r, agrees => by
    rw [visit] at agrees
    have branches := p.before (p.before_closeSelection agrees) (.quiet (.carry ..))
    rw [visit, visit, visitBranches_rerun enters alike inLoop bs _ branches]
  | .loop s ids subject body, r, agrees => by
    rw [visit_loop] at agrees
    have looped := p.before agrees (.trans (p.bindLoop_acts ..).walks (visitStatements_walks p enters true body body _))
    simp only [visit_loop]
    rw [visit_rerun enters alike true subject r looped]
    congr 1
    exact visitStatements_rerun enters alike true body body _ agrees

theorem visitAll_rerun (enters : p.EntersInSteps) (alike : p.EntersAlike new enter) (inLoop : Bool) :
    ∀ (ns : List Node) (r : Run), Agrees new (p.visitAll inLoop ns r).2 →
      (p.rerun new enter).visitAll inLoop ns r = p.visitAll inLoop ns r
  | [], _, _ => rfl
  | n :: ns, r, agrees => by
    have first := p.before agrees (visitAll_walks p enters inLoop ns _)
    simp only [visitAll_cons]
    rw [visit_rerun enters alike inLoop n r first, visitAll_rerun enters alike inLoop ns _ agrees]

theorem visitEntries_rerun (enters : p.EntersInSteps) (alike : p.EntersAlike new enter) (inLoop : Bool) :
    ∀ (seen : List String) (es : List Entry) (r : Run), Agrees new (p.visitEntries inLoop seen es r).2 →
      (p.rerun new enter).visitEntries inLoop seen es r = p.visitEntries inLoop seen es r
  | _, [], _, _ => rfl
  | seen, .mk s k v :: es, r, agrees => by
    simp only [visitEntries_cons] at agrees ⊢
    have noted := p.before agrees (visitEntries_walks p enters inLoop _ es _)
    have value := p.before noted (.trans (.quiet (.annotate ..)) (p.noteKey_still ..).walks)
    have key := p.before value (visit_walks p enters inLoop v _)
    rw [visit_rerun enters alike inLoop k r key, visit_rerun enters alike inLoop v _ value,
      visitEntries_rerun enters alike inLoop _ es _ agrees]

theorem visitStatements_rerun (enters : p.EntersInSteps) (alike : p.EntersAlike new enter) (inLoop : Bool)
    (block : List Node) : ∀ (ns : List Node) (r : Run), Agrees new (p.visitStatements inLoop block ns r) →
      (p.rerun new enter).visitStatements inLoop block ns r = p.visitStatements inLoop block ns r
  | [], _, _ => rfl
  | n :: ns, r, agrees => by
    rw [visitStatements] at agrees
    have first := p.before agrees (.trans (.reportIf ..) (visitStatements_walks p enters inLoop block ns _))
    rw [visitStatements, visitStatements, visit_rerun enters alike inLoop n r first]
    exact visitStatements_rerun enters alike inLoop block ns _ agrees

theorem visitBranches_rerun (enters : p.EntersInSteps) (alike : p.EntersAlike new enter) (inLoop : Bool) :
    ∀ (bs : List Branch) (r : Run), Agrees new (p.visitBranches inLoop bs r).2 →
      (p.rerun new enter).visitBranches inLoop bs r = p.visitBranches inLoop bs r
  | [], _, _ => rfl
  | .guarded c body :: bs, r, agrees => by
    simp only [visitBranches_guarded] at agrees ⊢
    have closed := p.before agrees (visitBranches_walks p enters inLoop bs _)
    have ended : Agrees new (p.visitStatements inLoop body body _) := closed
    have started := p.before ended (visitStatements_walks p enters inLoop body body _)
    have checked : Agrees new (Run.checkBool c.site _ _) := started
    have asked := p.before checked (Run.checkBool_still ..).walks
    rw [visit_rerun enters alike inLoop c r asked, visitStatements_rerun enters alike inLoop body body _ ended,
      visitBranches_rerun enters alike inLoop bs _ agrees]
  | .otherwise body :: bs, r, agrees => by
    simp only [visitBranches_otherwise] at agrees ⊢
    have closed := p.before agrees (visitBranches_walks p enters inLoop bs _)
    rw [visitStatements_rerun enters alike inLoop body body _ closed,
      visitBranches_rerun enters alike inLoop bs _ agrees]
end

theorem walkBody_rerun (enters : p.EntersInSteps) (alike : p.EntersAlike new enter) (isRoot : Bool) (r : Run)
    (agrees : Agrees new (p.walkBody isRoot r)) : (p.rerun new enter).walkBody isRoot r = p.walkBody isRoot r := by
  have file : (p.rerun new enter).file = p.file := rfl
  unfold walkBody at agrees ⊢
  rw [file]
  split
  · rename_i b known
    rw [known] at agrees
    exact visitStatements_rerun enters alike false b.statements b.statements _ agrees
  · rfl

theorem walk_rerun (enters : p.EntersInSteps) (alike : p.EntersAlike new enter) (r : Run)
    (agrees : Agrees new (p.walk r)) : (p.rerun new enter).walk r = p.walk r := by
  have file : (p.rerun new enter).file = p.file := rfl
  have closed : Agrees new (Run.closeFile _) := p.before agrees (.ite (Run.settle_walks ..) (.quiet (.carry ..)))
  dsimp only [walk]
  rw [file, walkBody_rerun enters alike _ _ closed]
  rfl

end Place

namespace Setting

def withEarlier (cx : Setting) (new : Leftovers) : Setting :=
  { cx with earlier := new }

theorem walk_rerun (cx : Setting) (new : Leftovers) (fuel : Nat) (f : SourceFile) (r : Run)
    (agrees : Agrees new (cx.walk fuel f r)) : (cx.withEarlier new).walk fuel f r = cx.walk fuel f r := by
  induction fuel generalizing f r with
  | zero => rfl
  | succ fuel ih =>
    rw [walk_succ] at agrees ⊢
    refine Place.walk_rerun (cx.place_enters fuel f) ?_ r agrees
    intro g r fresh agrees
    have same := ih g { r with scope := r.scope.push } agrees
    exact congrArg (fun r' : Run => { r' with scope := r'.scope.flush }) same

theorem finish_rerun (cx : Setting) (new : Leftovers) (agrees : Agrees new cx.finish) :
    (cx.withEarlier new).finish = cx.finish := by
  have root : (cx.withEarlier new).tree = cx.tree := rfl
  unfold finish at agrees ⊢
  rw [root]
  split
  · rename_i f known
    rw [known] at agrees
    exact cx.walk_rerun new _ f _ agrees
  · rfl

theorem finish_agrees (cx : Setting) : Agrees cx.earlier cx.finish :=
  cx.finish_walks.agrees (by simp [Agrees, start])

theorem analyze_eq_ok_iff (cx : Setting) (o : Outcome) :
    cx.analyze = .ok o ↔ cx.finish.fault = none ∧ o = cx.finish.outcome cx := by
  unfold analyze
  cases cx.finish.fault with
  | none => simp [eq_comm]
  | some f => simp

theorem outcome_again (cx : Setting) (r : Run) : r.outcome (cx.withEarlier (r.outcome cx).slots) = r.outcome cx := by
  have slots : (cx.earlier ∪ r.slots) ∪ r.slots = cx.earlier ∪ r.slots := by
    apply Std.ExtTreeMap.ext_getElem?
    intro k
    simp only [Std.ExtTreeMap.getElem?_union]
    cases r.slots[k]? <;> simp
  simp only [Run.outcome, withEarlier, slots]

/-- A second analysis has the same outcome exactly if every call that kept types from before the first one has these
types in the end. -/
theorem analyze_again_iff (cx : Setting) (o : Outcome) (first : cx.analyze = .ok o) :
    (cx.withEarlier o.slots).analyze = .ok o ↔ ∀ s ts, Event.stale s ts ∈ o.events → o.typesAt s = ts := by
  obtain ⟨sound, rfl⟩ := (cx.analyze_eq_ok_iff o).mp first
  constructor
  · intro again s ts kept
    obtain ⟨_, same⟩ := (analyze_eq_ok_iff _ _).mp again
    have log : Event.stale s ts ∈ (cx.withEarlier (cx.finish.outcome cx).slots).finish.log := by
      have events := congrArg Outcome.events same
      rw [events] at kept
      exact List.mem_reverse.mp kept
    exact finish_agrees _ _ log
  · intro kept
    have agrees : Agrees (cx.finish.outcome cx).slots cx.finish := by
      intro e member
      cases e with
      | stale s ts => exact kept s ts (List.mem_reverse.mpr member)
      | _ => trivial
    have same := cx.finish_rerun _ agrees
    rw [analyze_eq_ok_iff, same]
    exact ⟨sound, (outcome_again cx cx.finish).symm⟩

/-- A tree whose root includes a directory that tests `x.strip()`. Only texts have that method. -/
def sampleStrip (root : List Node) : Setting where
  catalogue := ⟨[], [], [⟨"subdir", none, [⟨[.str], false, false⟩], [], []⟩],
    [("str", [⟨"strip", some "str", [], [], [.str]⟩])], [], [], fun _ => []⟩
  tree := .ofFiles [⟨0, .at .zero, "meson.build", some ⟨.at .zero, root⟩⟩,
    ⟨0, .at .zero, "sub/meson.build", some ⟨.at .zero, [.select (.at .zero)
      [.guarded (.method (.at .zero) Place.sampleRead ⟨.at .zero, "strip"⟩ (.at .zero) []) []]]⟩⟩]

def sampleSubdir : Node :=
  .call (.at .zero) ⟨.at .zero, "subdir"⟩ (.at .zero) [.str (.at .zero) "sub" false]

def sampleOnce : Setting :=
  sampleStrip [Place.sampleAssign (.int (.at .zero) 1), sampleSubdir]

/-- `x = 1; subdir('sub'); x = 'a'; subdir('sub')`: the method is found the second time. -/
def sampleTwice : Setting :=
  sampleStrip [Place.sampleAssign (.int (.at .zero) 1), sampleSubdir,
    Place.sampleAssign (.str (.at .zero) "a" false), sampleSubdir]

def kept? : Event → Option (Site × TypeSet)
  | .stale s ts => some (s, ts)
  | _ => none

theorem analyze_again_once :
    ∃ o, sampleOnce.analyze = .ok o ∧ (∃ s, (s, []) ∈ o.events.filterMap kept?) ∧
      (sampleOnce.withEarlier o.slots).analyze = .ok o := by
  have first : sampleOnce.analyze = .ok (sampleOnce.finish.outcome sampleOnce) := rfl
  have kept : ∃ s, (sampleOnce.finish.outcome sampleOnce).events.filterMap kept? = [(s, [])] ∧
      (sampleOnce.finish.outcome sampleOnce).typesAt s = [] := ⟨_, rfl, rfl⟩
  obtain ⟨s, only, empty⟩ := kept
  refine ⟨_, first, ⟨s, only ▸ List.mem_cons_self⟩, (analyze_again_iff sampleOnce _ first).mpr fun t ts member => ?_⟩
  have among : (t, ts) ∈ (sampleOnce.finish.outcome sampleOnce).events.filterMap kept? :=
    List.mem_filterMap.mpr ⟨_, member, rfl⟩
  rw [only, List.mem_singleton] at among
  cases among
  exact empty

/-- The second analysis complains about the condition twice, the first one only once. -/
theorem analyze_again_twice :
    ∃ o o', sampleTwice.analyze = .ok o ∧ (sampleTwice.withEarlier o.slots).analyze = .ok o' ∧
      o'.diagnostics.length = o.diagnostics.length + 1 := by
  refine ⟨sampleTwice.finish.outcome sampleTwice, _, rfl, rfl, ?_⟩
  decide +kernel

end Setting

end MesonCheck
