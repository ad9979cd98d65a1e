import MesonCheck.Proofs.IncludeStack

/-! The course of a walk: what rules do to variables one after the other, inside the branches and files they stand in.
It keeps what `Walks` forgets, namely which visit does something and which unused assignments each branch leaves. -/
namespace MesonCheck

/-- How a walk gets from one state to another, and the unused assignments of the branches that it has closed on its
way. `done` says what rules do, `beside` holds of a moment in a branch and a moment in what comes behind it in the same
selection. -/
inductive Course (old : Leftovers) (done : Deed → Prop) (beside : Nat → Nat → Prop) : Run → List Debt → Run → Prop where
  | still {r r' : Run} : Still old r r' → Course old done beside r [] r'
  | read (id : Ident) (r : Run) : Course old done beside r [] (r.emit (.read id (r.reading id.name)))
  | deed {d : Deed} : done d → Course old done beside d.before [] d.after
  | trans {a b c : Run} {ds : List Debt} :
      Course old done beside a [] b → Course old done beside b ds c → Course old done beside a ds c
  | branch {r start b c : Run} {ds : List Debt} (names : List String) : Still old (r.ignore names) start →
      Course old done beside start.openDebts [] b → Course old done beside (b.closeDebts.2.unignore names) ds c →
      (∀ m n, start.log.length ≤ m → m < b.log.length → b.log.length ≤ n → n < c.log.length → beside m n) →
      Course old done beside r (b.closeDebts.1 ++ ds) c
  | selection {r r' : Run} {ds : List Debt} (isExhaustive : Bool) :
      Course old done beside (Place.openSelection r) ds r' →
      Course old done beside r []
        (Place.closeSelection isExhaustive r.scope.flatten (r'.carry (Place.firstDebts ds)))
  | file {r r' r'' : Run} (id : Nat) (fresh : r.active.contains id = false) :
      Course old done beside (Run.openFile id { r with scope := r.scope.push }).openDebts [] r' →
      r'' = r'.closeDebts.2.closeFile.carry r'.closeDebts.1 →
      Course old done beside r [] { r'' with scope := r''.scope.flush }

section

variable {old : Leftovers} {done : Deed → Prop} {beside : Nat → Nat → Prop} {r r' : Run}

theorem Course.walks {ds : List Debt} (course : Course old done beside r ds r') : Walks old r r' := by
  induction course with
  | still still => exact still.walks
  | read id r => exact .read id r
  | deed _ => exact (Acts.deed _).walks
  | trans _ _ first second => exact first.trans second
  | branch names start _ _ _ body rest => exact .trans (.guarded names (start.walks.trans (.block body))) rest
  | selection isExhaustive _ inside => exact .selection isExhaustive (inside.trans (.quiet (.carry ..)))
  | file id fresh _ same inside =>
    subst same
    exact .included (.trans (.file id fresh (.block inside)) (.quiet (.carry ..)))

theorem Acts.course {ds : List Deed} (acts : Acts old r ds r') (all : ∀ d ∈ ds, done d) :
    Course old done beside r [] r' := by
  induction acts with
  | still still => exact .still still
  | read id r => exact .read id r
  | deed d => exact .deed (all d List.mem_cons_self)
  | trans _ _ first second =>
    obtain ⟨earlier, later⟩ := List.forall_mem_append.mp all
    exact .trans (first earlier) (second later)

end

namespace Place

def deeds (p : Place) (v : Visit) : List Deed :=
  let r := v.before
  match v.task with
  | .node (.ident id) => readDeeds id r
  | .node (.str s t true) => placeholderDeeds s t (r.annotate s [.str])
  | .node (.call _ callee _ as) =>
    let args := p.visitAll v.inLoop as r
    match p.cx.catalogue.function? callee.name with
    | some f => p.functionDeeds f (as.zipWith Argument.mk args.1) args.2
    | none => []
  | .node (.assign s op t x) =>
    let before := if op = .assign ∧ t.isIdent then (([] : TypeSet), r) else p.visit v.inLoop t r
    let value := p.visit v.inLoop x before.2
    p.assignDeeds s op t x before.1 value.1 value.2
  | .node (.loop _ ids subject _) =>
    let looped := p.visit true subject r
    p.loopDeeds ids subject looped.1 looped.2
  | _ => []

def Spans (p : Place) (v : Visit) (n : Nat) : Prop :=
  v.before.log.length ≤ n ∧ n < (p.after v).log.length

def Enters (p : Place) (done : Deed → Prop) (beside : Nat → Nat → Prop) (i : Inclusion) : Prop :=
  i.before.active.contains i.file.id = false →
    Course p.cx.earlier done beside i.before [] (p.enter i.file i.before)

structure Conducts (p : Place) (V : Visit → Prop) (done : Deed → Prop) (beside : Nat → Nat → Prop) : Prop where
  parts : ∀ {v w : Visit}, V v → w ∈ p.parts v → V w
  deeds : ∀ {v : Visit}, V v → ∀ d ∈ p.deeds v, done d
  branches : ∀ {inLoop : Bool} {b : Branch} {bs : List Branch} {r : Run}, V ⟨inLoop, .branches (b :: bs), r⟩ →
    ∀ body ∈ p.parts ⟨inLoop, .branches (b :: bs), r⟩, ∀ rest ∈ p.parts ⟨inLoop, .branches (b :: bs), r⟩,
      body.task = .statements b.body b.body → rest.task = .branches bs →
      ∀ m n, p.Spans body m → p.Spans rest n → beside m n
  includes : ∀ {v : Visit}, V v → ∀ i ∈ p.inclusions v, p.Enters done beside i

section

variable {p : Place} {done : Deed → Prop} {beside : Nat → Nat → Prop} {r : Run}

/-! Calls. -/

theorem includeDir_course {site : Site} {dir : String} {missing : Run → Run}
    (enters : ∀ f, p.cx.tree.lookup (subdirPath p.file.path dir) = some f → p.Enters done beside ⟨site, f, r⟩)
    (otherwise : Still p.cx.earlier r (missing r)) :
    Course p.cx.earlier done beside r [] (p.includeDir site missing r dir) := by
  unfold includeDir
  split
  · rename_i f found
    unfold includeFile
    split
    · exact .still (.report _ rfl _)
    · rename_i fresh
      exact enters f found (by simpa using fresh)
  · exact .still otherwise

theorem foldl_includeDir_course {site : Site} {dirs : List String}
    (enters : ∀ i ∈ p.resolvedBy site dirs r, p.Enters done beside i) :
    Course p.cx.earlier done beside r [] (dirs.foldl (p.includeDir site id) r) := by
  induction dirs generalizing r with
  | nil => exact .still (.refl r)
  | cons dir dirs ih =>
    obtain ⟨here, rest⟩ := List.forall_mem_append.mp enters
    refine .trans (includeDir_course (fun f found => here _ ?_) (.refl r)) (ih rest)
    rw [found]
    exact List.mem_singleton_self _

theorem subdir_course {site : Site} {args : List Argument}
    (enters : ∀ i ∈ p.resolved site args r, p.Enters done beside i) :
    Course p.cx.earlier done beside r [] (p.subdir site args r) := by
  have noted : Still p.cx.earlier r (r.emit (.included site.range)) := .emit _ rfl r
  cases args with
  | nil => exact .still noted
  | cons a rest =>
    dsimp only [subdir, resolved] at enters ⊢
    cases literal : a.node.text? with
    | some dir =>
      rw [literal] at enters
      refine .trans (.still noted) (includeDir_course (fun f found => enters _ ?_) (.report _ rfl _))
      simp [resolvedBy, found]
    | none =>
      rw [literal] at enters
      exact .trans (.still (noted.trans (p.guess_still _ a.node))) (foldl_includeDir_course enters)

theorem applyFunction_course {site : Site} {f : Callable} {args : List Argument}
    (deeds : ∀ d ∈ p.functionDeeds f args r, done d)
    (enters : f.name = "subdir" → ∀ i ∈ p.resolved site args r, p.Enters done beside i) :
    Course p.cx.earlier done beside r [] (p.applyFunction site f args r).2 := by
  unfold applyFunction
  split
  · exact .still (p.subprojectTypes_still r ..)
  · rename_i called
    rw [functionDeeds, called] at deeds
    exact (p.variableTypes_acts r f args).course deeds
  · rename_i called
    rw [functionDeeds, called] at deeds
    exact (p.setVariable_acts r args).course deeds
  · exact .still (p.checkOption_still r ..)
  · exact subdir_course (enters ‹_›)
  · exact .still (.refl r)

end

section

variable {p : Place} {V : Visit → Prop} {done : Deed → Prop} {beside : Nat → Nat → Prop}

mutual
theorem visit_course (conducts : Conducts p V done beside) (inLoop : Bool) :
    ∀ (n : Node) (r : Run), V ⟨inLoop, .node n, r⟩ → Course p.cx.earlier done beside r [] (p.visit inLoop n r).2
  | .int s _, r, here | .bool s _, r, here => by
    rw [visit]
    exact .still (.annotate ..)
  | .str s t isFormat, r, here => by
    rw [visit]
    have typed : Course p.cx.earlier done beside r [] (r.annotate s [.str]) := .still (.annotate ..)
    cases isFormat with
    | false => exact typed
    | true => exact typed.trans ((checkPlaceholders_acts _ s t).course (conducts.deeds here))
  | .array s es, r, here => by
    rw [visit]
    exact .trans (visitAll_course conducts inLoop es r fun w => conducts.parts here) (.still (.annotate ..))
  | .dict s es, r, here => by
    rw [visit]
    have entries := conducts.parts here (w := ⟨inLoop, .entries [] es, r⟩) List.mem_cons_self
    exact .trans (visitEntries_course conducts inLoop [] es r entries) (.still (.annotate ..))
  | .ident id, r, here => by
    rw [visit]
    exact (p.readVariable_acts r id).course (conducts.deeds here)
  | .call s callee argSite as, r, here => by
    rw [visit]
    have args := visitAll_course conducts inLoop as r fun w => conducts.parts here
    have deeds := conducts.deeds here
    have includes := conducts.includes here
    dsimp only [Place.deeds, inclusions] at deeds includes
    refine .trans args ?_
    unfold callFunction
    cases found : p.cx.catalogue.function? callee.name with
    | none => exact .still (.trans (p.keep_still ..) (.report _ rfl _))
    | some f =>
      rw [found] at deeds includes
      refine .trans (applyFunction_course deeds fun called i member => ?_)
        (.still (.trans (.annotate ..) (p.checkCall_still ..)))
      exact includes i (by simpa [called] using member)
  | .method s receiver callee _ as, r, here => by
    rw [visit_method]
    obtain ⟨first, rest⟩ := List.forall_mem_cons.mp fun w => conducts.parts here (w := w)
    refine .trans (visit_course conducts inLoop receiver r first) ?_
    exact .trans (visitAll_course conducts inLoop as _ rest) (.still (p.callMethod_still ..))
  | .keyword s key v, r, here => by
    rw [visit]
    have value := visit_course conducts inLoop v r (conducts.parts here List.mem_cons_self)
    exact value.trans (.still (.trans (.annotate ..) (Run.checkKeyword_still ..)))
  | .index s outer inner, r, here => by
    rw [visit_index]
    obtain ⟨first, rest⟩ := List.forall_mem_cons.mp fun w => conducts.parts here (w := w)
    refine .trans (visit_course conducts inLoop outer r first) ?_
    exact .trans (visit_course conducts inLoop inner _ (rest _ List.mem_cons_self)) (.still (readIndex_still ..))
  | .unary s op x, r, here => by
    rw [visit]
    exact .trans (visit_course conducts inLoop x r (conducts.parts here List.mem_cons_self)) (.still (.annotate ..))
  | .binary s op a b, r, here => by
    rw [visit_binary]
    obtain ⟨first, rest⟩ := List.forall_mem_cons.mp fun w => conducts.parts here (w := w)
    refine .trans (visit_course conducts inLoop a r first) ?_
    exact .trans (visit_course conducts inLoop b _ (rest _ List.mem_cons_self)) (.still (p.applyOperator_still ..))
  | .ternary s c y z, r, here => by
    rw [visit_ternary]
    obtain ⟨first, rest⟩ := List.forall_mem_cons.mp fun w => conducts.parts here (w := w)
    obtain ⟨second, rest⟩ := List.forall_mem_cons.mp rest
    refine .trans (visit_course conducts inLoop c r first) ?_
    refine .trans (visit_course conducts inLoop y _ second) ?_
    refine .trans (visit_course conducts inLoop z _ (rest _ List.mem_cons_self)) ?_
    exact .still (.trans (.annotate ..) (Run.checkBool_still ..))
  | .assign s op t v, r, here => by
    rw [visit_assign]
    have deeds := conducts.deeds here
    have parts := fun w => conducts.parts here (w := w)
    dsimp only [Place.deeds] at deeds
    dsimp only [Place.parts, nodeParts] at parts
    by_cases plain : op = .assign ∧ t.isIdent
    · rw [if_pos plain] at deeds parts ⊢
      refine .trans (visit_course conducts inLoop v r (parts _ List.mem_cons_self)) ?_
      exact (p.assignTo_acts ..).course deeds
    · rw [if_neg plain] at deeds parts ⊢
      obtain ⟨first, rest⟩ := List.forall_mem_cons.mp parts
      refine .trans (visit_course conducts inLoop t r first) ?_
      refine .trans (visit_course conducts inLoop v _ (rest _ List.mem_cons_self)) ?_
      exact (p.assignTo_acts ..).course deeds
  | .select s bs, r, here => by
    rw [visit]
    exact .selection _ (visitBranches_course conducts inLoop bs _ (conducts.parts here List.mem_cons_self))
  | .loop s ids subject body, r, here => by
    rw [visit_loop]
    obtain ⟨first, rest⟩ := List.forall_mem_cons.mp fun w => conducts.parts here (w := w)
    refine .trans (visit_course conducts true subject r first) ?_
    refine .trans ((p.bindLoop_acts ..).course (conducts.deeds here)) ?_
    exact visitStatements_course conducts true body body _ (rest _ List.mem_cons_self)
  | .breakLoop s, r, here | .continueLoop s, r, here => by
    rw [visit]
    exact .still (.reportIf _ _ rfl _)
  | .error s m, r, here => by
    rw [visit]
    exact .still (.report _ rfl _)

theorem visitAll_course (conducts : Conducts p V done beside) (inLoop : Bool) :
    ∀ (ns : List Node) (r : Run), (∀ w ∈ p.inTurn inLoop ns r, V w) →
      Course p.cx.earlier done beside r [] (p.visitAll inLoop ns r).2
  | [], r, turns => by
    rw [visitAll]
    exact .still (.refl r)
  | n :: ns, r, turns => by
    rw [visitAll_cons]
    obtain ⟨first, rest⟩ := List.forall_mem_cons.mp turns
    exact .trans (visit_course conducts inLoop n r first) (visitAll_course conducts inLoop ns _ rest)

theorem visitEntries_course (conducts : Conducts p V done beside) (inLoop : Bool) :
    ∀ (seen : List String) (es : List Entry) (r : Run), V ⟨inLoop, .entries seen es, r⟩ →
      Course p.cx.earlier done beside r [] (p.visitEntries inLoop seen es r).2
  | _, [], r, here => by
    rw [visitEntries]
    exact .still (.refl r)
  | seen, .mk s k v :: es, r, here => by
    rw [visitEntries_cons]
    obtain ⟨turns, last⟩ := List.forall_mem_append.mp fun w => conducts.parts here (w := w)
    obtain ⟨first, rest⟩ := List.forall_mem_cons.mp turns
    refine .trans (visit_course conducts inLoop k r first) ?_
    refine .trans (visit_course conducts inLoop v _ (rest _ List.mem_cons_self)) ?_
    refine .trans ?_ (visitEntries_course conducts inLoop _ es _ (last _ List.mem_cons_self))
    exact .still (.trans (.annotate ..) (p.noteKey_still ..))

theorem visitStatements_course (conducts : Conducts p V done beside) (inLoop : Bool) (block : List Node) :
    ∀ (ns : List Node) (r : Run), V ⟨inLoop, .statements block ns, r⟩ →
      Course p.cx.earlier done beside r [] (p.visitStatements inLoop block ns r)
  | [], r, here => by
    rw [visitStatements]
    split
    · rename_i dead
      obtain ⟨a, _, b, _, rfl⟩ := Finding.exists_of_across dead
      exact .still (.report _ rfl _)
    · exact .still (.refl r)
  | n :: ns, r, here => by
    rw [visitStatements]
    obtain ⟨first, rest⟩ := List.forall_mem_cons.mp fun w => conducts.parts here (w := w)
    refine .trans (visit_course conducts inLoop n r first) ?_
    refine .trans ?_ (visitStatements_course conducts inLoop block ns _ (rest _ List.mem_cons_self))
    exact .still (.reportIf _ _ rfl _)

theorem visitBranches_course (conducts : Conducts p V done beside) (inLoop : Bool) :
    ∀ (bs : List Branch) (r : Run), V ⟨inLoop, .branches bs, r⟩ →
      Course p.cx.earlier done beside r (p.visitBranches inLoop bs r).1 (p.visitBranches inLoop bs r).2
  | [], r, here => by
    rw [visitBranches]
    exact .still (.refl r)
  | .guarded c body :: bs, r, here => by
    rw [visitBranches_guarded]
    have beside := conducts.branches here
    obtain ⟨first, rest⟩ := List.forall_mem_cons.mp fun w => conducts.parts here (w := w)
    obtain ⟨second, rest⟩ := List.forall_mem_cons.mp rest
    refine .trans (visit_course conducts inLoop c r first) ?_
    refine .branch (askedName? c).toList (Run.checkBool_still ..)
      (visitStatements_course conducts inLoop body body _ second)
      (visitBranches_course conducts inLoop bs _ (rest _ List.mem_cons_self)) fun m n after before later last => ?_
    exact beside _ (.tail _ (.head _)) _ (.tail _ (.tail _ (.head _))) rfl rfl m n ⟨after, before⟩ ⟨later, last⟩
  | .otherwise body :: bs, r, here => by
    rw [visitBranches_otherwise]
    have beside := conducts.branches here
    obtain ⟨first, rest⟩ := List.forall_mem_cons.mp fun w => conducts.parts here (w := w)
    refine .branch [] (.refl r) (visitStatements_course conducts inLoop body body _ first)
      (visitBranches_course conducts inLoop bs _ (rest _ List.mem_cons_self)) fun m n after before later last => ?_
    exact beside _ (.head _) _ (.tail _ (.head _)) rfl rfl m n ⟨after, before⟩ ⟨later, last⟩
end

/-! Files. -/

theorem walkBody_course (conducts : Conducts p V done beside) {r : Run} (here : V ⟨false, .file, r⟩) :
    Course p.cx.earlier done beside (r.openFile p.file.id).openDebts []
      (p.walkBody r.active.isEmpty (r.openFile p.file.id).openDebts) := by
  have parts := fun w => conducts.parts here (w := w)
  dsimp only [Place.parts] at parts
  unfold walkBody
  cases parsed : p.file.body with
  | none => exact .still (.reportIf _ _ rfl _)
  | some b =>
    rw [parsed] at parts
    refine .trans ?_ (visitStatements_course conducts false _ _ _ (parts _ List.mem_cons_self))
    exact .still (.ite (p.checkProject_still ..) (.refl _))

end

end Place

namespace Setting

def Does (cx : Setting) (d : Deed) : Prop :=
  ∃ fuel f v, cx.Makes fuel f v ∧ d ∈ (cx.place fuel f).deeds v

/-- Whether a first moment lies in a branch and a second one in a condition or a branch behind it. -/
def Sidelines (cx : Setting) (m n : Nat) : Prop :=
  ∃ fuel f inLoop b bs r, cx.Makes fuel f ⟨inLoop, .branches (b :: bs), r⟩ ∧
    ∃ body ∈ (cx.place fuel f).parts ⟨inLoop, .branches (b :: bs), r⟩,
    ∃ rest ∈ (cx.place fuel f).parts ⟨inLoop, .branches (b :: bs), r⟩,
      body.task = .statements b.body b.body ∧ rest.task = .branches bs ∧
      (cx.place fuel f).Spans body m ∧ (cx.place fuel f).Spans rest n

variable {cx : Setting}

theorem place_conducts {fuel : Nat} {f : SourceFile} {outer : List SourceFile}
    (includes : ∀ v, cx.Nests fuel f outer v →
      ∀ i ∈ (cx.place fuel f).inclusions v, (cx.place fuel f).Enters cx.Does cx.Sidelines i) :
    Place.Conducts (cx.place fuel f) (cx.Nests fuel f outer) cx.Does cx.Sidelines where
  parts := .part
  deeds nests _ member := ⟨fuel, f, _, exists_nests_iff.mp ⟨outer, nests⟩, member⟩
  branches nests body member rest member' task task' _ _ first second :=
    ⟨fuel, f, _, _, _, _, exists_nests_iff.mp ⟨outer, nests⟩, body, member, rest, member', task, task', first, second⟩
  includes nests := includes _ nests

/-- The course of a file, and with it that of all files it includes. -/
theorem Nests.body_course {fuel : Nat} {f : SourceFile} {outer : List SourceFile} {r : Run}
    (nests : cx.Nests fuel f outer ⟨false, .file, r⟩) :
    Course cx.earlier cx.Does cx.Sidelines (r.openFile f.id).openDebts []
      ((cx.place fuel f).walkBody r.active.isEmpty (r.openFile f.id).openDebts) := by
  induction fuel generalizing f outer r with
  | zero =>
    refine Place.walkBody_course (place_conducts fun v nests i resolved fresh => ?_) nests
    have member := (Place.mem_entered_iff _).mpr ⟨i, resolved, fresh, rfl, rfl⟩
    exact absurd (nests.fuel_pos member) (Nat.lt_irrefl 0)
  | succ fuel ih =>
    refine Place.walkBody_course (place_conducts fun v nests i resolved fresh => ?_) nests
    have member := (Place.mem_entered_iff _).mpr ⟨i, resolved, fresh, rfl, rfl⟩
    have active := (Place.inclusions_isInclusion (cx.place_enters _ _) v i resolved).active
    rw [nests.within_eq] at active
    -- an included file is not the root: the file that includes it is being walked
    have inner : i.before.active.isEmpty = false := by rw [active]; rfl
    refine .file i.file.id fresh (ih (.included nests member)) ?_
    exact if_neg (by rw [inner]; exact Bool.false_ne_true)

theorem finish_course {f : SourceFile} (root : cx.tree.root = some f) :
    ∃ r, Course cx.earlier cx.Does cx.Sidelines (cx.start.openFile f.id).openDebts [] r ∧
      cx.finish = r.closeDebts.2.closeFile.settle cx r.closeDebts.1 := by
  refine ⟨_, Nests.body_course (.root root), ?_⟩
  unfold finish
  rw [root]
  rfl

end Setting

end MesonCheck
