import MesonCheck.Proofs.Walk.Comparison
import MesonCheck.Proofs.Walk.Inclusion

/-! Two walks side by side. They go over the same file in settings that are the same up to switches, and differ in what
they do with a file that is included. If they begin in states that match and included files leave states that match,
they end in such states, and both give every node the same types. -/
namespace MesonCheck.Place

open Comparison

def entering (p : Place) (sw : Switches) (enter : SourceFile → Run → Run) : Place :=
  { p with cx := p.cx.switched sw, enter := enter }

section

variable {c : Comparison} {p : Place} {sw : Switches} {enter : SourceFile → Run → Run} {r r' : Run} (m : c.Matches r r')
include m

/-! Expressions. -/

theorem readVariable_agree (id : Ident) : c.Agree (readVariable id r) (readVariable id r') := by
  have read := ((m.emit (e := .read id (r.reading id.name)) rfl).annotate id.site (r.reading id.name)).use id.name
  dsimp only [readVariable]
  rw [m.reading, read.misses]
  exact ⟨rfl, (read.reportIf _ rfl).emit rfl⟩

theorem readIndex_agree (site : Site) (outer : TypeSet) : c.Agree (readIndex site outer r) (readIndex site outer r') :=
  ⟨rfl, (m.annotate site _).emit rfl⟩

theorem noteKey_agree (seen : List String) (key : Node) :
    c.Agree (noteKey seen key r) (noteKey seen key r') := by
  unfold noteKey
  split
  · split
    · exact ⟨rfl, m.report rfl⟩
    · exact ⟨rfl, m⟩
  · exact ⟨rfl, m⟩

theorem applyOperator_agree (tolerates : c.Tolerates p.cx sw) (site : Site) (op : Option Operator) (left right : Node)
    (l k : TypeSet) :
    c.Agree (p.applyOperator site op left right l k r)
      ((p.entering sw enter).applyOperator site op left right l k r') := by
  cases op with
  | none => exact ⟨rfl, (m.annotate site _).report rfl⟩
  | some o => exact ⟨rfl, tolerates.comparison ((m.reportIf _ rfl).annotate site _) ..⟩

/-! Assignments and loops. -/

theorem assign_matches (tolerates : c.Tolerates p.cx sw) (site : Site) (id : Ident) (value : Node) (ts : TypeSet) :
    c.Matches (p.assign site id value ts r) ((p.entering sw enter).assign site id value ts r') := by
  unfold assign
  split
  · exact (m.report rfl).emit rfl
  · have named := tolerates.name (m.annotate id.site ts) id
    exact ((named.bind id.name ts).owe _).emit rfl

theorem augment_matches (site : Site) (op : Operator) (id : Ident) (before ts : TypeSet) :
    c.Matches (augment site op id before ts r) (augment site op id before ts r') := by
  let issue : Issue := .operatorMismatch op before ts
  have reported : c.Matches (r.reportIf (TypeSet.mismatch op.augmented? before ts) (.about site issue))
      (r'.reportIf (TypeSet.mismatch op.augmented? before ts) (.about site issue)) := m.reportIf _ rfl
  dsimp only [augment]
  rw [reported.lookup]
  exact (reported.annotate id.site _).bind id.name _

theorem assignTo_matches (tolerates : c.Tolerates p.cx sw) (site : Site) (op : Operator) (target value : Node)
    (before ts : TypeSet) :
    c.Matches (p.assignTo site op target value before ts r)
      ((p.entering sw enter).assignTo site op target value before ts r') := by
  have void : isVoidCall value r' = isVoidCall value r := by
    rw [isVoidCall, isVoidCall, m.callAt?]
  unfold assignTo
  rw [void]
  split
  · split
    · exact m.report rfl
    · split
      · exact assign_matches m tolerates ..
      · exact augment_matches m ..
  · exact m.report rfl

theorem bindLoop_matches (tolerates : c.Tolerates p.cx sw) (ids : List Ident) (subject : Node) (ts : TypeSet) :
    c.Matches (p.bindLoop ids subject ts r) ((p.entering sw enter).bindLoop ids subject ts r') := by
  dsimp only [bindLoop]
  refine Matches.foldl (Matches.foldl ?_ ?_) ?_
  · split
    · rename_i counted
      obtain ⟨a, _, b, _, rfl⟩ := Finding.exists_of_across counted
      refine Matches.report ?_ rfl
      split
      · exact m.report (Issue.isOpen_of_isMisuse (isMisuse_of_loopTypes ‹_›))
      · exact m
    · split
      · exact m.report (Issue.isOpen_of_isMisuse (isMisuse_of_loopTypes ‹_›))
      · exact m
  · exact fun b _ r r' m => m.annotate b.1.site b.2
  · exact fun b _ r r' m => (tolerates.name (m.bind b.1.name b.2) b.1).emit rfl

/-! Calls. -/

theorem keep_agree (s : Site) : c.Agree (p.keep s r) (p.keep s r') := by
  unfold keep
  rw [m.slots]
  split
  · exact ⟨rfl, m⟩
  · exact ⟨rfl, m.emit rfl⟩

theorem checkCall_matches (tolerates : c.Tolerates p.cx sw) (site : Site) (callee : Ident) (f : Callable)
    (args : List Argument) :
    c.Matches (p.checkCall site callee f args r) ((p.entering sw enter).checkCall site callee f args r') := by
  have misuses := Misuses.findings (fun _ => True) f site args trivial fun _ _ => trivial
  have checked := (m.resolve site f).reportAll misuses
  refine tolerates.callable (checked.foldl fun a _ r r' m => ?_) ..
  split
  · exact m
  · exact m.emit rfl

theorem checkOption_matches (site : Site) (args : List Argument) :
    c.Matches (p.checkOption site args r) (p.checkOption site args r') := by
  unfold checkOption
  split
  · split
    · exact m.report rfl
    · exact m.reportIf _ rfl
  · exact m

/-! Methods. -/

theorem getElement_agree (container : Ty) (fallback : TypeSet) :
    c.Agree (p.getElement container fallback r) (p.getElement container fallback r') := by
  unfold getElement
  split
  · exact ⟨rfl, m.fail (by simp)⟩
  · exact ⟨rfl, m⟩
  · exact ⟨rfl, m⟩

theorem resolveGet_agree (receiver : TypeSet) (args : List Argument) :
    c.Agree (p.resolveGet receiver args r) (p.resolveGet receiver args r') := by
  dsimp only [resolveGet]
  split
  · exact getElement_agree m ..
  · exact getElement_agree m ..
  · split
    · split
      · exact ⟨rfl, m⟩
      · exact ⟨rfl, m.fail (by simp)⟩
    · exact ⟨rfl, m⟩

theorem missMethod_matches (site : Site) (name : String) (receiver : TypeSet) :
    c.Matches (missMethod site name receiver r) (missMethod site name receiver r') := by
  unfold missMethod
  split
  · exact m
  · exact m.report rfl

theorem checkFormat_matches (site : Site) (receiver : Node) (f : Callable) (args : List Argument) :
    c.Matches (checkFormat site receiver f args r) (checkFormat site receiver f args r') := by
  unfold checkFormat
  split
  · split
    · exact m.reportAll (Misuses.formatFindings (fun _ => True) _ trivial trivial fun _ _ => trivial)
    · exact m
  · exact m

/-! Guesses. -/

omit m in
def Guesses (c : Comparison) (p : Place) (n : Node) : Prop :=
  p.file.guess n = none → ∀ a b, c.records a b → c.records (a.fail .endlessGuess) (b.fail .endlessGuess)

theorem guess_agree {n : Node} (guesses : Guesses c p n) : c.Agree (p.guess n r) (p.guess n r') := by
  unfold guess
  split
  · exact ⟨rfl, m⟩
  · rename_i endless
    obtain ⟨scope, records⟩ := m
    exact ⟨rfl, .mk scope (guesses endless _ _ records)⟩

theorem foreignTypes_agree {args : List Argument}
    (guesses : p.cx.subprojects.isSome → ∀ a ∈ args.head?, Guesses c p a.node) (site : Site) (handle : Ty) :
    c.Agree (p.foreignTypes site handle args r) (p.foreignTypes site handle args r') := by
  unfold foreignTypes
  split
  · rename_i known a rest given
    obtain ⟨names, after⟩ := guess_agree m (guesses (by simp [given]) a (by simp))
    dsimp only
    rw [names]
    exact ⟨rfl, after.reportIf _ rfl⟩
  · exact ⟨rfl, m⟩

omit m in
theorem resolveMember_agree {name : String} {args : List Argument} {t : Ty}
    (guesses : p.readsForeign name t → p.cx.subprojects.isSome → ∀ a ∈ args.head?, Guesses c p a.node) (site : Site)
    {found found' : Match × Run} (agree : c.Agree found found') :
    c.Agree (p.resolveMember site name args found t) (p.resolveMember site name args found' t) := by
  obtain ⟨⟨callable, types⟩, r⟩ := found
  obtain ⟨⟨callable', types'⟩, r'⟩ := found'
  obtain ⟨same, m⟩ := agree
  cases same
  dsimp only [resolveMember]
  split
  · exact ⟨rfl, m⟩
  · rename_i known
    split
    · exact ⟨rfl, m⟩
    · rename_i method declared
      split
      · rename_i reads
        have reading : p.readsForeign name t := by simp_all [readsForeign]
        obtain ⟨more, after⟩ := foreignTypes_agree m (guesses reading) site t
        rw [more]
        exact ⟨rfl, after⟩
      · exact ⟨rfl, m⟩

theorem resolveMethod_agree {name : String} {receiver : TypeSet} {args : List Argument}
    (guesses : ∀ n ∈ p.guessedForeign name receiver args, Guesses c p n) (site : Site) :
    c.Agree (p.resolveMethod site name receiver args r) (p.resolveMethod site name receiver args r') := by
  unfold resolveMethod
  split
  · exact resolveGet_agree m ..
  · rename_i other
    have member : ∀ t ∈ receiver, p.readsForeign name t → p.cx.subprojects.isSome →
        ∀ a ∈ args.head?, Guesses c p a.node := by
      intro t member reads known a first
      cases args with
      | nil => contradiction
      | cons b rest =>
        cases first
        refine guesses _ ?_
        have any : receiver.any (p.readsForeign name) = true := List.any_eq_true.mpr ⟨t, member, reads⟩
        simp [guessedForeign, other, known, any]
    have members : ∀ (ts : TypeSet) (found found' : Match × Run), (∀ t ∈ ts, t ∈ receiver) → c.Agree found found' →
        c.Agree (ts.foldl (p.resolveMember site name args) found)
          (ts.foldl (p.resolveMember site name args) found') := by
      intro ts
      induction ts with
      | nil => exact fun _ _ _ agree => agree
      | cons t ts ih =>
        intro found found' among agree
        have first := resolveMember_agree (member t (among t List.mem_cons_self)) site agree
        exact ih _ _ (fun u later => among u (List.mem_cons_of_mem _ later)) first
    exact members receiver _ _ (fun _ member => member) ⟨rfl, m⟩

theorem callMethod_agree (tolerates : c.Tolerates p.cx sw) {callee : Ident} {types : TypeSet} {args : List Argument}
    (guesses : ∀ n ∈ p.guessedForeign callee.name types args, Guesses c p n) (site : Site) (receiver : Node) :
    c.Agree (p.callMethod site receiver types callee args r)
      ((p.entering sw enter).callMethod site receiver types callee args r') := by
  obtain ⟨found, after⟩ := resolveMethod_agree m guesses site
  have resolve : (p.entering sw enter).resolveMethod = p.resolveMethod := rfl
  have guess : (p.entering sw enter).guessMethod = p.guessMethod := rfl
  dsimp only [callMethod]
  rw [resolve, guess, found]
  split
  · obtain ⟨kept, stale⟩ := keep_agree (p := p) after site
    exact ⟨kept, missMethod_matches stale ..⟩
  · exact ⟨rfl, checkFormat_matches (checkCall_matches (after.annotate site _) tolerates ..) ..⟩

theorem missed_matches (tolerates : c.Tolerates p.cx sw) (site : Site) (names : List String) :
    let missing := match p.cx.subprojects with
      | some known => names.filter fun n => !known.any (·.name == n)
      | none => []
    c.Matches (if missing.isEmpty then r else r.report (.about site (.missingSubprojects missing)))
      (if missing.isEmpty then r' else r'.report (.about site (.missingSubprojects missing))) := by
  intro missing
  refine .ite m ?_
  have lacks : ∀ n ∈ missing, p.cx.Lacks n := by
    intro n member
    dsimp only [missing] at member
    split at member
    · rename_i known given
      refine ⟨known, given, ?_⟩
      simpa using (List.mem_filter.mp member).2
    · contradiction
  exact (tolerates.missing missing lacks).report m site site

variable {f : Callable} {args : List Argument} (guesses : ∀ n ∈ guessedArguments f args, Guesses c p n)
include guesses

theorem subprojectTypes_agree (tolerates : c.Tolerates p.cx sw) (called : f.name = "subproject") (site : Site) :
    c.Agree (p.subprojectTypes site args r) (p.subprojectTypes site args r') := by
  cases args with
  | nil => exact ⟨rfl, missed_matches m tolerates site []⟩
  | cons a rest =>
    obtain ⟨names, after⟩ := guess_agree m (guesses a.node (by simp [guessedArguments, called]))
    dsimp only [subprojectTypes]
    rw [names]
    exact ⟨rfl, missed_matches after tolerates site _⟩

theorem variableTypes_agree (called : f.name = "get_variable") :
    c.Agree (p.variableTypes f args r) (p.variableTypes f args r') := by
  cases args with
  | nil => exact ⟨rfl, m⟩
  | cons a rest =>
    dsimp only [variableTypes]
    cases literal : a.node.text? with
    | some name =>
      dsimp only
      rw [m.lookup]
      exact ⟨rfl, m.use name⟩
    | none =>
      obtain ⟨names, after⟩ := guess_agree m (guesses a.node (by simp [guessedArguments, called, literal]))
      dsimp only
      rw [names]
      refine ⟨?_, after.foldl fun n _ _ _ m => m.use n⟩
      simp only [after.lookup]

theorem setVariable_matches (called : f.name = "set_variable") :
    c.Matches (p.setVariable args r) (p.setVariable args r') := by
  unfold setVariable
  split
  · rename_i a value rest
    cases literal : a.node.text? with
    | some name => exact m.bind name value.types
    | none =>
      obtain ⟨names, after⟩ := guess_agree m (guesses a.node (by simp [guessedArguments, called, literal]))
      dsimp only
      rw [names]
      exact after.foldl fun n _ _ _ m => m.bind n value.types
  · exact m

end

/-! Files. -/

structure Includes (c : Comparison) (p : Place) (enter : SourceFile → Run → Run) (i : Inclusion) : Prop where
  recursion : i.before.active.contains i.file.id = true → ∀ a b, c.records a b →
    let e := .found (.about i.site (.recursiveInclusion i.file.path))
    c.records (a.emit e) (b.emit e)
  enter : i.before.active.contains i.file.id = false → ∀ r', c.Matches i.before r' →
    c.Matches (p.enter i.file i.before) (enter i.file r')

section

variable {c : Comparison} {p : Place} {sw : Switches} {enter : SourceFile → Run → Run} {r r' : Run}

theorem includeFile_matches {site : Site} {f : SourceFile} (includes : Includes c p enter ⟨site, f, r⟩)
    (m : c.Matches r r') : c.Matches (p.includeFile site f r) ((p.entering sw enter).includeFile site f r') := by
  unfold includeFile
  rw [m.active]
  split
  · rename_i active
    obtain ⟨scope, records⟩ := m
    exact .mk scope (includes.recursion active _ _ records)
  · rename_i fresh
    exact includes.enter (by simpa using fresh) r' m

theorem includeDir_matches {site : Site} {dir : String} {missing missing' : Run → Run}
    (includes : ∀ f, p.cx.tree.lookup (subdirPath p.file.path dir) = some f → Includes c p enter ⟨site, f, r⟩)
    (m : c.Matches r r') (otherwise : c.Matches (missing r) (missing' r')) :
    c.Matches (p.includeDir site missing r dir) ((p.entering sw enter).includeDir site missing' r' dir) := by
  have same : (p.entering sw enter).cx.tree.lookup (subdirPath (p.entering sw enter).file.path dir) =
    p.cx.tree.lookup (subdirPath p.file.path dir) := rfl
  unfold includeDir
  rw [same]
  split
  · exact includeFile_matches (includes _ ‹_›) m
  · exact otherwise

theorem foldl_includeDir_matches {site : Site} {dirs : List String}
    (includes : ∀ i ∈ p.resolvedBy site dirs r, Includes c p enter i) (m : c.Matches r r') :
    c.Matches (dirs.foldl (p.includeDir site id) r) (dirs.foldl ((p.entering sw enter).includeDir site id) r') := by
  induction dirs generalizing r r' with
  | nil => exact m
  | cons dir dirs ih =>
    obtain ⟨here, rest⟩ := List.forall_mem_append.mp includes
    refine ih rest (includeDir_matches (fun f found => here _ ?_) m m)
    rw [found]
    exact List.mem_singleton_self _

theorem subdir_matches {f : Callable} {args : List Argument} (guesses : ∀ n ∈ guessedArguments f args, Guesses c p n)
    (called : f.name = "subdir") {site : Site} (includes : ∀ i ∈ p.resolved site args r, Includes c p enter i)
    (m : c.Matches r r') : c.Matches (p.subdir site args r) ((p.entering sw enter).subdir site args r') := by
  have noted := m.emit (e := .included site.range) rfl
  cases args with
  | nil => exact noted
  | cons a rest =>
    dsimp only [subdir, resolved] at includes ⊢
    cases literal : a.node.text? with
    | some dir =>
      rw [literal] at includes
      refine includeDir_matches (fun f found => includes _ ?_) noted (noted.report rfl)
      simp [resolvedBy, found]
    | none =>
      rw [literal] at includes
      obtain ⟨dirs, after⟩ := guess_agree noted (guesses a.node (by simp [guessedArguments, called, literal]))
      have same : (p.entering sw enter).guess a.node = p.guess a.node := rfl
      dsimp only
      rw [same, dirs]
      exact foldl_includeDir_matches includes after

theorem applyFunction_agree (tolerates : c.Tolerates p.cx sw) {f : Callable} {args : List Argument}
    (guesses : ∀ n ∈ guessedArguments f args, Guesses c p n) {site : Site}
    (includes : f.name = "subdir" → ∀ i ∈ p.resolved site args r, Includes c p enter i) (m : c.Matches r r') :
    c.Agree (p.applyFunction site f args r) ((p.entering sw enter).applyFunction site f args r') := by
  unfold applyFunction
  split
  · exact subprojectTypes_agree m guesses tolerates ‹_› site
  · exact variableTypes_agree m guesses ‹_›
  · exact ⟨rfl, setVariable_matches m guesses ‹_›⟩
  · exact ⟨rfl, checkOption_matches (p := p) m site args⟩
  · exact ⟨rfl, subdir_matches guesses ‹_› (includes ‹_›) m⟩
  · exact ⟨rfl, m⟩

theorem callFunction_agree (tolerates : c.Tolerates p.cx sw) {site : Site} {callee : Ident} {args : List Argument}
    (guesses : ∀ f, p.cx.catalogue.function? callee.name = some f → ∀ n ∈ guessedArguments f args, Guesses c p n)
    (includes : ∀ f, p.cx.catalogue.function? callee.name = some f → f.name = "subdir" →
      ∀ i ∈ p.resolved site args r, Includes c p enter i) (m : c.Matches r r') :
    c.Agree (p.callFunction site callee args r) ((p.entering sw enter).callFunction site callee args r') := by
  have same : (p.entering sw enter).cx.catalogue.function? callee.name = p.cx.catalogue.function? callee.name := rfl
  unfold callFunction
  rw [same]
  split
  · obtain ⟨types, after⟩ := keep_agree (p := p) m site
    exact ⟨types, after.report rfl⟩
  · rename_i f found
    obtain ⟨types, after⟩ := applyFunction_agree tolerates (guesses f found) (includes f found) m
    dsimp only
    rw [types]
    exact ⟨rfl, checkCall_matches (after.annotate site _) tolerates ..⟩

end

/-! Visits. -/

/-- Whether other switches and another way to walk included files keep the states at certain visits side by side. -/
structure Follows (c : Comparison) (V : Visit → Prop) (p : Place) (sw : Switches) (enter : SourceFile → Run → Run) :
    Prop where
  tolerates : c.Tolerates p.cx sw
  parts : ∀ {v w : Visit}, V v → w ∈ p.parts v → V w
  guesses : ∀ {v : Visit}, V v → ∀ n ∈ p.guessed v, Guesses c p n
  includes : ∀ {v : Visit}, V v → ∀ i ∈ p.inclusions v, Includes c p enter i

section

variable {c : Comparison} {V : Visit → Prop} {p : Place} {sw : Switches} {enter : SourceFile → Run → Run}

mutual
theorem visit_agree (follows : Follows c V p sw enter) (inLoop : Bool) :
    ∀ (n : Node) (r r' : Run), V ⟨inLoop, .node n, r⟩ → c.Matches r r' →
      c.Agree (p.visit inLoop n r) ((p.entering sw enter).visit inLoop n r')
  | .int s _, r, r', here, m | .bool s _, r, r', here, m => by
    rw [visit, visit]
    exact m.typed ..
  | .str s t isFormat, r, r', here, m => by
    rw [visit, visit]
    have typed := m.annotate s [.str]
    exact ⟨rfl, .ite (typed.checkPlaceholders ..) typed⟩
  | .array s es, r, r', here, m => by
    rw [visit, visit]
    obtain ⟨types, after⟩ := visitAll_agree follows inLoop es r r' (fun w => follows.parts here) m
    dsimp only
    rw [types]
    exact after.typed ..
  | .dict s es, r, r', here, m => by
    rw [visit, visit]
    have entries := follows.parts here (w := ⟨inLoop, .entries [] es, r⟩) List.mem_cons_self
    obtain ⟨types, after⟩ := visitEntries_agree follows inLoop [] es r r' entries m
    dsimp only
    rw [types]
    exact after.typed ..
  | .ident id, r, r', here, m => by
    rw [visit, visit]
    exact readVariable_agree m id
  | .call s callee argSite as, r, r', here, m => by
    rw [visit, visit]
    have guesses := follows.guesses here
    have includes := follows.includes here
    obtain ⟨types, after⟩ := visitAll_agree follows inLoop as r r' (fun w => follows.parts here) m
    dsimp only
    rw [types]
    refine callFunction_agree follows.tolerates (fun f found => ?_) (fun f found called => ?_) after
    · simpa only [guessed, found] using guesses
    · simpa only [inclusions, found, called, if_true] using includes
  | .method s receiver callee argSite as, r, r', here, m => by
    rw [visit_method, visit_method]
    have guesses := follows.guesses here
    obtain ⟨first, rest⟩ := List.forall_mem_cons.mp fun w => follows.parts here (w := w)
    obtain ⟨recv, received⟩ := visit_agree follows inLoop receiver r r' first m
    obtain ⟨types, after⟩ := visitAll_agree follows inLoop as _ _ rest received
    dsimp only
    rw [recv, types]
    exact callMethod_agree after follows.tolerates guesses s receiver
  | .keyword s key v, r, r', here, m => by
    rw [visit, visit]
    have value := follows.parts here (w := ⟨inLoop, .node v, r⟩) List.mem_cons_self
    obtain ⟨types, after⟩ := visit_agree follows inLoop v r r' value m
    dsimp only
    rw [types]
    exact ⟨rfl, follows.tolerates.keyword (after.annotate s _) ..⟩
  | .index s outer inner, r, r', here, m => by
    rw [visit_index, visit_index]
    obtain ⟨first, rest⟩ := List.forall_mem_cons.mp fun w => follows.parts here (w := w)
    obtain ⟨types, after⟩ := visit_agree follows inLoop outer r r' first m
    obtain ⟨_, done⟩ := visit_agree follows inLoop inner _ _ (rest _ List.mem_cons_self) after
    dsimp only
    rw [types]
    exact readIndex_agree done s _
  | .unary s op x, r, r', here, m => by
    rw [visit, visit]
    have operand := follows.parts here (w := ⟨inLoop, .node x, r⟩) List.mem_cons_self
    exact (visit_agree follows inLoop x r r' operand m).2.typed ..
  | .binary s op a b, r, r', here, m => by
    rw [visit_binary, visit_binary]
    obtain ⟨first, rest⟩ := List.forall_mem_cons.mp fun w => follows.parts here (w := w)
    obtain ⟨left, after⟩ := visit_agree follows inLoop a r r' first m
    obtain ⟨right, done⟩ := visit_agree follows inLoop b _ _ (rest _ List.mem_cons_self) after
    dsimp only
    rw [left, right]
    exact applyOperator_agree done follows.tolerates ..
  | .ternary s c y z, r, r', here, m => by
    rw [visit_ternary, visit_ternary]
    obtain ⟨first, rest⟩ := List.forall_mem_cons.mp fun w => follows.parts here (w := w)
    obtain ⟨second, rest⟩ := List.forall_mem_cons.mp rest
    obtain ⟨cond, asked⟩ := visit_agree follows inLoop c r r' first m
    obtain ⟨yes, after⟩ := visit_agree follows inLoop y _ _ second asked
    obtain ⟨no, done⟩ := visit_agree follows inLoop z _ _ (rest _ List.mem_cons_self) after
    dsimp only
    rw [cond, yes, no]
    exact ⟨rfl, (done.annotate s _).checkBool ..⟩
  | .assign s op t v, r, r', here, m => by
    rw [visit_assign, visit_assign]
    have turns : ∀ w ∈ p.inTurn inLoop (if op = .assign ∧ t.isIdent then [v] else [t, v]) r, V w :=
      fun w => follows.parts here
    -- the target of a plain assignment to a variable is not visited
    by_cases plain : op = .assign ∧ t.isIdent
    · simp only [if_pos plain] at turns ⊢
      obtain ⟨types, after⟩ := visit_agree follows inLoop v r r' (turns _ List.mem_cons_self) m
      rw [types]
      exact ⟨rfl, assignTo_matches after follows.tolerates ..⟩
    · simp only [if_neg plain] at turns ⊢
      obtain ⟨first, rest⟩ := List.forall_mem_cons.mp turns
      obtain ⟨before, target⟩ := visit_agree follows inLoop t r r' first m
      obtain ⟨types, after⟩ := visit_agree follows inLoop v _ _ (rest _ List.mem_cons_self) target
      rw [before, types]
      exact ⟨rfl, assignTo_matches after follows.tolerates ..⟩
  | .select s bs, r, r', here, m => by
    rw [visit, visit]
    have branches := follows.parts here (w := ⟨inLoop, .branches bs, openSelection r⟩) List.mem_cons_self
    obtain ⟨debts, after⟩ := visitBranches_agree follows inLoop bs _ _ branches m.openSelection
    dsimp only
    rw [debts, m.flatten]
    exact ⟨rfl, (after.carry _).closeSelection ..⟩
  | .loop s ids subject body, r, r', here, m => by
    rw [visit_loop, visit_loop]
    obtain ⟨first, rest⟩ := List.forall_mem_cons.mp fun w => follows.parts here (w := w)
    obtain ⟨types, after⟩ := visit_agree follows true subject r r' first m
    dsimp only
    rw [types]
    refine ⟨rfl, visitStatements_matches follows true body body _ _ (rest _ List.mem_cons_self) ?_⟩
    exact bindLoop_matches after follows.tolerates ids subject _
  | .breakLoop s, r, r', here, m | .continueLoop s, r, r', here, m => by
    rw [visit, visit]
    exact ⟨rfl, m.reportIf _ rfl⟩
  | .error s _, r, r', here, m => by
    rw [visit, visit]
    exact ⟨rfl, m.report rfl⟩

theorem visitAll_agree (follows : Follows c V p sw enter) (inLoop : Bool) :
    ∀ (ns : List Node) (r r' : Run), (∀ w ∈ p.inTurn inLoop ns r, V w) → c.Matches r r' →
      c.Agree (p.visitAll inLoop ns r) ((p.entering sw enter).visitAll inLoop ns r')
  | [], r, r', turns, m => by
    rw [visitAll, visitAll]
    exact ⟨rfl, m⟩
  | n :: ns, r, r', turns, m => by
    rw [visitAll_cons, visitAll_cons]
    obtain ⟨first, rest⟩ := List.forall_mem_cons.mp turns
    obtain ⟨head, after⟩ := visit_agree follows inLoop n r r' first m
    obtain ⟨tail, done⟩ := visitAll_agree follows inLoop ns _ _ rest after
    refine ⟨?_, done⟩
    dsimp only
    rw [head, tail]

theorem visitEntries_agree (follows : Follows c V p sw enter) (inLoop : Bool) :
    ∀ (seen : List String) (es : List Entry) (r r' : Run), V ⟨inLoop, .entries seen es, r⟩ → c.Matches r r' →
      c.Agree (p.visitEntries inLoop seen es r) ((p.entering sw enter).visitEntries inLoop seen es r')
  | _, [], r, r', here, m => by
    rw [visitEntries, visitEntries]
    exact ⟨rfl, m⟩
  | seen, .mk s k v :: es, r, r', here, m => by
    rw [visitEntries_cons, visitEntries_cons]
    obtain ⟨turns, last⟩ := List.forall_mem_append.mp fun w => follows.parts here (w := w)
    obtain ⟨first, rest⟩ := List.forall_mem_cons.mp turns
    obtain ⟨_, key⟩ := visit_agree follows inLoop k r r' first m
    obtain ⟨value, after⟩ := visit_agree follows inLoop v _ _ (rest _ List.mem_cons_self) key
    obtain ⟨keys, noted⟩ := noteKey_agree (after.annotate s _) seen k
    obtain ⟨tail, done⟩ := visitEntries_agree follows inLoop _ es _ _ (last _ List.mem_cons_self) noted
    dsimp only
    rw [value, keys]
    refine ⟨?_, done⟩
    dsimp only
    rw [tail]

theorem visitStatements_matches (follows : Follows c V p sw enter) (inLoop : Bool) (block : List Node) :
    ∀ (ns : List Node) (r r' : Run), V ⟨inLoop, .statements block ns, r⟩ → c.Matches r r' →
      c.Matches (p.visitStatements inLoop block ns r) ((p.entering sw enter).visitStatements inLoop block ns r')
  | [], r, r', here, m => by
    rw [visitStatements, visitStatements]
    split
    · rename_i dead
      obtain ⟨a, _, b, _, rfl⟩ := Finding.exists_of_across dead
      exact m.report rfl
    · exact m
  | n :: ns, r, r', here, m => by
    rw [visitStatements, visitStatements]
    obtain ⟨first, rest⟩ := List.forall_mem_cons.mp fun w => follows.parts here (w := w)
    have after := (visit_agree follows inLoop n r r' first m).2
    have idle : ((p.entering sw enter).visit inLoop n r').2.isIdle (p.entering sw enter).cx n = _ :=
      after.isIdle p.cx sw n
    dsimp only
    rw [idle]
    exact visitStatements_matches follows inLoop block ns _ _ (rest _ List.mem_cons_self) (after.reportIf _ rfl)

theorem visitBranches_agree (follows : Follows c V p sw enter) (inLoop : Bool) :
    ∀ (bs : List Branch) (r r' : Run), V ⟨inLoop, .branches bs, r⟩ → c.Matches r r' →
      c.Agree (p.visitBranches inLoop bs r) ((p.entering sw enter).visitBranches inLoop bs r')
  | [], r, r', here, m => by
    rw [visitBranches, visitBranches]
    exact ⟨rfl, m⟩
  | .guarded cond body :: bs, r, r', here, m => by
    rw [visitBranches_guarded, visitBranches_guarded]
    obtain ⟨first, rest⟩ := List.forall_mem_cons.mp fun w => follows.parts here (w := w)
    obtain ⟨second, rest⟩ := List.forall_mem_cons.mp rest
    obtain ⟨types, asked⟩ := visit_agree follows inLoop cond r r' first m
    have start := ((asked.ignore (askedName? cond).toList).checkBool cond.site
      (p.visit inLoop cond r).1).openDebts
    obtain ⟨debts, done⟩ := (visitStatements_matches follows inLoop body body _ _ second start).closeDebts
    obtain ⟨more, after⟩ := visitBranches_agree follows inLoop bs _ _ (rest _ List.mem_cons_self) (done.unignore _)
    dsimp only
    rw [types]
    refine ⟨?_, after⟩
    dsimp only
    rw [debts, more]
  | .otherwise body :: bs, r, r', here, m => by
    rw [visitBranches_otherwise, visitBranches_otherwise]
    obtain ⟨first, rest⟩ := List.forall_mem_cons.mp fun w => follows.parts here (w := w)
    obtain ⟨debts, done⟩ := (visitStatements_matches follows inLoop body body _ _ first m.openDebts).closeDebts
    obtain ⟨more, after⟩ := visitBranches_agree follows inLoop bs _ _ (rest _ List.mem_cons_self) done
    refine ⟨?_, after⟩
    dsimp only
    rw [debts, more]
end

/-! Files. -/

theorem checkProject_matches {r r' : Run} (m : c.Matches r r') (b : Body) :
    c.Matches (checkProject b r) (checkProject b r') := by
  unfold checkProject
  split
  · exact m.report rfl
  · exact .ite (m.withVersion _) (m.report rfl)
  · exact m.report rfl

theorem walkBody_matches (follows : Follows c V p sw enter) {isRoot : Bool} {r r' : Run}
    (body : ∀ b, p.file.body = some b →
      V ⟨false, .statements b.statements b.statements, if isRoot then checkProject b r else r⟩)
    (m : c.Matches r r') : c.Matches (p.walkBody isRoot r) ((p.entering sw enter).walkBody isRoot r') := by
  have same : (p.entering sw enter).file.body = p.file.body := rfl
  unfold walkBody
  rw [same]
  split
  · rename_i b parsed
    exact visitStatements_matches follows false _ _ _ _ (body b parsed) (.ite (checkProject_matches m b) m)
  · exact m.reportIf _ rfl

theorem walk_matches (follows : Follows c V p sw enter) {r r' : Run} (here : V ⟨false, .file, r⟩) (m : c.Matches r r') :
    c.Matches (p.walk r) ((p.entering sw enter).walk r') := by
  have body : ∀ b, p.file.body = some b → V ⟨false, .statements b.statements b.statements,
      if r.active.isEmpty then checkProject b (r.openFile p.file.id).openDebts
      else (r.openFile p.file.id).openDebts⟩ := by
    intro b parsed
    refine follows.parts here ?_
    simp [parts, parsed]
  obtain ⟨debts, done⟩ := (walkBody_matches follows body (m.openFile p.file.id).openDebts).closeDebts
  have same : (p.entering sw enter).file.id = p.file.id := rfl
  dsimp only [walk]
  rw [m.active, same, debts]
  exact .ite (done.closeFile.settle ..) (done.closeFile.carry _)

end

end MesonCheck.Place

namespace MesonCheck.Setting

open Comparison

/-! Switches. -/

/-- Walks with the same scopes that differ in their records may have other switches, if records go on to match where
something is looked for that can be switched off. -/
theorem walk_switched {cx : Setting} {sw : Switches} {c : Comparison} (same : c.scopes = Eq)
    (tolerates : c.Tolerates cx sw) (recursion : ∀ path, c.Reports (.recursiveInclusion path))
    (endless : ∀ a b, c.records a b → c.records (a.fail .endlessGuess) (b.fail .endlessGuess))
    (fuel : Nat) (f : SourceFile) {r r' : Run} (m : c.Matches r r') :
    c.Matches (cx.walk fuel f r) ((cx.switched sw).walk fuel f r') := by
  induction fuel generalizing f r r' with
  | zero => exact m
  | succ fuel ih =>
    have framed (change : Scope → Scope) {r r' : Run} (m : c.Matches r r') :
        c.Matches { r with scope := change r.scope } { r' with scope := change r'.scope } := by
      obtain ⟨scope, both⟩ := m
      rw [same] at scope
      cases scope
      exact .mk (by rw [same]) both
    let enter := ((cx.switched sw).place fuel f).enter
    have follows : Place.Follows c (fun _ => True) (cx.place fuel f) sw enter := by
      refine ⟨tolerates, fun _ _ => trivial, fun _ _ _ _ => endless, fun _ i _ => ⟨?_, ?_⟩⟩
      · exact fun _ a b both => recursion _ a b both _ _
      · intro _ r' m
        exact framed Scope.flush (ih i.file (framed Scope.push m))
    exact Place.walk_matches follows trivial m

end MesonCheck.Setting
