import MesonCheck.Proofs.Walk.Deeds
import MesonCheck.Proofs.Walk.Findings

/-! The steps that a walk is made of. Everything the analysis does to its state is one of a few steps, one after the
other or inside a bracket that opens and closes something: a selection, a block, a file. What holds of each of these
holds of every walk. -/
namespace MesonCheck

abbrev Leftovers := Std.ExtTreeMap Nat TypeSet

def Event.isPlain : Event → Bool
  | .found .. | .attributed .. | .mentioned _ | .subscripted _ | .included _ => true
  | .resolved .. | .read .. | .stale .. | .bound .. | .owed _ | .used _ => false

/-- Whether an event is right about what a node had from the start. -/
def Event.Fits (old : Leftovers) : Event → Prop
  | .stale s ts => old.getD s.slot [] = ts
  | _ => True

inductive Quiet (old : Leftovers) : Run → Run → Prop where
  | emit (e : Event) (plain : e.isPlain = true) (r : Run) : Quiet old r (r.emit e)
  | stale (s : Site) (r : Run) : Quiet old r (r.emit (.stale s (old.getD s.slot [])))
  | annotate (s : Site) (ts : TypeSet) (r : Run) : Quiet old r (r.annotate s ts)
  | resolve (s : Site) (f : Callable) (r : Run) : Quiet old r (r.resolve s f)
  | use (x : String) (r : Run) : Quiet old r (r.use x)
  | owe (d : Debt) (r : Run) : Quiet old r (r.owe d)
  | carry (ds : List Debt) (r : Run) : Quiet old r (r.carry ds)
  | fail (f : Fault) (r : Run) : Quiet old r (r.fail f)
  | version (v : Option Version) (r : Run) : Quiet old r { r with version := v }

/-- What a walk can make of a state. A bracket closes exactly what it has opened. -/
inductive Walks (old : Leftovers) : Run → Run → Prop where
  | refl (r : Run) : Walks old r r
  | trans {a b c : Run} : Walks old a b → Walks old b c → Walks old a c
  | quiet {r r' : Run} : Quiet old r r' → Walks old r r'
  | bind (x : String) (ts : TypeSet) (r : Run) : Walks old r (r.bind x ts)
  | read (id : Ident) (r : Run) : Walks old r (r.emit (.read id (r.reading id.name)))
  | block {r r' : Run} : Walks old r.openDebts r' → Walks old r r'.closeDebts.2
  | guarded {r r' : Run} (names : List String) : Walks old (r.ignore names) r' → Walks old r (r'.unignore names)
  | selection {r r' : Run} (isExhaustive : Bool) : Walks old (Place.openSelection r) r' →
      Walks old r (Place.closeSelection isExhaustive r.scope.flatten r')
  | file {r r' : Run} (id : Nat) (fresh : r.active.contains id = false) :
      Walks old (r.openFile id) r' → Walks old r r'.closeFile
  | included {r r' : Run} : Walks old { r with scope := r.scope.push } r' →
      Walks old r { r' with scope := r'.scope.flush }

namespace Walks

variable {old : Leftovers}

theorem foldl {α : Type} (f : Run → α → Run) (step : ∀ r a, Walks old r (f r a)) (as : List α) (r : Run) :
    Walks old r (as.foldl f r) := by
  induction as generalizing r with
  | nil => exact .refl r
  | cons a as ih => exact (step r a).trans (ih (f r a))

theorem ite {c : Prop} [Decidable c] {r a b : Run} (yes : Walks old r a) (no : Walks old r b) :
    Walks old r (if c then a else b) := by
  split
  · exact yes
  · exact no

theorem report (f : Finding) (r : Run) : Walks old r (r.report f) :=
  .quiet (.emit _ rfl r)

theorem reportIf (cond : Bool) (f : Finding) (r : Run) : Walks old r (r.reportIf cond f) :=
  .ite (.report f r) (.refl r)

end Walks

/-- Plain events of all kinds but one: that an assignment is unused is reported only at the end of the root file. -/
def Event.isCommon : Event → Bool
  | .found ⟨_, _, .unusedAssignment⟩ => false
  | e => e.isPlain

theorem Event.isPlain_of_isCommon {e : Event} (common : e.isCommon = true) : e.isPlain = true := by
  unfold isCommon at common
  split at common
  · contradiction
  · exact common

theorem Event.isCommon_of_isMisuse {f : Finding} (misuse : f.issue.isMisuse = true) :
    Event.isCommon (.found f) = true := by
  obtain ⟨_, _, issue⟩ := f
  cases issue <;> trivial

inductive Still (old : Leftovers) : Run → Run → Prop where
  | refl (r : Run) : Still old r r
  | trans {a b c : Run} : Still old a b → Still old b c → Still old a c
  | emit (e : Event) (common : e.isCommon = true) (r : Run) : Still old r (r.emit e)
  | stale (s : Site) (r : Run) : Still old r (r.emit (.stale s (old.getD s.slot [])))
  | annotate (s : Site) (ts : TypeSet) (r : Run) : Still old r (r.annotate s ts)
  | resolve (s : Site) (f : Callable) (r : Run) : Still old r (r.resolve s f)
  | fail (f : Fault) (r : Run) : Still old r (r.fail f)
  | version (v : Option Version) (r : Run) : Still old r { r with version := v }

namespace Still

variable {old : Leftovers}

theorem walks {r r' : Run} (still : Still old r r') : Walks old r r' := by
  induction still with
  | refl r => exact .refl r
  | trans _ _ first second => exact first.trans second
  | emit e common r => exact .quiet (.emit e (Event.isPlain_of_isCommon common) r)
  | stale s r => exact .quiet (.stale s r)
  | annotate s ts r => exact .quiet (.annotate s ts r)
  | resolve s f r => exact .quiet (.resolve s f r)
  | fail f r => exact .quiet (.fail f r)
  | version v r => exact .quiet (.version v r)

theorem foldl {α : Type} (f : Run → α → Run) {as : List α} (step : ∀ r, ∀ a ∈ as, Still old r (f r a)) (r : Run) :
    Still old r (as.foldl f r) := by
  induction as generalizing r with
  | nil => exact .refl r
  | cons a as ih =>
    exact (step r a List.mem_cons_self).trans (ih (fun r b member => step r b (List.mem_cons_of_mem a member)) (f r a))

theorem ite {c : Prop} [Decidable c] {r a b : Run} (yes : Still old r a) (no : Still old r b) :
    Still old r (if c then a else b) := by
  split
  · exact yes
  · exact no

theorem report (f : Finding) (common : Event.isCommon (.found f) = true) (r : Run) : Still old r (r.report f) :=
  .emit _ common r

theorem reportIf (cond : Bool) (f : Finding) (common : Event.isCommon (.found f) = true) (r : Run) :
    Still old r (r.reportIf cond f) :=
  .ite (.report f common r) (.refl r)

theorem reportAll {spot : Site → Prop} {fs : List Finding} (misuses : Misuses spot fs) (r : Run) :
    Still old r (r.reportAll fs) :=
  .foldl _ (fun r f member => .emit _ (Event.isCommon_of_isMisuse (misuses f member).1) r) r

end Still

inductive Acts (old : Leftovers) : Run → List Deed → Run → Prop where
  | still {r r' : Run} : Still old r r' → Acts old r [] r'
  | read (id : Ident) (r : Run) : Acts old r [] (r.emit (.read id (r.reading id.name)))
  | deed (d : Deed) : Acts old d.before [d] d.after
  | trans {a b c : Run} {ds es : List Deed} : Acts old a ds b → Acts old b es c → Acts old a (ds ++ es) c

namespace Acts

variable {old : Leftovers} {r r' : Run} {ds : List Deed}

theorem walks (acts : Acts old r ds r') : Walks old r r' := by
  induction acts with
  | still still => exact still.walks
  | read id r => exact .read id r
  | deed d =>
    obtain ⟨act, r⟩ := d
    cases act with
    | bind x ts => exact .bind x ts r
    | use x => exact .quiet (.use x r)
    | owe d => exact .quiet (.owe d r)
  | trans _ _ first second => exact first.trans second

theorem after (acts : Acts old r ds r') {r'' : Run} (still : Still old r' r'') : Acts old r ds r'' := by
  have both := acts.trans (.still still)
  rwa [List.append_nil] at both

theorem before {start : Run} (still : Still old start r) (acts : Acts old r ds r') : Acts old start ds r' :=
  (Acts.still still).trans acts

theorem foldl {α : Type} {step : Run → α → Run} {deeds : Run → α → List Deed}
    (each : ∀ r a, Acts old r (deeds r a) (step r a)) (as : List α) (r : Run) :
    Acts old r (Deed.along step deeds as r) (as.foldl step r) := by
  induction as generalizing r with
  | nil => exact .still (.refl r)
  | cons a as ih => exact (each r a).trans (ih (step r a))

theorem around (acts : Acts old r ds r') : ∀ d ∈ ds, Walks old r d.before ∧ Walks old d.after r' := by
  induction acts with
  | still | read => simp
  | deed d =>
    rintro _ (_ | _)
    · exact ⟨.refl _, .refl _⟩
    · contradiction
  | trans first second ih₁ ih₂ =>
    intro d member
    rcases List.mem_append.mp member with earlier | later
    · obtain ⟨before, after⟩ := ih₁ d earlier
      exact ⟨before, after.trans second.walks⟩
    · obtain ⟨before, after⟩ := ih₂ d later
      exact ⟨first.walks.trans before, after⟩

end Acts

/-! Lints. -/

namespace Run

variable {old : Leftovers} (cx : Setting) (r : Run)

theorem checkName_still (id : Ident) : Still old r (r.checkName cx id) :=
  .reportIf _ _ rfl _

theorem checkBool_still (s : Site) (ts : TypeSet) : Still old r (r.checkBool s ts) :=
  .reportIf _ _ rfl _

theorem checkResult_still (method text : Site) (value : String) :
    Still old r (r.checkResult cx method text value) := by
  unfold checkResult
  split
  · exact .reportIf _ _ rfl _
  · exact .refl r

theorem checkComparison_still (op : Operator) (left right : Node) :
    Still old r (r.checkComparison cx op left right) := by
  unfold checkComparison
  split
  · split
    · exact r.checkResult_still ..
    · exact .refl r
    · exact r.checkResult_still ..
    · exact .refl r
  · exact .refl r

theorem checkDeprecated_still (callee : Ident) (f : Callable) : Still old r (r.checkDeprecated cx callee f) := by
  unfold checkDeprecated
  split
  · exact .report _ rfl _
  · exact .refl r

theorem checkKeyword_still (key : Ident) : Still old r (r.checkKeyword cx key) := by
  unfold checkKeyword
  split
  · exact .refl r
  · split
    · exact .report _ rfl _
    · exact .refl r

theorem settle_walks (ds : List Debt) : Walks old r (r.settle cx ds) :=
  .foldl _ (fun _ _ => .reportIf ..) ds r

end Run

namespace Place

variable (p : Place) (r : Run)

/-! Expressions. -/

theorem checkPlaceholders_acts {old : Leftovers} (s : Site) (value : String) :
    Acts old r (placeholderDeeds s value r) (r.checkPlaceholders s value) :=
  .foldl (fun r name => (Acts.deed ⟨.use name, r⟩).after (.reportIf _ _ rfl _)) _ r

theorem readVariable_acts (id : Ident) : Acts p.cx.earlier r (readDeeds id r) (readVariable id r).2 := by
  have read : Acts p.cx.earlier r [] _ := (Acts.read id r).after (.annotate id.site (r.reading id.name) _)
  exact (read.trans (.deed ⟨.use id.name, _⟩)).after (.trans (.reportIf _ _ rfl _) (.emit _ rfl _))

theorem readIndex_still {old : Leftovers} (site : Site) (outer : TypeSet) : Still old r (readIndex site outer r).2 := by
  dsimp only [readIndex, Run.typed]
  exact .trans (.annotate ..) (.emit _ rfl _)

theorem noteKey_still (seen : List String) (key : Node) : Still p.cx.earlier r (noteKey seen key r).2 := by
  unfold noteKey
  split
  · split
    · exact .report _ rfl _
    · exact .refl r
  · exact .refl r

theorem applyOperator_still (site : Site) (op : Option Operator) (left right : Node) (l m : TypeSet) :
    Still p.cx.earlier r (p.applyOperator site op left right l m r).2 := by
  cases op with
  | none =>
    dsimp only [applyOperator, Run.typed, Prod.map]
    exact .trans (.annotate ..) (.report _ rfl _)
  | some o =>
    dsimp only [applyOperator, Run.typed]
    refine .trans ?_ (Run.checkComparison_still ..)
    exact .trans (.reportIf _ _ rfl _) (.annotate ..)

/-! Assignments and loops. -/

theorem assign_acts (site : Site) (id : Ident) (value : Node) (ts : TypeSet) :
    Acts p.cx.earlier r (p.plainDeeds id value ts r) (p.assign site id value ts r) := by
  unfold assign plainDeeds
  split
  · exact .still (.trans (.report _ rfl _) (.emit _ rfl _))
  · refine Acts.before (.trans (.annotate id.site ts r) (Run.checkName_still p.cx _ id)) ?_
    exact (Acts.deed ⟨.bind id.name ts, _⟩).trans ((Acts.deed ⟨.owe _, _⟩).after (.emit _ rfl _))

theorem augment_acts (site : Site) (op : Operator) (id : Ident) (before ts : TypeSet) :
    Acts p.cx.earlier r (augmentDeeds site op id before ts r) (augment site op id before ts r) :=
  .before (.trans (.reportIf _ _ rfl _) (.annotate ..)) (.deed ⟨.bind id.name _, _⟩)

theorem assignTo_acts (site : Site) (op : Operator) (target value : Node) (before ts : TypeSet) :
    Acts p.cx.earlier r (p.assignDeeds site op target value before ts r)
      (p.assignTo site op target value before ts r) := by
  cases target with
  | ident id =>
    unfold assignTo assignDeeds
    dsimp only
    split
    · exact .still (.report _ rfl _)
    · split
      · exact p.assign_acts r ..
      · exact p.augment_acts r ..
  | _ => exact .still (.report _ rfl _)

theorem loopStart_still (ids : List Ident) (subject : Node) (ts : TypeSet) :
    Still p.cx.earlier r (loopStart ids subject ts r) := by
  dsimp only [loopStart]
  refine .trans ?_ (.foldl _ (fun r b _ => .annotate b.1.site b.2 r) _)
  split
  · rename_i counted
    obtain ⟨a, _, b, _, rfl⟩ := Finding.exists_of_across counted
    refine .trans ?_ (.report _ rfl _)
    split
    · exact .report _ (Event.isCommon_of_isMisuse (isMisuse_of_loopTypes ‹_›)) _
    · exact .refl r
  · split
    · exact .report _ (Event.isCommon_of_isMisuse (isMisuse_of_loopTypes ‹_›)) _
    · exact .refl r

theorem bindLoop_acts (ids : List Ident) (subject : Node) (ts : TypeSet) :
    Acts p.cx.earlier r (p.loopDeeds ids subject ts r) (p.bindLoop ids subject ts r) := by
  refine Acts.before (p.loopStart_still r ids subject ts) (.foldl (fun r b => ?_) _ _)
  exact (Acts.deed ⟨.bind b.1.name b.2, r⟩).after (.trans (Run.checkName_still ..) (.emit _ rfl _))

/-! Calls. -/

theorem keep_still (s : Site) : Still p.cx.earlier r (p.keep s r).2 := by
  unfold keep
  split
  · exact .refl r
  · exact .stale s r

theorem guess_still (n : Node) : Still p.cx.earlier r (p.guess n r).2 := by
  unfold guess
  split
  · exact .refl r
  · exact .fail ..

theorem checkCall_still (site : Site) (callee : Ident) (f : Callable) (args : List Argument) :
    Still p.cx.earlier r (p.checkCall site callee f args r) := by
  have misuses := Misuses.findings (fun _ => True) f site args trivial fun _ _ => trivial
  dsimp only [checkCall]
  refine .trans ?_ (Run.checkDeprecated_still ..)
  refine .trans ?_ (.foldl _ ?_ _)
  · exact .trans (.resolve ..) (.reportAll misuses _)
  · intro r a _
    split
    · exact .refl r
    · exact .emit _ rfl _

theorem subprojectTypes_still (site : Site) (args : List Argument) :
    Still p.cx.earlier r (p.subprojectTypes site args r).2 := by
  cases args with
  | nil => exact .ite (.refl r) (.report _ rfl _)
  | cons a args => exact .ite (p.guess_still ..) (.trans (p.guess_still r a.node) (.report _ rfl _))

theorem checkOption_still (site : Site) (args : List Argument) : Still p.cx.earlier r (p.checkOption site args r) := by
  unfold checkOption
  split
  · split
    · exact .report _ rfl _
    · exact .reportIf _ _ rfl _
  · exact .refl r

theorem variableTypes_acts (f : Callable) (args : List Argument) :
    Acts p.cx.earlier r (p.getDeeds args r) (p.variableTypes f args r).2 := by
  cases args with
  | nil => exact .still (.refl r)
  | cons a rest =>
    unfold variableTypes getDeeds
    dsimp only
    cases a.node.text? with
    | some name => exact .deed ⟨.use name, r⟩
    | none => exact .before (p.guess_still r a.node) (.foldl (fun r n => .deed ⟨.use n, r⟩) _ _)

theorem setVariable_acts (args : List Argument) : Acts p.cx.earlier r (p.setDeeds args r) (p.setVariable args r) := by
  match args with
  | [] | [_] => exact .still (.refl r)
  | a :: value :: rest =>
    unfold setVariable setDeeds
    dsimp only
    cases a.node.text? with
    | some name => exact .deed ⟨.bind name value.types, r⟩
    | none => exact .before (p.guess_still r a.node) (.foldl (fun r n => .deed ⟨.bind n value.types, r⟩) _ _)

/-! What a file that is included does is known only when the whole walk is; here it is assumed. -/

def EntersInSteps (p : Place) : Prop :=
  ∀ (f : SourceFile) (r : Run), r.active.contains f.id = false → Walks p.cx.earlier r (p.enter f r)

variable (enters : p.EntersInSteps)
include enters

theorem includeFile_walks (site : Site) (f : SourceFile) : Walks p.cx.earlier r (p.includeFile site f r) := by
  unfold includeFile
  split
  · exact .report ..
  · rename_i fresh
    exact enters f r (by simpa using fresh)

theorem includeDir_walks (site : Site) (missing : Run → Run) (dir : String)
    (otherwise : ∀ r, Walks p.cx.earlier r (missing r)) : Walks p.cx.earlier r (p.includeDir site missing r dir) := by
  unfold includeDir
  split
  · exact p.includeFile_walks r enters ..
  · exact otherwise r

theorem subdir_walks (site : Site) (args : List Argument) : Walks p.cx.earlier r (p.subdir site args r) := by
  dsimp only [subdir]
  split
  · exact .quiet (.emit _ rfl _)
  · refine .trans (.quiet (.emit (.included site.range) rfl r)) ?_
    split
    · exact p.includeDir_walks _ enters _ _ _ fun r => .report ..
    · refine .trans (p.guess_still _ _).walks (.foldl _ (fun r dir => ?_) _ _)
      exact p.includeDir_walks r enters _ _ _ fun r => .refl r

theorem applyFunction_walks (site : Site) (f : Callable) (args : List Argument) :
    Walks p.cx.earlier r (p.applyFunction site f args r).2 := by
  unfold applyFunction
  split
  · exact (p.subprojectTypes_still r ..).walks
  · exact (p.variableTypes_acts r ..).walks
  · exact (p.setVariable_acts r ..).walks
  · exact (p.checkOption_still r ..).walks
  · exact p.subdir_walks r enters ..
  · exact .refl r

theorem callFunction_walks (site : Site) (callee : Ident) (args : List Argument) :
    Walks p.cx.earlier r (p.callFunction site callee args r).2 := by
  unfold callFunction
  split
  · exact .trans (p.keep_still ..).walks (.report ..)
  · rename_i f _
    refine .trans (p.applyFunction_walks r enters site f args) ?_
    exact .trans (.quiet (.annotate ..)) (p.checkCall_still ..).walks

omit enters

/-! Methods. -/

theorem foreignTypes_still (site : Site) (handle : Ty) (args : List Argument) :
    Still p.cx.earlier r (p.foreignTypes site handle args r).2 := by
  unfold foreignTypes
  split
  · exact .trans (p.guess_still r _) (.reportIf _ _ rfl _)
  · exact .refl r

theorem resolveMember_still (site : Site) (name : String) (args : List Argument) (found : Match × Run) (t : Ty) :
    Still p.cx.earlier found.2 (p.resolveMember site name args found t).2 := by
  unfold resolveMember
  dsimp only
  split
  · exact .refl _
  · split
    · exact .refl _
    · split
      · exact p.foreignTypes_still found.2 ..
      · exact .refl _

theorem foldl_resolveMember_still (site : Site) (name : String) (args : List Argument) (ts : TypeSet)
    (found : Match × Run) : Still p.cx.earlier found.2 (ts.foldl (p.resolveMember site name args) found).2 := by
  induction ts generalizing found with
  | nil => exact .refl _
  | cons t ts ih => exact (p.resolveMember_still site name args found t).trans (ih _)

theorem getElement_still (container : Ty) (fallback : TypeSet) :
    Still p.cx.earlier r (p.getElement container fallback r).2 := by
  unfold getElement
  split
  · exact .fail ..
  · exact .refl r
  · exact .refl r

theorem resolveGet_still (receiver : TypeSet) (args : List Argument) :
    Still p.cx.earlier r (p.resolveGet receiver args r).2 := by
  dsimp only [resolveGet]
  split
  · exact p.getElement_still r ..
  · exact p.getElement_still r ..
  · split
    · split
      · exact .refl r
      · exact .fail ..
    · exact .refl r

theorem resolveMethod_still (site : Site) (name : String) (receiver : TypeSet) (args : List Argument) :
    Still p.cx.earlier r (p.resolveMethod site name receiver args r).2 := by
  unfold resolveMethod
  split
  · exact p.resolveGet_still r ..
  · exact p.foldl_resolveMember_still site name args receiver ((none, []), r)

theorem missMethod_still (site : Site) (name : String) (receiver : TypeSet) :
    Still p.cx.earlier r (missMethod site name receiver r) := by
  unfold missMethod
  split
  · exact .refl r
  · exact .report _ rfl _

theorem checkFormat_still (site : Site) (receiver : Node) (f : Callable) (args : List Argument) :
    Still p.cx.earlier r (checkFormat site receiver f args r) := by
  unfold checkFormat
  split
  · split
    · exact .reportAll (Misuses.formatFindings (fun _ => True) _ trivial trivial fun _ _ => trivial) _
    · exact .refl r
  · exact .refl r

theorem callMethod_still (site : Site) (receiver : Node) (types : TypeSet) (callee : Ident) (args : List Argument) :
    Still p.cx.earlier r (p.callMethod site receiver types callee args r).2 := by
  dsimp only [callMethod]
  refine .trans (p.resolveMethod_still r site callee.name types args) ?_
  split
  · exact .trans (p.keep_still ..) (p.missMethod_still ..)
  · refine .trans ?_ (p.checkFormat_still ..)
    exact .trans (.annotate ..) (p.checkCall_still ..)

end Place

end MesonCheck
