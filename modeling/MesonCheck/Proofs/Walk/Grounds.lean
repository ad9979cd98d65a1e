import MesonCheck.Proofs.Walk.Origins

/-! The grounds of every rule. Each rule reports about sites that it is given, and these are sites of the file. -/
namespace MesonCheck

def SourceFile.Locates (f : SourceFile) (x : Finding) : Prop :=
  f.HasSite x.first ∧ f.HasSite x.last

theorem SourceFile.HasSite.locates {f : SourceFile} {s : Site} (has : f.HasSite s) {i : Issue} :
    f.Locates (.about s i) :=
  ⟨has, has⟩

def Place.getterOf? (receiver : TypeSet) (args : List Argument) : Option String :=
  let key : TypeSet := (args[0]?.map (·.types)).getD []
  match receiver.first? .list, receiver.first? .dict, key.has .int, key.has .str with
  | some l, _, true, _ => if l.elems.isEmpty then some l.name else none
  | _, some d, _, true => if d.elems.isEmpty then some d.name else none
  | _, _, _, _ => if receiver.hasObject "cfg_data" then some "cfg_data" else none

namespace Place

/-- The types whose method `get` a visit reads by itself, with the state at that moment. -/
def getters (p : Place) (v : Visit) : List (String × Run) :=
  match v.task with
  | .node (.method _ receiver callee _ as) =>
    let recv := p.visit v.inLoop receiver v.before
    let args := p.visitAll v.inLoop as recv.2
    if callee.name = "get" then (getterOf? recv.1 (as.zipWith Argument.mk args.1)).toList.map (·, args.2) else []
  | _ => []

def grounds (p : Place) (V : Visit → Prop) : Grounds where
  reports f := p.file.Locates f ∧ Event.isCommon (.found f) = true
  faults f r := ∀ t, f = .missingGetter t →
    (∃ v, V v ∧ (t, r) ∈ p.getters v) ∧ p.cx.catalogue.methodOf? t "get" = none
  files r r' := ∃ v i, V v ∧ i ∈ p.inclusions v ∧ i.before.active.contains i.file.id = false ∧
    r = i.before ∧ r' = p.enter i.file r

variable {p : Place} {V : Visit → Prop} {f : Finding}

theorem report_grounded (here : p.file.Locates f) (common : Event.isCommon (.found f) = true) (r : Run) :
    Grounded (p.grounds V) r (r.report f) := by
  refine .report ?_ r
  exact ⟨here, common⟩

theorem reportIf_grounded {cond : Bool} (here : p.file.Locates f) (common : Event.isCommon (.found f) = true)
    (r : Run) : Grounded (p.grounds V) r (r.reportIf cond f) :=
  .ite (report_grounded here common r) (.refl r)

end Place

/-! Lints. -/

namespace Run

open Place (report_grounded reportIf_grounded)

variable {p : Place} {V : Visit → Prop} (cx : Setting) (r : Run)

theorem checkName_grounded {id : Ident} (here : p.file.HasSite id.site) :
    Grounded (p.grounds V) r (r.checkName cx id) :=
  reportIf_grounded here.locates rfl r

theorem checkBool_grounded {s : Site} (here : p.file.HasSite s) (ts : TypeSet) :
    Grounded (p.grounds V) r (r.checkBool s ts) :=
  reportIf_grounded here.locates rfl r

theorem checkResult_grounded (method : Site) {text : Site} (here : p.file.HasSite text) (value : String) :
    Grounded (p.grounds V) r (r.checkResult cx method text value) := by
  unfold checkResult
  split
  · exact reportIf_grounded here.locates rfl r
  · exact .refl r

theorem checkComparison_grounded (op : Operator) {left right : Node} (first : p.file.HasSite left.site)
    (second : p.file.HasSite right.site) :
    Grounded (p.grounds V) r (r.checkComparison cx op left right) := by
  unfold checkComparison
  split
  · split
    · exact r.checkResult_grounded cx _ second _
    · exact .refl r
    · exact r.checkResult_grounded cx _ first _
    · exact .refl r
  · exact .refl r

theorem checkDeprecated_grounded {callee : Ident} (here : p.file.HasSite callee.site) (f : Callable) :
    Grounded (p.grounds V) r (r.checkDeprecated cx callee f) := by
  unfold checkDeprecated
  split
  · exact report_grounded here.locates rfl r
  · exact .refl r

theorem checkKeyword_grounded {key : Ident} (here : p.file.HasSite key.site) :
    Grounded (p.grounds V) r (r.checkKeyword cx key) := by
  unfold checkKeyword
  split
  · exact .refl r
  · split
    · exact report_grounded here.locates rfl r
    · exact .refl r

theorem checkPlaceholders_grounded {s : Site} (here : p.file.HasSite s) (value : String) :
    Grounded (p.grounds V) r (r.checkPlaceholders s value) :=
  .foldl _ (fun r name _ => .trans (.use name r) (reportIf_grounded here.locates rfl _)) r

end Run

namespace Place

variable {p : Place} {V : Visit → Prop} (r : Run)

/-! Expressions. -/

theorem readVariable_grounded {id : Ident} (here : p.file.HasSite id.site) :
    Grounded (p.grounds V) r (readVariable id r).2 := by
  dsimp only [readVariable]
  refine .trans ?_ (.note rfl _)
  refine .trans ?_ (reportIf_grounded here.locates rfl _)
  refine .trans ?_ (.use ..)
  exact .trans (.note rfl r) (.annotate ..)

theorem readIndex_grounded (site : Site) (outer : TypeSet) : Grounded (p.grounds V) r (readIndex site outer r).2 := by
  dsimp only [readIndex, Run.typed]
  exact .trans (.annotate ..) (.note rfl _)

theorem noteKey_grounded (seen : List String) {key : Node} (here : p.file.HasSite key.site) :
    Grounded (p.grounds V) r (noteKey seen key r).2 := by
  unfold noteKey
  split
  · split
    · exact report_grounded here.locates rfl r
    · exact .refl r
  · exact .refl r

theorem applyOperator_grounded {site : Site} (here : p.file.HasSite site) (op : Option Operator) {left right : Node}
    (first : p.file.HasSite left.site) (second : p.file.HasSite right.site) (l m : TypeSet) :
    Grounded (p.grounds V) r (p.applyOperator site op left right l m r).2 := by
  cases op with
  | none =>
    dsimp only [applyOperator, Run.typed, Prod.map]
    exact .trans (.annotate ..) (report_grounded here.locates rfl _)
  | some o =>
    dsimp only [applyOperator, Run.typed]
    refine .trans ?_ (Run.checkComparison_grounded _ _ _ first second)
    exact .trans (reportIf_grounded here.locates rfl r) (.annotate ..)

/-! Assignments and loops. -/

theorem assign_grounded {site : Site} (here : p.file.HasSite site) {id : Ident} (target : p.file.HasSite id.site)
    (value : Node) (ts : TypeSet) : Grounded (p.grounds V) r (p.assign site id value ts r) := by
  dsimp only [assign]
  split
  · exact .trans (report_grounded here.locates rfl r) (.note rfl _)
  · refine .trans ?_ (.note rfl _)
    refine .trans ?_ (.owe ..)
    refine .trans ?_ (.bind ..)
    exact .trans (.annotate ..) (Run.checkName_grounded _ _ target)

theorem augment_grounded {site : Site} (here : p.file.HasSite site) (op : Operator) (id : Ident) (before ts : TypeSet) :
    Grounded (p.grounds V) r (augment site op id before ts r) := by
  dsimp only [augment]
  exact .trans (.trans (reportIf_grounded here.locates rfl r) (.annotate ..)) (.bind ..)

theorem assignTo_grounded {site : Site} (here : p.file.HasSite site) (op : Operator) {target : Node}
    (at' : p.file.HasSite target.site) (value : Node) (before ts : TypeSet) :
    Grounded (p.grounds V) r (p.assignTo site op target value before ts r) := by
  cases target with
  | ident id =>
    unfold assignTo
    dsimp only
    split
    · exact report_grounded at'.locates rfl r
    · split
      · exact assign_grounded r here at' value ts
      · exact augment_grounded r here op id before ts
  | _ => exact report_grounded at'.locates rfl r

theorem loopStart_grounded {ids : List Ident} (named : ∀ id ∈ ids, p.file.HasSite id.site) {subject : Node}
    (here : p.file.HasSite subject.site) (ts : TypeSet) : Grounded (p.grounds V) r (loopStart ids subject ts r) := by
  dsimp only [loopStart]
  refine .trans ?_ (.foldl _ (fun r b _ => .annotate b.1.site b.2 r) _)
  have checked {i : Issue} (found : (loopTypes ids.length ts).2 = some i) :
      Grounded (p.grounds V) r (r.report (.about subject.site i)) :=
    report_grounded here.locates (Event.isCommon_of_isMisuse (isMisuse_of_loopTypes found)) r
  split
  · rename_i counted
    have sites : ∀ s ∈ ids.map (·.site), p.file.HasSite s := by simpa using named
    obtain ⟨a, first, b, last, rfl⟩ := Finding.exists_of_across counted
    refine .trans ?_ (report_grounded ⟨sites a first, sites b last⟩ rfl _)
    split
    · exact checked ‹_›
    · exact .refl r
  · split
    · exact checked ‹_›
    · exact .refl r

theorem bindLoop_grounded {ids : List Ident} (named : ∀ id ∈ ids, p.file.HasSite id.site) {subject : Node}
    (here : p.file.HasSite subject.site) (ts : TypeSet) : Grounded (p.grounds V) r (p.bindLoop ids subject ts r) := by
  refine .trans (loopStart_grounded r named here ts) (.foldl _ (fun r b member => ?_) _)
  have among : b.1 ∈ ids := (List.of_mem_zip (List.mem_reverse.mp member)).1
  exact .trans (.trans (.bind ..) (Run.checkName_grounded _ _ (named _ among))) (.note rfl _)

/-! Functions. -/

theorem keep_grounded (s : Site) : Grounded (p.grounds V) r (p.keep s r).2 := by
  unfold keep
  split
  · exact .refl r
  · exact .note rfl r

theorem guess_grounded (n : Node) : Grounded (p.grounds V) r (p.guess n r).2 := by
  unfold guess
  split
  · exact .refl r
  · exact .fail nofun

theorem checkCall_grounded {site : Site} (here : p.file.HasSite site) {callee : Ident}
    (named : p.file.HasSite callee.site) (f : Callable) {args : List Argument}
    (given : ∀ a ∈ args, p.file.HasSite a.node.site) :
    Grounded (p.grounds V) r (p.checkCall site callee f args r) := by
  dsimp only [checkCall]
  have misuses := Misuses.findings p.file.HasSite f site args here given
  refine .trans ?_ (Run.checkDeprecated_grounded _ _ named f)
  refine .trans ?_ (.foldl _ ?_ _)
  · refine .trans (b := r.resolve site f) (.event rfl rfl rfl) (.reportAll ?_ _)
    intro finding member
    obtain ⟨misuse, spot⟩ := misuses finding member
    exact ⟨spot, Event.isCommon_of_isMisuse misuse⟩
  · intro r a _
    split
    · exact .refl r
    · exact .note rfl r

theorem subprojectTypes_grounded {site : Site} (here : p.file.HasSite site) (args : List Argument) :
    Grounded (p.grounds V) r (p.subprojectTypes site args r).2 := by
  cases args with
  | nil => exact .ite (.refl r) (report_grounded here.locates rfl r)
  | cons a args =>
    have guessed : Grounded (p.grounds V) r (p.guess a.node r).2 := guess_grounded r a.node
    exact .ite guessed (guessed.trans (report_grounded here.locates rfl _))

theorem checkOption_grounded {site : Site} (here : p.file.HasSite site) (args : List Argument) :
    Grounded (p.grounds V) r (p.checkOption site args r) := by
  unfold checkOption
  split
  · split
    · exact report_grounded here.locates rfl r
    · exact reportIf_grounded here.locates rfl r
  · exact .refl r

theorem variableTypes_grounded (f : Callable) (args : List Argument) :
    Grounded (p.grounds V) r (p.variableTypes f args r).2 := by
  cases args with
  | nil => exact .refl r
  | cons a rest =>
    unfold variableTypes
    dsimp only
    split
    · exact .use ..
    · exact .trans (guess_grounded r a.node) (.foldl _ (fun r n _ => .use n r) _)

theorem setVariable_grounded (args : List Argument) : Grounded (p.grounds V) r (p.setVariable args r) := by
  unfold setVariable
  split
  · rename_i a value _
    split
    · exact .bind ..
    · exact .trans (guess_grounded r a.node) (.foldl _ (fun r n _ => .bind n value.types r) _)
  · exact .refl r

def GroundsEntry (p : Place) (V : Visit → Prop) (i : Inclusion) : Prop :=
  i.before.active.contains i.file.id = false → Grounded (p.grounds V) i.before (p.enter i.file i.before)

variable {r}

theorem includeDir_grounded {site : Site} (here : p.file.HasSite site) {dir : String} {missing : Run → Run}
    (enters : ∀ f, p.cx.tree.lookup (subdirPath p.file.path dir) = some f → p.GroundsEntry V ⟨site, f, r⟩)
    (otherwise : Grounded (p.grounds V) r (missing r)) :
    Grounded (p.grounds V) r (p.includeDir site missing r dir) := by
  unfold includeDir
  split
  · rename_i f found
    unfold includeFile
    split
    · exact report_grounded here.locates rfl r
    · rename_i fresh
      exact enters f found (by simpa using fresh)
  · exact otherwise

theorem foldl_includeDir_grounded {site : Site} (here : p.file.HasSite site) {dirs : List String}
    (enters : ∀ i ∈ p.resolvedBy site dirs r, p.GroundsEntry V i) :
    Grounded (p.grounds V) r (dirs.foldl (p.includeDir site id) r) := by
  induction dirs generalizing r with
  | nil => exact .refl r
  | cons dir dirs ih =>
    obtain ⟨first, rest⟩ := List.forall_mem_append.mp enters
    refine .trans (includeDir_grounded here (fun f found => first _ ?_) (.refl r)) (ih rest)
    rw [found]
    exact List.mem_singleton_self _

theorem subdir_grounded {site : Site} (here : p.file.HasSite site) {args : List Argument}
    (enters : ∀ i ∈ p.resolved site args r, p.GroundsEntry V i) :
    Grounded (p.grounds V) r (p.subdir site args r) := by
  have noted : Grounded (p.grounds V) r (r.emit (.included site.range)) := .note rfl r
  cases args with
  | nil => exact noted
  | cons a rest =>
    dsimp only [subdir, resolved] at enters ⊢
    cases literal : a.node.text? with
    | some dir =>
      rw [literal] at enters
      refine noted.trans (includeDir_grounded here (fun f found => enters _ ?_) (report_grounded here.locates rfl _))
      simp [resolvedBy, found]
    | none =>
      rw [literal] at enters
      exact .trans (noted.trans (guess_grounded _ a.node)) (foldl_includeDir_grounded here enters)

theorem applyFunction_grounded {site : Site} (here : p.file.HasSite site) {f : Callable} {args : List Argument}
    (enters : f.name = "subdir" → ∀ i ∈ p.resolved site args r, p.GroundsEntry V i) :
    Grounded (p.grounds V) r (p.applyFunction site f args r).2 := by
  unfold applyFunction
  split
  · exact subprojectTypes_grounded r here args
  · exact variableTypes_grounded r f args
  · exact setVariable_grounded r args
  · exact checkOption_grounded r here args
  · exact subdir_grounded here (enters ‹_›)
  · exact .refl r

theorem callFunction_grounded {site : Site} (here : p.file.HasSite site) {callee : Ident}
    (named : p.file.HasSite callee.site) {args : List Argument} (given : ∀ a ∈ args, p.file.HasSite a.node.site)
    (enters : ∀ f, p.cx.catalogue.function? callee.name = some f → f.name = "subdir" →
      ∀ i ∈ p.resolved site args r, p.GroundsEntry V i) :
    Grounded (p.grounds V) r (p.callFunction site callee args r).2 := by
  unfold callFunction
  split
  · exact .trans (keep_grounded r site) (report_grounded here.locates rfl _)
  · rename_i f found
    refine .trans (applyFunction_grounded here (enters f found)) ?_
    exact .trans (.annotate ..) (checkCall_grounded _ here named f given)

/-! Methods. -/

theorem foreignTypes_grounded {site : Site} (here : p.file.HasSite site) (handle : Ty) (args : List Argument)
    (r : Run) : Grounded (p.grounds V) r (p.foreignTypes site handle args r).2 := by
  unfold foreignTypes
  split
  · exact .trans (guess_grounded r _) (reportIf_grounded here.locates rfl _)
  · exact .refl r

theorem foldl_resolveMember_grounded {site : Site} (here : p.file.HasSite site) (name : String) (args : List Argument)
    (ts : TypeSet) (found : Match × Run) :
    Grounded (p.grounds V) found.2 (ts.foldl (p.resolveMember site name args) found).2 := by
  induction ts generalizing found with
  | nil => exact .refl _
  | cons t ts ih =>
    refine .trans ?_ (ih _)
    unfold resolveMember
    dsimp only
    split
    · exact .refl _
    · split
      · exact .refl _
      · split
        · exact foreignTypes_grounded here _ _ found.2
        · exact .refl _

theorem resolveGet_eq (receiver : TypeSet) (args : List Argument) (r : Run) :
    (p.resolveGet receiver args r).2 = (getterOf? receiver args).elim r fun t =>
      if p.cx.catalogue.methodOf? t "get" = none then r.fail (.missingGetter t) else r := by
  have element (container : Ty) (fallback : TypeSet) : (p.getElement container fallback r).2 =
      (if container.elems.isEmpty then some container.name else none).elim r fun t =>
        if p.cx.catalogue.methodOf? t "get" = none then r.fail (.missingGetter t) else r := by
    unfold getElement
    cases container.elems with
    | nil => cases found : p.cx.catalogue.methodOf? container.name "get" <;> simp [found]
    | cons => rfl
  dsimp only [resolveGet, getterOf?]
  generalize ((args[0]?.map (·.types)).getD [] : TypeSet) = key
  -- both sides choose the container by the same four facts
  cases receiver.first? .list <;> cases receiver.first? .dict <;> cases key.has .int <;> cases key.has .str <;>
    try exact element ..
  all_goals
    cases receiver.hasObject "cfg_data" with
    | false => rfl
    | true => cases found : p.cx.catalogue.methodOf? "cfg_data" "get" <;> simp [found]

theorem resolveMethod_grounded {site : Site} (here : p.file.HasSite site) {name : String} {receiver : TypeSet}
    {args : List Argument} (breaks : ∀ t, name = "get" → getterOf? receiver args = some t →
      p.cx.catalogue.methodOf? t "get" = none → (p.grounds V).faults (.missingGetter t) r) :
    Grounded (p.grounds V) r (p.resolveMethod site name receiver args r).2 := by
  unfold resolveMethod
  split
  · rename_i asked
    rw [resolveGet_eq]
    cases read : getterOf? receiver args with
    | none => exact .refl r
    | some t =>
      dsimp only [Option.elim]
      split
      · rename_i missing
        exact .fail (breaks t asked read missing)
      · exact .refl r
  · exact foldl_resolveMember_grounded here name args receiver ((none, []), r)

theorem missMethod_grounded {site : Site} (here : p.file.HasSite site) (name : String) (receiver : TypeSet) (r : Run) :
    Grounded (p.grounds V) r (missMethod site name receiver r) := by
  unfold missMethod
  split
  · exact .refl r
  · exact report_grounded here.locates rfl r

theorem checkFormat_grounded {site : Site} (here : p.file.HasSite site) {receiver : Node}
    (before : p.file.HasSite receiver.site) (f : Callable) {args : List Argument}
    (given : ∀ a ∈ args, p.file.HasSite a.node.site) (r : Run) :
    Grounded (p.grounds V) r (checkFormat site receiver f args r) := by
  unfold checkFormat
  split
  · rename_i s value _
    refine .ite (.reportAll (fun finding member => ?_) r) (.refl r)
    have misuses := Misuses.formatFindings p.file.HasSite value here before given
    obtain ⟨misuse, spot⟩ := misuses finding member
    exact ⟨spot, Event.isCommon_of_isMisuse misuse⟩
  · exact .refl r

section

variable {site : Site} (here : p.file.HasSite site) {receiver : Node} (before : p.file.HasSite receiver.site)
  {types : TypeSet} {callee : Ident} (named : p.file.HasSite callee.site) {args : List Argument}
  (given : ∀ a ∈ args, p.file.HasSite a.node.site)
include here before named given

theorem resolved_grounded : Grounded (p.grounds V) (p.resolveMethod site callee.name types args r).2
    (p.callMethod site receiver types callee args r).2 := by
  dsimp only [callMethod]
  split
  · exact .trans (keep_grounded _ site) (missMethod_grounded here callee.name types _)
  · rename_i f ts _
    refine .trans ?_ (checkFormat_grounded here before f given _)
    exact .trans (.annotate ..) (checkCall_grounded _ here named f given)

theorem callMethod_grounded (breaks : ∀ t, callee.name = "get" → getterOf? types args = some t →
      p.cx.catalogue.methodOf? t "get" = none → (p.grounds V).faults (.missingGetter t) r) :
    Grounded (p.grounds V) r (p.callMethod site receiver types callee args r).2 :=
  .trans (resolveMethod_grounded here breaks) (resolved_grounded here before named given)

end

/-! Blocks and files. -/

theorem deadCode_grounded {ns : List Node} (inside : ∀ o ∈ Node.outlines ns, p.file.outline.Has o) {f : Finding}
    (dead : deadCode? ns = some f) (r : Run) : Grounded (p.grounds V) r (r.report f) := by
  have sites : ∀ s ∈ (ns.dropWhile (!·.isTerminating)).tail.map Node.site, p.file.HasSite s := by
    intro s member
    obtain ⟨n, later, rfl⟩ := List.mem_map.mp member
    have among : n ∈ ns := (List.dropWhile_sublist _).mem (List.mem_of_mem_tail later)
    exact Node.hasSite (inside _ (Node.mem_outlines among))
  obtain ⟨a, first, b, last, rfl⟩ := Finding.exists_of_across dead
  exact report_grounded ⟨sites a first, sites b last⟩ rfl r

theorem checkProject_grounded {b : Body} (parsed : p.file.body = some b) (r : Run) :
    Grounded (p.grounds V) r (checkProject b r) := by
  have top := SourceFile.has_body parsed
  unfold checkProject
  split
  · have here : p.file.HasSite b.site := ⟨_, top, rfl⟩
    exact report_grounded here.locates rfl r
  · rename_i s callee argSite as rest first
    split
    · exact .silent rfl rfl
    · have has := top.child (Node.mem_outlines (first ▸ List.mem_cons_self))
      exact report_grounded (Node.hasSite has).locates rfl r
  · rename_i n rest _ first
    have has := top.child (Node.mem_outlines (first ▸ List.mem_cons_self))
    exact report_grounded (Node.hasSite has).locates rfl r

end Place

end MesonCheck
