import MesonCheck.Analysis.Statement
import MesonCheck.Proofs.Catalogue.Normal
import MesonCheck.Proofs.Types.Merge

/-! Everything that a walk writes is in normal form. Some rules normalise what they write, others copy it from a place
that holds normal sets already: an expression, a variable, a signature, the elements of a container. So the types that
a node is given and the state behind it are normal if the state before it is. -/
namespace MesonCheck

section

variable {κ : Type} [Ord κ] [Std.TransOrd κ]

def AllNormal (m : Std.ExtTreeMap κ TypeSet) : Prop :=
  ∀ (k : κ) (ts : TypeSet), m[k]? = some ts → TypeSet.IsNormal ts

namespace AllNormal

theorem empty : AllNormal (∅ : Std.ExtTreeMap κ TypeSet) := by
  intro k ts found
  simp at found

theorem insert {m : Std.ExtTreeMap κ TypeSet} (normal : AllNormal m) (k : κ) {ts : TypeSet}
    (new : TypeSet.IsNormal ts) : AllNormal (m.insert k ts) := by
  intro a us found
  rw [Std.ExtTreeMap.getElem?_insert] at found
  split at found
  · exact Option.some.inj found ▸ new
  · exact normal a us found

theorem insertIfNew {m : Std.ExtTreeMap κ TypeSet} (normal : AllNormal m) (k : κ) {ts : TypeSet}
    (new : TypeSet.IsNormal ts) : AllNormal (m.insertIfNew k ts) := by
  intro a us found
  rw [Std.ExtTreeMap.getElem?_insertIfNew] at found
  split at found
  · exact Option.some.inj found ▸ new
  · exact normal a us found

theorem ofList {bs : List (κ × TypeSet)} (normal : ∀ b ∈ bs, TypeSet.IsNormal b.2) :
    AllNormal (Std.ExtTreeMap.ofList bs) := by
  have inserted : ∀ (bs : List (κ × TypeSet)) (m : Std.ExtTreeMap κ TypeSet), (∀ b ∈ bs, TypeSet.IsNormal b.2) →
      AllNormal m → AllNormal (m.insertMany bs) := by
    intro bs
    induction bs with
    | nil => simp
    | cons b bs ih =>
      intro m normal old
      rw [Std.ExtTreeMap.insertMany_cons]
      obtain ⟨first, rest⟩ := List.forall_mem_cons.mp normal
      exact ih _ rest (old.insert b.1 first)
  rw [Std.ExtTreeMap.ofList_eq_insertMany_empty]
  exact inserted bs ∅ normal .empty

theorem union {m n : Std.ExtTreeMap κ TypeSet} (first : AllNormal m) (second : AllNormal n) : AllNormal (m ∪ n) := by
  intro k ts found
  rw [Std.ExtTreeMap.getElem?_union, Option.or_eq_some_iff] at found
  rcases found with new | ⟨_, old⟩
  · exact second k ts new
  · exact first k ts old

theorem getD {m : Std.ExtTreeMap κ TypeSet} (normal : AllNormal m) (k : κ) : TypeSet.IsNormal (m.getD k []) := by
  rw [Std.ExtTreeMap.getD_eq_getD_getElem?]
  cases found : m[k]? with
  | none => trivial
  | some ts => exact normal k ts found

end AllNormal

end

def Event.IsNormal : Event → Prop
  | .bound _ ts _ | .read _ ts | .stale _ ts => TypeSet.IsNormal ts
  | _ => True

/-- Whether all types in a state are normal: what variables stand for in any frame, what the open selections have noted
and saved, what nodes have been given, and everything that was ever bound or read. -/
structure Run.IsNormal (r : Run) : Prop where
  scope : ∀ f ∈ r.scope.frames, AllNormal f
  assigned : ∀ s ∈ r.selections, AllNormal s.assigned
  overridden : ∀ s ∈ r.selections, AllNormal s.overridden
  slots : AllNormal r.slots
  history : ∀ e ∈ r.log, e.IsNormal

theorem Scope.lookup_isNormal {s : Scope} (normal : ∀ f ∈ s.frames, AllNormal f) {x : String} {ts : TypeSet}
    (known : s.lookup x = some ts) : TypeSet.IsNormal ts := by
  obtain ⟨f, member, found⟩ := List.exists_of_findSome?_eq_some known
  exact normal f member x ts found

theorem TypeSet.union_isNormal (a b : TypeSet) : TypeSet.IsNormal (a.union b) :=
  TypeSet.normal_isNormal _

namespace Run.IsNormal

variable {r : Run} (h : r.IsNormal)
include h

/-! Steps. -/

theorem lookup {x : String} {ts : TypeSet} (known : r.scope.lookup x = some ts) : TypeSet.IsNormal ts :=
  Scope.lookup_isNormal h.scope known

theorem emit {e : Event} (normal : e.IsNormal) : (r.emit e).IsNormal where
  scope := h.scope
  assigned := h.assigned
  overridden := h.overridden
  slots := h.slots
  history := List.forall_mem_cons.mpr ⟨normal, h.history⟩

theorem of_eq {r' : Run} (scope : r'.scope = r.scope) (selections : r'.selections = r.selections)
    (slots : r'.slots = r.slots) (log : r'.log = r.log) : r'.IsNormal where
  scope := scope ▸ h.scope
  assigned := selections ▸ h.assigned
  overridden := selections ▸ h.overridden
  slots := slots ▸ h.slots
  history := log ▸ h.history

theorem annotate (s : Site) {ts : TypeSet} (normal : TypeSet.IsNormal ts) : (r.annotate s ts).IsNormal where
  scope := h.scope
  assigned := h.assigned
  overridden := h.overridden
  slots := h.slots.insert s.slot normal
  history := h.history

theorem resolve (s : Site) (f : Callable) : (r.resolve s f).IsNormal :=
  (h.emit (e := .resolved s f) trivial).of_eq rfl rfl rfl rfl

theorem use (x : String) : (r.use x).IsNormal :=
  (h.emit (e := .used x) trivial).of_eq rfl rfl rfl rfl

theorem owe (d : Debt) : (r.owe d).IsNormal := by
  unfold Run.owe
  split
  · exact h
  · exact (h.emit (e := .owed d.name) trivial).of_eq rfl rfl rfl rfl

theorem carry (ds : List Debt) : (r.carry ds).IsNormal := by
  unfold Run.carry
  split
  · exact h
  · exact h.of_eq rfl rfl rfl rfl

theorem report (f : Finding) : (r.report f).IsNormal :=
  h.emit trivial

omit h in
theorem ite {c : Prop} [Decidable c] {a b : Run} (yes : a.IsNormal) (no : b.IsNormal) :
    Run.IsNormal (if c then a else b) := by
  split
  · exact yes
  · exact no

theorem reportIf (cond : Bool) (f : Finding) :
    (r.reportIf cond f).IsNormal :=
  .ite (h.report ..) h

theorem bind (x : String) {ts : TypeSet} (normal : TypeSet.IsNormal ts) : (r.bind x ts).IsNormal := by
  have frames : ∀ f ∈ (r.scope.bind x ts).frames, AllNormal f :=
    List.forall_mem_cons.mpr ⟨(h.scope _ List.mem_cons_self).insert x normal,
      fun f outer => h.scope f (List.mem_cons_of_mem _ outer)⟩
  unfold Run.bind Run.note
  cases open_ : r.selections with
  | nil =>
    refine ⟨frames, ?_, ?_, h.slots, List.forall_mem_cons.mpr ⟨normal, h.history⟩⟩
    · simp [open_]
    · simp [open_]
  | cons s outer =>
    have assigned := List.forall_mem_cons.mp (open_ ▸ h.assigned)
    have overridden := List.forall_mem_cons.mp (open_ ▸ h.overridden)
    refine ⟨frames, ?_, ?_, h.slots, List.forall_mem_cons.mpr ⟨normal, h.history⟩⟩
    · exact List.forall_mem_cons.mpr ⟨assigned.1.insert x (TypeSet.union_isNormal ..), assigned.2⟩
    · refine List.forall_mem_cons.mpr ⟨?_, overridden.2⟩
      -- what is saved is what the scope held, so it is as normal as the scope
      cases known : r.scope.lookup x with
      | none => exact overridden.1
      | some prev => exact overridden.1.insertIfNew x (h.lookup known)

theorem foldl {α : Type} {f : Run → α → Run} {as : List α}
    (step : ∀ a ∈ as, ∀ r : Run, r.IsNormal → (f r a).IsNormal) : (as.foldl f r).IsNormal := by
  induction as generalizing r with
  | nil => exact h
  | cons a as ih =>
    have head := step a List.mem_cons_self r h
    exact ih head fun b member => step b (List.mem_cons_of_mem _ member)

theorem reportAll (fs : List Finding) : (r.reportAll fs).IsNormal :=
  h.foldl fun _ _ _ normal => normal.emit trivial

/-! Brackets. -/

theorem openDebts : r.openDebts.IsNormal :=
  h.of_eq rfl rfl rfl rfl

theorem closeDebts : r.closeDebts.2.IsNormal :=
  h.of_eq rfl rfl rfl rfl

theorem openFile (id : Nat) : (r.openFile id).IsNormal :=
  h.of_eq rfl rfl rfl rfl

theorem closeFile : r.closeFile.IsNormal :=
  h.of_eq rfl rfl rfl rfl

theorem ignore (names : List String) : (r.ignore names).IsNormal :=
  h.of_eq rfl rfl rfl rfl

theorem unignore (names : List String) : (r.unignore names).IsNormal :=
  h.of_eq rfl rfl rfl rfl

theorem openSelection : (Place.openSelection r).IsNormal where
  scope := h.scope
  assigned := List.forall_mem_cons.mpr ⟨.empty, h.assigned⟩
  overridden := List.forall_mem_cons.mpr ⟨.empty, h.overridden⟩
  slots := h.slots
  history := h.history

/-- What the branches assigned is merged in a union, which is normal whatever it is made of. -/
theorem closeSelection (isExhaustive : Bool) (before : Frame) :
    (Place.closeSelection isExhaustive before r).IsNormal := by
  unfold Place.closeSelection
  cases open_ : r.selections with
  | nil => exact h
  | cons s outer =>
    have popped : Run.IsNormal { r with selections := outer } :=
      ⟨h.scope, (List.forall_mem_cons.mp (open_ ▸ h.assigned)).2,
        (List.forall_mem_cons.mp (open_ ▸ h.overridden)).2, h.slots, h.history⟩
    refine popped.foldl ?_
    rintro ⟨x, ts⟩ member r normal
    apply normal.bind
    obtain ⟨⟨y, us⟩, _, same⟩ := List.mem_map.mp member
    cases same
    unfold Place.mergedTypes
    split <;> exact TypeSet.union_isNormal ..

theorem push : Run.IsNormal { r with scope := r.scope.push } :=
  ⟨List.forall_mem_cons.mpr ⟨.empty, h.scope⟩, h.assigned, h.overridden, h.slots, h.history⟩

theorem flush : Run.IsNormal { r with scope := r.scope.flush } := by
  refine ⟨?_, h.assigned, h.overridden, h.slots, h.history⟩
  obtain ⟨inner, outer⟩ := List.forall_mem_cons.mp h.scope
  unfold Scope.flush
  cases open_ : r.scope.outer with
  | nil => exact h.scope
  | cons f fs =>
    obtain ⟨next, rest⟩ := List.forall_mem_cons.mp (open_ ▸ outer)
    exact List.forall_mem_cons.mpr ⟨next.union inner, rest⟩

/-! Lints. -/

variable (cx : Setting) (file : String)

theorem checkComparison (op : Operator) (left right : Node) : (r.checkComparison cx op left right).IsNormal := by
  have result : ∀ (m s : Site) (t : String), (r.checkResult cx m s t).IsNormal := by
    intro m s t
    unfold Run.checkResult
    split
    · exact h.reportIf ..
    · exact h
  unfold Run.checkComparison
  split
  · split
    · exact result ..
    · exact h
    · exact result ..
    · exact h
  · exact h

theorem checkBool (s : Site) (ts : TypeSet) : (r.checkBool s ts).IsNormal :=
  h.reportIf ..

theorem checkPlaceholders (s : Site) (value : String) : (r.checkPlaceholders s value).IsNormal :=
  h.foldl fun name _ _ normal => (normal.use name).reportIf ..

theorem checkDeprecated (callee : Ident) (f : Callable) : (r.checkDeprecated cx callee f).IsNormal := by
  unfold Run.checkDeprecated
  split
  · exact h.report ..
  · exact h

theorem checkKeyword (key : Ident) : (r.checkKeyword cx key).IsNormal := by
  unfold Run.checkKeyword
  split
  · exact h
  · split
    · exact h.report ..
    · exact h

theorem settle (ds : List Debt) : (r.settle cx ds).IsNormal :=
  h.foldl fun _ _ _ normal => normal.reportIf ..

end Run.IsNormal

/-! The surroundings of a walk. -/

structure Setting.IsNormal (cx : Setting) : Prop where
  catalogue : cx.catalogue.IsNormal
  earlier : AllNormal cx.earlier

/-- Whether the walk of a file finds only normal types around it and in the files that it includes. -/
structure Place.IsNormal (p : Place) : Prop where
  setting : p.cx.IsNormal
  enter : ∀ (f : SourceFile) (r : Run), r.IsNormal → (p.enter f r).IsNormal

def NormalResult (x : TypeSet × Run) : Prop :=
  TypeSet.IsNormal x.1 ∧ x.2.IsNormal

namespace Place

variable {p : Place} (normal : p.IsNormal) {r : Run} (h : r.IsNormal)
include h

/-! Expressions. -/

theorem typed_isNormal (s : Site) {ts : TypeSet} (types : TypeSet.IsNormal ts) : NormalResult (r.typed s ts) :=
  ⟨types, h.annotate s types⟩

theorem readVariable_isNormal (id : Ident) : NormalResult (readVariable id r) := by
  have types : TypeSet.IsNormal (r.reading id.name) := TypeSet.union_isNormal ..
  refine ⟨types, ?_⟩
  have read := (h.emit (e := .read id (r.reading id.name)) types).annotate id.site types
  exact ((read.use id.name).reportIf ..).emit trivial

theorem readIndex_isNormal (site : Site) (outer : TypeSet) : NormalResult (readIndex site outer r) :=
  ⟨TypeSet.normal_isNormal _, (h.annotate site (TypeSet.normal_isNormal _)).emit trivial⟩

theorem noteKey_isNormal (seen : List String) (key : Node) : (noteKey seen key r).2.IsNormal := by
  unfold noteKey
  split
  · split
    · exact h.report ..
    · exact h
  · exact h

theorem applyOperator_isNormal (site : Site) (op : Option Operator) (left right : Node) (l m : TypeSet) :
    NormalResult (p.applyOperator site op left right l m r) := by
  cases op with
  | none =>
    have types := TypeSet.union_isNormal l m
    exact ⟨types, (h.annotate site types).report ..⟩
  | some o =>
    have types := TypeSet.normal_isNormal (TypeSet.combine (some o) l m)
    exact ⟨types, ((h.reportIf ..).annotate site types).checkComparison ..⟩

/-! Assignments and loops. -/

theorem assign_isNormal (site : Site) (id : Ident) (value : Node) {ts : TypeSet} (types : TypeSet.IsNormal ts) :
    (p.assign site id value ts r).IsNormal := by
  unfold assign
  split
  · exact (h.report ..).emit trivial
  · have named : Run.IsNormal ((r.annotate id.site ts).checkName p.cx id) :=
      (h.annotate id.site types).reportIf ..
    exact ((named.bind id.name types).owe _).emit trivial

theorem augment_isNormal (site : Site) (op : Operator) (id : Ident) (before ts : TypeSet) :
    (augment site op id before ts r).IsNormal := by
  dsimp only [augment]
  split
  · exact ((h.reportIf ..).annotate id.site (TypeSet.normal_isNormal _)).bind id.name (TypeSet.normal_isNormal _)
  · exact ((h.reportIf ..).annotate id.site (TypeSet.normal_isNormal _)).bind id.name (TypeSet.normal_isNormal _)

theorem assignTo_isNormal (site : Site) (op : Operator) (target value : Node) (before : TypeSet) {ts : TypeSet}
    (types : TypeSet.IsNormal ts) : (p.assignTo site op target value before ts r).IsNormal := by
  unfold assignTo
  split
  · split
    · exact h.report ..
    · split
      · exact assign_isNormal h site _ value types
      · exact augment_isNormal h ..
  · exact h.report ..

omit h in
/-- Elements are normalised; keys and values of a dict are copied. -/
theorem loopTypes_isNormal (ids : Nat) {subject : TypeSet} (types : TypeSet.IsNormal subject) :
    ∀ ts ∈ (loopTypes ids subject).1, TypeSet.IsNormal ts := by
  have text : TypeSet.IsNormal [Ty.str] := TypeSet.singleton_isNormal trivial
  unfold loopTypes
  split
  · simpa using TypeSet.normal_isNormal _
  · split
    · rename_i d found
      have dict := TypeSet.isNormal_of_mem types (List.mem_of_find?_eq_some found)
      simpa using ⟨text, Ty.isNormal_elems dict⟩
    · simpa using ⟨text, trivial⟩
  · simp

theorem bindLoop_isNormal (ids : List Ident) (subject : Node) {ts : TypeSet} (types : TypeSet.IsNormal ts) :
    (p.bindLoop ids subject ts r).IsNormal := by
  have elems := loopTypes_isNormal ids.length types
  have bound : ∀ b ∈ ids.zip (loopTypes ids.length ts).1, TypeSet.IsNormal b.2 :=
    fun b member => elems b.2 (List.of_mem_zip member).2
  dsimp only [bindLoop]
  -- the reports come first, then the annotations, then the bindings in the opposite order
  refine Run.IsNormal.foldl (Run.IsNormal.foldl ?_ ?_) ?_
  · split
    · refine Run.IsNormal.report ?_ ..
      split
      · exact h.report ..
      · exact h
    · split
      · exact h.report ..
      · exact h
  · intro b member r normal
    exact normal.annotate b.1.site (bound b member)
  · intro b member r normal
    exact ((normal.bind b.1.name (bound b (List.mem_reverse.mp member))).reportIf ..).emit trivial

/-! Calls. -/

include normal in
theorem keep_isNormal (s : Site) : NormalResult (p.keep s r) := by
  unfold keep
  cases found : r.slots[s.slot]? with
  | some ts => exact ⟨h.slots s.slot ts found, h⟩
  | none =>
    -- the types are copied from an earlier analysis, the only place where this one reads them
    have types := normal.setting.earlier.getD s.slot
    exact ⟨types, h.emit types⟩

theorem guess_isNormal (n : Node) : (p.guess n r).2.IsNormal := by
  unfold guess
  split
  · exact h
  · exact h.of_eq rfl rfl rfl rfl

theorem checkCall_isNormal (site : Site) (callee : Ident) (f : Callable) (args : List Argument) :
    (p.checkCall site callee f args r).IsNormal := by
  dsimp only [checkCall]
  refine Run.IsNormal.checkDeprecated (Run.IsNormal.foldl ((h.resolve site f).reportAll ..) ?_) ..
  intro a _ r normal
  split
  · exact normal
  · exact normal.emit trivial

theorem subprojectTypes_isNormal (site : Site) (args : List Argument) :
    NormalResult (p.subprojectTypes site args r) := by
  have handle (names : List String) : TypeSet.IsNormal [.handle names] :=
    TypeSet.singleton_isNormal (Text.sortedUnique_sorted names)
  cases args with
  | nil => exact ⟨handle _, .ite h (h.report ..)⟩
  | cons a args =>
    have guessed := guess_isNormal (p := p) h a.node
    exact ⟨handle _, .ite guessed (guessed.report ..)⟩

theorem checkOption_isNormal (site : Site) (args : List Argument) : (p.checkOption site args r).IsNormal := by
  unfold checkOption
  split
  · split
    · exact h.report ..
    · exact h.reportIf ..
  · exact h

theorem variableTypes_isNormal {f : Callable} (returns : TypeSet.IsNormal f.returns) (args : List Argument) :
    NormalResult (p.variableTypes f args r) := by
  unfold variableTypes
  split
  · exact ⟨returns, h⟩
  · dsimp only
    split
    · exact ⟨TypeSet.normal_isNormal _, h.use _⟩
    · refine ⟨TypeSet.normal_isNormal _, (guess_isNormal h _).foldl ?_⟩
      exact fun n _ _ normal => normal.use n

theorem setVariable_isNormal {args : List Argument} (types : ∀ a ∈ args, TypeSet.IsNormal a.types) :
    (p.setVariable args r).IsNormal := by
  unfold setVariable
  split
  · rename_i a value rest
    have value := types value (by simp)
    split
    · exact h.bind _ value
    · exact (guess_isNormal h _).foldl fun n _ _ normal => normal.bind n value
  · exact h

include normal

theorem includeDir_isNormal (site : Site) (missing : Run → Run) (dir : String)
    (otherwise : ∀ r : Run, r.IsNormal → (missing r).IsNormal) : (p.includeDir site missing r dir).IsNormal := by
  unfold includeDir
  split
  · unfold includeFile
    split
    · exact h.report ..
    · exact normal.enter _ r h
  · exact otherwise r h

theorem subdir_isNormal (site : Site) (args : List Argument) : (p.subdir site args r).IsNormal := by
  have noted : (r.emit (.included site.range)).IsNormal := h.emit trivial
  dsimp only [subdir]
  split
  · exact noted
  · split
    · exact includeDir_isNormal normal noted site _ _ fun r h => h.report ..
    · refine (guess_isNormal noted _).foldl fun dir _ r h => ?_
      exact includeDir_isNormal normal h site _ dir fun r h => h

theorem applyFunction_isNormal (site : Site) {f : Callable} (returns : TypeSet.IsNormal f.returns)
    {args : List Argument} (types : ∀ a ∈ args, TypeSet.IsNormal a.types) :
    NormalResult (p.applyFunction site f args r) := by
  unfold applyFunction
  split
  · exact subprojectTypes_isNormal h ..
  · exact variableTypes_isNormal h returns args
  · exact ⟨returns, setVariable_isNormal h types⟩
  · refine ⟨?_, checkOption_isNormal h ..⟩
    cases declared : p.optionTypes? args with
    | none => exact returns
    | some ts =>
      simp only [optionTypes?, Option.bind_eq_some_iff, Option.map_eq_some_iff] at declared
      obtain ⟨_, _, _, _, rfl⟩ := declared
      exact normal.setting.catalogue.optionTypes _
  · exact ⟨returns, subdir_isNormal normal h ..⟩
  · exact ⟨returns, h⟩

theorem callFunction_isNormal (site : Site) (callee : Ident) {args : List Argument}
    (types : ∀ a ∈ args, TypeSet.IsNormal a.types) : NormalResult (p.callFunction site callee args r) := by
  unfold callFunction
  split
  · obtain ⟨kept, after⟩ := keep_isNormal normal h site
    exact ⟨kept, after.report ..⟩
  · rename_i f found
    have returns := normal.setting.catalogue.functions f (List.mem_of_find?_eq_some found)
    obtain ⟨result, after⟩ := applyFunction_isNormal normal h site returns types
    exact ⟨result, checkCall_isNormal (after.annotate site result) ..⟩

/-! Methods. Whatever a method returns is normalised, so only the state matters until the method is known. -/

omit normal

theorem foreignTypes_isNormal (site : Site) (handle : Ty) (args : List Argument) :
    (p.foreignTypes site handle args r).2.IsNormal := by
  unfold foreignTypes
  split
  · exact (guess_isNormal h _).reportIf ..
  · exact h

omit h in
theorem resolveMember_isNormal (site : Site) (name : String) (args : List Argument) {found : Match × Run}
    (h : found.2.IsNormal) (t : Ty) : (p.resolveMember site name args found t).2.IsNormal := by
  unfold resolveMember
  dsimp only
  split
  · exact h
  · split
    · exact h
    · split
      · exact foreignTypes_isNormal h ..
      · exact h

theorem getElement_isNormal (container : Ty) (fallback : TypeSet) :
    (p.getElement container fallback r).2.IsNormal := by
  unfold getElement
  split
  · exact h.of_eq rfl rfl rfl rfl
  · exact h
  · exact h

theorem resolveMethod_isNormal (site : Site) (name : String) (receiver : TypeSet) (args : List Argument) :
    (p.resolveMethod site name receiver args r).2.IsNormal := by
  unfold resolveMethod
  split
  · dsimp only [resolveGet]
    split
    · exact getElement_isNormal h ..
    · exact getElement_isNormal h ..
    · split
      · split
        · exact h
        · exact h.of_eq rfl rfl rfl rfl
      · exact h
  · have members : ∀ (ts : TypeSet) (found : Match × Run), found.2.IsNormal →
        (ts.foldl (p.resolveMember site name args) found).2.IsNormal := by
      intro ts
      induction ts with
      | nil => exact fun _ h => h
      | cons t ts ih => exact fun found h => ih _ (resolveMember_isNormal site name args h t)
    exact members receiver ((none, []), r) h

theorem missMethod_isNormal (site : Site) (name : String) (receiver : TypeSet) :
    (missMethod site name receiver r).IsNormal := by
  unfold missMethod
  split
  · exact h
  · exact h.report ..

theorem checkFormat_isNormal (site : Site) (receiver : Node) (f : Callable) (args : List Argument) :
    (checkFormat site receiver f args r).IsNormal := by
  unfold checkFormat
  split
  · split
    · exact h.reportAll ..
    · exact h
  · exact h

include normal in
theorem callMethod_isNormal (site : Site) (receiver : Node) (types : TypeSet) (callee : Ident) (args : List Argument) :
    NormalResult (p.callMethod site receiver types callee args r) := by
  have resolved := resolveMethod_isNormal (p := p) h site callee.name types args
  dsimp only [callMethod]
  split
  · obtain ⟨kept, after⟩ := keep_isNormal normal resolved site
    exact ⟨kept, missMethod_isNormal after ..⟩
  · have result := TypeSet.normal_isNormal
    exact ⟨result _, checkFormat_isNormal (checkCall_isNormal (resolved.annotate site (result _)) ..) ..⟩

end Place

end MesonCheck
