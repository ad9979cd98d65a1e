import MesonCheck.Proofs.Walk.Visit

/-! The states that a walk passes. A walk is a tree of visits: the visit of a file, a node or a list of parts makes
other visits one after the other, each in the state that the one before it has left, and a call of `subdir` starts the
visit of another file. -/
namespace MesonCheck

inductive Task where
  | file
  | node (n : Node)
  | entries (seen : List String) (es : List Entry)
  | statements (block ns : List Node)
  | branches (bs : List Branch)

structure Visit where
  inLoop : Bool
  task : Task
  before : Run

namespace Place

variable (p : Place)

def after (v : Visit) : Run :=
  match v.task with
  | .file => p.walk v.before
  | .node n => (p.visit v.inLoop n v.before).2
  | .entries seen es => (p.visitEntries v.inLoop seen es v.before).2
  | .statements block ns => p.visitStatements v.inLoop block ns v.before
  | .branches bs => (p.visitBranches v.inLoop bs v.before).2

def inTurn (inLoop : Bool) : List Node → Run → List Visit
  | [], _ => []
  | n :: ns, r => ⟨inLoop, .node n, r⟩ :: inTurn inLoop ns (p.visit inLoop n r).2

def nodeParts (inLoop : Bool) (n : Node) (r : Run) : List Visit :=
  match n with
  | .int .. | .bool .. | .str .. | .ident _ | .breakLoop _ | .continueLoop _ | .error .. => []
  | .array _ ns | .call _ _ _ ns => p.inTurn inLoop ns r
  | .dict _ es => [⟨inLoop, .entries [] es, r⟩]
  | .method _ receiver _ _ as => p.inTurn inLoop (receiver :: as) r
  | .keyword _ _ x | .unary _ _ x => p.inTurn inLoop [x] r
  | .index _ a b | .binary _ _ a b => p.inTurn inLoop [a, b] r
  | .ternary _ c y z => p.inTurn inLoop [c, y, z] r
  | .assign _ op t v => p.inTurn inLoop (if op = .assign ∧ t.isIdent then [v] else [t, v]) r
  | .select _ bs => [⟨inLoop, .branches bs, openSelection r⟩]
  | .loop _ ids subject body =>
    let looped := p.visit true subject r
    [⟨true, .node subject, r⟩, ⟨true, .statements body body, p.bindLoop ids subject looped.1 looped.2⟩]

/-- The visits that a visit makes in its file. -/
def parts (v : Visit) : List Visit :=
  let ⟨inLoop, task, r⟩ := v
  match task with
  | .node n => p.nodeParts inLoop n r
  | .file =>
    match p.file.body with
    | none => []
    | some b =>
      let opened := (r.openFile p.file.id).openDebts
      let start := if r.active.isEmpty then checkProject b opened else opened
      [⟨false, .statements b.statements b.statements, start⟩]
  | .entries _ [] | .statements _ [] | .branches [] => []
  | .entries seen (.mk s k v :: es) =>
    let value := p.visit inLoop v (p.visit inLoop k r).2
    let noted := noteKey seen k (value.2.annotate s value.1)
    p.inTurn inLoop [k, v] r ++ [⟨inLoop, .entries noted.1 es, noted.2⟩]
  | .statements block (n :: ns) =>
    let done := (p.visit inLoop n r).2
    let checked := done.reportIf (done.isIdle p.cx n) (.about n.site .noEffect)
    [⟨inLoop, .node n, r⟩, ⟨inLoop, .statements block ns, checked⟩]
  | .branches (.guarded c body :: bs) =>
    let cond := p.visit inLoop c r
    let start := ((cond.2.ignore (askedName? c).toList).checkBool c.site cond.1).openDebts
    let done := (p.visitStatements inLoop body body start).closeDebts.2
    [⟨inLoop, .node c, r⟩, ⟨inLoop, .statements body body, start⟩,
      ⟨inLoop, .branches bs, done.unignore (askedName? c).toList⟩]
  | .branches (.otherwise body :: bs) =>
    let done := (p.visitStatements inLoop body body r.openDebts).closeDebts.2
    [⟨inLoop, .statements body body, r.openDebts⟩, ⟨inLoop, .branches bs, done⟩]

/-- The files that the inclusion of some directories enters one after the other, with the states at their entries. -/
def enteredBy (site : Site) : List String → Run → List (SourceFile × Run)
  | [], _ => []
  | dir :: dirs, r =>
    let rest := enteredBy site dirs (p.includeDir site id r dir)
    match p.cx.tree.lookup (subdirPath p.file.path dir) with
    | some f => if r.active.contains f.id then rest else (f, r) :: rest
    | none => rest

def included (site : Site) (args : List Argument) (r : Run) : List (SourceFile × Run) :=
  let r := r.emit (.included site.range)
  match args with
  | [] => []
  | a :: _ =>
    match a.node.text? with
    | some dir => p.enteredBy site [dir] r
    | none =>
      let (dirs, r) := p.guess a.node r
      p.enteredBy site (dirs.filter (· ≠ "")) r

/-- The files that a visit enters by itself. -/
def entered (v : Visit) : List (SourceFile × Run) :=
  match v.task with
  | .node (.call s callee _ as) =>
    let args := p.visitAll v.inLoop as v.before
    match p.cx.catalogue.function? callee.name with
    | some f => if f.name = "subdir" then p.included s (as.zipWith Argument.mk args.1) args.2 else []
    | none => []
  | _ => []

end Place

namespace Setting

/-- The visits of an analysis, each in a file with the fuel that is left for what the file includes. -/
inductive Makes (cx : Setting) : Nat → SourceFile → Visit → Prop where
  | root {f : SourceFile} : cx.tree.root = some f → Makes cx cx.tree.files.length f ⟨false, .file, cx.start⟩
  | part {fuel : Nat} {f : SourceFile} {v w : Visit} :
      Makes cx fuel f v → w ∈ (cx.place fuel f).parts v → Makes cx fuel f w
  | included {fuel : Nat} {f g : SourceFile} {v : Visit} {r : Run} :
      Makes cx (fuel + 1) f v → (g, r) ∈ (cx.place (fuel + 1) f).entered v →
      Makes cx fuel g ⟨false, .file, { r with scope := r.scope.push }⟩

/-- The states of an analysis: the first one and those before and after every visit. -/
inductive Passes (cx : Setting) : Run → Prop where
  | start : Passes cx cx.start
  | before {fuel : Nat} {f : SourceFile} {v : Visit} : Makes cx fuel f v → Passes cx v.before
  | after {fuel : Nat} {f : SourceFile} {v : Visit} : Makes cx fuel f v → Passes cx ((cx.place fuel f).after v)

theorem passes_finish (cx : Setting) : cx.Passes cx.finish := by
  unfold finish
  split
  · exact .after (v := ⟨false, .file, cx.start⟩) (.root ‹_›)
  · exact .start

end Setting

end MesonCheck
