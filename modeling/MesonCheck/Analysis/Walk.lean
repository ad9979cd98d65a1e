import MesonCheck.Analysis.Statement

/-! The walk over a tree. Every node is visited once, parts before the whole, and an included file is walked where it is
included. -/
namespace MesonCheck

namespace Place

mutual
/-- Visits a node. The result holds the types of the node; `inLoop` says whether a loop is around it. -/
def visit (p : Place) (inLoop : Bool) (n : Node) (r : Run) : TypeSet × Run :=
  match n with
  | .int s _ => r.typed s [.int]
  | .bool s _ => r.typed s [.bool]
  | .str s t isFormat =>
    let (ts, r) := r.typed s [.str]
    (ts, if isFormat then r.checkPlaceholders s t else r)
  | .array s es =>
    let (ts, r) := visitAll p inLoop es r
    r.typed s [.listOf ts.flatten]
  | .dict s es =>
    let (ts, r) := visitEntries p inLoop [] es r
    r.typed s [.dictOf ts.flatten]
  | .ident id => readVariable id r
  | .call s callee _ as =>
    let (ts, r) := visitAll p inLoop as r
    p.callFunction s callee (as.zipWith Argument.mk ts) r
  | .method s receiver callee _ as =>
    let (recv, r) := visit p inLoop receiver r
    let (ts, r) := visitAll p inLoop as r
    p.callMethod s receiver recv callee (as.zipWith Argument.mk ts) r
  | .keyword s key v =>
    let (ts, r) := visit p inLoop v r
    let (ts, r) := r.typed s ts
    (ts, r.checkKeyword p.cx key)
  | .index s outer inner =>
    let (ts, r) := visit p inLoop outer r
    let (_, r) := visit p inLoop inner r
    readIndex s ts r
  | .unary s op x =>
    let (_, r) := visit p inLoop x r
    r.typed s [if op = some .minus then .int else .bool]
  | .binary s op a b =>
    let (l, r) := visit p inLoop a r
    let (m, r) := visit p inLoop b r
    p.applyOperator s op a b l m r
  | .ternary s c y z =>
    let (cond, r) := visit p inLoop c r
    let (yes, r) := visit p inLoop y r
    let (no, r) := visit p inLoop z r
    let (ts, r) := r.typed s (yes.union no)
    (ts, r.checkBool s cond)
  | .assign s op t v =>
    let (before, r) := if op = .assign ∧ t.isIdent then ([], r) else visit p inLoop t r
    let (ts, r) := visit p inLoop v r
    ([], p.assignTo s op t v before ts r)
  | .select _ bs =>
    let before := r.scope.flatten
    let (debts, r) := visitBranches p inLoop bs (openSelection r)
    ([], closeSelection (bs.any (!·.isGuarded)) before (r.carry (firstDebts debts)))
  | .loop _ ids subject body =>
    let (ts, r) := visit p true subject r
    ([], visitStatements p true body body (p.bindLoop ids subject ts r))
  | .breakLoop s => ([], r.reportIf (!inLoop) (.about s (.outsideLoop "break")))
  | .continueLoop s => ([], r.reportIf (!inLoop) (.about s (.outsideLoop "continue")))
  | .error s m => ([], r.report (.about s (.unparsed m)))

def visitAll (p : Place) (inLoop : Bool) (ns : List Node) (r : Run) : List TypeSet × Run :=
  match ns with
  | [] => ([], r)
  | n :: ns =>
    let (t, r) := visit p inLoop n r
    let (ts, r) := visitAll p inLoop ns r
    (t :: ts, r)

def visitEntries (p : Place) (inLoop : Bool) (seen : List String) (es : List Entry) (r : Run) : List TypeSet × Run :=
  match es with
  | [] => ([], r)
  | .mk s k v :: es =>
    let (_, r) := visit p inLoop k r
    let (t, r) := visit p inLoop v r
    let (seen, r) := noteKey seen k (r.annotate s t)
    let (ts, r) := visitEntries p inLoop seen es r
    (t :: ts, r)

/-- Visits the statements of a block. What never runs is reported behind the last one; `block` holds all statements. -/
def visitStatements (p : Place) (inLoop : Bool) (block ns : List Node) (r : Run) : Run :=
  match ns with
  | [] =>
    match deadCode? block with
    | some f => r.report f
    | none => r
  | n :: ns =>
    let (_, r) := visit p inLoop n r
    visitStatements p inLoop block ns (r.reportIf (r.isIdle p.cx n) (.about n.site .noEffect))

def visitBranches (p : Place) (inLoop : Bool) (bs : List Branch) (r : Run) : List Debt × Run :=
  match bs with
  | [] => ([], r)
  | .guarded c body :: bs =>
    let (cond, r) := visit p inLoop c r
    let asked := (askedName? c).toList
    let r := (r.ignore asked).checkBool c.site cond
    let (debts, r) := (visitStatements p inLoop body body r.openDebts).closeDebts
    let (more, r) := visitBranches p inLoop bs (r.unignore asked)
    (debts ++ more, r)
  | .otherwise body :: bs =>
    let (debts, r) := (visitStatements p inLoop body body r.openDebts).closeDebts
    let (more, r) := visitBranches p inLoop bs r
    (debts ++ more, r)
end

/-! Files. -/

def constraintVersion? (s : String) : Option Version :=
  (Version.parse (String.ofList (s.toList.dropWhile (fun c => "<>=!~^ ".toList.contains c)))).toOption

def versionText? (args : List Node) : Option String :=
  args.findSome? fun
    | .keyword _ key v => if key.name = "meson_version" then v.text? else none
    | _ => none

def checkProject (b : Body) (r : Run) : Run :=
  match b.statements with
  | [] => r.report (.about b.site .missingProject)
  | .call s callee _ args :: _ =>
    if callee.name = "project" then { r with version := (versionText? args).bind constraintVersion? }
    else r.report (.about s .projectNotFirst)
  | n :: _ => r.report (.about n.site .projectNotFirst)

def walkBody (p : Place) (isRoot : Bool) (r : Run) : Run :=
  match p.file.body with
  | some b => visitStatements p false b.statements b.statements (if isRoot then checkProject b r else r)
  | none => r.reportIf isRoot (.about p.file.site .missingProject)

/-- Walks the file of this place. The first file is the root; what is still unused when it ends is reported. -/
def walk (p : Place) (r : Run) : Run :=
  let isRoot := r.active.isEmpty
  let (debts, r) := (p.walkBody isRoot (r.openFile p.file.id).openDebts).closeDebts
  if isRoot then r.closeFile.settle p.cx debts else r.closeFile.carry debts

end Place

/-- Walks a file and what it includes. An included file has a frame of its own, which is merged into the one around it
when the file ends. No file includes itself, so fuel for every file of the tree and the root is enough. -/
def Setting.walk (cx : Setting) : Nat → SourceFile → Run → Run
  | 0, _, r => r
  | fuel + 1, f, r =>
    Place.walk ⟨cx, f, fun g r =>
      let r := cx.walk fuel g { r with scope := r.scope.push }
      { r with scope := r.scope.flush }⟩ r

end MesonCheck
