import MesonCheck.Analysis.Call
import MesonCheck.Types.Operation

/-! What expressions and statements do once their parts have been walked. -/
namespace MesonCheck

def readOnlyNames : List String :=
  ["meson", "build_machine", "host_machine", "target_machine"]

namespace Place

/-! Expressions. -/

def readVariable (id : Ident) (r : Run) : TypeSet × Run :=
  let ts := r.reading id.name
  let r := ((r.emit (.read id ts)).annotate id.site ts).use id.name
  (ts, (r.reportIf (r.misses id.name) (.about id.site (.unknownIdentifier id.name))).emit (.mentioned id))

def selectedTypes : Ty → TypeSet
  | .list es => es
  | .dict vs => vs
  | .str => [.str]
  | .object "custom_tgt" _ => [.customIndex]
  | _ => []

def readIndex (site : Site) (outer : TypeSet) (r : Run) : TypeSet × Run :=
  let (ts, r) := r.typed site (TypeSet.normal (outer.flatMap selectedTypes))
  (ts, r.emit (.subscripted site.range))

def noteKey (seen : List String) (key : Node) (r : Run) : List String × Run :=
  match key.text? with
  | some text =>
    if seen.contains text then (seen, r.report (.about key.site (.duplicateKey text))) else (text :: seen, r)
  | none => (seen, r)

def applyOperator (p : Place) (site : Site) (op : Option Operator) (left right : Node) (l r : TypeSet) (run : Run) :
    TypeSet × Run :=
  match op with
  | none => (run.typed site (l.union r)).map id (Run.report (.about site .missingOperator))
  | some o =>
    let run := run.reportIf (TypeSet.mismatch op l r) (.about site (.operatorMismatch o l r))
    let (ts, run) := run.typed site (TypeSet.combine op l r).normal
    (ts, run.checkComparison p.cx o left right)

/-! Assignments. -/

/-- Whether a node is a call of something that returns nothing. Installing functions are excepted. -/
def isVoidCall (n : Node) (r : Run) : Bool :=
  match r.callAt? n.site with
  | some f => f.returns.isEmpty && !Text.startsWith f.name "install_"
  | none => false

def isDependency : Node → Bool
  | .call _ callee _ _ => callee.name == "declare_dependency"
  | _ => false

def assign (p : Place) (site : Site) (id : Ident) (value : Node) (ts : TypeSet) (r : Run) : Run :=
  if readOnlyNames.contains id.name then
    (r.report (.about site .readOnly)).emit (.mentioned id)
  else
    let r := (r.annotate id.site ts).checkName p.cx id
    ((r.bind id.name ts).owe ⟨id.name, id.site, isDependency value⟩).emit (.mentioned id)

def augment (site : Site) (op : Operator) (id : Ident) (before ts : TypeSet) (r : Run) : Run :=
  let r := r.reportIf (TypeSet.mismatch op.augmented? before ts) (.about site (.operatorMismatch op before ts))
  let result := (TypeSet.combine op.augmented? before ts).normal
  let result := if result.isEmpty && ts.isEmpty then ((r.scope.lookup id.name).getD []).normal else result
  (r.annotate id.site result).bind id.name result

def assignTo (p : Place) (site : Site) (op : Operator) (target value : Node) (before ts : TypeSet) (r : Run) : Run :=
  match target with
  | .ident id =>
    if ts.isEmpty && isVoidCall value r then r.report (.about id.site .assignedVoid)
    else if op = .assign then p.assign site id value ts r
    else augment site op id before ts r
  | _ => r.report (.about target.site .notAssignable)

/-! Loops. -/

def elementTypes : Ty → Option TypeSet
  | .list es => some es
  | .object "range" _ => some [.int]
  | _ => none

def loopTypes (ids : Nat) (subject : TypeSet) : List TypeSet × Option Issue :=
  match ids with
  | 1 =>
    let elems := subject.filterMap elementTypes
    ([TypeSet.normal elems.flatten],
      if !elems.isEmpty then none else if subject.has .dict then some .dictNeedsTwoIds else some .notIterable)
  | 2 =>
    match subject.first? .dict with
    | some d => ([[.str], d.elems], none)
    | none =>
      ([[.str], []], if subject.has .list || subject.hasObject "range" then some .listNeedsOneId else some .notIterable)
  | _ => ([], none)

def bindLoop (p : Place) (ids : List Ident) (subject : Node) (ts : TypeSet) (r : Run) : Run :=
  let (types, issue) := loopTypes ids.length ts
  let r := match issue with
    | some i => r.report (.about subject.site i)
    | none => r
  let r := match types, Finding.across? (ids.map (·.site)) .loopIdCount with
    | [], some f => r.report f
    | _, _ => r
  let bound := ids.zip types
  let r := bound.foldl (fun r (id, ts) => r.annotate id.site ts) r
  bound.reverse.foldl (fun r (id, ts) => ((r.bind id.name ts).checkName p.cx id).emit (.mentioned id)) r

/-! Selections. -/

def openSelection (r : Run) : Run :=
  { r with selections := ⟨∅, ∅⟩ :: r.selections }

/-- The name that a condition asks for. Inside its branch the name may be missing. -/
def askedName? : Node → Option String
  | .call _ callee _ (.str _ name _ :: _) => if callee.name = "is_variable" then some name else none
  | _ => none

def firstDebts : List Debt → List Debt
  | [] => []
  | d :: ds => d :: (firstDebts ds).filter (·.name != d.name)

/-- What a name that the branches assigned stands for behind them: the types it has now, those that the branches gave
it and, where no branch has to be taken, those it had before. -/
def mergedTypes (isExhaustive : Bool) (before : Frame) (r : Run) (name : String) (assigned : TypeSet) : TypeSet :=
  let ts := ((r.scope.lookup name).getD []).union assigned
  if isExhaustive then ts else ts.union (before.getD name [])

def closeSelection (isExhaustive : Bool) (before : Frame) (r : Run) : Run :=
  match r.selections with
  | [] => r
  | s :: outer =>
    let merged := s.assigned.toList.map fun (name, ts) => (name, mergedTypes isExhaustive before r name ts)
    merged.foldl (fun r (name, ts) => r.bind name ts) { r with selections := outer }

end Place

end MesonCheck
