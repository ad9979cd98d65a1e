import MesonCheck.Analysis.Walk

/-! What rules do to variables. A rule binds variables, uses them and records assignments that have to be used; each of
these acts is done in some state of the walk. -/
namespace MesonCheck

inductive Act where
  | bind (name : String) (types : TypeSet)
  | use (name : String)
  | owe (debt : Debt)

def Act.perform : Act → Run → Run
  | .bind x ts, r => r.bind x ts
  | .use x, r => r.use x
  | .owe d, r => r.owe d

structure Deed where
  act : Act
  before : Run

namespace Deed

def after (d : Deed) : Run :=
  d.act.perform d.before

def time (d : Deed) : Nat :=
  d.before.log.length

def along {α : Type} (step : Run → α → Run) (deeds : Run → α → List Deed) : List α → Run → List Deed
  | [], _ => []
  | a :: as, r => deeds r a ++ along step deeds as (step r a)

end Deed

namespace Place

variable (p : Place)

def readDeeds (id : Ident) (r : Run) : List Deed :=
  let ts := r.reading id.name
  [⟨.use id.name, (r.emit (.read id ts)).annotate id.site ts⟩]

def placeholderDeeds (s : Site) (value : String) (r : Run) : List Deed :=
  Deed.along (fun r name => (r.use name).reportIf (r.misses name) (.about s (.unknownPlaceholder name)))
    (fun r name => [⟨.use name, r⟩]) (Text.placeholderNames value) r

def getDeeds (args : List Argument) (r : Run) : List Deed :=
  match args with
  | [] => []
  | a :: _ =>
    match a.node.text? with
    | some name => [⟨.use name, r⟩]
    | none =>
      let (names, r) := p.guess a.node r
      Deed.along (fun r n => r.use n) (fun r n => [⟨.use n, r⟩]) names r

def setDeeds (args : List Argument) (r : Run) : List Deed :=
  match args with
  | a :: value :: _ =>
    match a.node.text? with
    | some name => [⟨.bind name value.types, r⟩]
    | none =>
      let (names, r) := p.guess a.node r
      Deed.along (fun r n => r.bind n value.types) (fun r n => [⟨.bind n value.types, r⟩]) names r
  | _ => []

def functionDeeds (f : Callable) (args : List Argument) (r : Run) : List Deed :=
  match f.name with
  | "get_variable" => p.getDeeds args r
  | "set_variable" => p.setDeeds args r
  | _ => []

/-- A plain assignment binds a variable that may be assigned, and its value has to be used. -/
def plainDeeds (id : Ident) (value : Node) (ts : TypeSet) (r : Run) : List Deed :=
  if readOnlyNames.contains id.name then []
  else
    let r := (r.annotate id.site ts).checkName p.cx id
    [⟨.bind id.name ts, r⟩, ⟨.owe ⟨id.name, id.site, isDependency value⟩, r.bind id.name ts⟩]

def augmentDeeds (site : Site) (op : Operator) (id : Ident) (before ts : TypeSet) (r : Run) : List Deed :=
  let r := r.reportIf (TypeSet.mismatch op.augmented? before ts) (.about site (.operatorMismatch op before ts))
  let result := (TypeSet.combine op.augmented? before ts).normal
  let result := if result.isEmpty && ts.isEmpty then ((r.scope.lookup id.name).getD []).normal else result
  [⟨.bind id.name result, r.annotate id.site result⟩]

def assignDeeds (site : Site) (op : Operator) (target value : Node) (before ts : TypeSet) (r : Run) : List Deed :=
  match target with
  | .ident id =>
    if ts.isEmpty && isVoidCall value r then []
    else if op = .assign then p.plainDeeds id value ts r
    else augmentDeeds site op id before ts r
  | _ => []

def loopStart (ids : List Ident) (subject : Node) (ts : TypeSet) (r : Run) : Run :=
  let (types, issue) := loopTypes ids.length ts
  let r := match issue with
    | some i => r.report (.about subject.site i)
    | none => r
  let r := match types, Finding.across? (ids.map (·.site)) .loopIdCount with
    | [], some f => r.report f
    | _, _ => r
  (ids.zip types).foldl (fun r (id, ts) => r.annotate id.site ts) r

def loopDeeds (ids : List Ident) (subject : Node) (ts : TypeSet) (r : Run) : List Deed :=
  Deed.along (fun r (id, ts) => ((r.bind id.name ts).checkName p.cx id).emit (.mentioned id))
    (fun r (id, ts) => [⟨.bind id.name ts, r⟩]) (ids.zip (loopTypes ids.length ts).1).reverse
    (loopStart ids subject ts r)

end Place

end MesonCheck
