import MesonCheck.Catalogue.Basic
import MesonCheck.Failure
import MesonCheck.Types.Expr
import MesonCheck.Yaml.Fields

/-! Catalogues as documents. Types are written as type expressions; a positional parameter ends with `?` when it is
optional and with `...` when it is variadic, and a keyword ends with `!` when it is required. -/
namespace MesonCheck.Catalogue

structure TypeEntry where
  name : String
  parent : String

structure CallableEntry where
  name : String
  args : List String
  kwargs : List (String × String)
  returns : String

structure DeprecationEntry where
  name : String
  since : String
  use : List String

structure Document where
  types : List TypeEntry
  globals : List (String × String)
  functions : List CallableEntry
  methods : List (String × List CallableEntry)
  deprecations : List DeprecationEntry
  options : List BuildOption
  names : NameSet → List String

inductive Fault where
  | typeTwice (name : String)
  | noParent (name parent : String)
  | global (name source : String) (fault : TypeExpr.Fault)
  | functionTwice (name : String)
  | methodTwice (id : String)
  | variadicInside (id : String)
  | param (id : String) (i : Nat) (source : String) (fault : TypeExpr.Fault)
  | keyword (id name source : String) (fault : TypeExpr.Fault)
  | returns (id source : String) (fault : TypeExpr.Fault)
  | noReceiver (name : String)
  | version (name since : String) (fault : Version.Fault)

def Fault.message : Fault → String
  | typeTwice n => "type " ++ n ++ ": defined twice"
  | noParent n p => "type " ++ n ++ ": parent " ++ p ++ " must be defined first"
  | global n source f => "global " ++ n ++ ": " ++ f.message (Text.trimBlank source)
  | functionTwice n => "function " ++ n ++ ": defined twice"
  | methodTwice id => "method " ++ id ++ ": defined twice"
  | variadicInside id => id ++ ": only the last parameter may be variadic"
  | param id i source f => id ++ ": parameter " ++ toString i ++ ": " ++ f.message (Text.trimBlank source)
  | keyword id n source f => id ++ ": keyword " ++ n ++ ": " ++ f.message (Text.trimBlank source)
  | returns id source f => id ++ ": return type: " ++ f.message (Text.trimBlank source)
  | noReceiver n => "methods for unknown type " ++ n
  | version n since f => "deprecation " ++ n ++ ": invalid version " ++ Text.quoted since ++ ": " ++ f.message

def empty : Catalogue :=
  ⟨[], [], [], [], [], [], fun _ => []⟩

/-- Declares the types one after the other; a parent has to stand before its children and to be an object. -/
def addTypes (c : Catalogue) : List TypeEntry → Except Fault Catalogue
  | [] => .ok c
  | e :: es => do
    if (c.type? e.name).isSome then throw (.typeTwice e.name)
    let parent ← if e.parent = "" then pure none else
      match c.types.lookup e.parent with
      | some p => pure (some p)
      | none => throw (.noParent e.name e.parent)
    addTypes { c with types := c.types ++ [(e.name, .object e.name parent)] } es

def buildParam (c : Catalogue) (id : String) (i : Nat) (isLast : Bool) (arg : String) : Except Fault Param := do
  let (source, optional, variadic) := match Text.before? "..." arg with
    | some s => (s, false, true)
    | none =>
      match Text.before? "?" arg with
      | some s => (s, true, false)
      | none => (arg, false, false)
  if variadic && !isLast then throw (.variadicInside id)
  let types ← (TypeExpr.parse c.type? source).mapError (.param id i source)
  pure ⟨types, optional, variadic⟩

def buildParams (c : Catalogue) (id : String) : Nat → List String → Except Fault (List Param)
  | _, [] => .ok []
  | i, a :: as => do
    let p ← c.buildParam id i as.isEmpty a
    let ps ← buildParams c id (i + 1) as
    pure (p :: ps)

def buildKeyword (c : Catalogue) (id : String) (e : String × String) : Except Fault (String × Keyword) := do
  let (source, required) := match Text.before? "!" e.2 with
    | some s => (s, true)
    | none => (e.2, false)
  let types ← (TypeExpr.parse c.type? source).mapError (.keyword id e.1 source)
  pure (e.1, ⟨types, required⟩)

def buildCallable (c : Catalogue) (receiver : Option String) (e : CallableEntry) : Except Fault Callable := do
  let id := Callable.id ⟨e.name, receiver, [], [], []⟩
  let params ← c.buildParams id 0 e.args
  let keywords ← (Text.sortedOn (·.1) e.kwargs).mapM (c.buildKeyword id)
  let returns ← (TypeExpr.parse c.type? e.returns).mapError (.returns id e.returns)
  pure ⟨e.name, receiver, params, keywords, returns⟩

def buildTable (c : Catalogue) (receiver : Option String) (twice : Callable → Fault) (known : List Callable) :
    List CallableEntry → Except Fault (List Callable)
  | [] => .ok (Text.sortedOn (·.name) known)
  | e :: es => do
    let f ← c.buildCallable receiver e
    if known.any (·.name == f.name) then throw (twice f)
    buildTable c receiver twice (known ++ [f]) es

def buildGlobal (c : Catalogue) (e : String × String) : Except Fault (String × TypeSet) := do
  let types ← (TypeExpr.parse c.type? e.2).mapError (.global e.1 e.2)
  pure (e.1, types)

def buildMethods (c : Catalogue) (e : String × List CallableEntry) : Except Fault (String × List Callable) := do
  if (c.type? e.1).isNone then throw (.noReceiver e.1)
  let table ← c.buildTable (some e.1) (fun f => .methodTwice f.id) [] e.2
  pure (e.1, table)

def buildDeprecation (e : DeprecationEntry) : Except Fault Deprecation := do
  let since ← (Version.parse e.since).mapError (.version e.name e.since)
  pure ⟨e.name, since, e.use⟩

/-- The catalogue that a document describes. Of several deprecations or options of one name the last one counts. -/
def ofDocument (d : Document) : Except Fault Catalogue := do
  let c ← empty.addTypes d.types
  let globals ← (Text.sortedOn (·.1) d.globals).mapM c.buildGlobal
  let functions ← c.buildTable none (fun f => .functionTwice f.name) [] d.functions
  let methods ← (Text.sortedOn (·.1) d.methods).mapM c.buildMethods
  let deprecations ← d.deprecations.mapM buildDeprecation
  pure
    { c with
      types := Text.sortedOn (·.1) c.types
      globals := globals
      functions := functions
      methods := methods
      deprecations := Text.sortedOn (·.name) (Text.lastOn (·.name) deprecations)
      options := Text.sortedOn (·.name) (Text.lastOn (·.name) d.options)
      names := d.names }

def TypeEntry.read (n : Yaml.Node) : Except Yaml.Fault TypeEntry := do
  let fs ← n.fields
  pure ⟨← Yaml.field fs "name" "" (Yaml.Node.text ""), ← Yaml.field fs "parent" "" (Yaml.Node.text "")⟩

def CallableEntry.read (n : Yaml.Node) : Except Yaml.Fault CallableEntry := do
  let fs ← n.fields
  let name ← Yaml.field fs "name" "" (Yaml.Node.text "")
  let args ← Yaml.field fs "args" [] (Yaml.Node.list (Yaml.Node.text ""))
  let kwargs ← Yaml.field fs "kwargs" [] (Yaml.Node.table (Yaml.Node.text ""))
  let returns ← Yaml.field fs "returns" "" (Yaml.Node.text "")
  pure ⟨name, args, kwargs, returns⟩

def DeprecationEntry.read (n : Yaml.Node) : Except Yaml.Fault DeprecationEntry := do
  let fs ← n.fields
  let name ← Yaml.field fs "name" "" (Yaml.Node.text "")
  let since ← Yaml.field fs "since" "" (Yaml.Node.text "")
  let use ← Yaml.field fs "use" [] (Yaml.Node.list (Yaml.Node.text ""))
  pure ⟨name, since, use⟩

end MesonCheck.Catalogue

namespace MesonCheck

def BuildOption.read (n : Yaml.Node) : Except Yaml.Fault BuildOption := do
  let fs ← n.fields
  let name ← Yaml.field fs "name" "" (Yaml.Node.text "")
  let kind ← Yaml.field fs "kind" "" (Yaml.Node.text "")
  let deprecated ← Yaml.field fs "deprecated" false (Yaml.Node.bool false)
  pure ⟨name, .ofText kind, deprecated⟩

def BuildOption.violations (path : List String) (o : BuildOption) : List Violation :=
  Violation.ofRules path "Name" [("required", o.name ≠ "")] ++
    Violation.ofRules path "Kind" [("required", o.kind.text ≠ ""),
      ("oneof", ["string", "int", "bool", "feature", "combo", "array"].contains o.kind.text)]

namespace Catalogue

def Document.read (n : Yaml.Node) : Except Yaml.Fault Document := do
  let fs ← n.fields
  let types ← Yaml.field fs "types" [] (Yaml.Node.list TypeEntry.read)
  let globals ← Yaml.field fs "globals" [] (Yaml.Node.table (Yaml.Node.text ""))
  let functions ← Yaml.field fs "functions" [] (Yaml.Node.list CallableEntry.read)
  let methods ← Yaml.field fs "methods" [] (Yaml.Node.table (Yaml.Node.list CallableEntry.read))
  let deprecations ← Yaml.field fs "deprecations" [] (Yaml.Node.list DeprecationEntry.read)
  let options ← Yaml.field fs "options" [] (Yaml.Node.list BuildOption.read)
  let names (key : String) := Yaml.field fs key [] (Yaml.Node.list (Yaml.Node.text ""))
  let pureFunctions ← names "pure_functions"
  let pureMethods ← names "pure_methods"
  let compilerIds ← names "compiler_ids"
  let argumentSyntaxes ← names "argument_syntaxes"
  let linkerIds ← names "linker_ids"
  let cpuFamilies ← names "cpu_families"
  let osNames ← names "os_names"
  pure ⟨types, globals, functions, methods, deprecations, options, fun
    | .pureFunctions => pureFunctions
    | .pureMethods => pureMethods
    | .compilerIds => compilerIds
    | .argumentSyntaxes => argumentSyntaxes
    | .linkerIds => linkerIds
    | .cpuFamilies => cpuFamilies
    | .osNames => osNames⟩

def itemViolations (path : List String) (field : String) (check : List String → α → List Violation) (as : List α) :
    List Violation :=
  as.zipIdx.flatMap fun (a, i) => check (path ++ [Violation.item field i]) a

def Document.violations (d : Document) : List Violation :=
  let root := ["document"]
  let named (path : List String) (name : String) := Violation.ofRules path "Name" [("required", name ≠ "")]
  itemViolations root "Types" (fun p e => named p e.name) d.types ++
    itemViolations root "Functions" (fun p e => named p e.name) d.functions ++
    (Text.sortedOn (·.1) d.methods).flatMap (fun m =>
      itemViolations root ("Methods[" ++ m.1 ++ "]") (fun p e => named p e.name) m.2) ++
    itemViolations root "Deprecations" (fun p e =>
      named p e.name ++ Violation.ofRules p "Since" [("required", e.since ≠ "")]) d.deprecations ++
    itemViolations root "Options" BuildOption.violations d.options

def load (text : String) : Except Failure Catalogue := do
  let unreadable : Yaml.Fault → Failure := fun _ => ⟨.unreadable, "failed to parse registry YAML"⟩
  let node ← (Yaml.parse text).mapError unreadable
  let document ← (Document.read (node.getD .absent)).mapError unreadable
  if !document.violations.isEmpty then throw (Failure.ofViolations "invalid registry" document.violations)
  (ofDocument document).mapError fun f => ⟨.other, f.message⟩

end Catalogue

end MesonCheck
