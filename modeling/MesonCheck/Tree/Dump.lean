import MesonCheck.Failure
import MesonCheck.Tree.Node
import MesonCheck.Yaml.Fields

/-! Dumps of parsed build files. A dump describes every node by one record whose fields serve all kinds of nodes; what a
kind does not use is ignored, but has to be well-formed. -/
namespace MesonCheck

inductive NodeKind where
  | int | str | bool | array | dict | ident | call | method | keyword | index | unary | binary | ternary | assign
  | select | loop | breakLoop | continueLoop | error
deriving DecidableEq

def NodeKind.ofText? : String → Option NodeKind
  | "int" => some .int
  | "str" => some .str
  | "bool" => some .bool
  | "array" => some .array
  | "dict" => some .dict
  | "id" => some .ident
  | "call" => some .call
  | "method" => some .method
  | "kw" => some .keyword
  | "index" => some .index
  | "unary" => some .unary
  | "binary" => some .binary
  | "ternary" => some .ternary
  | "assign" => some .assign
  | "if" => some .select
  | "foreach" => some .loop
  | "break" => some .breakLoop
  | "continue" => some .continueLoop
  | "error" => some .error
  | _ => none

structure DumpHead where
  kind : String
  range : Option Range
  value : Option Yaml.Node
  isFormat : Bool
  name : String
  message : String
  op : String
  ids : List String

mutual
/-- A dumped node; `null` stands where there is none. -/
inductive NodeDump where
  | null
  | node (head : DumpHead) (object expr operand left right cond yes no : NodeDump) (args elems body : List NodeDump)
    (entries : List EntryDump) (branches : List BranchDump)

inductive EntryDump where
  | null
  | entry (key value : NodeDump)

inductive BranchDump where
  | null
  | branch (cond : NodeDump) (body : List NodeDump)
end

structure FileDump where
  path : String
  body : List NodeDump

def NodeDump.isNull : NodeDump → Bool
  | .null => true
  | _ => false

structure Locus where
  kind : String
  line : Int
  column : Int

def Locus.text (l : Locus) : String :=
  l.kind ++ " node at " ++ toString l.line ++ ":" ++ toString l.column

def DumpHead.locus (h : DumpHead) : Locus :=
  ⟨h.kind, (h.range.map (·.start.line)).getD 0, (h.range.map (·.start.column)).getD 0⟩

def DumpHead.site (h : DumpHead) : Site :=
  .at (h.range.getD .zero)

inductive DumpFault where
  | missing (here : Locus) (field : String)
  | value (fault : Yaml.Fault)
  | elseInside (here : Locus)
  | kind (text : String)
  | inside (here : Locus) (fault : DumpFault)

namespace DumpFault

/-- A literal with a wrong value is told by where it stands only. -/
def trail : DumpFault → List String
  | missing l field => [l.text ++ " is missing " ++ field]
  | value _ => []
  | elseInside l => [l.text ++ " has an else branch before the last branch"]
  | kind t => ["unknown node kind " ++ t]
  | inside l f => l.text :: f.trail

def failureKind : DumpFault → FailureKind
  | value _ => .unreadable
  | inside _ f => f.failureKind
  | _ => .other

end DumpFault

def DumpHead.ident (h : DumpHead) : Except DumpFault Ident :=
  if h.name = "" then .error (.missing h.locus "name") else .ok ⟨h.site, h.name⟩

/-- The site of an argument list: around its arguments, or at the end of the call. -/
def DumpHead.argSite (h : DumpHead) (args : List Node) : Site :=
  match Range.hull? (args.map Node.range), h.range with
  | some r, _ => .at r
  | none, some r => .at ⟨r.stop, r.stop⟩
  | none, none => .at .zero

/-- Reads the value of a literal; a missing value is the default. -/
def DumpHead.literal (h : DumpHead) (default : α) (read : Yaml.Node → Except Yaml.Fault α) : Except DumpFault α :=
  match h.value with
  | some v => (read v).mapError .value
  | none => .ok default

def within (l : Locus) (r : Except DumpFault α) : Except DumpFault α :=
  r.mapError (.inside l)

def needed (here : Locus) (field : String) (d : NodeDump) (made : Except DumpFault Node) : Except DumpFault Node :=
  if d.isNull then .error (.missing here field) else made

mutual
/-- The node that a dump describes. Faults of keys, values, receivers and branches are told without the node above
them. -/
def NodeDump.toNode : NodeDump → Except DumpFault Node
  | .null => .error (.kind "")
  | .node h object expr operand left right cond yes no args elems body entries branches => do
    let here := h.locus
    let s := h.site
    match NodeKind.ofText? h.kind with
    | none => throw (.kind h.kind)
    | some .int => within here (.int s <$> h.literal 0 (Yaml.Node.int 0))
    | some .str => within here ((.str s · h.isFormat) <$> h.literal "" (Yaml.Node.text ""))
    | some .bool => within here (.bool s <$> h.literal false (Yaml.Node.bool false))
    | some .array => within here (.array s <$> NodeDump.toNodes elems)
    | some .dict => .dict s <$> EntryDump.toEntries entries
    | some .ident => within here (.ident <$> h.ident)
    | some .call => within here do
      let callee ← h.ident
      let args ← NodeDump.toNodes args
      pure (.call s callee (h.argSite args) args)
    | some .method =>
      let receiver ← needed here "object" object object.toNode
      within here do
        let callee ← h.ident
        let args ← NodeDump.toNodes args
        pure (.method s receiver callee (h.argSite args) args)
    | some .keyword => within here do
      let key ← h.ident
      let v ← needed here "expr" expr expr.toNode
      pure (.keyword s key v)
    | some .index => within here do
      let outer ← needed here "object" object object.toNode
      let inner ← needed here "expr" expr expr.toNode
      pure (.index s outer inner)
    | some .unary => within here (.unary s (Operator.ofText? h.op) <$> needed here "operand" operand operand.toNode)
    | some .binary => within here do
      let l ← needed here "lhs" left left.toNode
      let r ← needed here "rhs" right right.toNode
      pure (.binary s (Operator.ofText? h.op) l r)
    | some .ternary => within here do
      let c ← needed here "cond" cond cond.toNode
      let y ← needed here "then" yes yes.toNode
      let n ← needed here "else" no no.toNode
      pure (.ternary s c y n)
    | some .assign => within here do
      let t ← needed here "lhs" left left.toNode
      let v ← needed here "rhs" right right.toNode
      pure (.assign s ((Operator.ofText? h.op).getD .assign) t v)
    | some .select => .select s <$> BranchDump.toBranches here branches
    | some .loop => within here do
      let subject ← needed here "expr" expr expr.toNode
      let body ← NodeDump.toNodes body
      pure (.loop s (h.ids.map (⟨.at .zero, ·⟩)) subject body)
    | some .breakLoop => pure (.breakLoop s)
    | some .continueLoop => pure (.continueLoop s)
    | some .error => pure (.error s h.message)

def NodeDump.toNodes : List NodeDump → Except DumpFault (List Node)
  | [] => .ok []
  | d :: ds => do
    let n ← d.toNode
    let ns ← NodeDump.toNodes ds
    pure (n :: ns)

def EntryDump.toEntries : List EntryDump → Except DumpFault (List Entry)
  | [] => .ok []
  | .null :: _ => .error (.kind "")
  | .entry k v :: es => do
    let k ← k.toNode
    let v ← v.toNode
    let es ← EntryDump.toEntries es
    pure (.mk (.at (.span k.range v.range)) k v :: es)

def BranchDump.toBranches (here : Locus) : List BranchDump → Except DumpFault (List Branch)
  | [] => .ok []
  | .null :: _ => .error (.kind "")
  | .branch .null body :: bs => do
    if !bs.isEmpty then throw (.elseInside here)
    let body ← NodeDump.toNodes body
    let bs ← BranchDump.toBranches here bs
    pure (.otherwise body :: bs)
  | .branch c body :: bs => do
    let c ← c.toNode
    let body ← NodeDump.toNodes body
    let bs ← BranchDump.toBranches here bs
    pure (.guarded c body :: bs)
end

def FileDump.toFile (d : FileDump) : Except DumpFault SourceFile := do
  let statements ← NodeDump.toNodes d.body
  let s := Site.at ((Range.hull? (statements.map Node.range)).getD .zero)
  pure ⟨0, s, d.path, some ⟨s, statements⟩⟩

open Yaml

def Position.read (n : Yaml.Node) : Except Yaml.Fault Position := do
  let fs ← n.fields
  pure ⟨← field fs "line" 0 (Yaml.Node.int 0), ← field fs "column" 0 (Yaml.Node.int 0)⟩

def Range.read (n : Yaml.Node) : Except Yaml.Fault (Option Range) := do
  if n.isNull then pure none
  else
    let fs ← n.fields
    let start ← field fs "start" ⟨0, 0⟩ Position.read
    let stop ← field fs "end" ⟨0, 0⟩ Position.read
    pure (some ⟨start, stop⟩)

def DumpHead.read (fs : List (String × Yaml.Node)) : Except Yaml.Fault DumpHead := do
  let text (key : String) := field fs key "" (Yaml.Node.text "")
  let kind ← text "kind"
  let range ← field fs "range" none Range.read
  let isFormat ← field fs "format" false (Yaml.Node.bool false)
  let name ← text "name"
  let message ← text "message"
  let op ← text "op"
  let ids ← field fs "ids" [] (Yaml.Node.list (Yaml.Node.text ""))
  pure ⟨kind, range, fs.lookup "value", isFormat, name, message, op, ids⟩

/-- Reads a node. Nodes are nested in the document, so its depth is fuel enough. -/
def NodeDump.read : Nat → Yaml.Node → Except Yaml.Fault NodeDump
  | 0, _ => .error .unsuitable
  | fuel + 1, n => do
    if n.isNull then pure .null
    else
      let fs ← n.fields
      let head ← DumpHead.read fs
      let child (key : String) := field fs key .null (NodeDump.read fuel)
      let children (fs : List (String × Yaml.Node)) (key : String) :=
        field fs key [] fun n => do (← n.items).mapM (NodeDump.read fuel)
      let entry (n : Yaml.Node) : Except Yaml.Fault EntryDump := do
        if n.isNull then pure .null
        else
          let fs ← n.fields
          pure (.entry (← field fs "key" .null (NodeDump.read fuel)) (← field fs "value" .null (NodeDump.read fuel)))
      let branch (n : Yaml.Node) : Except Yaml.Fault BranchDump := do
        if n.isNull then pure .null
        else
          let fs ← n.fields
          pure (.branch (← field fs "cond" .null (NodeDump.read fuel)) (← children fs "body"))
      let object ← child "object"
      let args ← children fs "args"
      let elems ← children fs "elems"
      let entries ← field fs "items" [] fun n => do (← n.items).mapM entry
      let expr ← child "expr"
      let operand ← child "operand"
      let left ← child "lhs"
      let right ← child "rhs"
      let cond ← child "cond"
      let yes ← child "then"
      let no ← child "else"
      let body ← children fs "body"
      let branches ← field fs "branches" [] fun n => do (← n.items).mapM branch
      pure (.node head object expr operand left right cond yes no args elems body entries branches)

def FileDump.read (n : Yaml.Node) : Except Yaml.Fault FileDump := do
  let fs ← n.fields
  let path ← field fs "path" "" (Yaml.Node.text "")
  let body ← field fs "body" [] fun b => do (← b.items).mapM (NodeDump.read n.depth)
  pure ⟨path, body⟩

def DumpHead.kindViolations (path : List String) (h : DumpHead) : List Violation :=
  Violation.ofRules path "Kind" [("required", h.kind ≠ ""), ("oneof", (NodeKind.ofText? h.kind).isSome)] ++
    Violation.ofRules path "Op" [("oneof", h.op = "" || (Operator.ofText? h.op).isSome)]

def DumpHead.idViolations (path : List String) (h : DumpHead) : List Violation :=
  h.ids.zipIdx.flatMap fun (id, i) => Violation.ofRules path (Violation.item "IDs" i) [("required", id ≠ "")]

mutual
def NodeDump.violations (path : List String) : NodeDump → List Violation
  | .null => []
  | .node h object expr operand left right cond yes no args elems body entries branches =>
    h.kindViolations path ++ object.violations (path ++ ["Object"]) ++
      NodeDump.listViolations path "Args" 0 args ++ NodeDump.listViolations path "Elems" 0 elems ++
      EntryDump.listViolations path 0 entries ++ expr.violations (path ++ ["Expr"]) ++
      operand.violations (path ++ ["Operand"]) ++ left.violations (path ++ ["LHS"]) ++
      right.violations (path ++ ["RHS"]) ++ cond.violations (path ++ ["Cond"]) ++ yes.violations (path ++ ["Then"]) ++
      no.violations (path ++ ["Else"]) ++ h.idViolations path ++ NodeDump.listViolations path "Body" 0 body ++
      BranchDump.listViolations path 0 branches

def NodeDump.listViolations (path : List String) (field : String) : Nat → List NodeDump → List Violation
  | _, [] => []
  | i, d :: ds =>
    Violation.ofRules path (Violation.item field i) [("required", !d.isNull)] ++
      d.violations (path ++ [Violation.item field i]) ++ NodeDump.listViolations path field (i + 1) ds

def EntryDump.listViolations (path : List String) : Nat → List EntryDump → List Violation
  | _, [] => []
  | i, .null :: es =>
    Violation.ofRules path (Violation.item "Items" i) [("required", false)] ++
      EntryDump.listViolations path (i + 1) es
  | i, .entry k v :: es =>
    let here := path ++ [Violation.item "Items" i]
    Violation.ofRules here "Key" [("required", !k.isNull)] ++ k.violations (here ++ ["Key"]) ++
      Violation.ofRules here "Value" [("required", !v.isNull)] ++ v.violations (here ++ ["Value"]) ++
      EntryDump.listViolations path (i + 1) es

def BranchDump.listViolations (path : List String) : Nat → List BranchDump → List Violation
  | _, [] => []
  | i, .null :: bs =>
    Violation.ofRules path (Violation.item "Clauses" i) [("required", false)] ++
      BranchDump.listViolations path (i + 1) bs
  | i, .branch c b :: bs =>
    let here := path ++ [Violation.item "Clauses" i]
    c.violations (here ++ ["Cond"]) ++ NodeDump.listViolations here "Body" 0 b ++
      BranchDump.listViolations path (i + 1) bs
end

def FileDump.violations (d : FileDump) : List Violation :=
  Violation.ofRules ["fileDump"] "Path" [("required", d.path ≠ "")] ++
    NodeDump.listViolations ["fileDump"] "Body" 0 d.body

def SourceFile.load (text : String) : Except Failure SourceFile := do
  let unreadable : Yaml.Fault → Failure := fun _ => ⟨.unreadable, "failed to parse tree dump"⟩
  let node ← (Yaml.parse text).mapError unreadable
  let dump ← (FileDump.read (node.getD .absent)).mapError unreadable
  if !dump.violations.isEmpty then throw (Failure.ofViolations "invalid tree dump" dump.violations)
  dump.toFile.mapError fun f => ⟨f.failureKind, Text.joinWith ": " (dump.path :: f.trail)⟩

end MesonCheck
