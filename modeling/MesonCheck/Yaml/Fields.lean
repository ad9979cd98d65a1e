import MesonCheck.Yaml.Value

/-! Reading values of known types from documents. A null keeps what was there before, except that lists and tables
become empty. -/
namespace MesonCheck.Yaml

namespace Node

mutual
def depth : Node → Nat
  | scalar _ => 1
  | sequence items => depthAll items + 1
  | mapping entries => depthEntries entries + 1
  | cycle => 1

def depthAll : List Node → Nat
  | [] => 0
  | n :: ns => max (depth n) (depthAll ns)

def depthEntries : List (Node × Node) → Nat
  | [] => 0
  | (k, v) :: rest => max (max (depth k) (depth v)) (depthEntries rest)
end

def isNull : Node → Bool
  | scalar s =>
    match s.value with
    | .ok .null => true
    | _ => false
  | _ => false

/-- Any scalar can be a text. What is no text by itself is taken as it is written. -/
def text (old : String) : Node → Except Fault String
  | scalar s => do
    match ← s.value with
    | .null => pure old
    | .text t => pure t
    | _ => pure s.text
  | _ => .error .unsuitable

/-- Booleans can also be given by the words of older versions of the format. -/
def bool (old : Bool) : Node → Except Fault Bool
  | scalar s => do
    match ← s.value with
    | .null => pure old
    | .bool b => pure b
    | .text t =>
      if ["y", "Y", "yes", "Yes", "YES", "on", "On", "ON"].contains t then pure true
      else if ["n", "N", "no", "No", "NO", "off", "Off", "OFF"].contains t then pure false
      else throw .unsuitable
    | _ => throw .unsuitable
  | _ => .error .unsuitable

/-- A floating-point number without its fraction; what does not fit 64 bits becomes the least number. -/
def truncate (x : Float) : Int :=
  if x < 9223372036854775808.0 && -9223372036854775808.0 ≤ x then x.toInt64.toInt else -(signedLimit : Int)

def int (old : Int) : Node → Except Fault Int
  | scalar s => do
    match ← s.value with
    | .null => pure old
    | .int n => if n < signedLimit then pure n else throw .unsuitable
    | .float x => if x ≤ 9223372036854775808.0 then pure (truncate x) else throw .unsuitable
    | _ => throw .unsuitable
  | _ => .error .unsuitable

def float (old : Float) : Node → Except Fault Float
  | scalar s => do
    match ← s.value with
    | .null => pure old
    | .int n => pure (Float.ofInt n)
    | .float x => pure x
    | _ => throw .unsuitable
  | _ => .error .unsuitable

def items : Node → Except Fault (List Node)
  | sequence ns => .ok ns
  | n => if n.isNull then .ok [] else .error .unsuitable

def list (item : Node → Except Fault α) (n : Node) : Except Fault (List α) := do
  (← n.items).filterMapM fun n => if n.isNull then pure none else some <$> item n

def repeats : Node → Node → Bool
  | scalar s, scalar t => s.text == t.text
  | sequence _, sequence _ => true
  | mapping _, mapping _ => true
  | _, _ => false

def hasRepeatedKey : List (Node × Node) → Bool
  | [] => false
  | (k, _) :: rest => rest.any (fun e => repeats k e.1) || hasRepeatedKey rest

/-- The entries of a mapping by the texts of their keys. Entries with a null key do not count. -/
def ownEntries : List (Node × Node) → Except Fault (List (String × Node))
  | [] => .ok []
  | (k, v) :: rest => do
    let others ← ownEntries rest
    if k.isMergeKey || k.isNull then pure others
    else pure ((← k.text "", v) :: others)

def addNew (known : List (String × Node)) (more : List (String × Node)) : List (String × Node) :=
  known ++ more.filter fun e => !(known.any fun k => k.1 == e.1)

/-- The entries of a mapping together with those that it merges in, its own first. Merged mappings are nested in it, so
the depth of the node is fuel enough. -/
def entriesWithin : Nat → Node → Except Fault (List (String × Node))
  | 0, _ => .error .unsuitable
  | fuel + 1, mapping es => do
    if hasRepeatedKey es then throw .unsuitable
    let own ← ownEntries es
    match es.find? fun e => e.1.isMergeKey with
    | none => pure own
    | some (_, m) =>
      let sources ← match m with
        | mapping es => pure [mapping es]
        | sequence ns => pure ns
        | _ => throw .unsuitable
      sources.foldlM (fun known n => do pure (addNew known (← entriesWithin fuel n))) own
  | _ + 1, _ => .error .unsuitable

def entries (n : Node) : Except Fault (List (String × Node)) :=
  entriesWithin n.depth n

def fields (n : Node) : Except Fault (List (String × Node)) :=
  if n.isNull then .ok [] else n.entries

def table (item : Node → Except Fault α) (n : Node) : Except Fault (List (String × α)) := do
  (← n.fields).mapM fun e => do pure (e.1, ← item e.2)

end Node

def field (fs : List (String × Node)) (name : String) (old : α) (read : Node → Except Fault α) : Except Fault α :=
  match fs.lookup name with
  | some n => read n
  | none => .ok old

end MesonCheck.Yaml
