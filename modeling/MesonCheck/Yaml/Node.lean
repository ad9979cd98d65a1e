import MesonCheck.Yaml.Token

/-! YAML documents as trees. Aliases are replaced by what they stand for. -/
namespace MesonCheck.Yaml

structure Scalar where
  /-- The tag in its short form, such as `!!int`, when one is written. -/
  tag : Option String
  isPlain : Bool
  text : String

inductive Node where
  | scalar (s : Scalar)
  | sequence (items : List Node)
  | mapping (entries : List (Node × Node))
  | cycle

def Node.absent : Node :=
  .scalar ⟨none, true, ""⟩

def Node.isMergeKey : Node → Bool
  | scalar s => s.text == "<<" && (match s.tag with
    | none => s.isPlain
    | some t => t == "!!merge")
  | _ => false

def Node.isMapping : Node → Bool
  | mapping _ => true
  | _ => false

/-- The value of a key. An alias whose entries are merged in has to stand for a mapping, and not for a list of them. -/
def Node.valueFor (key : Node) (isAlias : Bool) (value : Node) : Node :=
  if key.isMergeKey && isAlias && !value.isMapping then .absent else value

/-- What is known while a document is read: the tokens ahead, the anchors, last first, and the meanings of tag
handles. An anchor without a node is one whose node is being read. -/
structure Reading where
  tokens : List Token
  anchors : List (String × Option Node) := []
  handles : List (String × String) := []

namespace Reading

def peek (r : Reading) : Token :=
  r.tokens.head?.getD .broken

def skip (r : Reading) : Reading :=
  { r with tokens := r.tokens.tail }

def shortTag (r : Reading) (handle suffix : String) : Except Fault String :=
  let standard := "tag:yaml.org,2002:"
  let full : Except Fault String :=
    if handle = "" then .ok suffix
    else
      match r.handles.lookup handle with
      | some meaning => .ok (meaning ++ suffix)
      | none =>
        if handle = "!" then .ok ("!" ++ suffix)
        else if handle = "!!" then .ok (standard ++ suffix)
        else .error .unreadable
  full.map fun t =>
    match Text.afterChars? standard.toList t.toList with
    | some rest => "!!" ++ String.ofList rest
    | none => t

def properties (r : Reading) : Except Fault (Option String × Option String × Reading) := do
  match r.tokens with
  | .anchor a :: .tag h s :: rest =>
    let t ← r.shortTag h s
    pure (some a, some t, { r with tokens := rest })
  | .anchor a :: rest => pure (some a, none, { r with tokens := rest })
  | .tag h s :: .anchor a :: rest =>
    let t ← r.shortTag h s
    pure (some a, some t, { r with tokens := rest })
  | .tag h s :: rest =>
    let t ← r.shortTag h s
    pure (none, some t, { r with tokens := rest })
  | _ => pure (none, none, r)

def bindAnchor (r : Reading) (a : Option String) (n : Option Node) : Reading :=
  match a with
  | some a => { r with anchors := (a, n) :: r.anchors }
  | none => r

end Reading

/-- Where a node stands, which decides what can follow it. -/
inductive Place where
  | flow
  | block
  /-- A key or value of a block mapping, where the items of a sequence need no further indentation. -/
  | blockValue
deriving DecidableEq

def Token.isAlias : Token → Bool
  | .alias _ => true
  | _ => false

def isOneOf (t : Token) (others : List Token) : Bool :=
  others.any (·.ctorIdx == t.ctorIdx)

mutual
/-- Reads a node. All functions below lower the fuel at every step, and take a token at least every third step. -/
def node : Nat → Place → Reading → Except Fault (Node × Reading)
  | 0, _, _ => .error .unreadable
  | fuel + 1, place, r => do
    match r.peek with
    | .alias a =>
      match r.anchors.lookup a with
      | some (some n) => pure (n, r.skip)
      | some none => pure (.cycle, r.skip)
      | none => throw .unreadable
    | _ =>
      let (anchor, tag, r) ← r.properties
      let opened := r.bindAnchor anchor none
      let close (n : Node) (r : Reading) : Node × Reading := (n, r.bindAnchor anchor (some n))
      match r.peek with
      | .entry =>
        if place = .blockValue then
          let (items, r) ← indentlessItems fuel opened
          pure (close (.sequence items) r)
        else if anchor.isSome || tag.isSome then pure (close (.scalar ⟨tag.filter (· ≠ "!"), true, ""⟩) r)
        else throw .unreadable
      | .scalar text isPlain => pure (close (.scalar ⟨tag.filter (· ≠ "!"), isPlain, text⟩) r.skip)
      | .flowSequence =>
        let (items, r) ← flowItems fuel true opened.skip
        pure (close (.sequence items) r)
      | .flowMapping =>
        let (entries, r) ← flowEntries fuel true opened.skip
        pure (close (.mapping entries) r)
      | .blockSequence =>
        if place = .flow then throw .unreadable
        let (items, r) ← blockItems fuel opened.skip
        pure (close (.sequence items) r)
      | .blockMapping =>
        if place = .flow then throw .unreadable
        let (entries, r) ← blockEntries fuel opened.skip
        pure (close (.mapping entries) r)
      | _ =>
        if anchor.isSome || tag.isSome then pure (close (.scalar ⟨tag.filter (· ≠ "!"), true, ""⟩) r)
        else throw .unreadable

def nodeUnless : Nat → Place → List Token → Reading → Except Fault (Node × Reading)
  | 0, _, _, _ => .error .unreadable
  | fuel + 1, place, stops, r => if isOneOf r.peek stops then .ok (.absent, r) else node fuel place r

def blockItems : Nat → Reading → Except Fault (List Node × Reading)
  | 0, _ => .error .unreadable
  | fuel + 1, r =>
    match r.peek with
    | .entry => do
      let (n, r) ← nodeUnless fuel .block [.entry, .blockEnd] r.skip
      let (ns, r) ← blockItems fuel r
      pure (n :: ns, r)
    | .blockEnd => .ok ([], r.skip)
    | _ => .error .unreadable

def indentlessItems : Nat → Reading → Except Fault (List Node × Reading)
  | 0, _ => .error .unreadable
  | fuel + 1, r =>
    match r.peek with
    | .entry => do
      let (n, r) ← nodeUnless fuel .block [.entry, .key, .value, .blockEnd] r.skip
      let (ns, r) ← indentlessItems fuel r
      pure (n :: ns, r)
    | _ => .ok ([], r)

def blockEntries : Nat → Reading → Except Fault (List (Node × Node) × Reading)
  | 0, _ => .error .unreadable
  | fuel + 1, r =>
    match r.peek with
    | .key => do
      let (k, r) ← nodeUnless fuel .blockValue [.key, .value, .blockEnd] r.skip
      let isAlias := r.skip.peek.isAlias
      let (v, r) ← match r.peek with
        | .value => nodeUnless fuel .blockValue [.key, .value, .blockEnd] r.skip
        | _ => pure (Node.absent, r)
      let (rest, r) ← blockEntries fuel r
      pure ((k, k.valueFor isAlias v) :: rest, r)
    | .blockEnd => .ok ([], r.skip)
    | _ => .error .unreadable

def flowItems : Nat → Bool → Reading → Except Fault (List Node × Reading)
  | 0, _, _ => .error .unreadable
  | fuel + 1, isFirst, r => do
    match r.peek with
    | .flowSequenceEnd => pure ([], r.skip)
    | t =>
      let r ← if isFirst then pure r else if isOneOf t [.comma] then pure r.skip else throw .unreadable
      match r.peek with
      | .flowSequenceEnd => pure ([], r.skip)
      | .key =>
        let r := r.skip
        let (k, r) ←
          if isOneOf r.peek [.value, .comma, .flowSequenceEnd] then pure (Node.absent, r.skip) else node fuel .flow r
        let (v, r) ← match r.peek with
          | .value => nodeUnless fuel .flow [.comma, .flowSequenceEnd] r.skip
          | _ => pure (Node.absent, r)
        let (ns, r) ← flowItems fuel false r
        pure (.mapping [(k, v)] :: ns, r)
      | _ =>
        let (n, r) ← node fuel .flow r
        let (ns, r) ← flowItems fuel false r
        pure (n :: ns, r)

def flowEntries : Nat → Bool → Reading → Except Fault (List (Node × Node) × Reading)
  | 0, _, _ => .error .unreadable
  | fuel + 1, isFirst, r => do
    match r.peek with
    | .flowMappingEnd => pure ([], r.skip)
    | t =>
      let r ← if isFirst then pure r else if isOneOf t [.comma] then pure r.skip else throw .unreadable
      match r.peek with
      | .flowMappingEnd => pure ([], r.skip)
      | .key =>
        let (k, r) ← nodeUnless fuel .flow [.value, .comma, .flowMappingEnd] r.skip
        let isAlias := r.skip.peek.isAlias
        let (v, r) ← match r.peek with
          | .value => nodeUnless fuel .flow [.comma, .flowMappingEnd] r.skip
          | _ => pure (Node.absent, r)
        let (rest, r) ← flowEntries fuel false r
        pure ((k, k.valueFor isAlias v) :: rest, r)
      | _ =>
        let (k, r) ← node fuel .flow r
        let (rest, r) ← flowEntries fuel false r
        pure ((k, .absent) :: rest, r)
end

def directives (r : Reading) (hasVersion : Bool) : List Token → Except Fault Reading
  | .version supported :: rest =>
    if hasVersion || !supported then .error .unreadable else directives r true rest
  | .tagHandle h m :: rest =>
    if (r.handles.lookup h).isSome then .error .unreadable
    else directives { r with handles := (h, m) :: r.handles } hasVersion rest
  | rest => .ok { r with tokens := rest }

/-- The first document of a text; `none` when there is no document at all. What follows it is not looked at. -/
def parse (text : String) : Except Fault (Option Node) := do
  let ts ← tokens text
  let fuel := 4 * ts.length + 8
  let content (r : Reading) : Except Fault (Option Node) := do
    let (n, r) ← nodeUnless fuel .block [.version true, .tagHandle "" "", .documentStart, .documentEnd, .streamEnd] r
    if isOneOf r.peek [.broken] then throw .unreadable
    pure (some n)
  match ts with
  | .streamEnd :: _ => pure none
  | .version _ :: _ | .tagHandle _ _ :: _ | .documentStart :: _ =>
    let r ← directives { tokens := ts } false ts
    match r.peek with
    | .documentStart => content r.skip
    | _ => throw .unreadable
  | _ => content { tokens := ts }

end MesonCheck.Yaml
