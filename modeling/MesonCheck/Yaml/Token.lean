import MesonCheck.Text.Split
import MesonCheck.Yaml.ScalarText

/-! The tokens of a YAML text. Indentation becomes tokens too: a block collection starts where the column grows and
ends where it shrinks. A key without a question mark is known as one only when its colon is reached, so tokens are
also put in before others that have been read. -/
namespace MesonCheck.Yaml

inductive Token where
  | version (supported : Bool)
  | tagHandle (handle : String) (meaning : String)
  | documentStart
  | documentEnd
  | blockSequence
  | blockMapping
  | blockEnd
  | flowSequence
  | flowSequenceEnd
  | flowMapping
  | flowMappingEnd
  | entry
  | comma
  | key
  | value
  | alias (name : String)
  | anchor (name : String)
  | tag (handle suffix : String)
  | scalar (text : String) (isPlain : Bool)
  | streamEnd
  | broken

/-- The start of something that a colon may turn into a key. -/
structure PossibleKey where
  position : Nat
  /-- It has to be a key, because it stands at the column of a block mapping. -/
  required : Bool
  line : Nat
  column : Nat
  index : Nat

structure Lexer where
  cells : List Cell
  tokens : List Token := []
  count : Nat := 0
  /-- The column of the innermost block collection, -1 outside of all. -/
  indent : Int := -1
  outerIndents : List Int := []
  /-- The possible key of every open bracket, innermost first; the last is that of the block level. -/
  keys : List (Option PossibleKey) := [none]
  keyAllowed : Bool := true

namespace Lexer

def inFlow (x : Lexer) : Bool :=
  decide (1 < x.keys.length)

def push (x : Lexer) (t : Token) : Lexer :=
  { x with tokens := t :: x.tokens, count := x.count + 1 }

def insertAt (x : Lexer) (position : Nat) (t : Token) : Lexer :=
  let later := x.count - position
  { x with tokens := x.tokens.take later ++ t :: x.tokens.drop later, count := x.count + 1 }

def setKey (x : Lexer) (k : Option PossibleKey) : Lexer :=
  { x with keys := k :: x.keys.tail }

def dropKey (x : Lexer) : Except Fault Lexer :=
  match x.keys.head? with
  | some (some k) => if k.required then .error .unreadable else .ok (x.setKey none)
  | _ => .ok x

def noteKey (x : Lexer) (c : Cell) : Except Fault Lexer :=
  if x.keyAllowed then do
    let x ← x.dropKey
    pure (x.setKey (some ⟨x.count, !x.inFlow && x.indent == c.column, c.line, c.column, c.index⟩))
  else .ok x

def keyLimit : Nat := 1024

/-- The key that a colon at `c` belongs to. A key ends on the line where it starts. -/
def keyFor (x : Lexer) (c : Cell) : Except Fault (Option PossibleKey) :=
  match x.keys.head? with
  | some (some k) =>
    if k.line < c.line ∨ k.index + keyLimit < c.index then
      if k.required then .error .unreadable else .ok none
    else .ok (some k)
  | _ => .ok none

/-- Required keys that can no longer find their colon make the text unreadable. -/
def checkKeys (x : Lexer) (c : Cell) : Except Fault Lexer :=
  if x.keys.any fun
    | some k => k.required && (decide (k.line < c.line) || decide (k.index + keyLimit < c.index))
    | none => false
  then .error .unreadable
  else .ok x

def closeBlocks (column : Int) (tokens : List Token) (count : Nat) (indent : Int) :
    List Int → List Token × Nat × Int × List Int
  | [] => (tokens, count, indent, [])
  | outer :: rest =>
    if column < indent then closeBlocks column (.blockEnd :: tokens) (count + 1) outer rest
    else (tokens, count, indent, outer :: rest)

def unroll (x : Lexer) (column : Int) : Lexer :=
  if x.inFlow then x
  else
    let (tokens, count, indent, outer) := closeBlocks column x.tokens x.count x.indent x.outerIndents
    { x with tokens := tokens, count := count, indent := indent, outerIndents := outer }

def roll (x : Lexer) (column : Nat) (position : Nat) (t : Token) : Lexer :=
  if x.inFlow || decide ((column : Int) ≤ x.indent) then x
  else { x.insertAt position t with indent := column, outerIndents := x.indent :: x.outerIndents }

/-- Drops blanks, comments and line breaks before the next token. Tabs count as blanks only where no key can start.
On a new line outside of brackets a key can start. -/
def skipGaps (inFlow : Bool) (inComment : Bool) (keyAllowed : Bool) : List Cell → List Cell × Bool
  | [] => ([], keyAllowed)
  | c :: rest =>
    if isBreak c.char then skipGaps inFlow false (keyAllowed || !inFlow) rest
    else if c.char = eof then (c :: rest, keyAllowed)
    else if inComment then skipGaps inFlow true keyAllowed rest
    else if c.char = '#' then skipGaps inFlow true keyAllowed rest
    else if c.char = ' ' || (c.char == '\t' && (inFlow || !keyAllowed)) ||
        (c.column == 0 && c.char.toNat == 0xFEFF) then skipGaps inFlow false keyAllowed rest
    else (c :: rest, keyAllowed)

def isNameChar (c : Char) : Bool :=
  c.isAlphanum || c = '_' || c = '-'

def spanCells (p : Char → Bool) (cs : List Cell) : List Char × List Cell :=
  ((cs.takeWhile fun c => p c.char).map Cell.char, cs.dropWhile fun c => p c.char)

def name (cs : List Cell) : Except Fault (String × List Cell) :=
  let (n, rest) := spanCells isNameChar cs
  let next := peek rest
  if n.isEmpty || !(isGap next || "?:,]\x7d%@\x60".toList.contains next) then .error .unreadable
  else .ok (String.ofList n, rest)

def isUriChar (c : Char) : Bool :=
  isNameChar c || ";/?:@&=+$.!~*'()%,[]".toList.contains c

def tagToken (cs : List Cell) : Except Fault (Token × List Cell) :=
  if peek cs = '<' then
    let (uri, rest) := spanCells isUriChar cs.tail
    if uri.isEmpty || peek rest != '>' then .error .unreadable
    else if isGap (peek rest.tail) then .ok (.tag "" (String.ofList uri), rest.tail) else .error .unreadable
  else
    let (n, rest) := spanCells isNameChar cs
    if peek rest = '!' then
      let (suffix, rest) := spanCells isUriChar rest.tail
      if suffix.isEmpty || !isGap (peek rest) then .error .unreadable
      else .ok (.tag (String.ofList ('!' :: n ++ ['!'])) (String.ofList suffix), rest)
    else
      let (more, rest) := spanCells isUriChar rest
      if isGap (peek rest) then
        if (n ++ more).isEmpty then .ok (.tag "" "!", rest) else .ok (.tag "!" (String.ofList (n ++ more)), rest)
      else .error .unreadable

def skipBlanks (cs : List Cell) : List Cell :=
  cs.dropWhile fun c => isBlank c.char

def lineEnd (cs : List Cell) : Except Fault (List Cell) :=
  let cs := skipBlanks cs
  let cs := if peek cs = '#' then cs.dropWhile fun c => !isBreak c.char && c.char != eof else cs
  if isBreak (peek cs) || peek cs == eof then .ok cs else .error .unreadable

def directive (cs : List Cell) : Except Fault (Token × List Cell) := do
  let (n, rest) := spanCells isNameChar cs
  if String.ofList n = "YAML" then
    let (major, rest) := spanCells Char.isDigit (skipBlanks rest)
    if major.isEmpty || peek rest != '.' then throw .unreadable
    let (minor, rest) := spanCells Char.isDigit rest.tail
    if minor.isEmpty then throw .unreadable
    let rest ← lineEnd rest
    pure (.version (major == ['1'] && minor == ['1']), rest)
  else if String.ofList n = "TAG" then
    let (handle, rest) := spanCells (fun c => !isGap c) (skipBlanks rest)
    let (meaning, rest) := spanCells (fun c => !isGap c) (skipBlanks rest)
    if handle.isEmpty || meaning.isEmpty then throw .unreadable
    let rest ← lineEnd rest
    pure (.tagHandle (String.ofList handle) (String.ofList meaning), rest)
  else throw .unreadable

def blockHeader (cs : List Cell) : Except Fault (Chomping × Option Nat × List Cell) :=
  let chomp (cs : List Cell) : Option Chomping × List Cell :=
    if peek cs = '+' then (some .keep, cs.tail) else if peek cs = '-' then (some .strip, cs.tail) else (none, cs)
  let digit (cs : List Cell) : Except Fault (Option Nat × List Cell) :=
    if (peek cs).isDigit then
      if peek cs = '0' then .error .unreadable else .ok (some ((peek cs).toNat - '0'.toNat), cs.tail)
    else .ok (none, cs)
  match chomp cs with
  | (some c, rest) => do
    let (n, rest) ← digit rest
    pure (c, n, rest)
  | (none, _) => do
    let (n, rest) ← digit cs
    let (c, rest) := if n.isSome then chomp rest else (none, rest)
    pure (c.getD .clip, n, rest)

def blockScalar (x : Lexer) (literal : Bool) (cs : List Cell) : Except Fault ScalarRead := do
  let (chomping, increment, rest) ← blockHeader cs
  let rest ← lineEnd rest
  let rest := if isBreak (peek rest) then rest.tail else rest
  let base := (max x.indent 0).toNat
  let least := max 1 (x.indent + 1).toNat
  block { literal := literal, chomping := chomping, indent := increment.map (base + ·), least := least } false rest

def isIndicator (c : Char) : Bool :=
  "-?:,[]\x7b\x7d#&*!|>'\"%@\x60".toList.contains c

def pushScalar (x : Lexer) (r : ScalarRead) (isPlain : Bool) : Lexer :=
  { x.push (.scalar r.text isPlain) with cells := r.rest, keyAllowed := r.brokeLine }

def next (x : Lexer) : Except Fault Lexer := do
  let (cs, allowed) := skipGaps x.inFlow false x.keyAllowed x.cells
  let x := { x with cells := cs, keyAllowed := allowed }
  match cs with
  | [] => throw .unreadable
  | c :: rest =>
    let x ← x.checkKeys c
    let x := x.unroll c.column
    let following := peek rest
    if c.char = eof then
      let x ← (x.unroll (-1)).dropKey
      pure { x.push .streamEnd with cells := [] }
    else if c.column = 0 && c.char == '%' then
      let x ← (x.unroll (-1)).dropKey
      let (t, rest) ← directive rest
      pure { x.push t with cells := rest, keyAllowed := false }
    else if isDocumentMarker cs then
      let x ← (x.unroll (-1)).dropKey
      let t := if c.char = '-' then Token.documentStart else Token.documentEnd
      pure { x.push t with cells := rest.drop 2, keyAllowed := false }
    else if c.char = '[' || c.char = '\x7b' then
      let x ← x.noteKey c
      let t := if c.char = '[' then Token.flowSequence else Token.flowMapping
      pure { x.push t with cells := rest, keys := none :: x.keys, keyAllowed := true }
    else if c.char = ']' || c.char = '\x7d' then
      let x ← x.dropKey
      let t := if c.char = ']' then Token.flowSequenceEnd else Token.flowMappingEnd
      let keys := if x.inFlow then x.keys.tail else x.keys
      pure { x.push t with cells := rest, keys := keys, keyAllowed := false }
    else if c.char = ',' then
      let x ← x.dropKey
      pure { x.push .comma with cells := rest, keyAllowed := true }
    else if c.char = '-' && isGap following then
      if !x.inFlow && !x.keyAllowed then throw .unreadable
      let x ← (x.roll c.column x.count .blockSequence).dropKey
      pure { x.push .entry with cells := rest, keyAllowed := true }
    else if c.char = '?' && (x.inFlow || isGap following) then
      if !x.inFlow && !x.keyAllowed then throw .unreadable
      let x ← (x.roll c.column x.count .blockMapping).dropKey
      pure { x.push .key with cells := rest, keyAllowed := !x.inFlow }
    else if c.char = ':' && (x.inFlow || isGap following) then
      match ← x.keyFor c with
      | some k =>
        let x := ((x.insertAt k.position .key).roll k.column k.position .blockMapping).setKey none
        pure { x.push .value with cells := rest, keyAllowed := false }
      | none =>
        if !x.inFlow && !x.keyAllowed then throw .unreadable
        let x := x.roll c.column x.count .blockMapping
        pure { (x.setKey none).push .value with cells := rest, keyAllowed := !x.inFlow }
    else if c.char = '*' || c.char = '&' then
      let x ← x.noteKey c
      let (n, rest) ← name rest
      pure { x.push (if c.char = '*' then .alias n else .anchor n) with cells := rest, keyAllowed := false }
    else if c.char = '!' then
      let x ← x.noteKey c
      let (t, rest) ← tagToken rest
      pure { x.push t with cells := rest, keyAllowed := false }
    else if (c.char = '|' || c.char = '>') && !x.inFlow then
      let x ← x.dropKey
      let r ← x.blockScalar (c.char == '|') rest
      pure { x.push (.scalar r.text false) with cells := r.rest, keyAllowed := true }
    else if c.char = '\'' then
      let x ← x.noteKey c
      let r ← singleQuoted [] {} rest
      pure (x.pushScalar r false)
    else if c.char = '"' then
      let x ← x.noteKey c
      let r ← doubleQuoted [] {} .text rest
      pure (x.pushScalar r false)
    else if !(isGap c.char || isIndicator c.char) || (c.char == '-' && !isBlank following) ||
        (!x.inFlow && (c.char == '?' || c.char == ':') && !isGap following) then
      let x ← x.noteKey c
      let r ← plain x.inFlow (x.indent + 1).toNat [] {} cs
      pure (x.pushScalar r true)
    else throw .unreadable

/-- Reads tokens until the text ends or cannot be read. Every token takes at least one cell, so the number of cells is
fuel enough. -/
def run : Nat → Lexer → List Token
  | 0, x => (Token.broken :: x.tokens).reverse
  | fuel + 1, x =>
    match x.next with
    | .error _ => (Token.broken :: x.tokens).reverse
    | .ok x => if x.cells.isEmpty then x.tokens.reverse else run fuel x

end Lexer

def tokens (text : String) : Except Fault (List Token) := do
  let cs ← cells text
  pure (Lexer.run (cs.length + 1) { cells := cs })

end MesonCheck.Yaml
