import MesonCheck.Yaml.Cell

/-! Reading the text of scalars. Inside a scalar, blanks around a line break are dropped; one break becomes a blank,
and of several breaks all but the first stay. -/
namespace MesonCheck.Yaml

/-- Blanks and breaks that have been read but not yet written. Lists are in reverse. -/
structure Pending where
  blanks : List Char := []
  /-- The first line break, `none` on the line of the last text. -/
  lineBreak : Option (List Char) := none
  furtherBreaks : List Char := []

namespace Pending

def isEmpty (p : Pending) : Bool :=
  p.blanks.isEmpty && p.lineBreak.isNone

def addBlank (p : Pending) (c : Char) : Pending :=
  match p.lineBreak with
  | none => { p with blanks := c :: p.blanks }
  | some _ => p

def breakChar (c : Char) : Char :=
  if c.toNat = 0x85 then '\n' else c

def addBreak (p : Pending) (c : Char) : Pending :=
  match p.lineBreak with
  | none => { blanks := [], lineBreak := some [breakChar c] }
  | some _ => { p with furtherBreaks := breakChar c :: p.furtherBreaks }

def flush (p : Pending) (text : List Char) : List Char :=
  match p.lineBreak with
  | none => p.blanks ++ text
  | some ['\n'] => if p.furtherBreaks.isEmpty then ' ' :: text else p.furtherBreaks ++ text
  | some b => p.furtherBreaks ++ b ++ text

end Pending

structure ScalarRead where
  text : String
  brokeLine : Bool
  rest : List Cell

def endsFlowPlain (c : Char) : Bool :=
  c = ',' || c = '?' || c = '[' || c = ']' || c = '\x7b' || c = '\x7d'

/-- Reads an unquoted scalar up to the first character that cannot belong to it. `indent` is the column that its
lines have to reach. -/
def plain (inFlow : Bool) (indent : Nat) (text : List Char) (p : Pending) : List Cell → Except Fault ScalarRead
  | [] => .ok ⟨String.ofList text.reverse, p.lineBreak.isSome, []⟩
  | c :: rest =>
    let stop : Except Fault ScalarRead := .ok ⟨String.ofList text.reverse, p.lineBreak.isSome, c :: rest⟩
    if isBlank c.char then
      if p.lineBreak.isSome && decide (c.column < indent) && c.char == '\t' then .error .unreadable
      else plain inFlow indent text (p.addBlank c.char) rest
    else if isBreak c.char then plain inFlow indent text (p.addBreak c.char) rest
    else if c.char = eof then stop
    else if !p.isEmpty &&
        (c.char == '#' || isDocumentMarker (c :: rest) || (!inFlow && decide (c.column < indent))) then stop
    else if c.char = ':' && isGap (peek rest) then stop
    else if inFlow && endsFlowPlain c.char then stop
    else plain inFlow indent (c.char :: p.flush text) {} rest

def singleQuoted (text : List Char) (p : Pending) : List Cell → Except Fault ScalarRead
  | [] => .error .unreadable
  | [_] => .error .unreadable
  | c :: d :: rest =>
    if isDocumentMarker (c :: d :: rest) || c.char == eof then .error .unreadable
    else if isBlank c.char then singleQuoted text (p.addBlank c.char) (d :: rest)
    else if isBreak c.char then singleQuoted text (p.addBreak c.char) (d :: rest)
    else if c.char = '\'' then
      if d.char = '\'' then singleQuoted ('\'' :: p.flush text) {} rest
      else .ok ⟨String.ofList (p.flush text).reverse, false, d :: rest⟩
    else singleQuoted (c.char :: p.flush text) {} (d :: rest)

def escape? : Char → Option (Char ⊕ Nat)
  | '0' => some (.inl (Char.ofNat 0))
  | 'a' => some (.inl (Char.ofNat 7))
  | 'b' => some (.inl (Char.ofNat 8))
  | 't' => some (.inl '\t')
  | '\t' => some (.inl '\t')
  | 'n' => some (.inl '\n')
  | 'v' => some (.inl (Char.ofNat 11))
  | 'f' => some (.inl (Char.ofNat 12))
  | 'r' => some (.inl '\r')
  | 'e' => some (.inl (Char.ofNat 27))
  | ' ' => some (.inl ' ')
  | '"' => some (.inl '"')
  | '\'' => some (.inl '\'')
  | '/' => some (.inl '/')
  | '\\' => some (.inl '\\')
  | 'N' => some (.inl (Char.ofNat 0x85))
  | '_' => some (.inl (Char.ofNat 0xA0))
  | 'L' => some (.inl (Char.ofNat 0x2028))
  | 'P' => some (.inl (Char.ofNat 0x2029))
  | 'x' => some (.inr 2)
  | 'u' => some (.inr 4)
  | 'U' => some (.inr 8)
  | _ => none

def hexValue? (c : Char) : Option Nat :=
  if c.isDigit then some (c.toNat - '0'.toNat)
  else if 'a' ≤ c ∧ c ≤ 'f' then some (c.toNat - 'a'.toNat + 10)
  else if 'A' ≤ c ∧ c ≤ 'F' then some (c.toNat - 'A'.toNat + 10)
  else none

/-- Where the reading of a double-quoted scalar stands: in its text, behind a backslash, or inside a code. -/
inductive QuoteState where
  | text
  | escaped
  | code (missing : Nat) (value : Nat)

def doubleQuoted (text : List Char) (p : Pending) : QuoteState → List Cell → Except Fault ScalarRead
  | _, [] => .error .unreadable
  | .text, c :: rest =>
    if isDocumentMarker (c :: rest) || c.char == eof then .error .unreadable
    else if isBlank c.char then doubleQuoted text (p.addBlank c.char) .text rest
    else if isBreak c.char then doubleQuoted text (p.addBreak c.char) .text rest
    else if c.char = '"' then .ok ⟨String.ofList (p.flush text).reverse, false, rest⟩
    else if c.char = '\\' then doubleQuoted (p.flush text) {} .escaped rest
    else doubleQuoted (c.char :: p.flush text) {} .text rest
  | .escaped, c :: rest =>
    if isBreak c.char then doubleQuoted text { lineBreak := some [] } .text rest
    else
      match escape? c.char with
      | some (.inl e) => doubleQuoted (e :: text) {} .text rest
      | some (.inr digits) => doubleQuoted text {} (.code digits 0) rest
      | none => .error .unreadable
  | .code missing value, c :: rest =>
    match hexValue? c.char with
    | none => .error .unreadable
    | some d =>
      let value := 16 * value + d
      if missing ≤ 1 then
        if value.isValidChar then doubleQuoted (Char.ofNat value :: text) {} .text rest else .error .unreadable
      else doubleQuoted text {} (.code (missing - 1) value) rest

/-- How a block scalar ends: without its last break, with one, or with all that follow. -/
inductive Chomping where
  | strip | clip | keep

/-- The state of reading a block scalar. `text`, `lineBreak` and `further` are in reverse. -/
structure BlockState where
  literal : Bool
  chomping : Chomping
  indent : Option Nat
  /-- The least column that its lines can have. -/
  least : Nat
  deepest : Nat := 0
  text : List Char := []
  lineBreak : List Char := []
  further : List Char := []
  ledByBlank : Bool := false

namespace BlockState

def finish (b : BlockState) : List Char :=
  match b.chomping with
  | .strip => b.text
  | .clip => b.lineBreak ++ b.text
  | .keep => b.further ++ b.lineBreak ++ b.text

def startLine (b : BlockState) (blank : Bool) : BlockState :=
  let text :=
    if !b.literal && !b.ledByBlank && !blank && b.lineBreak == ['\n'] then
      if b.further.isEmpty then ' ' :: b.text else b.text
    else b.lineBreak ++ b.text
  { b with text := b.further ++ text, lineBreak := [], further := [], ledByBlank := blank }

end BlockState

/-- Reads a block scalar from the start of a line. `inLine` tells the text of a line from the blanks before it. -/
def block (b : BlockState) (inLine : Bool) : List Cell → Except Fault ScalarRead
  | [] => .ok ⟨String.ofList b.finish.reverse, false, []⟩
  | c :: rest =>
    let stop (b : BlockState) : Except Fault ScalarRead := .ok ⟨String.ofList b.finish.reverse, false, c :: rest⟩
    if inLine then
      if isBreak c.char then block { b with lineBreak := [Pending.breakChar c.char] } false rest
      else if c.char = eof then stop b
      else block { b with text := c.char :: b.text } true rest
    else
      let inMargin := match b.indent with
        | none => true
        | some n => decide (c.column < n)
      if inMargin && c.char == ' ' then block b false rest
      else if inMargin && c.char == '\t' then .error .unreadable
      else
        let b := { b with deepest := max b.deepest c.column }
        if isBreak c.char then block { b with further := Pending.breakChar c.char :: b.further } false rest
        else
          let indent := b.indent.getD (max b.deepest b.least)
          let b := { b with indent := some indent }
          if c.column = indent && c.char != eof then
            block { b.startLine (isBlank c.char) with text := c.char :: (b.startLine (isBlank c.char)).text } true rest
          else stop b

end MesonCheck.Yaml
