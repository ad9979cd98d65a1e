/-! The characters of a YAML text with their places. -/
namespace MesonCheck.Yaml

inductive Fault where
  | unreadable
  | unsuitable
deriving DecidableEq

/-- A character and where it stands; lines and columns count from zero. -/
structure Cell where
  char : Char
  line : Nat
  column : Nat
  index : Nat

/-- The character that stands behind the last one; no text may contain it. -/
def eof : Char := Char.ofNat 0

def isAllowed (c : Char) : Bool :=
  let n := c.toNat
  n == 9 || n == 10 || n == 13 || decide (0x20 ≤ n ∧ n ≤ 0x7E) || n == 0x85 || decide (0xA0 ≤ n ∧ n ≤ 0xFFFD) ||
    decide (0x10000 ≤ n)

/-- Every kind of line break; carriage returns are gone when this is asked. -/
def isBreak (c : Char) : Bool :=
  c = '\n' || c.toNat == 0x85 || c.toNat == 0x2028 || c.toNat == 0x2029

def isBlank (c : Char) : Bool :=
  c = ' ' || c = '\t'

def isGap (c : Char) : Bool :=
  isBlank c || isBreak c || c = eof

def unifyBreaks : List Char → List Char
  | [] => []
  | '\r' :: '\n' :: cs => '\n' :: unifyBreaks cs
  | '\r' :: cs => '\n' :: unifyBreaks cs
  | c :: cs => c :: unifyBreaks cs

def placed (line column index : Nat) : List Char → List Cell
  | [] => [⟨eof, line, column, index⟩]
  | c :: cs =>
    ⟨c, line, column, index⟩ ::
      (if isBreak c then placed (line + 1) 0 (index + 1) cs else placed line (column + 1) (index + 1) cs)

def cells (text : String) : Except Fault (List Cell) :=
  let cs := match text.toList with
    | c :: cs => if c.toNat = 0xFEFF then cs else c :: cs
    | [] => []
  if cs.all isAllowed then .ok (placed 0 0 0 (unifyBreaks cs)) else .error .unreadable

def peek (cs : List Cell) : Char :=
  match cs with
  | [] => eof
  | c :: _ => c.char

def isMarker (mark : Char) (cs : List Cell) : Bool :=
  match cs with
  | a :: b :: c :: rest => a.column == 0 && a.char == mark && b.char == mark && c.char == mark && isGap (peek rest)
  | _ => false

def isDocumentMarker (cs : List Cell) : Bool :=
  isMarker '-' cs || isMarker '.' cs

end MesonCheck.Yaml
