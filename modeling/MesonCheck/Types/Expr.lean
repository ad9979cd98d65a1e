import MesonCheck.Text.Blank
import MesonCheck.Text.Quoted
import MesonCheck.Types.Normal

/-! The written form of type sets, such as `str|list(int|file)`:

  union := term ('|' term)*
  term  := name | ('list' | 'dict') '(' union? ')'

An empty text and `void` stand for no value. -/
namespace MesonCheck.TypeExpr

/-- Why a text is no type expression. Offsets count bytes. -/
inductive Fault where
  | trailing (rest : String) (offset : Nat)
  | noName (offset : Nat)
  | noParameters (name : String)
  | unclosed
  | unknown (name : String)
deriving DecidableEq

def Fault.message (source : String) : Fault → String
  | trailing rest offset =>
    "unexpected " ++ Text.quoted rest ++ " at offset " ++ toString offset ++ " in " ++ Text.quoted source
  | noName offset => "expected type name at offset " ++ toString offset ++ " in " ++ Text.quoted source
  | noParameters name => "type " ++ name ++ " takes no parameters in " ++ Text.quoted source
  | unclosed => "missing ')' in " ++ Text.quoted source
  | unknown name => "unknown type " ++ Text.quoted name ++ " in " ++ Text.quoted source

def isNameChar (c : Char) : Bool :=
  c = '_' || c.isAlphanum

/-- Reads the parameters of a container, up to the bracket that closes them; `read` reads a union. What is read is
returned with the rest of the text, here and below. -/
def params (read : List Char → Except Fault (List Ty × List Char)) : List Char → Except Fault (List Ty × List Char)
  | [] => pure ([], [])
  | ')' :: rest => pure ([], ')' :: rest)
  | rest => read rest

def term (lookup : String → Option Ty) (size : Nat) (read : List Char → Except Fault (List Ty × List Char))
    (cs : List Char) : Except Fault (Ty × List Char) := do
  let name := String.ofList (cs.takeWhile isNameChar)
  if name = "" then throw (.noName (size - (String.ofList cs).utf8ByteSize))
  match cs.dropWhile isNameChar with
    | '(' :: rest => do
      if name ≠ "list" ∧ name ≠ "dict" then throw (.noParameters name)
      let (elems, rest) ← params read rest
      match rest with
        | ')' :: rest => pure (if name = "list" then Ty.listOf elems else Ty.dictOf elems, rest)
        | _ => throw .unclosed
    | rest =>
      match lookup name with
      | some t => pure (t, rest)
      | none => throw (.unknown name)

/-- Reads a union. Every step reads a character, so the length of the text is fuel enough. -/
def union (lookup : String → Option Ty) (size : Nat) : Nat → List Char → Except Fault (List Ty × List Char)
  | 0, cs => .error (.noName (size - (String.ofList cs).utf8ByteSize))
  | fuel + 1, cs => do
    let (t, rest) ← term lookup size (union lookup size fuel) cs
    match rest with
      | '|' :: rest => do
        let (ts, rest) ← union lookup size fuel rest
        pure (t :: ts, rest)
      | rest => pure ([t], rest)

def parse (lookup : String → Option Ty) (text : String) : Except Fault TypeSet :=
  let source := Text.trimBlank text
  if source = "" ∨ source = "void" then .ok []
  else do
    let (ts, rest) ← union lookup source.utf8ByteSize (source.toList.length + 1) source.toList
    match rest with
      | [] => pure (TypeSet.normal ts)
      | rest => throw (.trailing (String.ofList rest) (source.utf8ByteSize - (String.ofList rest).utf8ByteSize))

end MesonCheck.TypeExpr
