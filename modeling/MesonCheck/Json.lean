import MesonCheck.Text.Quoted
import MesonCheck.Text.Sorted

/-! JSON values and their texts. Fields keep their order. -/
namespace MesonCheck

inductive Json where
  | null
  | bool (b : Bool)
  | int (n : Int)
  | str (s : String)
  | arr (items : List Json)
  | obj (fields : List (String × Json))

namespace Json

/-- A character inside quotes. What could be taken for markup is escaped too. -/
def escapeChar (c : Char) : List Char :=
  match c with
  | '"' => ['\\', '"']
  | '\\' => ['\\', '\\']
  | '\n' => ['\\', 'n']
  | '\r' => ['\\', 'r']
  | '\t' => ['\\', 't']
  | '\x08' => ['\\', 'b']
  | '\x0c' => ['\\', 'f']
  | c =>
    let n := c.toNat
    if n < 0x20 || c == '<' || c == '>' || c == '&' || n == 0x2028 || n == 0x2029 then
      ['\\', 'u'] ++ Text.hexDigits 4 n
    else [c]

def quoted (s : String) : String :=
  "\"" ++ String.ofList (s.toList.flatMap escapeChar) ++ "\""

def newline (depth : Nat) : String :=
  "\n" ++ String.ofList (List.replicate (2 * depth) ' ')

def block (depth : Nat) (left right : String) (items : List String) : String :=
  if items.isEmpty then left ++ right
  else left ++ newline (depth + 1) ++ Text.joinWith ("," ++ newline (depth + 1)) items ++ newline depth ++ right

mutual
def text (depth : Nat) : Json → String
  | null => "null"
  | bool b => if b then "true" else "false"
  | int n => toString n
  | str s => quoted s
  | arr items => block depth "[" "]" (texts (depth + 1) items)
  | obj fields => block depth "\x7b" "\x7d" (fieldTexts (depth + 1) fields)

def texts (depth : Nat) : List Json → List String
  | [] => []
  | j :: js => text depth j :: texts depth js

def fieldTexts (depth : Nat) : List (String × Json) → List String
  | [] => []
  | (k, j) :: fs => (quoted k ++ ": " ++ text depth j) :: fieldTexts depth fs
end

def document (j : Json) : String :=
  j.text 0 ++ "\n"

end Json

end MesonCheck
