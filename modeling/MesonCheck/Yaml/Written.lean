import MesonCheck.Text.Quoted
import MesonCheck.Text.Split
import MesonCheck.Yaml.Value

/-! Texts as YAML scalars: plain where that is possible, else in quotes. -/
namespace MesonCheck.Yaml

def isWritable (c : Char) : Bool :=
  let n := c.toNat
  (0x20 ≤ n && n ≤ 0x7e) || (0xa0 ≤ n && n ≤ 0xffff && n != 0xfeff && n < 0xfffe)

def opensScalar (c : Char) : Bool :=
  "#,[]\x7b\x7d&*!|>'\"%@".toList.contains c || c == '\x60'

def isBlankOrEnd (c : Option Char) : Bool :=
  c == none || c == some ' ' || c == some '\t'

/-- Whether a colon before a blank or a `#` behind one would end a plain scalar. -/
def breaksPlain : Char → List Char → Bool
  | _, [] => false
  | last, c :: cs => (c == ':' && isBlankOrEnd cs.head?) || (c == '#' && isBlankOrEnd (some last)) || breaksPlain c cs

def canBePlain (cs : List Char) : Bool :=
  match cs with
  | [] => false
  | c :: rest =>
    !(opensScalar c || c == ' ' || cs.getLast? == some ' ' || (c == '?' || c == '-') && isBlankOrEnd rest.head? ||
      (cs.take 3 == ['-', '-', '-'] || cs.take 3 == ['.', '.', '.']) || breaksPlain 'x' cs)

def readsAsText (s : String) : Bool :=
  match plainValue s with
  | .text _ => !(["y", "Y", "yes", "Yes", "YES", "on", "On", "ON", "n", "N", "no", "No", "NO", "off", "Off",
      "OFF"].contains s)
  | _ => false

def doubleQuotedChar (c : Char) : List Char :=
  match c with
  | '"' => ['\\', '"']
  | '\\' => ['\\', '\\']
  | '\n' => ['\\', 'n']
  | '\r' => ['\\', 'r']
  | '\t' => ['\\', 't']
  | '\x00' => ['\\', '0']
  | '\x07' => ['\\', 'a']
  | '\x08' => ['\\', 'b']
  | '\x0b' => ['\\', 'v']
  | '\x0c' => ['\\', 'f']
  | '\x1b' => ['\\', 'e']
  | c =>
    let n := c.toNat
    if isWritable c then [c]
    else if n = 0x85 then ['\\', 'N']
    else if n ≤ 0xff then ['\\', 'x'] ++ (Text.hexDigits 2 n).map Char.toUpper
    else if n ≤ 0xffff then ['\\', 'u'] ++ (Text.hexDigits 4 n).map Char.toUpper
    else ['\\', 'U'] ++ (Text.hexDigits 8 n).map Char.toUpper

def inDoubleQuotes (s : String) : String :=
  "\"" ++ String.ofList (s.toList.flatMap doubleQuotedChar) ++ "\""

def written (s : String) : String :=
  let cs := s.toList
  if !readsAsText s || cs.any (!isWritable ·) then inDoubleQuotes s
  else if canBePlain cs then s
  else "'" ++ Text.replaceAll s "'" "''" ++ "'"

end MesonCheck.Yaml
