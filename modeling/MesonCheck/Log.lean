import MesonCheck.Text.Quoted
import MesonCheck.Text.Sorted

/-! Log lines: JSON objects with a level, the fields of the logger and a message. -/
namespace MesonCheck.Log

inductive Level where
  | trace
  | debug
  | info
  | warn
  | error
  | fatal
deriving DecidableEq

namespace Level

def text : Level → String
  | trace => "trace"
  | debug => "debug"
  | info => "info"
  | warn => "warn"
  | error => "error"
  | fatal => "fatal"

/-- An unknown level is taken for `info`. -/
def ofText : String → Level
  | "trace" => trace
  | "debug" => debug
  | "warn" => warn
  | "error" => error
  | "fatal" => fatal
  | _ => info

def rank : Level → Nat
  | trace => 0
  | debug => 1
  | info => 2
  | warn => 3
  | error => 4
  | fatal => 5

end Level

def escapeChar (c : Char) : List Char :=
  match c with
  | '"' => ['\\', '"']
  | '\\' => ['\\', '\\']
  | '\n' => ['\\', 'n']
  | '\r' => ['\\', 'r']
  | '\t' => ['\\', 't']
  | '\x08' => ['\\', 'b']
  | '\x0c' => ['\\', 'f']
  | c => if c.toNat < 0x20 || c.toNat = 0x7f then ['\\', 'u'] ++ Text.hexDigits 4 c.toNat else [c]

def quoted (s : String) : String :=
  "\"" ++ String.ofList (s.toList.flatMap escapeChar) ++ "\""

structure Logger where
  /-- The lowest level that is written; without one nothing is. -/
  level : Option Level
  fields : List (String × String) := []

namespace Logger

def silent : Logger := ⟨none, []⟩

def add (l : Logger) (key value : String) : Logger :=
  { l with fields := l.fields ++ [(key, value)] }

def writes (l : Logger) (level : Level) : Bool :=
  l.level.any fun least => least.rank ≤ level.rank

def line? (l : Logger) (level : Level) (message : String) : Option String :=
  if l.writes level then
    let entries := ("level", level.text) :: l.fields ++ (if message = "" then [] else [("message", message)])
    some ("\x7b" ++ Text.joinWith "," (entries.map fun e => quoted e.1 ++ ":" ++ quoted e.2) ++ "\x7d")
  else none

end Logger

end MesonCheck.Log
