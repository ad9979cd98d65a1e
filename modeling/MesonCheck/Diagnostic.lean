import MesonCheck.Tree.Range
import MesonCheck.Word

/-! Diagnostics: findings with the place they are about. -/
namespace MesonCheck

inductive Severity where
  | error
  | warning
  | other (label : String)
deriving DecidableEq

namespace Severity

def text : Severity → String
  | error => "error"
  | warning => "warning"
  | other label => label

def ofText : String → Severity
  | "error" => error
  | "warning" => warning
  | label => other label

end Severity

structure Diagnostic where
  severity : Severity
  file : String
  range : Range
  message : String
deriving DecidableEq

namespace Diagnostic

def shown (n : Int) : String :=
  toString (Int.bmod (n + 1) wordLimit)

def text (d : Diagnostic) : String :=
  d.file ++ ":" ++ shown d.range.start.line ++ ":" ++ shown d.range.start.column ++ ": " ++ d.severity.text ++ ": " ++
    d.message

/-- The order of reports: by file and start, errors first, then by message. Severities other than an error are not
told apart. -/
def before (a b : Diagnostic) : Bool :=
  if a.file ≠ b.file then a.file < b.file
  else if a.range.start.line ≠ b.range.start.line then a.range.start.line < b.range.start.line
  else if a.range.start.column ≠ b.range.start.column then a.range.start.column < b.range.start.column
  else if a.severity ≠ b.severity then a.severity = .error
  else a.message < b.message

def place (d : Diagnostic) : List Diagnostic → List Diagnostic
  | [] => [d]
  | e :: es => if d.before e then e :: place d es else d :: e :: es

/-- Sorts by `before`; equals keep their order. Logs are nearly sorted, so the search for a place starts at the end. -/
def sort (ds : List Diagnostic) : List Diagnostic :=
  (ds.foldl (fun done d => place d done) []).reverse

def count (ds : List Diagnostic) (s : Severity) : Nat :=
  ds.countP (·.severity == s)

end Diagnostic

end MesonCheck
