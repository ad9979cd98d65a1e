import MesonCheck.Text.Sorted

/-! Why an operation was refused, with the text that is shown. -/
namespace MesonCheck

/-- A rule that a field of a document breaks. The path leads from the document to the field. -/
structure Violation where
  path : List String
  rule : String

namespace Violation

def message (v : Violation) : String :=
  "Key: '" ++ Text.joinWith "." v.path ++ "' Error:Field validation for '" ++ v.path.getLast?.getD "" ++
    "' failed on the '" ++ v.rule ++ "' tag"

def ofRules (path : List String) (field : String) (rules : List (String × Bool)) : List Violation :=
  match rules.find? (!·.2) with
  | some (rule, _) => [⟨path ++ [field], rule⟩]
  | none => []

def item (field : String) (i : Nat) : String :=
  field ++ "[" ++ toString i ++ "]"

end Violation

inductive FailureKind where
  | unreadable
  | invalid
  | file
  | database
  | notFound
  | other
deriving DecidableEq

structure Failure where
  kind : FailureKind
  message : String
deriving DecidableEq

namespace Failure

def within (context : String) (f : Failure) : Failure :=
  { f with message := context ++ ": " ++ f.message }

def ofViolations (context : String) (vs : List Violation) : Failure :=
  ⟨.invalid, context ++ ": " ++ Text.joinWith "\n" (vs.map Violation.message)⟩

end Failure

end MesonCheck
