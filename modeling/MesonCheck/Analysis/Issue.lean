import MesonCheck.Catalogue.Basic
import MesonCheck.Diagnostic
import MesonCheck.Text.Quoted
import MesonCheck.Tree.Links
import MesonCheck.Tree.Operator

/-! What the analysis can find wrong. -/
namespace MesonCheck

inductive Issue where
  | missingProject
  | projectNotFirst
  | deadCode
  | noEffect
  | notBool (given : TypeSet)
  | notIterable
  | dictNeedsTwoIds
  | listNeedsOneId
  | loopIdCount
  | outsideLoop (statement : String)
  | unparsed (message : String)
  | duplicateKey (key : String)
  | unknownIdentifier (name : String)
  | unknownPlaceholder (name : String)
  | missingOperator
  | operatorMismatch (op : Operator) (left right : TypeSet)
  | notAssignable
  | assignedVoid
  | readOnly
  | mixedCase
  | unusedAssignment
  | unknownFunction (name : String)
  | unknownMethod (name : String) (receiver : TypeSet)
  | unknownOption (name : String)
  | deprecatedOption (name : String)
  | missingSubprojects (names : List String)
  | missingVariables (names : List String)
  | missingSubdir (dir : String)
  | recursiveInclusion (path : String)
  | positionalAfterKeyword
  | positionalCount (expected given : Nat)
  | duplicateKeyword (key : String)
  | unknownKeyword (key : String)
  | missingKeyword (key : String)
  | typeMismatch (expected given : TypeSet)
  | deprecatedCallable (id : String) (alternatives : List String)
  | deprecatedKeyword (key : String) (alternatives : List String)
  | unknownName (collection : NameSet)
  | unusedParameter
  | pointlessFormat
  | parametersOutOfBounds (indices : List Nat)

namespace Issue

def severity : Issue → Severity
  | deadCode | noEffect | mixedCase | unusedAssignment | deprecatedOption _ | duplicateKeyword _
  | deprecatedCallable .. | deprecatedKeyword .. | unknownName _ | unusedParameter | pointlessFormat => .warning
  | _ => .error

def collectionTitle : NameSet → String
  | .compilerIds => "compiler id"
  | .argumentSyntaxes => "compiler argument syntax"
  | .linkerIds => "linker id"
  | .cpuFamilies => "cpu family"
  | .osNames => "operating system name"
  | .pureFunctions => "pure function"
  | .pureMethods => "pure method"

def ticked (s : String) : String := "`" ++ s ++ "`"

def listed (ns : List String) : String := "[" ++ Text.joinWith ", " ns ++ "]"

def replacements (alternatives : List String) : String :=
  " is deprecated. Use one of these: " ++ Text.joinWith ", " alternatives

def message : Issue → String
  | missingProject => "missing project() call at top of file"
  | projectNotFirst => "first statement is not a project() call"
  | deadCode => "dead code"
  | noEffect => "statement does not have an effect or the result to the call is unused"
  | notBool given => "condition is not bool: " ++ given.join
  | notIterable => "expression yields no iterable result"
  | dictNeedsTwoIds => "iterating over a dict requires two identifiers"
  | listNeedsOneId => "iterating over a list/range requires one identifier"
  | loopIdCount => "iteration statement expects only one or two identifiers"
  | outsideLoop statement => statement ++ " statements are only allowed inside loops"
  | unparsed message => message
  | duplicateKey key => "duplicate key " ++ Text.quoted key
  | unknownIdentifier name => "unknown identifier " ++ ticked name
  | unknownPlaceholder name => "unknown identifier " ++ ticked name ++ " in format string"
  | missingOperator => "missing binary operator"
  | operatorMismatch op left right =>
    "unable to apply operator " ++ ticked op.text ++ " to types " ++ left.join ++ " and " ++ right.join
  | notAssignable => "can only assign to variables"
  | assignedVoid => "cannot assign from void"
  | readOnly => "attempted to re-assign to existing, read-only variable"
  | mixedCase => "expected snake case"
  | unusedAssignment => "unused assignment"
  | unknownFunction name => "unknown function " ++ ticked name
  | unknownMethod name receiver => "no method " ++ ticked name ++ " found for types " ++ ticked receiver.join
  | unknownOption name => "unknown option " ++ ticked name
  | deprecatedOption name => "option " ++ ticked name ++ " is deprecated"
  | missingSubprojects names => "unable to find subprojects " ++ listed names
  | missingVariables names => "unable to find variables called " ++ listed names ++ " in subprojects"
  | missingSubdir dir => "unable to find subdir " ++ dir
  | recursiveInclusion path => "recursive inclusion of " ++ path
  | positionalAfterKeyword => "unexpected positional argument after a keyword argument"
  | positionalCount expected given =>
    "expected " ++ toString expected ++ " positional arguments, but got " ++ toString given
  | duplicateKeyword key => "duplicate keyword argument " ++ key
  | unknownKeyword key => "unknown keyword argument '" ++ key ++ "'"
  | missingKeyword key => "missing required keyword argument '" ++ key ++ "'"
  | typeMismatch expected given => "expected " ++ expected.join ++ ", got " ++ given.join
  | deprecatedCallable id alternatives => id ++ replacements alternatives
  | deprecatedKeyword key alternatives => "keyword " ++ key ++ replacements alternatives
  | unknownName collection => "unknown " ++ collectionTitle collection
  | unusedParameter => "unused parameter in format() call"
  | pointlessFormat => "pointless str.format() call"
  | parametersOutOfBounds indices =>
    "parameters out of bounds: " ++ Text.joinWith ", " (indices.map fun i => "@" ++ toString i ++ "@")

end Issue

/-- An issue with the first and the last node that it is about. -/
structure Finding where
  first : Site
  last : Site
  issue : Issue

namespace Finding

def about (s : Site) (i : Issue) : Finding := ⟨s, s, i⟩

@[simp] theorem issue_about (s : Site) (i : Issue) : (about s i).issue = i := rfl

def across? (ss : List Site) (i : Issue) : Option Finding :=
  match ss.head?, ss.getLast? with
  | some a, some b => some ⟨a, b, i⟩
  | _, _ => none

def range (f : Finding) : Range := .span f.first.range f.last.range

/-- A diagnostic has the path of the file that its first node stands in. -/
def diagnostic (f : Finding) (files : LinkedFiles) : Diagnostic :=
  ⟨f.issue.severity, files.pathOf f.first, f.range, f.issue.message⟩

end Finding

end MesonCheck
