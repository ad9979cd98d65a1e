import MesonCheck.Analysis.Scope
import MesonCheck.Catalogue.Basic
import MesonCheck.Tree.Source

/-! What an analysis is given. -/
namespace MesonCheck

structure LintOptions where
  skipNames : Bool := false
  skipIds : Bool := false
  skipCompilerIds : Bool := false
  skipArgumentSyntaxes : Bool := false
  skipLinkerIds : Bool := false
  skipCpuFamilies : Bool := false
  skipOsNames : Bool := false
deriving DecidableEq

def LintOptions.checks (o : LintOptions) (collection : NameSet) : Bool :=
  !o.skipIds && !(match collection with
    | .compilerIds => o.skipCompilerIds
    | .argumentSyntaxes => o.skipArgumentSyntaxes
    | .linkerIds => o.skipLinkerIds
    | .cpuFamilies => o.skipCpuFamilies
    | .osNames => o.skipOsNames
    | .pureFunctions | .pureMethods => false)

structure KnownSubproject where
  name : String
  exported : Option Frame

structure Setting where
  catalogue : Catalogue
  tree : SourceTree
  /-- The declared options; without them the names of options are not checked. -/
  options : Option (List BuildOption) := none
  lints : LintOptions := {}
  /-- The known subprojects, sorted by name; without them no subproject is missed. -/
  subprojects : Option (List KnownSubproject) := none
  provides : List String := []
  /-- The types that an earlier analysis left at the nodes of the tree. -/
  earlier : Std.ExtTreeMap Nat TypeSet := ∅

/-- A declared option, the last one of its name, or else a builtin one. -/
def Setting.option? (cx : Setting) (name : String) : Option BuildOption :=
  match (cx.options.getD []).reverse.find? (·.name == name) with
  | some o => some o
  | none => cx.catalogue.option? name

end MesonCheck
