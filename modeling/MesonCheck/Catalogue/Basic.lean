import MesonCheck.Catalogue.Callable
import MesonCheck.Types.Normal
import MesonCheck.Version

/-! The catalogue of the build language: object types, predefined variables, functions, methods, deprecations, builtin
options and well-known names. All tables are sorted by name. -/
namespace MesonCheck

inductive OptionKind where
  | string | int | bool | feature | combo | array
  | other (label : String)
deriving DecidableEq

namespace OptionKind

def ofText : String → OptionKind
  | "string" => string
  | "int" => int
  | "bool" => bool
  | "feature" => feature
  | "combo" => combo
  | "array" => array
  | label => other label

def text : OptionKind → String
  | string => "string"
  | int => "int"
  | bool => "bool"
  | feature => "feature"
  | combo => "combo"
  | array => "array"
  | other label => label

end OptionKind

structure BuildOption where
  name : String
  kind : OptionKind
  deprecated : Bool
deriving DecidableEq

/-- A callable, or a keyword written `<name>`, that should not be used from a version on. -/
structure Deprecation where
  name : String
  since : Version
  alternatives : List String

inductive NameSet where
  | pureFunctions | pureMethods | compilerIds | argumentSyntaxes | linkerIds | cpuFamilies | osNames
deriving DecidableEq

structure Catalogue where
  types : List (String × Ty)
  globals : List (String × TypeSet)
  functions : List Callable
  methods : List (String × List Callable)
  deprecations : List Deprecation
  options : List BuildOption
  names : NameSet → List String

namespace Catalogue

def type? (c : Catalogue) : String → Option Ty
  | "any" => some .any
  | "bool" => some .bool
  | "int" => some .int
  | "str" => some .str
  | "disabler" => some .disabler
  | "custom_idx" => some .customIndex
  | "list" => some (.list [.any])
  | "dict" => some (.dict [.any])
  | "subproject" => some (.subproject [])
  | n => c.types.lookup n

def function? (c : Catalogue) (n : String) : Option Callable :=
  c.functions.find? (·.name == n)

def methodsOf (c : Catalogue) (receiver : String) : List Callable :=
  (c.methods.lookup receiver).getD []

def methodOf? (c : Catalogue) (receiver n : String) : Option Callable :=
  (c.methodsOf receiver).find? (·.name == n)

def method? (c : Catalogue) (t : Ty) (n : String) : Option Callable :=
  t.lineage.findSome? fun u => c.methodOf? u.name n

def guessMethod? (c : Catalogue) (n : String) : Option Callable :=
  c.methods.findSome? fun r => r.2.find? (·.name == n)

/-- What to use instead of `n`, if it is deprecated at this version. Without a version nothing is deprecated. -/
def deprecated? (c : Catalogue) (n : String) (v : Option Version) : Option (List String) :=
  match c.deprecations.find? (·.name == n), v with
  | some d, some v => if v.isBefore d.since then none else some d.alternatives
  | _, _ => none

def option? (c : Catalogue) (n : String) : Option BuildOption :=
  c.options.find? (·.name == n)

def optionTypes (c : Catalogue) (k : OptionKind) : TypeSet :=
  match k with
  | .string | .combo => [.str]
  | .int => [.int]
  | .bool => [.bool]
  | .feature => [(c.types.lookup "feature").getD .any]
  | .array | .other _ => [.list [.str]]

def knows (c : Catalogue) (s : NameSet) (value : String) : Bool :=
  (c.names s).contains value

end Catalogue

end MesonCheck
