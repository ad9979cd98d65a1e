import MesonCheck.Text.Sorted

/-! The types a value of the build language can have. A value is described by a list of alternatives, a
`TypeSet`; the empty list says that nothing is known. -/
namespace MesonCheck

inductive Ty where
  | any
  | bool
  | int
  | str
  /-- The result of `disabler()`; every use of it is accepted. -/
  | disabler
  | customIndex
  | list (elems : List Ty)
  /-- Keys are always texts, so only the values are described. -/
  | dict (values : List Ty)
  /-- A named object; it can be used in place of its parent. -/
  | object (name : String) (parent : Option Ty)
  /-- A handle that stands for one of the named subprojects. -/
  | subproject (names : List String)
deriving Repr, Inhabited

abbrev TypeSet := List Ty

inductive Kind where
  | any | bool | int | str | disabler | customIndex | list | dict | object | subproject
deriving DecidableEq, Repr

namespace Ty

def kind : Ty → Kind
  | any => .any
  | bool => .bool
  | int => .int
  | str => .str
  | disabler => .disabler
  | customIndex => .customIndex
  | list _ => .list
  | dict _ => .dict
  | object .. => .object
  | subproject _ => .subproject

def name : Ty → String
  | any => "any"
  | bool => "bool"
  | int => "int"
  | str => "str"
  | disabler => "disabler"
  | customIndex => "custom_idx"
  | list _ => "list"
  | dict _ => "dict"
  | object n _ => n
  | subproject _ => "subproject"

def parent : Ty → Option Ty
  | object _ p => p
  | _ => none

def elems : Ty → TypeSet
  | list es => es
  | dict vs => vs
  | _ => []

def subprojectNames : Ty → List String
  | subproject ns => ns
  | _ => []

/-- `any`, or a container that holds exactly `any`. -/
def isWildcard : Ty → Bool
  | any => true
  | list [any] => true
  | dict [any] => true
  | _ => false

def lineage : Ty → List Ty
  | object n (some p) => object n (some p) :: lineage p
  | t => [t]

mutual
def text : Ty → String
  | list es => "list(" ++ Text.joinWith "|" (Text.sorted (texts es)) ++ ")"
  | dict vs => "dict(" ++ Text.joinWith "|" (Text.sorted (texts vs)) ++ ")"
  | subproject ns => "subproject(" ++ Text.joinWith "|" ns ++ ")"
  | object n _ => n
  | any => "any"
  | bool => "bool"
  | int => "int"
  | str => "str"
  | disabler => "disabler"
  | customIndex => "custom_idx"

def texts : List Ty → List String
  | [] => []
  | t :: ts => text t :: texts ts
end

mutual
/-- Equality that does not look at the parents of objects. -/
def same : Ty → Ty → Bool
  | any, any => true
  | bool, bool => true
  | int, int => true
  | str, str => true
  | disabler, disabler => true
  | customIndex, customIndex => true
  | list es, list fs => sameAll es fs
  | dict es, dict fs => sameAll es fs
  | object n _, object m _ => n == m
  | subproject ns, subproject ms => ns == ms
  | _, _ => false

def sameAll : List Ty → List Ty → Bool
  | [], [] => true
  | t :: ts, u :: us => same t u && sameAll ts us
  | _, _ => false
end

end Ty

namespace TypeSet

def join (s : TypeSet) : String :=
  Text.joinWith "|" (Text.sorted (s.map Ty.text))

def has (s : TypeSet) (k : Kind) : Bool :=
  s.any (·.kind == k)

def first? (s : TypeSet) (k : Kind) : Option Ty :=
  s.find? (·.kind == k)

def hasObject (s : TypeSet) (n : String) : Bool :=
  s.any fun t => t.kind == .object && t.name == n

end TypeSet

end MesonCheck
