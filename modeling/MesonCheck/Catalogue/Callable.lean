import MesonCheck.Types.Basic

/-! Signatures of functions and methods. -/
namespace MesonCheck

structure Param where
  types : TypeSet
  optional : Bool
  variadic : Bool

structure Keyword where
  types : TypeSet
  required : Bool

/-- A function, or a method when it has a receiver. Keywords are sorted by name. -/
structure Callable where
  name : String
  receiver : Option String
  params : List Param
  keywords : List (String × Keyword)
  returns : TypeSet

namespace Callable

def id (f : Callable) : String :=
  match f.receiver with
  | some r => r ++ "." ++ f.name
  | none => f.name

def minPositional (f : Callable) : Nat :=
  f.params.countP fun p => !p.optional && !p.variadic

def maxPositional (f : Callable) : Option Nat :=
  if f.params.any (·.variadic) then none else some f.params.length

def param? (f : Callable) (i : Nat) : Option Param :=
  match f.params[i]? with
  | some p => some p
  | none => f.params.getLast?.filter (·.variadic)

def keyword? (f : Callable) (n : String) : Option Keyword :=
  f.keywords.lookup n

def requiredKeywords (f : Callable) : List String :=
  (f.keywords.filter (·.2.required)).map (·.1)

def paramText (p : Param) : String :=
  p.types.join ++ (if p.variadic then "..." else if p.optional then "?" else "")

def keywordText (k : String × Keyword) : String :=
  k.1 ++ ": " ++ k.2.types.join ++ (if k.2.required then "!" else "")

/-- The signature, such as `range(int, int?, int?) -> range`. -/
def signature (f : Callable) : String :=
  f.id ++ "(" ++ Text.joinWith ", " (f.params.map paramText ++ f.keywords.map keywordText) ++ ") -> " ++
    (if f.returns.isEmpty then "void" else f.returns.join)

end Callable

end MesonCheck
