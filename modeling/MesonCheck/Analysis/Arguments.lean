import MesonCheck.Analysis.Issue
import MesonCheck.Tree.Node
import MesonCheck.Types.Compatible

/-! The check of a call's arguments against a signature. -/
namespace MesonCheck

structure Argument where
  node : Node
  types : TypeSet

namespace Argument

def key? (a : Argument) : Option String :=
  match a.node with
  | .keyword _ key _ => some key.name
  | _ => none

def isPositional (a : Argument) : Bool :=
  !a.node.isKeyword

def finding (a : Argument) (i : Issue) : Finding :=
  .about a.node.site i

end Argument

namespace Callable

def orderFindings : Bool → List Argument → List Finding
  | _, [] => []
  | seen, a :: as =>
    if a.isPositional then
      if seen then a.finding .positionalAfterKeyword :: orderFindings seen as else orderFindings seen as
    else orderFindings true as

def countFindings (f : Callable) (site : Site) (args : List Argument) : List Finding :=
  let n := args.countP (·.isPositional)
  (if n < f.minPositional then [.about site (.positionalCount f.minPositional n)] else []) ++
    match f.maxPositional with
    | some hi => if hi < n then [.about site (.positionalCount hi n)] else []
    | none => []

/-- Keywords that come again or that are not declared; `kwargs` is always allowed. A keyword without a name is passed
over. -/
def keywordFindings (f : Callable) : List String → List Argument → List Finding
  | _, [] => []
  | used, a :: as =>
    match a.key? with
    | none => keywordFindings f used as
    | some key =>
      if key = "" then keywordFindings f used as
      else if used.contains key then a.finding (.duplicateKeyword key) :: keywordFindings f used as
      else if key ≠ "kwargs" ∧ (f.keyword? key).isNone then
        a.finding (.unknownKeyword key) :: keywordFindings f (key :: used) as
      else keywordFindings f (key :: used) as

/-- Required keywords that are not given; a `kwargs` argument may hold them. -/
def requiredFindings (f : Callable) (site : Site) (args : List Argument) : List Finding :=
  let keys := args.filterMap Argument.key?
  if keys.contains "kwargs" then []
  else (f.requiredKeywords.filter (fun k => k = "" || !keys.contains k)).map fun k => .about site (.missingKeyword k)

def typeFinding (a : Argument) (expected : TypeSet) : List Finding :=
  if a.types.fits expected then [] else [a.finding (.typeMismatch expected a.types)]

def typeFindings (f : Callable) : Nat → List Argument → List Finding
  | _, [] => []
  | i, a :: as =>
    match a.key? with
    | some key =>
      (match f.keyword? key with
        | some k => typeFinding a k.types
        | none => []) ++ typeFindings f i as
    | none =>
      (match f.param? i with
        | some p => typeFinding a p.types
        | none => []) ++ typeFindings f (i + 1) as

def findings (f : Callable) (site : Site) (args : List Argument) : List Finding :=
  orderFindings false args ++ f.countFindings site args ++ f.keywordFindings [] args ++
    f.requiredFindings site args ++ f.typeFindings 0 args

end Callable

end MesonCheck
