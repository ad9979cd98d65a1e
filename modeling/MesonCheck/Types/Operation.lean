import MesonCheck.Tree.Operator
import MesonCheck.Types.Normal

/-! Types of the results of operators. An operator is applied to every pair of alternatives of its operands. -/
namespace MesonCheck

def Ty.canBe (t : Ty) (name : String) : Bool :=
  t.kind == .any || t.name == name

/-- The result of an operator on one pair of types; two values of which nothing is known have none. -/
def Operator.result? (op : Operator) (l r : Ty) : Option Ty :=
  let both (name : String) := l.canBe name && r.canBe name
  if l.kind == .any && r.kind == .any then none
  else
    match op with
    | .and | .or => if both "bool" then some .bool else none
    | .divide => if both "int" then some .int else if both "str" then some .str else none
    | .equal | .notEqual =>
      if both "int" || both "str" || both "bool" || both "dict" || both "list" then some .bool
      else if l.kind == .object && r.kind == .object && l.name == r.name then some .bool
      else none
    | .less | .lessEqual | .greater | .greaterEqual => if both "int" || both "str" then some .bool else none
    | .isIn | .notIn => some .bool
    | .minus | .modulo | .times => if both "int" then some .int else none
    | .plus =>
      if both "int" then some .int
      else if both "str" then some .str
      else
        match l, r with
        | .list es, .list fs => some (.listOf (es ++ fs))
        | .list es, r => some (.listOf (es ++ [r]))
        | .dict vs, .dict ws => some (.dictOf (vs ++ ws))
        | .dict vs, r => some (.dictOf (vs ++ [r]))
        | _, _ => none
    | _ => none

namespace TypeSet

def results (op : Option Operator) (l r : TypeSet) : TypeSet :=
  l.flatMap fun a => r.filterMap fun b => op.bind (·.result? a b)

/-- The types of a binary expression. Where the operator applies to no pair, they are those of the left operand. -/
def combine (op : Option Operator) (l r : TypeSet) : TypeSet :=
  match results op l r with
  | [] => l
  | ts => ts

/-- The three alternatives of a value of which nothing could be resolved. -/
def isUnresolved (s : TypeSet) : Bool :=
  s.length == 3 && s.all Ty.isWildcard

def mismatch (op : Option Operator) (l r : TypeSet) : Bool :=
  !l.isEmpty && !r.isEmpty && (results op l r).isEmpty && !l.isUnresolved && !r.isUnresolved

end TypeSet

end MesonCheck
