/-! The operators of the build language. Dumps name them freely, so every node that has an operator can have any. -/
namespace MesonCheck

inductive Operator where
  | minus | not | bang | and | or | plus | times | divide | modulo
  | equal | notEqual | less | lessEqual | greater | greaterEqual | isIn | notIn
  | assign | plusAssign | minusAssign | timesAssign | divideAssign | moduloAssign
deriving DecidableEq

namespace Operator

def all : List Operator :=
  [minus, not, bang, and, or, plus, times, divide, modulo, equal, notEqual, less, lessEqual, greater, greaterEqual,
   isIn, notIn, assign, plusAssign, minusAssign, timesAssign, divideAssign, moduloAssign]

def text : Operator → String
  | minus => "-"
  | not => "not"
  | bang => "!"
  | and => "and"
  | or => "or"
  | plus => "+"
  | times => "*"
  | divide => "/"
  | modulo => "%"
  | equal => "=="
  | notEqual => "!="
  | less => "<"
  | lessEqual => "<="
  | greater => ">"
  | greaterEqual => ">="
  | isIn => "in"
  | notIn => "not in"
  | assign => "="
  | plusAssign => "+="
  | minusAssign => "-="
  | timesAssign => "*="
  | divideAssign => "/="
  | moduloAssign => "%="

def ofText? (s : String) : Option Operator :=
  all.find? (·.text == s)

def augmented? : Operator → Option Operator
  | plusAssign => some plus
  | minusAssign => some minus
  | timesAssign => some times
  | divideAssign => some divide
  | moduloAssign => some modulo
  | _ => none

end Operator

end MesonCheck
