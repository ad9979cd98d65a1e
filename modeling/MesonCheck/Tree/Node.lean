import MesonCheck.Tree.Operator
import MesonCheck.Tree.Range

/-! Build files as trees. -/
namespace MesonCheck

structure Ident where
  site : Site
  name : String

mutual
/-- A statement or expression. Every node kind can stand everywhere; what makes no sense is reported by the analysis. -/
inductive Node where
  | int (site : Site) (value : Int)
  | str (site : Site) (text : String) (isFormat : Bool)
  | bool (site : Site) (value : Bool)
  | array (site : Site) (elems : List Node)
  | dict (site : Site) (entries : List Entry)
  | ident (id : Ident)
  | call (site : Site) (callee : Ident) (argSite : Site) (args : List Node)
  | method (site : Site) (receiver : Node) (callee : Ident) (argSite : Site) (args : List Node)
  | keyword (site : Site) (key : Ident) (value : Node)
  | index (site : Site) (outer inner : Node)
  | unary (site : Site) (op : Option Operator) (operand : Node)
  | binary (site : Site) (op : Option Operator) (left right : Node)
  | ternary (site : Site) (cond yes no : Node)
  | assign (site : Site) (op : Operator) (target value : Node)
  | select (site : Site) (branches : List Branch)
  | loop (site : Site) (ids : List Ident) (subject : Node) (body : List Node)
  | breakLoop (site : Site)
  | continueLoop (site : Site)
  /-- What a parser could not make sense of. -/
  | error (site : Site) (message : String)

inductive Entry where
  | mk (site : Site) (key value : Node)

inductive Branch where
  | guarded (cond : Node) (body : List Node)
  | otherwise (body : List Node)
end

namespace Node

def site : Node → Site
  | int s _ | str s _ _ | bool s _ | array s _ | dict s _ | call s _ _ _ | method s _ _ _ _ | keyword s _ _
  | index s _ _ | unary s _ _ | binary s _ _ _ | ternary s _ _ _ | assign s _ _ _ | select s _ | loop s _ _ _
  | breakLoop s | continueLoop s | error s _ => s
  | ident id => id.site

def range (n : Node) : Range := n.site.range

def text? : Node → Option String
  | str _ t _ => some t
  | _ => none

def isIdent : Node → Bool
  | ident _ => true
  | _ => false

def isKeyword : Node → Bool
  | keyword .. => true
  | _ => false

end Node

namespace Entry

def site : Entry → Site
  | mk s _ _ => s

def key : Entry → Node
  | mk _ k _ => k

def value : Entry → Node
  | mk _ _ v => v

end Entry

namespace Branch

def body : Branch → List Node
  | guarded _ b => b
  | otherwise b => b

def cond? : Branch → Option Node
  | guarded c _ => some c
  | otherwise _ => none

def isGuarded : Branch → Bool
  | guarded .. => true
  | otherwise _ => false

end Branch

structure Body where
  site : Site
  statements : List Node

structure SourceFile where
  /-- Tells files of one tree apart, also those of the same path. -/
  id : Nat
  site : Site
  path : String
  /-- A file can be known without its contents. -/
  body : Option Body

end MesonCheck
