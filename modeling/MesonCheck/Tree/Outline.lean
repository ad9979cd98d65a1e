import MesonCheck.Tree.Node

/-! A tree as the plain hierarchy of its nodes, in the order in which they are written. -/
namespace MesonCheck

inductive Label where
  | file (path : String)
  | body
  | int (value : Int)
  | str (text : String)
  | formatStr (text : String)
  | bool (value : Bool)
  | array
  | dict
  | entry
  | ident (name : String)
  | call (name : String)
  | method (name : String)
  | args
  | keyword (name : String)
  | index
  | unary (op : Option Operator)
  | binary (op : Option Operator)
  | ternary
  | assign (op : Operator)
  /-- Number of conditions, and number of statements of each branch. -/
  | select (conditions : Nat) (blocks : List Nat)
  | loop (ids : Nat)
  | breakLoop
  | continueLoop
  | error (message : String)

def Label.kind : Label → String
  | file _ => "file"
  | body => "body"
  | int _ => "int"
  | str _ => "str"
  | formatStr _ => "fstr"
  | bool _ => "bool"
  | array => "array"
  | dict => "dict"
  | entry => "item"
  | ident _ => "id"
  | call _ => "call"
  | method _ => "method"
  | args => "args"
  | keyword _ => "kw"
  | index => "index"
  | unary _ => "unary"
  | binary _ => "binary"
  | ternary => "ternary"
  | assign _ => "assign"
  | select .. => "if"
  | loop _ => "foreach"
  | breakLoop => "break"
  | continueLoop => "continue"
  | error _ => "error"

inductive Outline where
  | mk (label : Label) (site : Site) (children : List Outline)

def Ident.outline (id : Ident) : Outline :=
  .mk (.ident id.name) id.site []

mutual
def Node.outline : Node → Outline
  | .int s v => .mk (.int v) s []
  | .str s t isFormat => .mk (if isFormat then .formatStr t else .str t) s []
  | .bool s v => .mk (.bool v) s []
  | .array s es => .mk .array s (Node.outlines es)
  | .dict s es => .mk .dict s (Entry.outlines es)
  | .ident id => id.outline
  | .call s callee argSite as => .mk (.call callee.name) s [callee.outline, .mk .args argSite (Node.outlines as)]
  | .method s r callee argSite as =>
    .mk (.method callee.name) s [r.outline, callee.outline, .mk .args argSite (Node.outlines as)]
  | .keyword s key v => .mk (.keyword key.name) s [key.outline, v.outline]
  | .index s outer inner => .mk .index s [outer.outline, inner.outline]
  | .unary s op x => .mk (.unary op) s [x.outline]
  | .binary s op l r => .mk (.binary op) s [l.outline, r.outline]
  | .ternary s c y n => .mk .ternary s [c.outline, y.outline, n.outline]
  | .assign s op t v => .mk (.assign op) s [t.outline, v.outline]
  | .select s bs => .mk (.select (bs.countP Branch.isGuarded) (bs.map (·.body.length))) s (Branch.outlines bs)
  | .loop s ids subject body =>
    .mk (.loop ids.length) s (ids.map Ident.outline ++ subject.outline :: Node.outlines body)
  | .breakLoop s => .mk .breakLoop s []
  | .continueLoop s => .mk .continueLoop s []
  | .error s m => .mk (.error m) s []

def Node.outlines : List Node → List Outline
  | [] => []
  | n :: ns => n.outline :: Node.outlines ns

def Entry.outlines : List Entry → List Outline
  | [] => []
  | .mk s k v :: es => .mk .entry s [k.outline, v.outline] :: Entry.outlines es

def Branch.outlines : List Branch → List Outline
  | [] => []
  | .guarded c b :: bs => c.outline :: Node.outlines b ++ Branch.outlines bs
  | .otherwise b :: bs => Node.outlines b ++ Branch.outlines bs
end

def SourceFile.outline (f : SourceFile) : Outline :=
  .mk (.file f.path) f.site (match f.body with
    | some b => [.mk .body b.site (Node.outlines b.statements)]
    | none => [])

namespace Outline

mutual
def preorder (depth : Nat) : Outline → List (Nat × Label × Site)
  | mk l s cs => (depth, l, s) :: preorderAll (depth + 1) cs

def preorderAll (depth : Nat) : List Outline → List (Nat × Label × Site)
  | [] => []
  | c :: cs => preorder depth c ++ preorderAll depth cs
end

end Outline

def SourceFile.nodes (f : SourceFile) : List (Nat × Label × Site) :=
  f.outline.preorder 0

end MesonCheck
