/-! Sorted lists of texts. Order is by code point, which is also the order of the encoded bytes. -/
namespace MesonCheck.Text

def insertSorted (n : String) : List String → List String
  | [] => [n]
  | m :: ms => if n ≤ m then n :: m :: ms else m :: insertSorted n ms

def sorted (ns : List String) : List String :=
  ns.foldr insertSorted []

def insertUnique (n : String) : List String → List String
  | [] => [n]
  | m :: ms => if n < m then n :: m :: ms else if n = m then m :: ms else m :: insertUnique n ms

def sortedUnique (ns : List String) : List String :=
  ns.foldr insertUnique []

def insertOn (key : α → String) (a : α) : List α → List α
  | [] => [a]
  | b :: bs => if key a ≤ key b then a :: b :: bs else b :: insertOn key a bs

/-- All items in increasing order of their keys; items with equal keys keep their order. -/
def sortedOn (key : α → String) (as : List α) : List α :=
  as.foldr (insertOn key) []

def lastOn (key : α → String) : List α → List α
  | [] => []
  | a :: as => if as.any (fun b => key b == key a) then lastOn key as else a :: lastOn key as

def joinWith (sep : String) : List String → String
  | [] => ""
  | [t] => t
  | t :: ts => t ++ sep ++ joinWith sep ts

end MesonCheck.Text
