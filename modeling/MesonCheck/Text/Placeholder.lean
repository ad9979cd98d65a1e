import MesonCheck.Text.Digits
import MesonCheck.Word

/-! Placeholders in texts: a name between two at signs. A sign that ends a placeholder does not start another one. -/
namespace MesonCheck.Text

/-- The placeholders of a text whose names start with a `first` and go on with `rest`. The second argument holds the
characters since the last at sign, last one first, as long as they can be a name. -/
def placeholderChars (first rest : Char → Bool) : Option (List Char) → List Char → List (List Char)
  | _, [] => []
  | none, c :: cs => placeholderChars first rest (if c = '@' then some [] else none) cs
  | some [], c :: cs =>
    placeholderChars first rest (if c = '@' then some [] else if first c then some [c] else none) cs
  | some (d :: ds), c :: cs =>
    if c = '@' then (d :: ds).reverse :: placeholderChars first rest none cs
    else placeholderChars first rest (if rest c then some (c :: d :: ds) else none) cs

def placeholderNames (s : String) : List String :=
  (placeholderChars (fun c => c.isAlpha || c = '_') (fun c => c.isAlphanum || c = '_') none s.toList).map String.ofList

/-- The numbers of the parameters that a text refers to, in order; numbers beyond 63 bits are passed over. -/
def placeholderIndices (s : String) : List Nat :=
  ((placeholderChars Char.isDigit Char.isDigit none s.toList).map digitsNat).filter (· < signedLimit)

def placeholder (i : Nat) : String :=
  "@" ++ toString i ++ "@"

def insertIndex (n : Nat) : List Nat → List Nat
  | [] => [n]
  | m :: ms => if n < m then n :: m :: ms else if n = m then m :: ms else m :: insertIndex n ms

def indicesFrom (count : Nat) (s : String) : List Nat :=
  ((placeholderIndices s).filter (count ≤ ·)).foldr insertIndex []

end MesonCheck.Text
