/-! Places in build files. Lines and columns count from zero; dumps may hold any numbers. -/
namespace MesonCheck

structure Position where
  line : Int
  column : Int
deriving DecidableEq

structure Range where
  start : Position
  stop : Position
deriving DecidableEq

namespace Range

def zero : Range := ⟨⟨0, 0⟩, ⟨0, 0⟩⟩

def span (a b : Range) : Range := ⟨a.start, b.stop⟩

def hull? (rs : List Range) : Option Range :=
  match rs.head?, rs.getLast? with
  | some a, some b => some (span a b)
  | _, _ => none

end Range

/-- Where a node stands in its file, and the number under which the analysis keeps what it learns about it. -/
structure Site where
  range : Range
  slot : Nat
deriving DecidableEq

def Site.at (r : Range) : Site := ⟨r, 0⟩

end MesonCheck
