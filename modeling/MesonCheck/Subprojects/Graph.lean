import MesonCheck.Text.Sorted
import Std.Data.ExtTreeMap

/-! Which subproject uses which. Subprojects are analysed level by level, each behind those it uses; the members of a
cycle are left out. -/
namespace MesonCheck

structure Graph where
  declared : List (String × List String)

namespace Graph

def names (g : Graph) : List String :=
  Text.sortedUnique (g.declared.map (·.1))

def dependencies (g : Graph) (name : String) : List String :=
  ((g.declared.filter (·.1 == name)).flatMap (·.2)).filter (g.declared.any fun d => d.1 == ·)

def dependents (g : Graph) (name : String) : List String :=
  g.declared.flatMap fun d => (d.2.filter (· == name)).map fun _ => d.1

def usesOf (g : Graph) (set : List String) (name : String) : Nat :=
  (g.dependencies name).countP (set.contains ·)

/-- How many uses each member of a set has open, and those whose last one was settled. -/
structure Countdown where
  uses : Std.ExtTreeMap String Int
  free : List String

def Countdown.settle (set : List String) (c : Countdown) (name : String) : Countdown :=
  if set.contains name then
    let left := c.uses.getD name 0 - 1
    ⟨c.uses.insert name left, if left = 0 then c.free ++ [name] else c.free⟩
  else c

def countdown (g : Graph) (set : List String) : Nat → Countdown → List (List String)
  | 0, _ => []
  | fuel + 1, c =>
    match Text.sorted c.free with
    | [] => []
    | level =>
      level :: countdown g set fuel ((level.flatMap g.dependents).foldl (Countdown.settle set) { c with free := [] })

/-- Takes off level by level those of a set that use none of the rest. The second result is what cannot be taken off. -/
def layers (g : Graph) (fuel : Nat) (set : List String) : List (List String) × List String :=
  let uses := Std.ExtTreeMap.ofList (set.map fun n => (n, (g.usesOf set n : Int)))
  let levels := g.countdown set fuel ⟨uses, set.filter (uses.getD · 0 == 0)⟩
  (levels, set.filter (!levels.flatten.contains ·))

/-- Looks with a stack for `goal` among the members of a set. What is not in the set or has been visited is passed over,
so as many visits are enough as the set has members. -/
def descend (g : Graph) (set : List String) (goal : String) : Nat → List String → List String → Bool
  | 0, _, _ => false
  | fuel + 1, stack, visited =>
    match stack.dropWhile fun n => !set.contains n || visited.contains n with
    | [] => false
    | n :: stack => n == goal || descend g set goal fuel ((g.dependencies n).reverse ++ stack) (n :: visited)

def reaches (g : Graph) (set : List String) (start goal : String) : Bool :=
  g.descend set goal set.length (g.dependencies start).reverse []

def ordered (g : Graph) : List (List String) × List String :=
  g.layers g.names.length g.names

def cyclic (g : Graph) : List String :=
  let rest := g.ordered.2
  rest.filter fun name => g.reaches rest name name

/-- The order of the analysis. Subprojects that use members of a cycle come last. -/
def levels (g : Graph) : List (List String) :=
  let (levels, rest) := g.ordered
  let cyclic := g.cyclic
  let rest := rest.filter (!cyclic.contains ·)
  levels ++ (g.layers rest.length rest).1

/-- Names that wait to be looked at, and for each name that has been found the one it was found from, last link
first. -/
structure Frontier where
  queue : List String
  links : List (String × String)

/-- The way back along the links. The link of a name is older than those to the names found from it. -/
def trace : List (String × String) → String → List String
  | [], _ => []
  | (found, origin) :: older, name => if found = name then name :: trace older origin else trace older name

/-- Goes through what `name` uses. The answer is the way around if that leads back to `goal`, and the names found so far
otherwise. -/
def explore (goal name : String) : List String → Frontier → List String ⊕ Frontier
  | [], f => .inr f
  | dep :: deps, f =>
    if dep = goal then .inl (goal :: (trace f.links name).reverse ++ [goal])
    else if f.links.any (·.1 == dep) then explore goal name deps f
    else explore goal name deps ⟨f.queue ++ [dep], (dep, name) :: f.links⟩

def search (g : Graph) (goal : String) : Nat → Frontier → Option (List String)
  | 0, _ => none
  | _, ⟨[], _⟩ => none
  | fuel + 1, ⟨name :: queue, links⟩ =>
    match explore goal name (g.dependencies name) ⟨queue, links⟩ with
    | .inl path => some path
    | .inr f => search g goal fuel f

def cyclePath (g : Graph) (name : String) : Option (List String) :=
  if g.cyclic.contains name then g.search name (g.names.length + 1) ⟨[name], []⟩ else none

end Graph

end MesonCheck
