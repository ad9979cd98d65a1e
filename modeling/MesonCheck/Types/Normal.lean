import MesonCheck.Types.Basic

/-! The normal form of a type set: at most one list, one dict and one subproject handle, every other member once,
ordered by `Ty.rank`. A set is normalised by adding its members one by one to the empty set. A list, dict or handle
that meets one of its kind is merged with it, so adding reaches every depth. -/
namespace MesonCheck

/-- Where a member stands in a normal set: by kind, and objects last by name. -/
structure Rank where
  group : Nat
  name : String
deriving DecidableEq

namespace Rank

def before (a b : Rank) : Bool :=
  a.group < b.group || (a.group == b.group && decide (a.name < b.name))

end Rank

namespace Ty

def rank : Ty → Rank
  | list _ => ⟨0, ""⟩
  | dict _ => ⟨1, ""⟩
  | subproject _ => ⟨2, ""⟩
  | any => ⟨3, ""⟩
  | bool => ⟨4, ""⟩
  | int => ⟨5, ""⟩
  | str => ⟨6, ""⟩
  | disabler => ⟨7, ""⟩
  | customIndex => ⟨8, ""⟩
  | object n _ => ⟨9, n⟩

end Ty

namespace TypeSet

/-- Replaces the member of rank `r` by `f` of it; where there is none, puts `f none` at the place of `r`. -/
def upsert (r : Rank) (f : Option Ty → Ty) : TypeSet → TypeSet
  | [] => [f none]
  | t :: ts =>
    if t.rank = r then f (some t) :: ts
    else if r.before t.rank then f none :: t :: ts
    else t :: upsert r f ts

end TypeSet

mutual
/-- Adds one alternative to a normal set. The first object of a name is kept. -/
def Ty.addTo : Ty → TypeSet → TypeSet
  | .list es, s => TypeSet.upsert ⟨0, ""⟩ (fun old => .list (TypeSet.absorb es ((old.map Ty.elems).getD []))) s
  | .dict vs, s => TypeSet.upsert ⟨1, ""⟩ (fun old => .dict (TypeSet.absorb vs ((old.map Ty.elems).getD []))) s
  | .subproject ns, s =>
    TypeSet.upsert ⟨2, ""⟩
      (fun old => .subproject (ns.foldl (fun ms n => Text.insertUnique n ms) ((old.map Ty.subprojectNames).getD []))) s
  | .any, s => TypeSet.upsert ⟨3, ""⟩ (fun _ => .any) s
  | .bool, s => TypeSet.upsert ⟨4, ""⟩ (fun _ => .bool) s
  | .int, s => TypeSet.upsert ⟨5, ""⟩ (fun _ => .int) s
  | .str, s => TypeSet.upsert ⟨6, ""⟩ (fun _ => .str) s
  | .disabler, s => TypeSet.upsert ⟨7, ""⟩ (fun _ => .disabler) s
  | .customIndex, s => TypeSet.upsert ⟨8, ""⟩ (fun _ => .customIndex) s
  | .object n p, s => TypeSet.upsert ⟨9, n⟩ (fun old => old.getD (.object n p)) s

def TypeSet.absorb : List Ty → TypeSet → TypeSet
  | [], s => s
  | t :: ts, s => TypeSet.absorb ts (t.addTo s)
end

namespace TypeSet

def normal (s : TypeSet) : TypeSet :=
  absorb s []

def union (a b : TypeSet) : TypeSet :=
  normal (a ++ b)

def unionAll (ss : List TypeSet) : TypeSet :=
  normal ss.flatten

def equal (a b : TypeSet) : Bool :=
  Ty.sameAll (normal a) (normal b)

end TypeSet

namespace Ty

def listOf (s : TypeSet) : Ty := .list s.normal

def dictOf (s : TypeSet) : Ty := .dict s.normal

def handle (names : List String) : Ty := .subproject (Text.sortedUnique names)

def normal : Ty → Ty
  | .list es => .list (TypeSet.normal es)
  | .dict vs => .dict (TypeSet.normal vs)
  | t => t

def equal (a b : Ty) : Bool :=
  same a.normal b.normal

end Ty

end MesonCheck
