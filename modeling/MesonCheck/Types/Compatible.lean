import MesonCheck.Types.Normal

/-! When a value may be used where another type is declared. Arguments are flattened, so lists are transparent: a
scalar fits a list of what it fits, and a list fits what one of its elements fits. -/
namespace MesonCheck

def Ty.isOpen : Ty → Bool
  | .any => true
  | .disabler => true
  | _ => false

def Ty.isAny : Ty → Bool
  | .any => true
  | _ => false

mutual
/-- Whether `leaf` holds of the declared type, or of a type inside it when it is a list, at any depth. A declared
list that holds `any` takes everything; an open value fits every list. -/
def Ty.searched (leaf : Ty → Bool) (isOpen : Bool) : Ty → Bool
  | .list es => leaf (.list es) || isOpen || Ty.searchedAny leaf isOpen es
  | e => leaf e

def Ty.searchedAny (leaf : Ty → Bool) (isOpen : Bool) : List Ty → Bool
  | [] => false
  | e :: es => e.isAny || Ty.searched leaf isOpen e || Ty.searchedAny leaf isOpen es
end

mutual
/-- Whether a value of the first type may stand where the second is declared. An object fits what it or an ancestor
is; dicts fit when their values do. -/
def Ty.fits : Ty → Ty → Bool
  | .list gs, .list es => gs.isEmpty || TypeSet.someFits gs es
  | .list gs, e => gs.isEmpty || TypeSet.someFits gs [e]
  | .dict gs, e =>
    e.searched (fun
      | .dict es => gs.isEmpty || TypeSet.someFits gs es
      | _ => false) false
  | .object n (some p), e => e.searched (fun e => (Ty.object n none).same e || p.fits e) false
  | g, e => e.searched g.same g.isOpen

def TypeSet.someFits : List Ty → TypeSet → Bool
  | [], _ => false
  | g :: gs, es => g.isOpen || es.any (fun e => e.isAny || g.fits e) || TypeSet.someFits gs es
end

/-- The check of an argument: an unknown value is accepted, and otherwise one member has to fit. -/
def TypeSet.fits (given expected : TypeSet) : Bool :=
  given.isEmpty || TypeSet.someFits given expected

end MesonCheck
