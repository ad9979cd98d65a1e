/-! Why a subproject could not be analysed. -/
namespace MesonCheck

inductive SubprojectErrorClass where
  | missing
  | invalid
  | analysis
deriving DecidableEq

def SubprojectErrorClass.text : SubprojectErrorClass → String
  | missing => "missing"
  | invalid => "invalid"
  | analysis => "analysis"

structure SubprojectError where
  errorClass : SubprojectErrorClass
  subproject : String
  message : String
  code : String
  cause : Option String := none
deriving DecidableEq

namespace SubprojectError

def text (e : SubprojectError) : String :=
  "[" ++ e.errorClass.text ++ "] " ++ e.message ++
    (if e.subproject = "" then "" else " (subproject=" ++ e.subproject ++ ")") ++
    (match e.cause with
      | some c => ": " ++ c
      | none => "")

/-- Errors of the same class and code count as the same error. -/
def isLike (a b : SubprojectError) : Bool :=
  a.errorClass == b.errorClass && a.code == b.code

def unnamed : SubprojectError :=
  ⟨.invalid, "", "subproject without a name", "EMPTY_NAME", none⟩

def repeated (name : String) : SubprojectError :=
  ⟨.invalid, name, "subproject declared twice", "DUPLICATE_NAME", none⟩

def noTree (name : String) : SubprojectError :=
  ⟨.missing, name, "subproject has no build files", "NO_TREE", none⟩

def cycle (name path : String) : SubprojectError :=
  ⟨.invalid, name, "subproject dependency cycle: " ++ path, "CYCLE", none⟩

def cancelled (name cause : String) : SubprojectError :=
  ⟨.analysis, name, "analysis cancelled", "CANCELLED", some cause⟩

def crashed (name cause : String) : SubprojectError :=
  ⟨.analysis, name, "analyzer panicked", "PANIC", some cause⟩

end SubprojectError

inductive AnyError where
  | subproject (e : SubprojectError)
  | plain (message : String)
  | wrapped (context : String) (inner : AnyError)

namespace AnyError

def text : AnyError → String
  | subproject e => e.text
  | plain m => m
  | wrapped c e => c ++ ": " ++ text e

def subproject? : AnyError → Option SubprojectError
  | subproject e => some e
  | plain _ => none
  | wrapped _ e => subproject? e

def isOfClass (c : SubprojectErrorClass) (e : AnyError) : Bool :=
  (e.subproject?.map (·.errorClass == c)).getD false

/-- Whether an error matches another one that is not the very same value. What is inside `e` counts; a wrapped target
matches nothing. -/
def matchesOther (e target : AnyError) : Bool :=
  match e.subproject?, target with
  | some a, .subproject b => a.isLike b
  | _, _ => false

end AnyError

end MesonCheck
