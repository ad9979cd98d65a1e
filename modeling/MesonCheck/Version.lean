import MesonCheck.Text.Digits
import MesonCheck.Text.Quoted
import MesonCheck.Text.Sorted
import MesonCheck.Text.Split
import MesonCheck.Word

/-! Semantic versions. Minor and patch number may be left out, and a leading `v` is allowed. -/
namespace MesonCheck

structure Version where
  major : Nat
  minor : Nat
  patch : Nat
  /-- Dot-separated parts after a hyphen; a version that has some comes before the one that has none. -/
  prerelease : String
  /-- What stands after a plus sign; it does not count in comparisons. -/
  metadata : String
deriving DecidableEq

namespace Version

inductive Fault where
  | malformed
  | tooLarge (digits : String)
  | leadingZero
deriving DecidableEq

def Fault.message : Fault → String
  | malformed => "Invalid Semantic Version"
  | tooLarge digits =>
    "Error parsing version segment: strconv.ParseUint: parsing " ++ Text.quoted digits ++ ": value out of range"
  | leadingZero => "Version segment starts with 0"

def segment (cs : List Char) : Except Fault Nat :=
  if Text.digitsNat cs < wordLimit then .ok (Text.digitsNat cs) else .error (.tooLarge (String.ofList cs))

def isTagChar (c : Char) : Bool :=
  c.isAlphanum || c = '-'

def isTag (cs : List Char) : Bool :=
  (Text.splitChars '.' cs).all fun part => !part.isEmpty && part.all isTagChar

def dotted (cs : List Char) : List Char × List Char :=
  match cs with
  | '.' :: rest =>
    match rest.takeWhile Char.isDigit with
    | [] => ([], cs)
    | ds => (ds, rest.dropWhile Char.isDigit)
  | _ => ([], cs)

/-- A numeric part of more than one digit must not start with a zero. -/
def zeroLed (part : List Char) : Bool :=
  match part with
  | '0' :: _ :: _ => part.all Char.isDigit
  | _ => false

def ofParts (major minor patch pre meta' : List Char) : Except Fault Version := do
  let a ← segment major
  let b ← segment minor
  let c ← segment patch
  if (Text.splitChars '.' pre).any zeroLed then throw .leadingZero
  pure ⟨a, b, c, String.ofList pre, String.ofList meta'⟩

def parse (text : String) : Except Fault Version :=
  let cs := match text.toList with
    | 'v' :: rest => rest
    | cs => cs
  let major := cs.takeWhile Char.isDigit
  let (minor, cs) := dotted (cs.dropWhile Char.isDigit)
  let (patch, cs) := if minor.isEmpty then ([], cs) else dotted cs
  if major.isEmpty then .error .malformed
  else
    match cs with
    | [] => ofParts major minor patch [] []
    | '-' :: rest =>
      let pre := rest.takeWhile (· ≠ '+')
      match rest.dropWhile (· ≠ '+') with
      | [] => if isTag pre then ofParts major minor patch pre [] else .error .malformed
      | _ :: build => if isTag pre && isTag build then ofParts major minor patch pre build else .error .malformed
    | '+' :: build => if isTag build then ofParts major minor patch [] build else .error .malformed
    | _ => .error .malformed

def text (v : Version) : String :=
  toString v.major ++ "." ++ toString v.minor ++ "." ++ toString v.patch ++
    (if v.prerelease = "" then "" else "-" ++ v.prerelease) ++ (if v.metadata = "" then "" else "+" ++ v.metadata)

def partNumber? (part : String) : Option Nat :=
  if part ≠ "" ∧ part.toList.all Char.isDigit ∧ Text.digitsNat part.toList < wordLimit then
    some (Text.digitsNat part.toList)
  else none

/-- Numbers come before texts; a missing part, given as the empty text, comes before all others. -/
def comparePart (a b : String) : Ordering :=
  if a = b then .eq
  else if a = "" then .lt
  else if b = "" then .gt
  else
    match partNumber? a, partNumber? b with
    | none, none => if b < a then .gt else .lt
    | some _, none => .lt
    | none, some _ => .gt
    | some m, some n => if n < m then .gt else .lt

def compareParts : List String → List String → Ordering
  | [], [] => .eq
  | a :: as, [] => (comparePart a "").then (compareParts as [])
  | [], b :: bs => (comparePart "" b).then (compareParts [] bs)
  | a :: as, b :: bs => (comparePart a b).then (compareParts as bs)

def comparePrerelease (a b : String) : Ordering :=
  if a = "" ∧ b = "" then .eq
  else if a = "" then .gt
  else if b = "" then .lt
  else compareParts (Text.split '.' a) (Text.split '.' b)

def compare (v w : Version) : Ordering :=
  (Ord.compare v.major w.major).then <| (Ord.compare v.minor w.minor).then <|
    (Ord.compare v.patch w.patch).then (comparePrerelease v.prerelease w.prerelease)

def isBefore (v w : Version) : Bool :=
  v.compare w == .lt

end Version

end MesonCheck
