import MesonCheck.Diagnostic
import MesonCheck.Text.Path
import MesonCheck.Text.Quoted
import MesonCheck.Text.Sorted
import MesonCheck.Text.Split

/-! Diagnostics for editors, grouped by document. -/
namespace MesonCheck.Editor

inductive Tag where
  | unnecessary
  | deprecated
deriving DecidableEq

structure Marker where
  range : List Nat
  isError : Bool
  message : String
  tag : Option Tag
deriving DecidableEq

def source : String := "mesonlint"

/-- Editors count in 32 bits from zero. -/
def clamp (n : Int) : Nat :=
  n.toNat % 4294967296

def tag? (message : String) : Option Tag :=
  if message = "dead code" ∨ message = "unused assignment" then some .unnecessary
  else if Text.contains message " is deprecated" then some .deprecated
  else none

def Marker.ofDiagnostic (d : Diagnostic) : Marker :=
  ⟨[clamp d.range.start.line, clamp d.range.start.column, clamp d.range.stop.line, clamp d.range.stop.column],
    d.severity == .error, d.message, tag? d.message⟩

def resolve (dir file : String) : String :=
  if Path.isAbsolute file then Path.clean file else Path.join [dir, file]

def isPlain (c : Char) : Bool :=
  c.isAlphanum || "-_.~$&+,/:;=@".toList.contains c

def percent (b : UInt8) : List Char :=
  '%' :: (Text.hexDigits 2 b.toNat).map Char.toUpper

def encodeChar (c : Char) : List Char :=
  if isPlain c then [c] else (String.utf8EncodeChar c).flatMap percent

def address (path : String) : String :=
  "file://" ++ String.ofList (path.toList.flatMap encodeChar)

def documentOf (dir : String) (d : Diagnostic) : String :=
  address (resolve dir d.file)

/-- The diagnostics by document, documents in the order of their addresses, the markers of each in the order given. -/
def documents (dir : String) (ds : List Diagnostic) : List (String × List Marker) :=
  (Text.sortedUnique (ds.map (documentOf dir))).map fun a =>
    (a, (ds.filter (documentOf dir · = a)).map Marker.ofDiagnostic)

end MesonCheck.Editor
