/-! Cutting texts at a separator and looking for a part. -/
namespace MesonCheck.Text

/-- The parts between separators; a text without one is its own only part. -/
def splitChars (sep : Char) : List Char → List (List Char)
  | [] => [[]]
  | c :: cs =>
    match splitChars sep cs with
    | [] => [[c]]
    | part :: parts => if c = sep then [] :: part :: parts else (c :: part) :: parts

def split (sep : Char) (s : String) : List String :=
  (splitChars sep s.toList).map String.ofList

def afterChars? : List Char → List Char → Option (List Char)
  | [], cs => some cs
  | _ :: _, [] => none
  | h :: hs, c :: cs => if h = c then afterChars? hs cs else none

def startsWith (s head : String) : Bool :=
  (afterChars? head.toList s.toList).isSome

def beforeChars? (tail cs : List Char) : Option (List Char) :=
  (afterChars? tail.reverse cs.reverse).map List.reverse

def before? (tail s : String) : Option String :=
  (beforeChars? tail.toList s.toList).map String.ofList

def containsChars (part : List Char) : List Char → Bool
  | [] => part.isEmpty
  | c :: cs => (afterChars? part (c :: cs)).isSome || containsChars part cs

def contains (s part : String) : Bool :=
  containsChars part.toList s.toList

/-- Puts `new` in place of every occurrence of a part, from left to right; `skip` counts the characters of the part
that are still to be dropped. -/
def replaceChars (old new : List Char) : Nat → List Char → List Char
  | _, [] => []
  | skip + 1, _ :: cs => replaceChars old new skip cs
  | 0, c :: cs =>
    if (afterChars? old (c :: cs)).isSome then new ++ replaceChars old new (old.length - 1) cs
    else c :: replaceChars old new 0 cs

def replaceAll (s old new : String) : String :=
  String.ofList (replaceChars old.toList new.toList 0 s.toList)

end MesonCheck.Text
