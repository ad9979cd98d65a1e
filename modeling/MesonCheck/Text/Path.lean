import MesonCheck.Text.Sorted
import MesonCheck.Text.Split

/-! Slash-separated paths, treated as texts: nothing here looks at a file. -/
namespace MesonCheck.Path

def isAbsolute (p : String) : Bool :=
  Text.startsWith p "/"

/-- Walks over the segments of a path and keeps those that lead somewhere, last first. A step up removes the segment
before it; at the root it is dropped, and at the start of a relative path it stays. -/
def resolve (rooted : Bool) : List String → List String → List String
  | kept, [] => kept
  | kept, s :: rest =>
    if s = "" ∨ s = "." then resolve rooted kept rest
    else if s = ".." then
      match kept with
      | [] => if rooted then resolve rooted [] rest else resolve rooted [".."] rest
      | k :: ks => if k = ".." then resolve rooted (".." :: k :: ks) rest else resolve rooted ks rest
    else resolve rooted (s :: kept) rest

def clean (p : String) : String :=
  let rooted := isAbsolute p
  let kept := (resolve rooted [] (Text.split '/' p)).reverse
  if rooted then "/" ++ Text.joinWith "/" kept
  else if kept.isEmpty then "." else Text.joinWith "/" kept

def join (ps : List String) : String :=
  match ps.filter (· ≠ "") with
  | [] => ""
  | qs => clean (Text.joinWith "/" qs)

def directory (p : String) : String :=
  match (Text.split '/' p).reverse with
  | [] => "."
  | _ :: front => clean (Text.joinWith "/" front.reverse ++ (if front.isEmpty then "" else "/"))

end MesonCheck.Path
