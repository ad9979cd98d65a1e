import MesonCheck.Failure
import MesonCheck.History.Database
import MesonCheck.Text.Path

/-! Files and directories, and a tree of them that is held in memory. -/
namespace MesonCheck

inductive FileFault where
  | missing
  | notDirectory
  | isDirectory
  | other (text : String)
deriving DecidableEq

def FileFault.text : FileFault → String
  | missing => "no such file or directory"
  | notDirectory => "not a directory"
  | isDirectory => "is a directory"
  | other text => text

structure FileError where
  action : String
  path : String
  fault : FileFault
deriving DecidableEq

def FileError.failure (e : FileError) : Failure :=
  ⟨.file, e.action ++ " " ++ e.path ++ ": " ++ e.fault.text⟩

inductive DiskEntry where
  | directory
  | text (content : String)
  | database (db : Database)

/-- What can be found below the working directory; everything outside of it is unknown. Names are given by their
segments. -/
structure Disk where
  entries : List (List String × DiskEntry) := []

namespace Disk

def entry? (d : Disk) (place : List String) : Option DiskEntry :=
  if place.isEmpty then some .directory else d.entries.lookup place

def put (d : Disk) (place : List String) (e : DiskEntry) : Disk :=
  ⟨(place, e) :: d.entries.filter (·.1 != place)⟩

def walk (d : Disk) : Option (List String) → List String → Except FileFault (Option (List String))
  | here, [] =>
    match here with
    | none => .ok none
    | some place => if (d.entry? place).isSome then .ok here else .error .missing
  | here, s :: rest => do
    if let some place := here then
      match d.entry? place with
      | none => throw .missing
      | some .directory => pure ()
      | some _ => throw .notDirectory
    if s = "" ∨ s = "." then walk d here rest
    else
      match here with
      | none => if s = ".." then walk d none rest else throw .missing
      | some place =>
        if s = ".." then walk d (if place.isEmpty then none else some place.dropLast) rest
        else walk d (some (place ++ [s])) rest

def route (path : String) : Option (List String) × List String :=
  if Path.isAbsolute path then (none, Text.split '/' path) else (some [], Text.split '/' path)

def find (d : Disk) (path : String) : Except FileFault (Option (List String)) :=
  if path = "" then .error .missing
  else
    let (start, segments) := route path
    d.walk start segments

def read (d : Disk) (path : String) : Except FileError String :=
  match d.find path with
  | .error f => .error ⟨"open", path, f⟩
  | .ok none => .error ⟨"read", path, .isDirectory⟩
  | .ok (some place) =>
    match d.entry? place with
    | some (.text content) => .ok content
    | some (.database _) => .ok "SQLite format 3\x00"
    | _ => .error ⟨"read", path, .isDirectory⟩

def target (d : Disk) (path : String) : Except FileFault (List String) := do
  let (start, segments) := route path
  match segments.getLast?.getD "" with
  | "" | "." | ".." =>
    match d.find path with
    | .ok _ => throw .isDirectory
    | .error .missing =>
      let _ ← d.walk start (segments.dropLast.dropLast)
      throw .isDirectory
    | .error f => throw f
  | name =>
    match ← d.walk start segments.dropLast with
    | none => throw .missing
    | some place =>
      match d.entry? place, d.entry? (place ++ [name]) with
      | some .directory, some .directory => throw .isDirectory
      | some .directory, _ => pure (place ++ [name])
      | _, _ => throw .notDirectory

def write (d : Disk) (path content : String) : Except FileError Disk :=
  match d.target path with
  | .ok place => .ok (d.put place (.text content))
  | .error f => .error ⟨"open", path, f⟩

def touch (d : Disk) (path : String) : Except FileError Disk :=
  match d.target path with
  | .ok place => .ok (if (d.entry? place).isSome then d else d.put place (.text ""))
  | .error f => .error ⟨"open", path, f⟩

def makeFrom (d : Disk) (above : List String) : List String → Except FileError Disk
  | [] => .ok d
  | s :: rest =>
    let place := above ++ [s]
    match d.entry? place with
    | some .directory => makeFrom d place rest
    | some _ => .error ⟨"mkdir", Text.joinWith "/" place, .notDirectory⟩
    | none => makeFrom (d.put place .directory) place rest

def makeDirectories (d : Disk) (path : String) : Except FileError Disk :=
  match Path.clean path with
  | "." => .ok d
  | cleaned =>
    if Path.isAbsolute cleaned ∨ Text.startsWith cleaned ".." then .ok d
    else d.makeFrom [] (Text.split '/' cleaned)

def openDatabase (d : Disk) (path : String) : Except Failure (Disk × Database) :=
  let refused : Failure := ⟨.database, "failed to initialize store"⟩
  if path = Database.memory then .ok (d, .blank)
  else
    match d.target (Path.clean path) with
    | .error _ => .error refused
    | .ok place =>
      match d.entry? place with
      | some (.database db) => .ok (d, db)
      | some (.text "") | none => .ok (d.put place (.database .blank), .blank)
      | _ => .error refused

def saveDatabase (d : Disk) (path : String) (db : Database) : Disk :=
  if path = Database.memory then d
  else
    match d.target (Path.clean path) with
    | .ok place => d.put place (.database db)
    | .error _ => d

def ofFiles (fs : List (String × String)) : Disk :=
  fs.foldl (fun d f =>
    match d.makeDirectories (Path.directory f.1) with
    | .ok made => (made.write (Path.clean f.1) f.2).toOption.getD made
    | .error _ => d) {}

end Disk

end MesonCheck
