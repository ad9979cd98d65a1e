import MesonCheck.Cli.Command
import MesonCheck.History.Document
import Std.Time.DateTime.Timestamp

/-! The program on a real machine. -/
namespace MesonCheck.Cli

def faultOf : IO.Error → FileFault
  | .noFileOrDirectory .. => .missing
  | .inappropriateType _ code _ =>
    if code = 20 then .notDirectory else if code = 21 then .isDirectory else .other "inappropriate type"
  | e => .other (toString e)

def attempt (action path : String) (act : IO α) : IO (Except FileError α) := do
  try
    return .ok (← act)
  catch e =>
    return .error ⟨action, path, faultOf e⟩

def readFrom (path : String) : IO (Except FileError String) := do
  match ← attempt "open" path (IO.FS.readFile path) with
  | .error ⟨_, _, .isDirectory⟩ => return .error ⟨"read", path, .isDirectory⟩
  | r => return r

def openFile (path : String) : IO (Except Failure History) := do
  if path = Database.memory then return .ok {}
  match ← readFrom path with
  | .ok text => return History.load text
  | .error ⟨_, _, .missing⟩ =>
    match ← attempt "open" path (IO.FS.writeFile path (History.text {})) with
    | .ok _ => return .ok {}
    | .error _ => return .error ⟨.database, "failed to initialize store"⟩
  | .error _ => return .error ⟨.database, "failed to initialize store"⟩

def machine : Host IO where
  read := readFrom
  find path := do
    match ← attempt "stat" path (IO.FS.realPath path) with
    | .ok _ => return .ok ()
    | .error e => return .error e.fault
  write path content := attempt "open" path (IO.FS.writeFile path content)
  touch path := attempt "open" path do
    let _ ← IO.FS.Handle.mk path .append
  makeDirectories path := attempt "mkdir" path (IO.FS.createDirAll path)
  openHistory := openFile
  saveHistory path h := do
    if path ≠ Database.memory then IO.FS.writeFile path h.text
  directory := do return (← IO.currentDir).toString
  now := do return ⟨(← Std.Time.Timestamp.now).toNanosecondsSinceUnixEpoch.val, 0⟩
  elapsed := do return ⟨(← IO.monoNanosNow)⟩
  random := do return (← IO.getRandomBytes 16).toList.foldl (fun n b => 256 * n + b.toNat) 0

end MesonCheck.Cli

open MesonCheck in
def main (args : List String) : IO UInt32 := do
  let reply ← Cli.run Cli.machine args
  IO.print reply.output
  match reply.result with
  | .ok failed => return if failed then 1 else 0
  | .error f =>
    IO.eprintln ("error: " ++ f.message)
    return 1
