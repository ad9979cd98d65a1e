import MesonCheck.Disk

/-! What commands need from the machine they run on. -/
namespace MesonCheck.Cli

structure Host (m : Type → Type) where
  read : String → m (Except FileError String)
  find : String → m (Except FileFault Unit)
  write : String → String → m (Except FileError Unit)
  touch : String → m (Except FileError Unit)
  makeDirectories : String → m (Except FileError Unit)
  openHistory : String → m (Except Failure History)
  saveHistory : String → History → m Unit
  directory : m String
  now : m Timestamp
  /-- The time since some fixed moment. -/
  elapsed : m Duration
  random : m Nat

/-- A machine in memory. Each look at a clock takes a fixed time, and random numbers are numbers in order. -/
structure Session where
  disk : Disk
  directory : String
  start : Timestamp
  /-- How much later it is at each look at the clock. -/
  pace : Duration
  looks : Nat := 0
  lapses : Nat := 0
  draws : Nat := 0

namespace Session

def time (s : Session) (looks : Nat) : Timestamp :=
  { s.start with nanos := s.start.nanos + looks * Duration.second }

def change (f : Disk → Except FileError Disk) : StateM Session (Except FileError Unit) := fun s =>
  match f s.disk with
  | .ok d => (.ok (), { s with disk := d })
  | .error e => (.error e, s)

def openHistory (path : String) : StateM Session (Except Failure History) := fun s =>
  match s.disk.openDatabase path with
  | .error f => (.error f, s)
  | .ok (d, db) =>
    match db with
    | .ready h => (.ok h, { s with disk := d })
    | _ => (.ok {}, { s with disk := d.saveDatabase path (.ready {}) })

def host : Host (StateM Session) where
  read path := fun s => (s.disk.read path, s)
  find path := fun s => ((s.disk.find path).map fun _ => (), s)
  write path content := change (·.write path content)
  touch path := change (·.touch path)
  makeDirectories path := change (·.makeDirectories path)
  openHistory := openHistory
  saveHistory path h := modify fun s => { s with disk := s.disk.saveDatabase path (.ready h) }
  directory := fun s => (s.directory, s)
  now := fun s => (s.time s.looks, { s with looks := s.looks + 1 })
  elapsed := fun s => (⟨s.lapses * s.pace.nanos⟩, { s with lapses := s.lapses + 1 })
  random := fun s => (s.draws, { s with draws := s.draws + 1 })

end Session

end MesonCheck.Cli
