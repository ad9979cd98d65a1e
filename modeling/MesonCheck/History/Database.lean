import MesonCheck.History.Basic

/-! A database that may hold a history. It is opened first, and gets its tables in a second step. -/
namespace MesonCheck

inductive Database where
  | closed
  | blank
  | ready (h : History)

namespace Database

/-- The name of a database that is private to the program and starts empty each time it is opened. -/
def memory : String := ":memory:"

def named (path : String) : Except Failure Database :=
  if path = "" then .error ⟨.other, "database path is required"⟩ else .ok .closed

def openAs (path : String) : Database → Database
  | .ready h => if path = memory then .blank else .ready h
  | _ => .blank

def uninitialized : Failure := ⟨.other, "database not initialized"⟩

def migrate : Database → Except Failure Database
  | .closed => .error uninitialized
  | .blank => .ok (.ready {})
  | .ready h => .ok (.ready h)

def health : Database → Except Failure Unit
  | .closed => .error uninitialized
  | _ => .ok ()

def history (task : String) : Database → Except Failure History
  | .closed => .error uninitialized
  | .blank => .error ⟨.database, "failed to " ++ task⟩
  | .ready h => .ok h

/-- The database after an operation. A refused one has changed nothing, so the reason is all it gives. -/
def answer {α : Type} : History.Reply α → Except Failure (Database × α)
  | (.ok a, h) => .ok (.ready h, a)
  | (.error e, _) => .error e.failure

/-- Checks that do not need the tables come first. -/
def complete (db : Database) (id : String) (res : RunResult) (now : Timestamp) : Except Failure Database := do
  if !res.status.isDone then throw (History.Refusal.unfinished id res.status).failure
  let h ← db.history "complete run"
  Prod.fst <$> answer (h.complete id res now)

def create (db : Database) (r : RunRecord) : Except Failure Database := do
  let h ← db.history "create run"
  Prod.fst <$> answer (h.create r)

def delete (db : Database) (id : String) : Except Failure Database := do
  let h ← db.history "delete run"
  Prod.fst <$> answer (h.delete id)

def prune (db : Database) (keep : Int) : Except Failure (Database × Nat) := do
  if keep < 0 then throw (History.Refusal.negativeKeep keep).failure
  let h ← db.history "prune runs"
  answer (h.prune keep)

def save (db : Database) (id : String) (ds : List Diagnostic) : Except Failure Database := do
  let h ← db.history "read diagnostic sequence"
  Prod.fst <$> answer (h.save id ds)

def get (db : Database) (id : String) : Except Failure RunRecord := do
  let h ← db.history "get run"
  (h.get id).mapError (·.failure)

def list (db : Database) (workspace : String) (limit offset : Int) : Except Failure (List RunRecord) := do
  pure ((← db.history "list runs").list workspace limit offset)

def diagnostics (db : Database) (id : String) : Except Failure (List Diagnostic) := do
  pure ((← db.history "list diagnostics").diagnostics id)

end Database

end MesonCheck
