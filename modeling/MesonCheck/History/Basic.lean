import MesonCheck.Failure
import MesonCheck.History.Run

/-! The history of lint runs: records of runs, and the diagnostics of each run in the order they were saved. -/
namespace MesonCheck

structure SavedDiagnostic where
  run : String
  seq : Nat
  diagnostic : Diagnostic
deriving DecidableEq

structure History where
  runs : List RunRecord := []
  saved : List SavedDiagnostic := []
deriving DecidableEq

namespace History

inductive Refusal where
  | runExists
  | noRun (id : String)
  | unfinished (id : String) (status : RunStatus)
  | negativeKeep (n : Int)
  | orphans
deriving DecidableEq

def Refusal.failure : Refusal → Failure
  | runExists => ⟨.database, "failed to create run"⟩
  | noRun id => ⟨.notFound, "run not found: " ++ id⟩
  | unfinished id status => ⟨.other, "cannot complete run " ++ id ++ " with status " ++ status.text⟩
  | negativeKeep n => ⟨.other, "keep must not be negative: " ++ toString n⟩
  | orphans => ⟨.database, "failed to save diagnostic"⟩

def run? (h : History) (id : String) : Option RunRecord :=
  h.runs.find? (·.id == id)

def savedOf (h : History) (id : String) : List SavedDiagnostic :=
  h.saved.filter (·.run == id)

/-! Single changes of the tables. Each is made as a whole or not at all. -/

def insertRun (h : History) (r : RunRecord) : Except Refusal History :=
  if (h.run? r.id).isSome then .error .runExists else .ok { h with runs := h.runs ++ [r] }

def insertSaved (h : History) (s : SavedDiagnostic) : Except Refusal History :=
  if (h.run? s.run).isNone then .error .orphans else .ok { h with saved := h.saved ++ [s] }

def updateRuns (h : History) (id : String) (f : RunRecord → RunRecord) : Nat × History :=
  (h.runs.countP (·.id == id), { h with runs := h.runs.map fun r => if r.id = id then f r else r })

def deleteRuns (h : History) (gone : RunRecord → Bool) : Nat × History :=
  let ids := (h.runs.filter gone).map (·.id)
  (ids.length, ⟨h.runs.filter (!gone ·), h.saved.filter (!ids.contains ·.run)⟩)

/-! Operations. -/

/-- What an operation answers, and the tables behind it. A refusal by itself undoes nothing. -/
abbrev Reply (α : Type) := Except Refusal α × History

def expectRun (id : String) : Nat × History → Reply Unit
  | (0, h) => (.error (.noRun id), h)
  | (_ + 1, h) => (.ok (), h)

def create (h : History) (r : RunRecord) : Reply Unit :=
  match h.insertRun r with
  | .ok h => (.ok (), h)
  | .error e => (.error e, h)

def complete (h : History) (id : String) (res : RunResult) (now : Timestamp) : Reply Unit :=
  if !res.status.isDone then (.error (.unfinished id res.status), h)
  else expectRun id (h.updateRuns id (·.complete res now))

def get (h : History) (id : String) : Except Refusal RunRecord :=
  match h.run? id with
  | some r => .ok r
  | none => .error (.noRun id)

/-- A page of the runs of a workspace, or of all runs when no workspace is named. A negative limit is none, and a
negative offset is zero. -/
def list (h : History) (workspace : String) (limit offset : Int) : List RunRecord :=
  let rs := h.runs.filter fun r => workspace == "" || r.workspace == workspace
  let rest := (RunRecord.listing rs).drop offset.toNat
  if limit < 0 then rest else rest.take limit.toNat

def delete (h : History) (id : String) : Reply Unit :=
  expectRun id (h.deleteRuns (·.id == id))

def prune (h : History) (keep : Int) : Reply Nat :=
  if keep < 0 then (.error (.negativeKeep keep), h)
  else
    let ids := ((RunRecord.listing h.runs).take keep.toNat).map (·.id)
    let (n, h) := h.deleteRuns (!ids.contains ·.id)
    (.ok n, h)

def nextSeq (h : History) (id : String) : Nat :=
  ((h.savedOf id).map (·.seq + 1)).foldl max 0

def insertAll : History → List SavedDiagnostic → Reply Unit
  | h, [] => (.ok (), h)
  | h, s :: ss =>
    match h.insertSaved s with
    | .ok h => insertAll h ss
    | .error e => (.error e, h)

/-- Saves diagnostics behind those that the run has. What was saved before a refusal is taken back. -/
def save (h : History) (id : String) (ds : List Diagnostic) : Reply Unit :=
  match h.insertAll ((ds.zipIdx (h.nextSeq id)).map fun (d, seq) => ⟨id, seq, d⟩) with
  | (.ok (), done) => (.ok (), done)
  | (.error e, _) => (.error e, h)

def placeSaved (s : SavedDiagnostic) : List SavedDiagnostic → List SavedDiagnostic
  | [] => [s]
  | t :: ts => if s.seq ≤ t.seq then s :: t :: ts else t :: placeSaved s ts

def diagnostics (h : History) (id : String) : List Diagnostic :=
  ((h.savedOf id).foldr placeSaved []).map (·.diagnostic)

end History

end MesonCheck
