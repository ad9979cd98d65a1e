import MesonCheck.Diagnostic
import MesonCheck.Duration
import MesonCheck.Timestamp

/-! Records of lint runs. -/
namespace MesonCheck

inductive RunStatus where
  | running
  | passed
  | failed
  | aborted
  | other (label : String)
deriving DecidableEq

namespace RunStatus

def text : RunStatus → String
  | running => "running"
  | passed => "passed"
  | failed => "failed"
  | aborted => "aborted"
  | other label => label

def ofText : String → RunStatus
  | "running" => running
  | "passed" => passed
  | "failed" => failed
  | "aborted" => aborted
  | label => other label

def isDone : RunStatus → Bool
  | passed | failed | aborted => true
  | running | other _ => false

end RunStatus

structure RunResult where
  status : RunStatus
  files : Int := 0
  errors : Int := 0
  warnings : Int := 0
  duration : Duration := ⟨0⟩
  error : Option String := none

structure RunRecord where
  id : String
  workspace : String
  status : RunStatus
  startedAt : Timestamp
  completedAt : Option Timestamp := none
  files : Int := 0
  errors : Int := 0
  warnings : Int := 0
  milliseconds : Int := 0
  error : Option String := none
deriving DecidableEq

namespace RunRecord

def complete (r : RunRecord) (res : RunResult) (now : Timestamp) : RunRecord :=
  { r with
    status := res.status
    completedAt := some now
    files := res.files
    errors := res.errors
    warnings := res.warnings
    milliseconds := res.duration.milliseconds
    error := res.error }

/-- The order of listings: later starts first, by the texts of the times, then by name. -/
def before (a b : RunRecord) : Bool :=
  if a.startedAt.stored ≠ b.startedAt.stored then b.startedAt.stored < a.startedAt.stored else a.id < b.id

def place (r : RunRecord) : List RunRecord → List RunRecord
  | [] => [r]
  | s :: ss => if r.before s then r :: s :: ss else s :: place r ss

def listing (rs : List RunRecord) : List RunRecord :=
  rs.foldr place []

end RunRecord

end MesonCheck
