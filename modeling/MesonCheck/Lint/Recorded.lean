import MesonCheck.History.Basic
import MesonCheck.Lint.Report
import MesonCheck.Metrics

/-! What is kept of lint runs: their history and their numbers. When the history refuses something, the run goes on with
what it is then. -/
namespace MesonCheck

namespace History

def start (h : History) (id workspace : String) (now : Timestamp) : History :=
  (h.create { id := id, workspace := workspace, status := .running, startedAt := now }).2

/-- Notes that a run is over, with its diagnostics. A positive limit says how many runs are kept. -/
def finish (h : History) (id : String) (ds : List Diagnostic) (res : RunResult) (now : Timestamp) (limit : Int) :
    History :=
  match (h.save id ds).2.complete id res now with
  | (.error _, h) => h
  | (.ok (), h) => if 0 < limit then (h.prune limit).2 else h

end History

def Report.result (r : Report) (d : Duration) : RunResult :=
  ⟨r.status, r.files, r.errors, r.warnings, d, r.failureText?⟩

def RunResult.aborted (d : Duration) : RunResult :=
  { status := .aborted, duration := d, error := some cancelledText }

def Metrics.recordReport (m : Metrics) (r : Report) (d : Duration) : Metrics :=
  let m := m.recordRun r.status.text d
  let m := m.recordDiagnostics Severity.error.text r.errors
  let m := m.recordDiagnostics Severity.warning.text r.warnings
  let m := m.setFiles r.files
  r.failures.foldl (fun m e => m.recordFailure e.errorClass.text) m

def LintStop.failure : LintStop → Failure
  | noTree => ⟨.other, "workspace has no tree"⟩
  | cancelled => ⟨.other, "lint run cancelled: " ++ cancelledText⟩
  | crashed f => ⟨.other, f.message⟩
  | uncounted _ => ⟨.other, missingText⟩

end MesonCheck
