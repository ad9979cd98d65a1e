import MesonCheck.Config.Basic

/-! Numbers about lint runs. Switched off, nothing is recorded and nothing is shown. -/
namespace MesonCheck

abbrev Tally := List (String × Nat)

def Tally.add (label : String) (n : Nat) : Tally → Tally
  | [] => [(label, n)]
  | (l, k) :: t =>
    if label < l then (label, n) :: (l, k) :: t
    else if label = l then (l, k + n) :: t
    else (l, k) :: add label n t

structure Metrics where
  config : Config.Metrics
  runs : Tally := []
  times : List (String × Duration) := []
  diagnostics : Tally := []
  failures : Tally := []
  files : Int := 0

inductive Sample where
  | number (n : Int)
  | histogram (count : Nat) (buckets : List (Float × Nat))

structure Metrics.Family where
  name : String
  label : String
  samples : List (String × Sample)

namespace Metrics

def defaultBuckets : List Float :=
  [0.005, 0.01, 0.025, 0.05, 0.1, 0.25, 0.5, 1.0, 2.5, 5.0, 10.0]

def recordRun (m : Metrics) (status : String) (d : Duration) : Metrics :=
  if m.config.enabled then { m with runs := Tally.add status 1 m.runs, times := (status, d) :: m.times } else m

def recordDiagnostics (m : Metrics) (severity : String) (n : Nat) : Metrics :=
  if m.config.enabled && n ≠ 0 then { m with diagnostics := Tally.add severity n m.diagnostics } else m

def recordFailure (m : Metrics) (cls : String) : Metrics :=
  if m.config.enabled then { m with failures := Tally.add cls 1 m.failures } else m

def setFiles (m : Metrics) (n : Int) : Metrics :=
  if m.config.enabled then { m with files := n } else m

def histogram (m : Metrics) (status : String) : Sample :=
  let seconds := (m.times.filter (·.1 == status)).map (·.2.seconds)
  let bounds := if m.config.buckets.isEmpty then defaultBuckets else m.config.buckets
  .histogram seconds.length (bounds.map fun b => (b, seconds.countP (· ≤ b)))

def name (m : Metrics) (short : String) : String :=
  if m.config.space = "" then short else m.config.space ++ "_" ++ short

/-- Everything that is shown: counts appear with their first observation, the number of files always. -/
def families (m : Metrics) : List Family :=
  let counts (short label : String) (t : Tally) : Family :=
    ⟨m.name short, label, t.map fun e => (e.1, .number e.2)⟩
  if m.config.enabled then
    [counts "runs_total" "status" m.runs,
      ⟨m.name "run_duration_seconds", "status", m.runs.map fun e => (e.1, m.histogram e.1)⟩,
      counts "diagnostics_total" "severity" m.diagnostics,
      counts "subproject_failures_total" "class" m.failures,
      ⟨m.name "files_analyzed", "", [("", .number m.files)]⟩].filter (!·.samples.isEmpty)
  else []

def server? (m : Metrics) : Option String :=
  if m.config.enabled then some m.config.listenAddress else none

end Metrics

end MesonCheck
