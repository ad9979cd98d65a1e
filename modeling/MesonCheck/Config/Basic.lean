import MesonCheck.Analysis.Setting
import MesonCheck.Duration
import MesonCheck.Failure

/-! The settings of the program, their defaults and the rules they obey. -/
namespace MesonCheck.Config

structure Logging where
  level : String := "info"
  format : String := "console"
  output : String := "stderr"
  caller : Bool := false
  timeFormat : String := "rfc3339"

structure Tracing where
  enabled : Bool := false
  exporter : String := "none"
  endpoint : String := ""
  /-- The part of all runs that is traced. -/
  samplingRate : Float := 1.0
  maxBatch : Int := 512
  timeout : Duration := ⟨30 * Duration.second⟩
  headers : List (String × String) := []
  insecure : Bool := true

structure Metrics where
  enabled : Bool := false
  listenAddress : String := ":9090"
  path : String := "/metrics"
  space : String := "mesonlint"
  /-- Upper bounds, in seconds, for the counts of run times. -/
  buckets : List Float := [0.001, 0.005, 0.01, 0.025, 0.05, 0.1, 0.25, 0.5, 1.0, 2.5]

structure Telemetry where
  serviceName : String := "mesonlint"
  serviceVersion : String := "dev"
  logging : Logging := {}
  tracing : Tracing := {}
  metrics : Metrics := {}

end MesonCheck.Config

namespace MesonCheck

structure Config where
  lints : LintOptions := {}
  registry : String := ""
  /-- The most subprojects that are analysed at the same time; zero is no limit. -/
  concurrency : Int := 0
  /-- The database of past runs; empty for none. -/
  storePath : String := ""
  historyLimit : Int := 20
  telemetry : Config.Telemetry := {}

namespace Config

def development : Config :=
  { telemetry :=
    { logging := { level := "debug", caller := true }
      tracing := { enabled := true, exporter := "stdout" } } }

def Telemetry.violations (path : List String) (t : Telemetry) : List Violation :=
  let logging := path ++ ["Logging"]
  let tracing := path ++ ["Tracing"]
  let rules := Violation.ofRules
  rules path "ServiceName" [("required", t.serviceName ≠ "")] ++
    rules path "ServiceVersion" [("required", t.serviceVersion ≠ "")] ++
    rules logging "Level"
      [("oneof", ["trace", "debug", "info", "warn", "error", "fatal"].contains t.logging.level)] ++
    rules logging "Format" [("oneof", ["console", "json"].contains t.logging.format)] ++
    rules logging "Output" [("required", t.logging.output ≠ "")] ++
    rules tracing "Exporter" [("oneof", ["", "otlp", "stdout", "none"].contains t.tracing.exporter)] ++
    rules tracing "SamplingRate"
      [("gte", 0.0 ≤ t.tracing.samplingRate), ("lte", t.tracing.samplingRate ≤ 1.0)] ++
    rules tracing "MaxExportBatchSize" [("gte", 0 ≤ t.tracing.maxBatch)] ++
    rules (path ++ ["Metrics"]) "ListenAddress"
      [("required_if", !t.metrics.enabled || t.metrics.listenAddress ≠ "")]

def violations (c : Config) : List Violation :=
  Violation.ofRules ["Config", "Subprojects"] "Concurrency" [("gte", 0 ≤ c.concurrency)] ++
    Violation.ofRules ["Config", "Store"] "HistoryLimit" [("gte", 1 ≤ c.historyLimit)] ++
    c.telemetry.violations ["Config", "Telemetry"]

end Config

end MesonCheck
