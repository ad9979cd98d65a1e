import MesonCheck.Config.Basic
import MesonCheck.Yaml.Fields

/-! Settings as documents. What a document leaves out keeps its default. -/
namespace MesonCheck.Config

open Yaml

/-- A length of time is written as a text with units, never as a number. -/
def duration (old : Duration) (n : Yaml.Node) : Except Yaml.Fault Duration :=
  match n with
  | .scalar s => do
    match ← s.value with
    | .null => pure old
    | .text t =>
      match Duration.parse? t with
      | some d => pure d
      | none => throw .unsuitable
    | _ => throw .unsuitable
  | _ => .error .unsuitable

def readLints (n : Yaml.Node) : Except Yaml.Fault LintOptions := do
  let fs ← n.fields
  let flag (name : String) := field fs name false (Yaml.Node.bool false)
  pure
    { skipNames := ← flag "disable_name_linting"
      skipIds := ← flag "disable_all_id_linting"
      skipCompilerIds := ← flag "disable_compiler_id_linting"
      skipArgumentSyntaxes := ← flag "disable_compiler_argument_id_linting"
      skipLinkerIds := ← flag "disable_linker_id_linting"
      skipCpuFamilies := ← flag "disable_cpu_family_linting"
      skipOsNames := ← flag "disable_os_family_linting" }

def Logging.read (c : Logging) (n : Yaml.Node) : Except Yaml.Fault Logging := do
  let fs ← n.fields
  pure
    { level := ← field fs "level" c.level (Yaml.Node.text c.level)
      format := ← field fs "format" c.format (Yaml.Node.text c.format)
      output := ← field fs "output" c.output (Yaml.Node.text c.output)
      caller := ← field fs "enable_caller" c.caller (Yaml.Node.bool c.caller)
      timeFormat := ← field fs "time_format" c.timeFormat (Yaml.Node.text c.timeFormat) }

def Tracing.read (c : Tracing) (n : Yaml.Node) : Except Yaml.Fault Tracing := do
  let fs ← n.fields
  let headers ← field fs "headers" c.headers (Yaml.Node.table (Yaml.Node.text ""))
  pure
    { enabled := ← field fs "enabled" c.enabled (Yaml.Node.bool c.enabled)
      exporter := ← field fs "exporter" c.exporter (Yaml.Node.text c.exporter)
      endpoint := ← field fs "endpoint" c.endpoint (Yaml.Node.text c.endpoint)
      samplingRate := ← field fs "sampling_rate" c.samplingRate (Yaml.Node.float c.samplingRate)
      maxBatch := ← field fs "max_export_batch_size" c.maxBatch (Yaml.Node.int c.maxBatch)
      timeout := ← field fs "export_timeout" c.timeout (duration c.timeout)
      headers := Text.sortedOn (·.1) headers
      insecure := ← field fs "insecure" c.insecure (Yaml.Node.bool c.insecure) }

def Metrics.read (c : Metrics) (n : Yaml.Node) : Except Yaml.Fault Metrics := do
  let fs ← n.fields
  pure
    { enabled := ← field fs "enabled" c.enabled (Yaml.Node.bool c.enabled)
      listenAddress := ← field fs "listen_address" c.listenAddress (Yaml.Node.text c.listenAddress)
      path := ← field fs "path" c.path (Yaml.Node.text c.path)
      space := ← field fs "namespace" c.space (Yaml.Node.text c.space)
      buckets := ← field fs "buckets" c.buckets (Yaml.Node.list (Yaml.Node.float 0.0)) }

def Telemetry.read (c : Telemetry) (n : Yaml.Node) : Except Yaml.Fault Telemetry := do
  let fs ← n.fields
  pure
    { serviceName := ← field fs "service_name" c.serviceName (Yaml.Node.text c.serviceName)
      serviceVersion := ← field fs "service_version" c.serviceVersion (Yaml.Node.text c.serviceVersion)
      logging := ← field fs "logging" c.logging c.logging.read
      tracing := ← field fs "tracing" c.tracing c.tracing.read
      metrics := ← field fs "metrics" c.metrics c.metrics.read }

def read (c : Config) (n : Yaml.Node) : Except Yaml.Fault Config := do
  let fs ← n.fields
  let lints ← field fs "analysis" c.lints readLints
  let registry ← field fs "registry" c.registry (Yaml.Node.text c.registry)
  let concurrency ← field fs "subprojects" c.concurrency fun n => do
    field (← n.fields) "concurrency" c.concurrency (Yaml.Node.int c.concurrency)
  let (storePath, historyLimit) ← field fs "store" (c.storePath, c.historyLimit) fun n => do
    let fs ← n.fields
    let path ← field fs "path" c.storePath (Yaml.Node.text c.storePath)
    pure (path, ← field fs "history_limit" c.historyLimit (Yaml.Node.int c.historyLimit))
  let telemetry ← field fs "telemetry" c.telemetry c.telemetry.read
  pure ⟨lints, registry, concurrency, storePath, historyLimit, telemetry⟩

def load (text : String) : Except Failure Config := do
  let unreadable : Yaml.Fault → Failure := fun _ => ⟨.unreadable, "failed to parse config"⟩
  let node ← (Yaml.parse text).mapError unreadable
  let config ← (read {} (node.getD .absent)).mapError unreadable
  if config.violations.isEmpty then pure config
  else throw (Failure.ofViolations "invalid config" config.violations)

end MesonCheck.Config
