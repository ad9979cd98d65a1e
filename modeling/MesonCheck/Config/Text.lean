import MesonCheck.Config.Basic
import MesonCheck.Text.Shortest
import MesonCheck.Yaml.Written

/-! Settings as the text of a document. -/
namespace MesonCheck.Config

inductive Line where
  | value (key text : String)
  | items (key : String) (texts : List String)
  | table (key : String) (entries : List (String × String))
  | group (key : String) (lines : List Line)

namespace Line

def indentation (depth : Nat) : String :=
  String.ofList (List.replicate (4 * depth) ' ')

def entry (depth : Nat) (key text : String) : String :=
  indentation depth ++ key ++ ": " ++ text ++ "\n"

mutual
def text (depth : Nat) : Line → String
  | value key t => entry depth key t
  | items key [] => entry depth key "[]"
  | items key ts =>
    indentation depth ++ key ++ ":\n" ++ String.join (ts.map fun t => indentation (depth + 1) ++ "- " ++ t ++ "\n")
  | table key [] => entry depth key "\x7b\x7d"
  | table key es =>
    indentation depth ++ key ++ ":\n" ++ String.join (es.map fun e => entry (depth + 1) e.1 e.2)
  | group key ls => indentation depth ++ key ++ ":\n" ++ texts (depth + 1) ls

def texts (depth : Nat) : List Line → String
  | [] => ""
  | l :: ls => text depth l ++ texts depth ls
end

end Line

def flagLine (key : String) (b : Bool) : Line :=
  .value key (if b then "true" else "false")

def numberLine (key : String) (n : Int) : Line :=
  .value key (toString n)

def textLine (key s : String) : Line :=
  .value key (Yaml.written s)

def lintLines (o : LintOptions) : List Line :=
  [flagLine "disable_name_linting" o.skipNames, flagLine "disable_all_id_linting" o.skipIds,
    flagLine "disable_compiler_id_linting" o.skipCompilerIds,
    flagLine "disable_compiler_argument_id_linting" o.skipArgumentSyntaxes,
    flagLine "disable_linker_id_linting" o.skipLinkerIds, flagLine "disable_cpu_family_linting" o.skipCpuFamilies,
    flagLine "disable_os_family_linting" o.skipOsNames]

def Logging.lines (l : Logging) : List Line :=
  [textLine "level" l.level, textLine "format" l.format, textLine "output" l.output,
    flagLine "enable_caller" l.caller, textLine "time_format" l.timeFormat]

def Tracing.lines (t : Tracing) : List Line :=
  [flagLine "enabled" t.enabled, textLine "exporter" t.exporter, textLine "endpoint" t.endpoint,
    .value "sampling_rate" (Text.floatText t.samplingRate), numberLine "max_export_batch_size" t.maxBatch,
    .value "export_timeout" t.timeout.text,
    .table "headers" (t.headers.map fun e => (Yaml.written e.1, Yaml.written e.2)), flagLine "insecure" t.insecure]

def Metrics.lines (m : Metrics) : List Line :=
  [flagLine "enabled" m.enabled, textLine "listen_address" m.listenAddress, textLine "path" m.path,
    textLine "namespace" m.space, .items "buckets" (m.buckets.map Text.floatText)]

def lines (c : Config) : List Line :=
  [.group "analysis" (lintLines c.lints), textLine "registry" c.registry,
    .group "subprojects" [numberLine "concurrency" c.concurrency],
    .group "store" [textLine "path" c.storePath, numberLine "history_limit" c.historyLimit],
    .group "telemetry"
      [textLine "service_name" c.telemetry.serviceName, textLine "service_version" c.telemetry.serviceVersion,
        .group "logging" c.telemetry.logging.lines, .group "tracing" c.telemetry.tracing.lines,
        .group "metrics" c.telemetry.metrics.lines]]

def text (c : Config) : String :=
  Line.texts 0 c.lines

end MesonCheck.Config
