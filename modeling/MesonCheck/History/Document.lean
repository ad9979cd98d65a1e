import MesonCheck.History.Basic
import MesonCheck.Json
import MesonCheck.Yaml.Fields

/-! Histories as documents. -/
namespace MesonCheck

namespace RunRecord

def toJson (r : RunRecord) : Json :=
  .obj
    ([("id", .str r.id), ("workspace", .str r.workspace), ("status", .str r.status.text),
      ("started_at", .str r.startedAt.stored)] ++
      (r.completedAt.map fun t => ("completed_at", Json.str t.stored)).toList ++
      [("files", .int r.files), ("errors", .int r.errors), ("warnings", .int r.warnings),
        ("duration_ms", .int r.milliseconds)] ++
      (r.error.map fun e => ("error", Json.str e)).toList)

def read (n : Yaml.Node) : Except Yaml.Fault RunRecord := do
  let fs ← n.fields
  let text (key : String) := Yaml.field fs key "" (Yaml.Node.text "")
  let number (key : String) := Yaml.field fs key 0 (Yaml.Node.int 0)
  let time (s : String) : Except Yaml.Fault Timestamp :=
    match Timestamp.parse? s with
    | some t => .ok t
    | none => .error .unsuitable
  let error ← Yaml.field fs "error" none fun n => some <$> n.text ""
  let completedAt ← Yaml.field fs "completed_at" none fun n => do some <$> time (← n.text "")
  pure ⟨← text "id", ← text "workspace", .ofText (← text "status"), ← time (← text "started_at"), completedAt,
    ← number "files", ← number "errors", ← number "warnings", ← number "duration_ms", error⟩

end RunRecord

namespace SavedDiagnostic

def toJson (s : SavedDiagnostic) : Json :=
  let d := s.diagnostic
  .obj
    [("run", .str s.run), ("seq", .int s.seq), ("severity", .str d.severity.text), ("file", .str d.file),
      ("start_line", .int d.range.start.line), ("start_column", .int d.range.start.column),
      ("end_line", .int d.range.stop.line), ("end_column", .int d.range.stop.column), ("message", .str d.message)]

def read (n : Yaml.Node) : Except Yaml.Fault SavedDiagnostic := do
  let fs ← n.fields
  let text (key : String) := Yaml.field fs key "" (Yaml.Node.text "")
  let number (key : String) := Yaml.field fs key 0 (Yaml.Node.int 0)
  let range : Range :=
    ⟨⟨← number "start_line", ← number "start_column"⟩, ⟨← number "end_line", ← number "end_column"⟩⟩
  pure ⟨← text "run", (← number "seq").toNat, ⟨.ofText (← text "severity"), ← text "file", range, ← text "message"⟩⟩

end SavedDiagnostic

namespace History

def text (h : History) : String :=
  (Json.obj [("runs", .arr (h.runs.map RunRecord.toJson)),
    ("diagnostics", .arr (h.saved.map SavedDiagnostic.toJson))]).document

def load (text : String) : Except Failure History :=
  let read : Except Yaml.Fault History := do
    let fs ← ((← Yaml.parse text).getD .absent).fields
    pure ⟨← Yaml.field fs "runs" [] (Yaml.Node.list RunRecord.read),
      ← Yaml.field fs "diagnostics" [] (Yaml.Node.list SavedDiagnostic.read)⟩
  read.mapError fun _ => ⟨.database, "failed to initialize store"⟩

end History

end MesonCheck
