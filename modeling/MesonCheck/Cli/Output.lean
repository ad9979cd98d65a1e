import MesonCheck.Catalogue.Callable
import MesonCheck.Editor
import MesonCheck.Json
import MesonCheck.Lint.Report

/-! What commands print. -/
namespace MesonCheck.Cli

/-- Columns with two blanks between them. The last one is not padded. -/
def table (rows : List (List String)) : String :=
  let width (i : Nat) := (rows.map fun r => (r[i]?.getD "").length).foldl max 0
  let line (r : List String) := String.join (r.zipIdx.map fun (cell, i) =>
    if i + 1 = r.length then cell
    else cell ++ String.ofList (List.replicate (width i + 2 - cell.length) ' '))
  String.join (rows.map fun r => line r ++ "\n")

def lines (ts : List String) : String :=
  String.join (ts.map (· ++ "\n"))

def positionJson (column : String) (line col : Int) : Json :=
  .obj [("line", .int line), (column, .int col)]

def diagnosticJson (d : Diagnostic) : Json :=
  .obj
    [("severity", .str d.severity.text), ("file", .str d.file),
      ("range", .obj
        [("start", positionJson "column" d.range.start.line d.range.start.column),
          ("end", positionJson "column" d.range.stop.line d.range.stop.column)]),
      ("message", .str d.message)]

structure RunInfo where
  id : String
  trace : String
  duration : Duration

def reportJson (info : RunInfo) (r : Report) : Json :=
  .obj
    [("run_id", .str info.id), ("workspace", .str r.workspace),
      ("diagnostics", .arr (r.diagnostics.map diagnosticJson)),
      ("errors", .int r.errors), ("warnings", .int r.warnings), ("files", .int r.files),
      ("duration", .int info.duration.nanos), ("trace_id", .str info.trace)]

def tagNumber : Editor.Tag → Int
  | .unnecessary => 1
  | .deprecated => 2

def markerJson (m : Editor.Marker) : Json :=
  let n (i : Nat) : Int := m.range[i]?.getD 0
  .obj
    ([("range", .obj [("start", positionJson "character" (n 0) (n 1)), ("end", positionJson "character" (n 2) (n 3))]),
      ("severity", .int (if m.isError then 1 else 2)), ("source", .str Editor.source), ("message", .str m.message)] ++
      (m.tag.map fun t => ("tags", Json.arr [.int (tagNumber t)])).toList)

def documentsJson (dir : String) (ds : List Diagnostic) : Json :=
  .obj ((Editor.documents dir ds).map fun (address, ms) => (address, .arr (ms.map markerJson)))

def reportText (info : RunInfo) (r : Report) : String :=
  lines (r.diagnostics.map Diagnostic.text) ++ lines (r.failures.map fun e => "subproject: " ++ e.text) ++
    toString r.errors ++ " errors, " ++ toString r.warnings ++ " warnings in " ++ toString r.files ++ " files (" ++
    info.duration.toMicroseconds.text ++ ")\n"

def recordJson (r : RunRecord) : Json :=
  .obj
    ([("id", .str r.id), ("workspace", .str r.workspace), ("status", .str r.status.text),
      ("started_at", .str r.startedAt.universal)] ++
      (r.completedAt.map fun t => ("completed_at", Json.str t.universal)).toList ++
      [("files", .int r.files), ("errors", .int r.errors), ("warnings", .int r.warnings),
        ("duration_ms", .int r.milliseconds)] ++
      (r.error.map fun e => ("error", Json.str e)).toList)

def runJson (r : RunRecord) (ds : List Diagnostic) : Json :=
  .obj [("diagnostics", .arr (ds.map diagnosticJson)), ("run", recordJson r)]

def runText (r : RunRecord) (ds : List Diagnostic) : String :=
  "run " ++ r.id ++ " (" ++ r.workspace ++ ") " ++ r.status.text ++ "\n" ++ lines (ds.map Diagnostic.text) ++
    lines (r.error.map ("error: " ++ ·)).toList

def runsText (rs : List RunRecord) : String :=
  table (["ID", "STARTED", "STATUS", "ERRORS", "WARNINGS", "FILES", "DURATION", "WORKSPACE"] :: rs.map fun r =>
    [r.id, r.startedAt.short, r.status.text, toString r.errors, toString r.warnings, toString r.files,
      (Duration.ofMilliseconds r.milliseconds).text, r.workspace])

def signaturesText (isJson : Bool) (fs : List Callable) : String :=
  if isJson then (Json.arr (fs.map fun f => .obj [("id", .str f.id), ("signature", .str f.signature)])).document
  else lines (fs.map Callable.signature)

end MesonCheck.Cli
