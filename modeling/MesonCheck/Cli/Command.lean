import MesonCheck.Catalogue.Builtin
import MesonCheck.Cli.Host
import MesonCheck.Cli.Output
import MesonCheck.Cli.Request
import MesonCheck.Config.Document
import MesonCheck.Config.Text
import MesonCheck.Lint.Recorded
import MesonCheck.Workspace.Manifest

/-! The commands of the program. -/
namespace MesonCheck.Cli

structure Reply where
  output : String
  /-- Whether the checked workspace has errors, unless the command failed. -/
  result : Except Failure Bool

def versionText : String := "dev (commit: unknown, built: unknown)"

structure App where
  config : Config
  catalogue : Catalogue
  history : Option History

def runId (n : Nat) : String :=
  let ds := Text.hexDigits 32 n
  let variant := Nat.digitChar (8 + n / 1152921504606846976 % 4)
  let ds := ds.take 12 ++ '4' :: (ds.drop 13).take 3 ++ variant :: ds.drop 17
  let group (i n : Nat) := String.ofList ((ds.drop i).take n)
  Text.joinWith "-" [group 0 8, group 8 4, group 12 4, group 16 4, group 20 12]

def traceId (n : Nat) : String :=
  String.ofList (Text.hexDigits 32 n)

variable {m : Type → Type} [Monad m]

def loadConfig (host : Host m) (path : String) : ExceptT Failure m Config := do
  if path = "" then return {}
  let text ← Manifest.readFile host.read "failed to read config" path
  match Config.load text with
  | .ok c => pure c
  | .error e => throw (e.within path)

def loadCatalogue (host : Host m) (path : String) : ExceptT Failure m Catalogue := do
  if path = "" then return .builtin
  ExceptT.adapt (·.within "failed to load builtins") (do
    let text ← Manifest.readFile host.read "failed to read registry file" path
    match Catalogue.load text with
    | .ok c => pure c
    | .error e => throw e)

def fileStep (context : String) (act : m (Except FileError Unit)) : ExceptT Failure m Unit := do
  match ← act with
  | .ok _ => pure ()
  | .error e => throw (e.failure.within context)

def openLog (host : Host m) (output : String) : ExceptT Failure m Unit :=
  if output = "stdout" ∨ output = "stderr" then pure ()
  else fileStep "failed to set up telemetry" (host.touch output)

def App.load (host : Host m) (g : Globals) (withHistory : Bool) : ExceptT Failure m App := do
  let config ← loadConfig host g.config
  openLog host config.telemetry.logging.output
  let catalogue ← loadCatalogue host config.registry
  if withHistory && config.storePath ≠ "" then
    let h ← ExceptT.mk (host.openHistory config.storePath)
    pure ⟨config, catalogue, some h⟩
  else pure ⟨config, catalogue, none⟩

def App.run (host : Host m) (app : App) (ws : Workspace) : ExceptT Failure m (RunInfo × Report) := do
  let id := runId (← host.random)
  let trace := traceId (← host.random)
  let before ← host.elapsed
  let h := (app.history.getD {}).start id ws.title (← host.now)
  match ws.lint app.catalogue app.config.lints {} with
  | .error e => throw e.failure
  | .ok run =>
    let duration : Duration := ⟨(← host.elapsed).nanos - before.nanos⟩
    if app.history.isSome then
      host.saveHistory app.config.storePath
        (h.finish id run.report.diagnostics (run.report.result duration) (← host.now) app.config.historyLimit)
    pure (⟨id, trace, duration⟩, run.report)

def checkWorkspace (host : Host m) (g : Globals) (format : String) (strict : Bool) (path : String) :
    ExceptT Failure m (String × Bool) := do
  let format := if g.json then "json" else format
  if ["text", "json", "lsp"].all (· != format) then
    throw ⟨.other, "unknown output format " ++ Text.quoted format⟩
  let app ← App.load host g true
  let ws ← Workspace.load host.read path
  let (info, r) ← app.run host ws
  let output ← match format with
    | "json" => pure (reportJson info r).document
    | "lsp" => do
      let dir := Editor.resolve (← host.directory) ws.dir
      pure (documentsJson dir r.diagnostics).document
    | _ => pure (reportText info r)
  pure (output, r.isFailed || strict && 0 < r.warnings)

def showHistory (host : Host m) (g : Globals) (limit : Int) (workspace : String) (run : Option String) :
    ExceptT Failure m String := do
  let app ← App.load host g true
  let some h := app.history | throw ⟨.other, "no history database configured (store.path)"⟩
  match run with
  | some id =>
    match h.get id with
    | .error e => throw e.failure
    | .ok r =>
      let ds := h.diagnostics id
      pure (if g.json then (runJson r ds).document else runText r ds)
  | none =>
    let rs := h.list workspace (if limit ≤ 0 then app.config.historyLimit else limit) 0
    pure (if g.json then (Json.arr (rs.map recordJson)).document else runsText rs)

/-- The functions and methods that a name stands for: a method behind a receiver and a dot, a function, or all methods
of a receiver. -/
def lookUp (c : Catalogue) (name : String) : Except Failure (List Callable) :=
  let receiver := name.toList.takeWhile (· != '.')
  match name.toList.dropWhile (· != '.') with
  | _ :: method =>
    match c.methodOf? (String.ofList receiver) (String.ofList method) with
    | some f => .ok [f]
    | none => .error ⟨.other, "unknown method " ++ name⟩
  | [] =>
    match c.function? name, c.methodsOf name with
    | some f, _ => .ok [f]
    | none, [] => .error ⟨.other, "unknown function or object " ++ name⟩
    | none, fs => .ok fs

def showBuiltins (host : Host m) (g : Globals) (name : Option String) : ExceptT Failure m String := do
  let app ← App.load host g false
  match name with
  | none => pure (signaturesText g.json app.catalogue.functions)
  | some name =>
    match lookUp app.catalogue name with
    | .ok fs => pure (signaturesText g.json fs)
    | .error e => throw e

def defaultConfigFile : String := "mesonlint.yaml"

def writeConfig (host : Host m) (g : Globals) (history force : Bool) : ExceptT Failure m String := do
  let path := if g.config = "" then defaultConfigFile else g.config
  match ← host.find path with
  | .ok _ => if !force then throw ⟨.other, path ++ " already exists (use --force to overwrite)"⟩
  | .error .missing => pure ()
  | .error f => throw (FileError.failure ⟨"stat", path, f⟩)
  let dir := Path.directory path
  fileStep "failed to create directory" (host.makeDirectories dir)
  let database := Path.join [dir, "history.db"]
  if history then
    let _ ← ExceptT.mk (host.openHistory database)
  let config : Config := { storePath := if history then database else "" }
  fileStep "failed to write config file" (host.write path config.text)
  pure ((if history then "✓ Initialized SQLite database: " ++ database ++ "\n" else "") ++
    "✓ Created config file: " ++ path ++ "\n")

def helpText (command : Option String) : String :=
  match command with
  | some c => "Usage:\n  " ++ program ++ " " ++ c ++ " [flags]\n"
  | none => "Usage:\n  " ++ program ++ " [command]\n\nAvailable Commands:\n" ++
      lines (["builtins", "check", "history", "init"].map ("  " ++ ·))

def Request.run (host : Host m) (g : Globals) : Request → ExceptT Failure m (String × Bool)
  | .init withHistory force => do pure (← writeConfig host g withHistory force, false)
  | .check format strict path => checkWorkspace host g format strict path
  | .history limit workspace id => do pure (← showHistory host g limit workspace id, false)
  | .builtins name => do pure (← showBuiltins host g name, false)
  | .version => pure (program ++ " version " ++ versionText ++ "\n", false)
  | .help command => pure (helpText command, false)
  | .unavailable command => throw ⟨.other, "command " ++ command ++ " is not available"⟩

def run (host : Host m) (args : List String) : m Reply := do
  match request args with
  | .error e => pure ⟨"", .error ⟨.other, e.message⟩⟩
  | .ok (g, req) =>
    match ← (req.run host g).run with
    | .ok (output, failed) => pure ⟨output, .ok failed⟩
    | .error e => pure ⟨"", .error e⟩

end MesonCheck.Cli
