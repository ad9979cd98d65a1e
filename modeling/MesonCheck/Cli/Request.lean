import MesonCheck.Cli.Flags

/-! Command lines and what they ask for. -/
namespace MesonCheck.Cli

structure Globals where
  config : String
  verbose : Bool
  json : Bool

inductive Request where
  | init (history force : Bool)
  | check (format : String) (strict : Bool) (workspace : String)
  | history (limit : Int) (workspace : String) (run : Option String)
  | builtins (name : Option String)
  | version
  | help (command : Option String)
  /-- A command that this program does not carry out. -/
  | unavailable (command : String)

inductive CommandError where
  | unknown (name parent : String) (similar : List String)
  | exactly (n received : Nat)
  | atMost (n received : Nat)
  | usage (e : UsageError)

def CommandError.message : CommandError → String
  | unknown name parent similar =>
    "unknown command " ++ Text.quoted name ++ " for " ++ Text.quoted parent ++
      (if similar.isEmpty then "" else
        "\n\nDid you mean this?\n" ++ String.join (similar.map fun s => "\t" ++ s ++ "\n"))
  | exactly n received => "accepts " ++ toString n ++ " arg(s), received " ++ toString received
  | atMost n received => "accepts at most " ++ toString n ++ " arg(s), received " ++ toString received
  | usage e => e.message

def program : String := "mesonlint"

/-- The commands that can be proposed in place of a misspelt one. -/
def commandNames : List String :=
  ["init", "check", "watch", "history", "builtins", "completion"]

/-- The next row of a table of distances: `left` is the entry to the left, the list holds the row above. -/
def distanceRow (c : Char) : Nat → List Nat → List Char → List Nat
  | left, diagonal :: above :: row, d :: ds =>
    let here := min (min (left + 1) (above + 1)) (diagonal + if c = d then 0 else 1)
    here :: distanceRow c here (above :: row) ds
  | _, _, _ => []

def distance (s t : List Char) : Nat :=
  let rows := s.foldl (fun row c =>
    let first := row.headD 0 + 1
    first :: distanceRow c first row t) (List.range (t.length + 1))
  rows.getLast?.getD 0

def similarCommands (name : String) : List String :=
  let typed := name.toList.map Char.toLower
  commandNames.filter fun n => distance typed n.toList ≤ 2 || (Text.afterChars? typed n.toList).isSome

def globalFlags : List Flag :=
  [⟨"config", some 'c', .text⟩, ⟨"verbose", some 'v', .switch⟩, ⟨"json", none, .switch⟩]

def helpFlag : Flag := ⟨"help", some 'h', .switch⟩

def commandFlags : String → List Flag
  | "check" => [⟨"format", some 'f', .text⟩, ⟨"warnings-as-errors", none, .switch⟩]
  | "history" => [⟨"limit", some 'n', .number⟩, ⟨"workspace", some 'w', .text⟩]
  | "init" => [⟨"history", none, .switch⟩, ⟨"force", none, .switch⟩]
  | _ => []

def Parsed.globals (p : Parsed) : Globals :=
  ⟨p.text "config" "", p.switch "verbose", p.switch "json"⟩

def commandRequest (command : String) (p : Parsed) : Except CommandError Request :=
  match command, p.args with
  | "init", [] => .ok (.init (p.switch "history") (p.switch "force"))
  | "init", arg :: _ => .error (.unknown arg (program ++ " init") [])
  | "check", [path] => .ok (.check (p.text "format" "text") (p.switch "warnings-as-errors") path)
  | "check", args => .error (.exactly 1 args.length)
  | "history", [] => .ok (.history (p.number "limit" 0) (p.text "workspace" "") none)
  | "history", [run] => .ok (.history (p.number "limit" 0) (p.text "workspace" "") (some run))
  | "builtins", [] => .ok (.builtins none)
  | "builtins", [name] => .ok (.builtins (some name))
  | "history", args | "builtins", args => .error (.atMost 1 args.length)
  | command, _ => .ok (.unavailable command)

def request (args : List String) : Except CommandError (Globals × Request) := do
  match firstArgument? globalFlags args with
  | none =>
    let flags := globalFlags ++ [helpFlag, ⟨"version", none, .switch⟩]
    let p ← (parse flags {} args).mapError .usage
    if p.switch "help" then pure (p.globals, .help none)
    else if p.switch "version" then pure (p.globals, .version)
    else pure (p.globals, .help none)
  | some command =>
    if command = "help" then pure (⟨"", false, false⟩, .help none)
    else if !commandNames.contains command then throw (.unknown command program (similarCommands command))
    else if command = "watch" ∨ command = "completion" then pure (⟨"", false, false⟩, .unavailable command)
    else
      let p ← (parse (globalFlags ++ helpFlag :: commandFlags command) {} (without globalFlags command args)).mapError
        .usage
      if p.switch "help" then pure (p.globals, .help (some command))
      else pure (p.globals, ← commandRequest command p)

end MesonCheck.Cli
