import MesonCheck.History.Run
import MesonCheck.Workspace.Basic

/-! Lint runs: the analysis of a workspace, subprojects first, and its report. -/
namespace MesonCheck

structure Report where
  workspace : String
  diagnostics : List Diagnostic := []
  failures : List SubprojectError := []
  files : Nat := 0

namespace Report

def errors (r : Report) : Nat :=
  r.diagnostics.countP (·.severity == .error)

/-- Everything that is not an error counts as a warning. -/
def warnings (r : Report) : Nat :=
  r.diagnostics.countP (·.severity != .error)

def isFailed (r : Report) : Bool :=
  0 < r.errors

def status (r : Report) : RunStatus :=
  if r.isFailed then .failed else .passed

def failureText? (r : Report) : Option String :=
  if r.failures.isEmpty then none else some (Text.joinWith "\n" (r.failures.map (·.text)))

end Report

inductive LintStop where
  | noTree
  | cancelled
  | crashed (fault : Fault)
  /-- A subproject that has the name of an analysed one has no files to count. -/
  | uncounted (name : String)

structure LintRun where
  report : Report
  /-- The workspace with the types that the analysis left. -/
  workspace : Workspace

namespace Workspace

def subprojectDir : String := "subprojects"

def relocate (name : String) (d : Diagnostic) : Diagnostic :=
  { d with file := Path.join [subprojectDir, name, d.file] }

def relocated (a : Analysed) : List Diagnostic :=
  a.outcome.diagnostics.map (relocate a.subproject.name)

/-- The number of files of all subprojects with a name, each of which needs a tree. -/
def countFiles (ss : List Subproject) (name : String) : Option Nat :=
  let named := ss.filter fun s => s.name == name
  (named.mapM fun (s : Subproject) => s.tree.map (·.files.length)).map (·.foldl (· + ·) 0)

def countAll (ss : List Subproject) : List String → Except LintStop Nat
  | [] => .ok 0
  | n :: ns => do
    match countFiles ss n with
    | some k => pure (k + (← countAll ss ns))
    | none => throw (.uncounted n)

def remember (st : Resolution) (s : Subproject) : Subproject :=
  match st.analysed.find? (·.subproject.name == s.name) with
  | some a => { s with slots := a.outcome.slots }
  | none => s

def lint (c : Catalogue) (lints : LintOptions) (sched : Schedule) (ws : Workspace) : Except LintStop LintRun := do
  let some tree := ws.tree | throw .noTree
  let st := resolve (Subproject.analyze c lints) sched ws.subprojects
  if st.isEndless then throw (.crashed .endlessGuess)
  if sched.endsCancelled then throw .cancelled
  let root ← (Setting.analyze ⟨c, tree, ws.options, lints, some st.known, [], ws.slots⟩).mapError .crashed
  let files ← countAll ws.subprojects st.names
  pure
    { report :=
        { workspace := ws.title
          diagnostics := Diagnostic.sort (root.diagnostics ++ st.sorted.flatMap relocated)
          failures := st.errors
          files := tree.files.length + files }
      workspace := { ws with slots := root.slots, subprojects := ws.subprojects.map (remember st) } }

end Workspace

end MesonCheck
