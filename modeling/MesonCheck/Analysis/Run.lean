import MesonCheck.Analysis.Issue
import MesonCheck.Analysis.Scope
import MesonCheck.Tree.Node

/-! The state of an analysis. -/
namespace MesonCheck

inductive Event where
  | found (finding : Finding)
  | resolved (site : Site) (callable : Callable)
  | attributed (site : Site) (callable : Callable)
  | mentioned (id : Ident)
  | read (id : Ident) (types : TypeSet)
  /-- A call that was not resolved kept types from before this analysis. -/
  | stale (site : Site) (types : TypeSet)
  | subscripted (range : Range)
  | included (range : Range)
  /-- A variable got its types while `level` selections were open. -/
  | bound (name : String) (types : TypeSet) (level : Nat)
  | owed (name : String)
  | used (name : String)

structure Debt where
  name : String
  site : Site
  /-- What `declare_dependency()` returns need not be used. -/
  isExempt : Bool

structure OpenSelection where
  /-- What the branches so far assign to a name. -/
  assigned : Frame
  /-- What a name stood for before one of the branches assigned it. -/
  overridden : Frame

inductive Fault where
  /-- The catalogue has no `get` for a receiver that needs one. -/
  | missingGetter (receiver : String)
  | endlessGuess
deriving DecidableEq

structure Run where
  scope : Scope
  version : Option Version := none
  /-- The open selections, innermost first. -/
  selections : List OpenSelection := []
  /-- Names whose absence is not reported, the last one first. -/
  ignored : List String := []
  /-- Unused assignments by file and branch, innermost first. -/
  debts : List (List Debt) := []
  /-- The files that are being walked, innermost first. -/
  active : List Nat := []
  slots : Std.ExtTreeMap Nat TypeSet := ∅
  calls : Std.ExtTreeMap Nat Callable := ∅
  /-- What happened, last event first. -/
  log : List Event := []
  fault : Option Fault := none

namespace Run

def emit (e : Event) (r : Run) : Run :=
  { r with log := e :: r.log }

def report (f : Finding) (r : Run) : Run :=
  r.emit (.found f)

def reportAll (fs : List Finding) (r : Run) : Run :=
  fs.foldl (fun r f => r.report f) r

def reportIf (cond : Bool) (f : Finding) (r : Run) : Run :=
  if cond then r.report f else r

/-- The first fault is kept. -/
def fail (f : Fault) (r : Run) : Run :=
  { r with fault := some (r.fault.getD f) }

def annotate (s : Site) (ts : TypeSet) (r : Run) : Run :=
  { r with slots := r.slots.insert s.slot ts }

def typed (s : Site) (ts : TypeSet) (r : Run) : TypeSet × Run :=
  (ts, r.annotate s ts)

def callAt? (r : Run) (s : Site) : Option Callable :=
  r.calls[s.slot]?

def resolve (s : Site) (f : Callable) (r : Run) : Run :=
  { r with calls := r.calls.insert s.slot f, log := .resolved s f :: r.log }

def note (name : String) (ts : TypeSet) (r : Run) : Run :=
  match r.selections with
  | [] => r
  | s :: outer =>
    let overridden := match r.scope.lookup name with
      | some prev => s.overridden.insertIfNew name prev
      | none => s.overridden
    { r with selections := ⟨s.assigned.insert name ((s.assigned.getD name []).union ts), overridden⟩ :: outer }

def bind (name : String) (ts : TypeSet) (r : Run) : Run :=
  let r := r.note name ts
  { r with scope := r.scope.bind name ts, log := .bound name ts r.selections.length :: r.log }

/-- The types that a name had before the open selections assigned it. -/
def hidden (r : Run) (name : String) : TypeSet :=
  TypeSet.unionAll (r.selections.reverse.map fun s => s.overridden.getD name [])

/-- A variable has the types it was given last and those that an open selection may have left as they were. -/
def reading (r : Run) (name : String) : TypeSet :=
  (r.hidden name).union ((r.scope.lookup name).getD [])

/-- Records that a name is used: no earlier assignment to it has to be reported. -/
def use (name : String) (r : Run) : Run :=
  { r with debts := r.debts.map (·.filter (·.name != name)), log := .used name :: r.log }

def owe (d : Debt) (r : Run) : Run :=
  match r.debts with
  | [] => r
  | top :: outer => { r with debts := (top ++ [d]) :: outer, log := .owed d.name :: r.log }

def openDebts (r : Run) : Run :=
  { r with debts := [] :: r.debts }

def closeDebts (r : Run) : List Debt × Run :=
  (r.debts.head?.getD [], { r with debts := r.debts.tail })

def carry (ds : List Debt) (r : Run) : Run :=
  match r.debts with
  | [] => r
  | top :: outer => { r with debts := (top ++ ds) :: outer }

def openFile (id : Nat) (r : Run) : Run :=
  { r with active := id :: r.active }

def closeFile (r : Run) : Run :=
  { r with active := r.active.tail }

def ignore (names : List String) (r : Run) : Run :=
  { r with ignored := names ++ r.ignored }

def unignore (names : List String) (r : Run) : Run :=
  { r with ignored := r.ignored.drop names.length }

def misses (r : Run) (name : String) : Bool :=
  !r.scope.has name && !r.ignored.contains name

end Run

end MesonCheck
