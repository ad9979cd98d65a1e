import MesonCheck.Analysis.Walk

/-! The analysis of a tree and its results. -/
namespace MesonCheck

structure Outcome where
  tree : SourceTree
  /-- The variables of the root file, those of included files among them. -/
  scope : Frame
  version : Option Version
  /-- The types of all nodes, also of those that only an earlier analysis has seen. -/
  slots : Std.ExtTreeMap Nat TypeSet
  calls : Std.ExtTreeMap Nat Callable
  events : List Event

def Setting.start (cx : Setting) : Run :=
  { scope := .ofBindings cx.catalogue.globals }

def Setting.finish (cx : Setting) : Run :=
  match cx.tree.root with
  | some f => cx.walk (cx.tree.files.length + 1) f cx.start
  | none => cx.start

def Run.outcome (cx : Setting) (r : Run) : Outcome :=
  ⟨cx.tree, r.scope.flatten, r.version, cx.earlier ∪ r.slots, r.calls, r.log.reverse⟩

def Setting.analyze (cx : Setting) : Except Fault Outcome :=
  match cx.finish.fault with
  | some f => .error f
  | none => .ok (cx.finish.outcome cx)

namespace Outcome

def diagnostics (o : Outcome) : List Diagnostic :=
  let files := o.tree.linked
  o.events.filterMap fun
    | .found f => some (f.diagnostic files)
    | _ => none

def identifiers (o : Outcome) : List Ident :=
  o.events.filterMap fun
    | .mentioned id => some id
    | _ => none

def subscripts (o : Outcome) : List Range :=
  o.events.filterMap fun
    | .subscripted r => some r
    | _ => none

def subdirs (o : Outcome) : List Range :=
  o.events.filterMap fun
    | .included r => some r
    | _ => none

def firstSites : List Site → List Site
  | [] => []
  | s :: ss => s :: (firstSites ss).filter (·.slot != s.slot)

/-- The calls in the order in which they were resolved first, each with what it resolved to last. -/
def resolutions (o : Outcome) : List (Site × Callable) :=
  (firstSites (o.events.filterMap fun
    | .resolved s _ => some s
    | _ => none)).filterMap fun s => o.calls[s.slot]?.map (s, ·)

def keywordOwner? (o : Outcome) (s : Site) : Option Callable :=
  o.events.reverse.findSome? fun
    | .attributed t f => if t.slot = s.slot then some f else none
    | _ => none

def typesAt (o : Outcome) (s : Site) : TypeSet :=
  o.slots.getD s.slot []

end Outcome

end MesonCheck
