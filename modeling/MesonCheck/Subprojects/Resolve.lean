import MesonCheck.Analysis.Outcome
import MesonCheck.Subprojects.Error
import MesonCheck.Subprojects.Graph
import MesonCheck.Tree.Outline

/-! The analysis of all subprojects. -/
namespace MesonCheck

structure Subproject where
  name : String
  tree : Option SourceTree
  options : Option (List BuildOption)
  provides : List String
  /-- The types that an earlier analysis left. -/
  slots : Std.ExtTreeMap Nat TypeSet := ∅

namespace Outline

def literalArgument? (function : String) : Label → List Outline → Option String
  | .call name, [_, .mk .args _ (.mk label _ _ :: _)] =>
    if name = function then
      match label with
      | .str t | .formatStr t => some t
      | _ => none
    else none
  | _, _ => none

mutual
def literalArguments (function : String) : Outline → List String
  | mk label _ children => (literalArgument? function label children).toList ++ literalArgumentsAll function children

def literalArgumentsAll (function : String) : List Outline → List String
  | [] => []
  | o :: os => literalArguments function o ++ literalArgumentsAll function os
end

end Outline

namespace Subproject

def sources (s : Subproject) : List SourceFile :=
  (s.tree.map SourceTree.sources).getD []

def references (s : Subproject) : List String :=
  Text.sortedUnique (s.sources.flatMap fun f => f.outline.literalArguments "subproject")

end Subproject

def Graph.ofSubprojects (ss : List Subproject) : Graph :=
  ⟨ss.map fun s => (s.name, s.references)⟩

structure Analysed where
  subproject : Subproject
  outcome : Outcome

structure Resolution where
  analysed : List Analysed := []
  failures : List SubprojectError := []

namespace Resolution

def sorted (st : Resolution) : List Analysed :=
  Text.sortedOn (·.subproject.name) st.analysed

def names (st : Resolution) : List String :=
  st.sorted.map (·.subproject.name)

def errors (st : Resolution) : List SubprojectError :=
  Text.sortedOn (·.subproject) st.failures

def known (st : Resolution) : List KnownSubproject :=
  st.sorted.map fun a => ⟨a.subproject.name, some a.outcome.scope⟩

def fail (e : SubprojectError) (st : Resolution) : Resolution :=
  { st with failures := st.failures ++ [e] }

def add (a : Analysed) (st : Resolution) : Resolution :=
  { st with analysed := st.analysed ++ [a] }

end Resolution

/-- Why a subproject cannot be analysed; `seen` holds the names of those before it. -/
def Subproject.fault? (seen : List String) (s : Subproject) : Option SubprojectError :=
  if s.name = "" then some .unnamed
  else if seen.contains s.name then some (.repeated s.name)
  else if (s.tree.bind (·.root)).isNone then some (.noTree s.name)
  else none

def Subproject.sift : List String → List Subproject → List SubprojectError × List Subproject
  | _, [] => ([], [])
  | seen, s :: ss =>
    let (es, valid) := sift (s.name :: seen) ss
    match s.fault? seen with
    | some e => (e :: es, valid)
    | none => (es, s :: valid)

/-- How the analyses of a level, which run side by side, come to an end. -/
structure Schedule where
  order : List String → List String := id
  /-- Whether the caller has given up before a subproject starts. -/
  isCancelled : String → Bool := fun _ => false
  /-- Whether the caller has given up before the last one ends. -/
  endsCancelled : Bool := false

def cancelledText : String := "context canceled"

def Schedule.cancelled : Schedule :=
  { isCancelled := fun _ => true, endsCancelled := true }

/-- Analyses a subproject, given those that can be referred to. The error is the text of a crash. -/
abbrev Analyzer := Subproject → List KnownSubproject → Except String Outcome

namespace Resolution

def step (analyze : Analyzer) (sched : Schedule) (done : List KnownSubproject) (st : Resolution) (s : Subproject) :
    Resolution :=
  if sched.isCancelled s.name then st.fail (.cancelled s.name cancelledText)
  else
    match analyze s done with
    | .ok o => st.add ⟨s, o⟩
    | .error crash => st.fail (.crashed s.name crash)

/-- Analyses the subprojects of a level. They see the levels before, and not each other. -/
def level (analyze : Analyzer) (sched : Schedule) (valid : List Subproject) (st : Resolution) (names : List String) :
    Resolution :=
  ((sched.order names).filterMap fun n => valid.find? (·.name == n)).foldl (step analyze sched st.known) st

end Resolution

def resolve (analyze : Analyzer) (sched : Schedule) (ss : List Subproject) : Resolution :=
  let (faults, valid) := Subproject.sift [] ss
  let g := Graph.ofSubprojects valid
  let cycles := g.cyclic.map fun n => SubprojectError.cycle n (Text.joinWith " -> " ((g.cyclePath n).getD []))
  g.levels.foldl (Resolution.level analyze sched valid) { failures := faults ++ cycles }

def missingText : String := "runtime error: invalid memory address or nil pointer dereference"

def Fault.message : Fault → String
  | missingGetter _ => missingText
  | endlessGuess => "fatal error: stack overflow"

/-- A guess that does not end is no crash that one could go on after: nothing that was resolved counts then. -/
def Resolution.isEndless (st : Resolution) : Bool :=
  st.failures.any fun e => e.cause == some Fault.endlessGuess.message

def Subproject.analyze (c : Catalogue) (lints : LintOptions) : Analyzer := fun s done =>
  match Setting.analyze ⟨c, s.tree.getD .empty, s.options, lints, some done, s.provides, s.slots⟩ with
  | .ok o => .ok o
  | .error f => .error f.message

end MesonCheck
