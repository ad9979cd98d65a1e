import MesonCheck.Proofs.Walk.Reach

/-! What a call asks for outside of its own node: the texts that an argument can evaluate to, and the files that the
directories it names stand for. -/
namespace MesonCheck

structure Inclusion where
  site : Site
  file : SourceFile
  before : Run

def Inclusion.entry? (i : Inclusion) : Option (SourceFile × Run) :=
  if i.before.active.contains i.file.id then none else some (i.file, i.before)

/-- The arguments of a function whose texts are guessed. Only the name of a subproject is guessed where it is a
literal. -/
def guessedArguments (f : Callable) : List Argument → List Node
  | [] => []
  | a :: rest =>
    let isNamed := f.name = "get_variable" ∨ f.name = "subdir" ∨ f.name = "set_variable" ∧ rest ≠ []
    if f.name = "subproject" ∨ a.node.text? = none ∧ isNamed then [a.node] else []

namespace Place

variable (p : Place)

/-! Files. -/

def resolvedBy (site : Site) : List String → Run → List Inclusion
  | [], _ => []
  | dir :: dirs, r =>
    let here := (p.cx.tree.lookup (subdirPath p.file.path dir)).map fun f => ⟨site, f, r⟩
    here.toList ++ resolvedBy site dirs (p.includeDir site id r dir)

def resolved (site : Site) (args : List Argument) (r : Run) : List Inclusion :=
  let r := r.emit (.included site.range)
  match args with
  | [] => []
  | a :: _ =>
    match a.node.text? with
    | some dir => p.resolvedBy site [dir] r
    | none =>
      let (dirs, r) := p.guess a.node r
      p.resolvedBy site (dirs.filter (· ≠ "")) r

/-- The files that a visit resolves a directory to by itself. -/
def inclusions (v : Visit) : List Inclusion :=
  match v.task with
  | .node (.call s callee _ as) =>
    let args := p.visitAll v.inLoop as v.before
    match p.cx.catalogue.function? callee.name with
    | some f => if f.name = "subdir" then p.resolved s (as.zipWith Argument.mk args.1) args.2 else []
    | none => []
  | _ => []

theorem enteredBy_eq (site : Site) (dirs : List String) (r : Run) :
    p.enteredBy site dirs r = (p.resolvedBy site dirs r).filterMap Inclusion.entry? := by
  induction dirs generalizing r with
  | nil => rfl
  | cons dir dirs ih =>
    rw [enteredBy, resolvedBy, ih]
    cases p.cx.tree.lookup (subdirPath p.file.path dir) with
    | none => rfl
    | some f =>
      dsimp only [Option.map_some, Option.toList_some, List.singleton_append]
      rw [List.filterMap_cons, Inclusion.entry?]
      dsimp only
      split <;> rfl

theorem included_eq (site : Site) (args : List Argument) (r : Run) :
    p.included site args r = (p.resolved site args r).filterMap Inclusion.entry? := by
  cases args with
  | nil => rfl
  | cons a args =>
    dsimp only [included, resolved]
    cases a.node.text? with
    | some dir => exact p.enteredBy_eq ..
    | none => exact p.enteredBy_eq ..

theorem entered_eq (v : Visit) : p.entered v = (p.inclusions v).filterMap Inclusion.entry? := by
  obtain ⟨inLoop, task, r⟩ := v
  cases task with
  | node n =>
    cases n with
    | call s callee argSite as =>
      dsimp only [entered, inclusions]
      cases p.cx.catalogue.function? callee.name with
      | none => rfl
      | some f =>
        by_cases called : f.name = "subdir"
        · simp only [called, if_true, included_eq]
        · simp only [called, if_false, List.filterMap_nil]
    | _ => rfl
  | _ => rfl

theorem mem_entered_iff {v : Visit} {g : SourceFile} {r : Run} :
    (g, r) ∈ p.entered v ↔ ∃ i ∈ p.inclusions v, i.before.active.contains i.file.id = false ∧
      i.file = g ∧ i.before = r := by
  rw [entered_eq, List.mem_filterMap]
  refine exists_congr fun i => and_congr_right fun _ => ?_
  unfold Inclusion.entry?
  cases i.before.active.contains i.file.id <;> simp

/-! Guesses. -/

def readsForeign (name : String) (t : Ty) : Bool :=
  !t.isWildcard && t.kind == .subproject &&
    (p.cx.catalogue.method? t name).any (·.id == "subproject.get_variable")

def guessedForeign (name : String) (receiver : TypeSet) : List Argument → List Node
  | [] => []
  | a :: _ =>
    if name ≠ "get" ∧ p.cx.subprojects.isSome ∧ receiver.any (p.readsForeign name) then [a.node] else []

/-- The nodes whose texts a visit guesses by itself. -/
def guessed (v : Visit) : List Node :=
  match v.task with
  | .node (.call _ callee _ as) =>
    match p.cx.catalogue.function? callee.name with
    | some f => guessedArguments f (as.zipWith Argument.mk (p.visitAll v.inLoop as v.before).1)
    | none => []
  | .node (.method _ receiver callee _ as) =>
    let recv := p.visit v.inLoop receiver v.before
    p.guessedForeign callee.name recv.1 (as.zipWith Argument.mk (p.visitAll v.inLoop as recv.2).1)
  | _ => []

end Place

end MesonCheck
