import MesonCheck.Analysis.Guess
import MesonCheck.Analysis.Lint

/-! Calls of functions and methods. Their arguments have been walked before. -/
namespace MesonCheck

/-- Where the walk is: the setting, the file, and what to do with a file that this one includes. -/
structure Place where
  cx : Setting
  file : SourceFile
  enter : SourceFile → Run → Run

namespace Place

def guess (p : Place) (n : Node) (r : Run) : List String × Run :=
  match p.file.guess n with
  | some vs => (vs, r)
  | none => ([], r.fail .endlessGuess)

/-- The types that a node has when it is not given any: those of this analysis or else of an earlier one. -/
def keep (p : Place) (s : Site) (r : Run) : TypeSet × Run :=
  match r.slots[s.slot]? with
  | some ts => (ts, r)
  | none =>
    let ts := p.cx.earlier.getD s.slot []
    (ts, r.emit (.stale s ts))

def checkCall (p : Place) (site : Site) (callee : Ident) (f : Callable) (args : List Argument) (r : Run) : Run :=
  let r := (r.resolve site f).reportAll (f.findings site args)
  let r := args.foldl (fun r a => if a.isPositional then r else r.emit (.attributed a.node.site f)) r
  r.checkDeprecated p.cx callee f

/-! Functions with rules of their own. -/

def subprojectTypes (p : Place) (site : Site) (args : List Argument) (r : Run) : TypeSet × Run :=
  let (names, r) := match args with
    | [] => ([], r)
    | a :: _ => p.guess a.node r
  let missing := match p.cx.subprojects with
    | some known => names.filter fun n => !known.any (·.name == n)
    | none => []
  ([.handle names], if missing.isEmpty then r else r.report (.about site (.missingSubprojects missing)))

def optionTypes? (p : Place) (args : List Argument) : Option TypeSet :=
  (args.head?.bind (·.node.text?)).bind fun name => (p.cx.option? name).map fun o => p.cx.catalogue.optionTypes o.kind

def checkOption (p : Place) (site : Site) (args : List Argument) (r : Run) : Run :=
  match p.cx.options, args.head?.bind (·.node.text?) with
  | some _, some name =>
    match p.cx.option? name with
    | none => r.report (.about site (.unknownOption name))
    | some o => r.reportIf o.deprecated (.about site (.deprecatedOption name))
  | _, _ => r

def variableTypes (p : Place) (f : Callable) (args : List Argument) (r : Run) : TypeSet × Run :=
  match args with
  | [] => (f.returns, r)
  | a :: rest =>
    let fallback := (rest.head?.map (·.types)).getD []
    match a.node.text? with
    | some name => (TypeSet.normal ((r.scope.lookup name).getD f.returns ++ fallback), r.use name)
    | none =>
      let (names, r) := p.guess a.node r
      let types := names.flatMap fun n => (r.scope.lookup n).getD []
      (TypeSet.normal (f.returns ++ types ++ fallback), names.foldl (fun r n => r.use n) r)

def setVariable (p : Place) (args : List Argument) (r : Run) : Run :=
  match args with
  | a :: value :: _ =>
    match a.node.text? with
    | some name => r.bind name value.types
    | none =>
      let (names, r) := p.guess a.node r
      names.foldl (fun r n => r.bind n value.types) r
  | _ => r

def includeFile (p : Place) (site : Site) (f : SourceFile) (r : Run) : Run :=
  if r.active.contains f.id then r.report (.about site (.recursiveInclusion f.path)) else p.enter f r

def includeDir (p : Place) (site : Site) (missing : Run → Run) (r : Run) (dir : String) : Run :=
  match p.cx.tree.lookup (subdirPath p.file.path dir) with
  | some f => p.includeFile site f r
  | none => missing r

/-- Includes the file of a directory. Only a literal has to name one that exists. -/
def subdir (p : Place) (site : Site) (args : List Argument) (r : Run) : Run :=
  let r := r.emit (.included site.range)
  match args with
  | [] => r
  | a :: _ =>
    match a.node.text? with
    | some dir => p.includeDir site (Run.report (.about site (.missingSubdir dir))) r dir
    | none =>
      let (dirs, r) := p.guess a.node r
      (dirs.filter (· ≠ "")).foldl (p.includeDir site id) r

def applyFunction (p : Place) (site : Site) (f : Callable) (args : List Argument) (r : Run) : TypeSet × Run :=
  match f.name with
  | "subproject" => p.subprojectTypes site args r
  | "get_variable" => p.variableTypes f args r
  | "set_variable" => (f.returns, p.setVariable args r)
  | "get_option" => ((p.optionTypes? args).getD f.returns, p.checkOption site args r)
  | "subdir" => (f.returns, p.subdir site args r)
  | _ => (f.returns, r)

def callFunction (p : Place) (site : Site) (callee : Ident) (args : List Argument) (r : Run) : TypeSet × Run :=
  match p.cx.catalogue.function? callee.name with
  | none => (p.keep site r).map id (Run.report (.about site (.unknownFunction callee.name)))
  | some f =>
    let (ts, r) := p.applyFunction site f args r
    (ts, p.checkCall site callee f args (r.annotate site ts))

/-! Methods. -/

def foreignTypes (p : Place) (site : Site) (handle : Ty) (args : List Argument) (r : Run) : TypeSet × Run :=
  match p.cx.subprojects, args with
  | some known, a :: _ =>
    let (names, r) := p.guess a.node r
    let frames := (known.filter fun k => handle.subprojectNames.contains k.name).filterMap (·.exported)
    let hits := frames.flatMap fun vars => names.filterMap (vars[·]?)
    (hits.flatten, r.reportIf (!names.isEmpty && hits.isEmpty) (.about site (.missingVariables names)))
  | _, _ => ([], r)

abbrev Match := Option Callable × TypeSet

/-- Adds what the method is for one member of the receiver's types. Wildcards have no methods of their own. -/
def resolveMember (p : Place) (site : Site) (name : String) (args : List Argument) (found : Match × Run) (t : Ty) :
    Match × Run :=
  let ((_, types), r) := found
  if t.isWildcard then found
  else
    match p.cx.catalogue.method? t name with
    | none => found
    | some m =>
      if m.id == "subproject.get_variable" && t.kind == .subproject then
        let (more, r) := p.foreignTypes site t args r
        ((some m, types ++ m.returns ++ more), r)
      else ((some m, types ++ m.returns), r)

def getElement (p : Place) (container : Ty) (fallback : TypeSet) (r : Run) : Match × Run :=
  match container.elems, p.cx.catalogue.methodOf? container.name "get" with
  | [], none => ((none, []), r.fail (.missingGetter container.name))
  | [], some m => ((some m, m.returns.union fallback), r)
  | es, m => ((m, es.union fallback), r)

def resolveGet (p : Place) (receiver : TypeSet) (args : List Argument) (r : Run) : Match × Run :=
  let key : TypeSet := (args[0]?.map (·.types)).getD []
  let fallback : TypeSet := (args[1]?.map (·.types)).getD []
  match receiver.first? .list, receiver.first? .dict, key.has .int, key.has .str with
  | some l, _, true, _ => p.getElement l fallback r
  | _, some d, _, true => p.getElement d fallback r
  | _, _, _, _ =>
    if receiver.hasObject "cfg_data" then
      match p.cx.catalogue.methodOf? "cfg_data" "get" with
      | some m => ((some m, m.returns), r)
      | none => ((none, []), r.fail (.missingGetter "cfg_data"))
    else ((none, []), r)

def resolveMethod (p : Place) (site : Site) (name : String) (receiver : TypeSet) (args : List Argument) (r : Run) :
    Match × Run :=
  if name = "get" then p.resolveGet receiver args r
  else receiver.foldl (p.resolveMember site name args) ((none, []), r)

/-- A receiver of which nothing is known gets a method of that name of some type. -/
def guessMethod (p : Place) (name : String) (receiver : TypeSet) (found : Match) : Match :=
  match found.1 with
  | some _ => found
  | none =>
    if receiver.all Ty.isWildcard then
      match p.cx.catalogue.guessMethod? name with
      | some m => (some m, found.2 ++ m.returns)
      | none => found
    else found

/-- Reports a method that does not exist; on a disabler every method is fine. -/
def missMethod (site : Site) (name : String) (receiver : TypeSet) (r : Run) : Run :=
  match receiver with
  | [.disabler] => r
  | _ => r.report (.about site (.unknownMethod name receiver))

def checkFormat (site : Site) (receiver : Node) (f : Callable) (args : List Argument) (r : Run) : Run :=
  match receiver with
  | .str s t _ => if f.id = "str.format" then r.reportAll (formatFindings site s t args) else r
  | _ => r

def callMethod (p : Place) (site : Site) (receiver : Node) (types : TypeSet) (callee : Ident) (args : List Argument)
    (r : Run) : TypeSet × Run :=
  let (found, r) := p.resolveMethod site callee.name types args r
  match p.guessMethod callee.name types found with
  | (none, _) => (p.keep site r).map id (missMethod site callee.name types)
  | (some f, ts) =>
    let r := p.checkCall site callee f args (r.annotate site ts.normal)
    (ts.normal, checkFormat site receiver f args r)

end Place

end MesonCheck
