import MesonCheck.Catalogue.Document
import MesonCheck.Disk
import MesonCheck.Tree.Dump
import MesonCheck.Workspace.Basic

/-! Manifests: documents that list the files of a workspace, its options and its subprojects. -/
namespace MesonCheck

namespace Manifest

structure Project where
  name : String
  /-- The path of the root file; empty for the usual one. -/
  root : String
  files : Option (List String)
  options : Option (List BuildOption)
  provides : List String

/-- A list that may be missing; null counts as missing. -/
def listOrNone (item : Yaml.Node → Except Yaml.Fault α) (n : Yaml.Node) : Except Yaml.Fault (Option (List α)) :=
  if n.isNull then .ok none else some <$> n.list item

def Project.ofFields (fs : List (String × Yaml.Node)) : Except Yaml.Fault Project := do
  let name ← Yaml.field fs "name" "" (Yaml.Node.text "")
  let root ← Yaml.field fs "root" "" (Yaml.Node.text "")
  let files ← Yaml.field fs "files" none (listOrNone (Yaml.Node.text ""))
  let options ← Yaml.field fs "options" none (listOrNone BuildOption.read)
  pure ⟨name, root, files, options, []⟩

def Project.readSubproject (n : Yaml.Node) : Except Yaml.Fault Project := do
  let fs ← n.fields
  let p ← Project.ofFields fs
  pure { p with provides := ← Yaml.field fs "provides" [] (Yaml.Node.list (Yaml.Node.text "")) }

def Project.fileViolations (path : List String) (p : Project) : List Violation :=
  (p.files.getD []).zipIdx.flatMap fun (f, i) =>
    Violation.ofRules path (Violation.item "Files" i) [("required", f ≠ "")]

def Project.optionViolations (path : List String) (p : Project) : List Violation :=
  Catalogue.itemViolations path "Options" BuildOption.violations (p.options.getD [])

def Project.violations (path : List String) (p : Project) : List Violation :=
  Violation.ofRules path "Name" [("required", p.name ≠ "")] ++ p.fileViolations path ++ p.optionViolations path

end Manifest

structure Manifest where
  project : Manifest.Project
  subprojects : List Manifest.Project

namespace Manifest

def read (n : Yaml.Node) : Except Yaml.Fault Manifest := do
  let fs ← n.fields
  let project ← Project.ofFields fs
  pure ⟨project, ← Yaml.field fs "subprojects" [] (Yaml.Node.list Project.readSubproject)⟩

/-- The workspace itself needs files; its name may be missing. -/
def violations (m : Manifest) : List Violation :=
  let root := ["Manifest"]
  Violation.ofRules root "Files"
      [("required", m.project.files.isSome), ("min", (m.project.files.getD []) ≠ [])] ++
    m.project.fileViolations root ++ m.project.optionViolations root ++
    Catalogue.itemViolations root "Subprojects" Project.violations m.subprojects

def load (text : String) : Except Failure Manifest := do
  let unreadable : Yaml.Fault → Failure := fun _ => ⟨.unreadable, "failed to parse workspace manifest"⟩
  let node ← (Yaml.parse text).mapError unreadable
  let manifest ← (read (node.getD .absent)).mapError unreadable
  if manifest.violations.isEmpty then pure manifest
  else throw (Failure.ofViolations "invalid workspace manifest" manifest.violations)

def Project.rootPath (p : Project) : String :=
  if p.root = "" then "meson.build" else Path.clean p.root

def Project.tree? (p : Project) (fs : List SourceFile) : Option SourceTree :=
  let isRoot (f : SourceFile) := Path.clean f.path == p.rootPath
  (fs.find? isRoot).map fun root => .ofFiles (root :: fs.eraseP isRoot)

def Project.sources (p : Project) (dir : String) : List String :=
  (p.files.getD []).map fun f => if Path.isAbsolute f then f else Path.join [dir, f]

abbrev Reader (m : Type → Type) := String → m (Except FileError String)

def readFile [Monad m] (reader : Reader m) (context path : String) : ExceptT Failure m String := do
  match ← reader path with
  | .ok text => pure text
  | .error e => throw (e.failure.within context)

def Project.readFiles [Monad m] (reader : Reader m) (dir : String) (p : Project) :
    ExceptT Failure m (List SourceFile) :=
  ((p.files.getD []).zip (p.sources dir)).mapM fun (name, path) => do
    let text ← readFile reader "failed to read tree dump" path
    match SourceFile.load text with
    | .ok f => pure f
    | .error e => throw (e.within name)

/-- A subproject without files is known by its name only. -/
def Project.readSubtree [Monad m] (reader : Reader m) (dir : String) (p : Project) : ExceptT Failure m Subproject := do
  let fs ← ExceptT.adapt (·.within ("subproject " ++ p.name)) (p.readFiles reader dir)
  pure { name := p.name, tree := p.tree? fs, options := p.options, provides := p.provides }

def workspace [Monad m] (reader : Reader m) (path : String) (mf : Manifest) : ExceptT Failure m Workspace := do
  let dir := Path.directory path
  let fs ← mf.project.readFiles reader dir
  let some tree := mf.project.tree? fs
    | throw ⟨.other, "root file " ++ mf.project.rootPath ++ " is not among the workspace files"⟩
  let ss ← mf.subprojects.mapM (·.readSubtree reader dir)
  pure
    { name := mf.project.name
      path := path
      dir := dir
      tree := some tree
      options := mf.project.options
      subprojects := ss
      sources := mf.project.sources dir ++ mf.subprojects.flatMap (·.sources dir) }

end Manifest

def Workspace.load [Monad m] (reader : Manifest.Reader m) (path : String) : ExceptT Failure m Workspace := do
  let text ← Manifest.readFile reader "failed to read workspace manifest" path
  ExceptT.adapt (·.within path) (do
    let mf ← (Manifest.load text : ExceptT Failure m Manifest)
    mf.workspace reader path)

end MesonCheck
