import MesonCheck.Text.Path
import MesonCheck.Tree.Numbered

/-! Source trees: the root file of a project and the files that it can include. -/
namespace MesonCheck

structure SourceTree where
  root : Option SourceFile
  /-- The files by cleaned path, in the order of their paths as given. -/
  files : List (String × SourceFile)

namespace SourceTree

def empty : SourceTree := ⟨none, []⟩

/-- Files that share a cleaned path replace each other; the last one stays. The first file is the root even when it
has been replaced. -/
def ofFiles (fs : List SourceFile) : SourceTree :=
  let fs := SourceFile.numberedAll fs 0 0
  let byPath := Text.lastOn (·.1) (fs.map fun f => (Path.clean f.path, f))
  ⟨fs.head?, Text.sortedOn (·.2.path) byPath⟩

def lookup (t : SourceTree) (path : String) : Option SourceFile :=
  t.files.lookup (Path.clean path)

def sources (t : SourceTree) : List SourceFile :=
  t.files.map (·.2)

/-- The root, which may have been replaced, and the registered files. -/
def all (t : SourceTree) : List SourceFile :=
  t.root.toList ++ t.sources

end SourceTree

def subdirPath (includer dir : String) : String :=
  Path.join [Path.directory includer, dir, "meson.build"]

end MesonCheck
