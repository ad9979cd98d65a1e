import MesonCheck.Subprojects.Resolve

/-! Workspaces: the tree of a project together with its subprojects. -/
namespace MesonCheck

structure Workspace where
  name : String
  /-- The manifest, if the workspace was read from one. -/
  path : String
  dir : String
  tree : Option SourceTree
  options : Option (List BuildOption)
  subprojects : List Subproject
  sources : List String := []
  /-- The types that an earlier analysis left in the tree. -/
  slots : Std.ExtTreeMap Nat TypeSet := ∅

def Workspace.title (ws : Workspace) : String :=
  if ws.path ≠ "" then ws.path else if ws.name ≠ "" then ws.name else ws.dir

end MesonCheck
