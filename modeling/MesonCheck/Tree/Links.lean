import MesonCheck.Tree.Outline
import MesonCheck.Tree.Source
import Std.Data.ExtTreeMap

/-! Links from nodes to what they are part of, by their numbers. Followed from a node they end at its file. -/
namespace MesonCheck

abbrev Links := Std.ExtTreeMap Nat Nat

namespace Outline

mutual
def link : Outline → Links → Links
  | mk _ s cs, links => linkAll s.slot cs links

def linkAll (n : Nat) : List Outline → Links → Links
  | [], links => links
  | mk l s cs :: os, links => linkAll n os (link (mk l s cs) (links.insert s.slot n))
end

end Outline

def Links.top (links : Links) : Nat → Nat → Nat
  | 0, n => n
  | fuel + 1, n =>
    match links[n]? with
    | some m => links.top fuel m
    | none => n

def SourceFile.links (f : SourceFile) : Links := f.outline.link ∅

def SourceFile.parent? (f : SourceFile) (n : Nat) : Option Nat := f.links[n]?

/-- Files with their links, which are set once for all nodes. -/
abbrev LinkedFiles := List (SourceFile × Links)

def SourceTree.linked (t : SourceTree) : LinkedFiles :=
  t.all.map fun f => (f, f.links)

namespace LinkedFiles

/-- The file at which the links from a number end. What a node is part of has a smaller number than the node. -/
def enclosing? (fs : LinkedFiles) (n : Nat) : Option SourceFile :=
  (fs.find? fun f => f.2.top n n == f.1.site.slot).map (·.1)

def pathOf (fs : LinkedFiles) (s : Site) : String :=
  ((fs.enclosing? s.slot).map (·.path)).getD ""

end LinkedFiles

end MesonCheck
