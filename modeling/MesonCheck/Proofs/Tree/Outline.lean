import MesonCheck.Tree.Outline

/-! The nodes of a file. Every part of a node is a node of the same file. -/
namespace MesonCheck

namespace Outline

def site : Outline → Site
  | mk _ s _ => s

def children : Outline → List Outline
  | mk _ _ cs => cs

@[simp] theorem children_mk (l : Label) (s : Site) (cs : List Outline) : (mk l s cs).children = cs := rfl

inductive Has : Outline → Outline → Prop where
  | self (o : Outline) : Has o o
  | deeper {label : Label} {site : Site} {children : List Outline} {child o : Outline} : child ∈ children →
      Has child o → Has (.mk label site children) o

theorem Has.child {a b c : Outline} (has : a.Has b) (member : c ∈ b.children) : a.Has c := by
  induction has with
  | self o =>
    cases o
    exact .deeper member (.self c)
  | deeper inside _ ih => exact .deeper inside (ih member)

end Outline

@[simp] theorem Node.site_outline (n : Node) : n.outline.site = n.site := by
  cases n <;> simp only [Node.outline, Outline.site, Node.site, Ident.outline]

theorem Node.mem_outlines {n : Node} {ns : List Node} (member : n ∈ ns) : n.outline ∈ Node.outlines ns := by
  induction ns with
  | nil => contradiction
  | cons m ns ih =>
    rw [Node.outlines]
    rcases List.mem_cons.mp member with rfl | later
    · exact List.mem_cons_self
    · exact List.mem_cons_of_mem _ (ih later)

namespace SourceFile

def HasSite (f : SourceFile) (s : Site) : Prop :=
  ∃ o, f.outline.Has o ∧ o.site = s

theorem has_body {f : SourceFile} {b : Body} (parsed : f.body = some b) :
    f.outline.Has (.mk .body b.site (Node.outlines b.statements)) :=
  (Outline.Has.self f.outline).child (by simp [SourceFile.outline, parsed])

end SourceFile

theorem Node.hasSite {f : SourceFile} {n : Node} (has : f.outline.Has n.outline) : f.HasSite n.site :=
  ⟨_, has, n.site_outline⟩

theorem Ident.hasSite {f : SourceFile} {id : Ident} (has : f.outline.Has id.outline) : f.HasSite id.site :=
  ⟨_, has, rfl⟩

end MesonCheck
