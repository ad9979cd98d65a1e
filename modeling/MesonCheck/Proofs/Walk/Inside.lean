import MesonCheck.Proofs.Tree.Parents
import MesonCheck.Proofs.Walk.Nesting

/-! What is visited. While a file is being walked, all that is visited stands in it, and a file that it includes is
entered from a node of it. -/
namespace MesonCheck

def Task.IsIn (f : SourceFile) : Task → Prop
  | .file => True
  | .node n => f.outline.Has n.outline
  | .entries _ es => ∀ o ∈ Entry.outlines es, f.outline.Has o
  | .statements block ns => (∀ o ∈ Node.outlines block, f.outline.Has o) ∧ ∀ o ∈ Node.outlines ns, f.outline.Has o
  | .branches bs => ∀ o ∈ Branch.outlines bs, f.outline.Has o

namespace Place

theorem inTurn_isIn (p : Place) {f : SourceFile} (inLoop : Bool) {ns : List Node}
    (inside : ∀ o ∈ Node.outlines ns, f.outline.Has o) (r : Run) : ∀ w ∈ p.inTurn inLoop ns r, w.task.IsIn f := by
  induction ns generalizing r with
  | nil => simp [inTurn]
  | cons n ns ih =>
    rw [Node.outlines] at inside
    obtain ⟨first, rest⟩ := List.forall_mem_cons.mp inside
    exact List.forall_mem_cons.mpr ⟨first, ih rest _⟩

theorem nodeParts_isIn (p : Place) {f : SourceFile} (inLoop : Bool) {n : Node} (has : f.outline.Has n.outline)
    (r : Run) : ∀ w ∈ p.nodeParts inLoop n r, w.task.IsIn f := by
  have below : ∀ o ∈ n.outline.children, f.outline.Has o := fun o => has.child
  cases n with
  | int | bool | str | ident | breakLoop | continueLoop | error => simp [nodeParts]
  | array s es => exact p.inTurn_isIn inLoop (by simpa [Node.outline] using below) r
  | dict s es => exact List.forall_mem_singleton.mpr (by simpa [Node.outline, Task.IsIn] using below)
  | call s callee argSite as =>
    simp only [Node.outline, Outline.children_mk, List.forall_mem_cons] at below
    exact p.inTurn_isIn inLoop (fun o => below.2.1.child) r
  | method s receiver callee argSite as =>
    simp only [Node.outline, Outline.children_mk, List.forall_mem_cons] at below
    refine p.inTurn_isIn inLoop ?_ r
    rw [Node.outlines]
    exact List.forall_mem_cons.mpr ⟨below.1, fun o => below.2.2.1.child⟩
  | keyword s key v =>
    simp only [Node.outline, Outline.children_mk, List.forall_mem_cons] at below
    exact p.inTurn_isIn inLoop (by simpa [Node.outlines] using below.2.1) r
  | index | unary | binary | ternary =>
    exact p.inTurn_isIn inLoop (by simpa [Node.outline, Node.outlines] using below) r
  | assign s op t v =>
    simp only [Node.outline, Outline.children_mk, List.forall_mem_cons] at below
    refine p.inTurn_isIn inLoop ?_ r
    split
    · simpa [Node.outlines] using below.2.1
    · simpa [Node.outlines] using ⟨below.1, below.2.1⟩
  | select s bs => exact List.forall_mem_singleton.mpr (by simpa [Node.outline, Task.IsIn] using below)
  | loop s ids subject body =>
    simp only [Node.outline, Outline.children_mk, List.forall_mem_append, List.forall_mem_cons] at below
    obtain ⟨-, first, rest⟩ := below
    exact List.forall_mem_cons.mpr ⟨first, List.forall_mem_singleton.mpr ⟨rest, rest⟩⟩

theorem parts_isIn (p : Place) {v : Visit} (inside : v.task.IsIn p.file) : ∀ w ∈ p.parts v, w.task.IsIn p.file := by
  obtain ⟨inLoop, task, r⟩ := v
  cases task with
  | node n => exact p.nodeParts_isIn inLoop inside r
  | file =>
    dsimp only [parts]
    split
    · simp
    · rename_i b parsed
      have top := SourceFile.has_body parsed
      exact List.forall_mem_singleton.mpr ⟨fun o => top.child, fun o => top.child⟩
  | entries seen es =>
    cases es with
    | nil => simp [parts]
    | cons e es =>
      obtain ⟨s, k, v⟩ := e
      simp only [Task.IsIn, Entry.outlines, List.forall_mem_cons] at inside
      have pair : ∀ o ∈ Node.outlines [k, v], p.file.outline.Has o := by
        intro o member
        exact inside.1.child (by simpa [Node.outlines] using member)
      exact List.forall_mem_append.mpr ⟨p.inTurn_isIn inLoop pair r, List.forall_mem_singleton.mpr inside.2⟩
  | statements block ns =>
    cases ns with
    | nil => simp [parts]
    | cons n ns =>
      simp only [Task.IsIn, Node.outlines, List.forall_mem_cons] at inside
      obtain ⟨all, first, rest⟩ := inside
      exact List.forall_mem_cons.mpr ⟨first, List.forall_mem_singleton.mpr ⟨all, rest⟩⟩
  | branches bs =>
    cases bs with
    | nil => simp [parts]
    | cons b bs =>
      cases b with
      | guarded c body =>
        simp only [Task.IsIn, Branch.outlines, List.cons_append, List.forall_mem_cons, List.forall_mem_append] at inside
        obtain ⟨first, block, rest⟩ := inside
        refine List.forall_mem_cons.mpr ⟨first, List.forall_mem_cons.mpr ⟨⟨block, block⟩, ?_⟩⟩
        exact List.forall_mem_singleton.mpr rest
      | otherwise body =>
        simp only [Task.IsIn, Branch.outlines, List.forall_mem_append] at inside
        obtain ⟨block, rest⟩ := inside
        exact List.forall_mem_cons.mpr ⟨⟨block, block⟩, List.forall_mem_singleton.mpr rest⟩

/-! Where files are included. -/

variable (p : Place)

theorem site_of_mem_resolvedBy {site : Site} {dirs : List String} {r : Run} {i : Inclusion}
    (member : i ∈ p.resolvedBy site dirs r) : i.site = site := by
  induction dirs generalizing r with
  | nil => contradiction
  | cons dir dirs ih =>
    rcases List.mem_append.mp member with here | later
    · obtain ⟨f, _, rfl⟩ := Option.map_eq_some_iff.mp (Option.mem_toList.mp here)
      rfl
    · exact ih later

theorem site_of_mem_resolved {site : Site} {args : List Argument} {r : Run} {i : Inclusion}
    (member : i ∈ p.resolved site args r) : i.site = site := by
  unfold resolved at member
  dsimp only at member
  split at member
  · contradiction
  · split at member <;> exact p.site_of_mem_resolvedBy member

theorem inclusions_hasSite {v : Visit} (inside : v.task.IsIn p.file) {i : Inclusion} (member : i ∈ p.inclusions v) :
    p.file.HasSite i.site := by
  unfold inclusions at member
  split at member
  · rename_i s callee argSite as task
    rw [task] at inside
    dsimp only at member
    split at member
    · split at member
      · rw [p.site_of_mem_resolved member]
        exact Node.hasSite inside
      · contradiction
    · contradiction
  · contradiction

end Place

namespace Setting.Nests

variable {cx : Setting} {fuel : Nat} {f : SourceFile} {outer : List SourceFile} {v : Visit}

theorem isIn (nests : cx.Nests fuel f outer v) : v.task.IsIn f := by
  induction nests with
  | root | included => trivial
  | part _ member ih => exact (cx.place _ _).parts_isIn ih _ member

theorem hasSite (nests : cx.Nests fuel f outer v) {i : Inclusion} (resolved : i ∈ (cx.place fuel f).inclusions v) :
    f.HasSite i.site :=
  (cx.place fuel f).inclusions_hasSite nests.isIn resolved

theorem standsIn (nests : cx.Nests fuel f outer v) {s : Site} (has : f.HasSite s) {fs : List SourceFile}
    (built : cx.tree = .ofFiles fs) : cx.tree.StandsIn s f := by
  have known := nests.isStack.known f List.mem_cons_self
  rw [built] at known ⊢
  exact SourceTree.standsIn known has

end Setting.Nests

end MesonCheck
