import Mathlib.Logic.Function.Iterate
import MesonCheck.Proofs.Tree.Numbering
import MesonCheck.Tree.Links

/-! Links from the nodes of a file to what they are part of. The links are set from the top down. In a numbered file
they say of every node which node lists it as a child, and they lead from every node up to the file, in as many steps as
the listing of the nodes says. Numbers grow from the top down, so a link leads to a smaller number, and the file of a
node is found in as many steps as its number allows. -/
namespace MesonCheck

namespace Outline

theorem slots_eq (o : Outline) : o.slots = o.site.slot :: slotsAll o.children := by
  cases o
  rw [slots]
  rfl

theorem linkAll_cons (n : Nat) (o : Outline) (os : List Outline) (links : Links) :
    linkAll n (o :: os) links = linkAll n os (o.link (links.insert o.site.slot n)) := by
  cases o
  rw [linkAll]
  rfl

mutual
theorem link_of_not_mem : ∀ (o : Outline) (links : Links) (m : Nat), m ∉ slotsAll o.children →
    (o.link links)[m]? = links[m]?
  | mk _ s cs, links, m, outside => by
    rw [link]
    exact linkAll_of_not_mem s.slot cs links m outside

theorem linkAll_of_not_mem (n : Nat) : ∀ (os : List Outline) (links : Links) (m : Nat), m ∉ slotsAll os →
    (linkAll n os links)[m]? = links[m]?
  | [], links, m, _ => by rw [linkAll]
  | mk l s cs :: os, links, m, outside => by
    rw [slotsAll, slots, List.cons_append, List.mem_cons, List.mem_append, not_or, not_or] at outside
    obtain ⟨other, below, later⟩ := outside
    rw [linkAll, linkAll_of_not_mem n os _ m later, link_of_not_mem (mk l s cs) _ m below]
    simp [Std.ExtTreeMap.getElem?_insert, Ne.symm other]
end

/-- Where no number occurs twice, the links below one of several nodes are those that were set right after its own. -/
theorem linkAll_of_mem {n : Nat} {os : List Outline} (distinct : (slotsAll os).Nodup) {c : Outline} (member : c ∈ os)
    {m : Nat} (inside : m ∈ c.slots) (links : Links) :
    ∃ links' : Links, (linkAll n os links)[m]? = (c.link (links'.insert c.site.slot n))[m]? := by
  induction os generalizing links with
  | nil => cases member
  | cons o os ih =>
    rw [slotsAll, List.nodup_append'] at distinct
    obtain ⟨_, rest, apart⟩ := distinct
    rw [linkAll_cons]
    rcases List.mem_cons.mp member with rfl | later
    · exact ⟨links, linkAll_of_not_mem n os _ m (apart inside)⟩
    · exact ih rest later _

theorem nodup_slots_of_mem {os : List Outline} (distinct : (slotsAll os).Nodup) {c : Outline} (member : c ∈ os) :
    c.slots.Nodup := by
  induction os with
  | nil => cases member
  | cons o os ih =>
    rw [slotsAll, List.nodup_append'] at distinct
    rcases List.mem_cons.mp member with rfl | later
    · exact distinct.1
    · exact ih distinct.2.1 later

theorem slot_not_mem {o : Outline} (distinct : o.slots.Nodup) : o.site.slot ∉ slotsAll o.children := by
  rw [slots_eq, List.nodup_cons] at distinct
  exact distinct.1

theorem link_child {top o c : Outline} (distinct : top.slots.Nodup) (has : top.Has o) (member : c ∈ o.children)
    (links : Links) : (top.link links)[c.site.slot]? = some o.site.slot := by
  induction has generalizing links with
  | self o =>
    cases o with
    | mk l s cs =>
      have below := (List.nodup_cons.mp distinct).2
      obtain ⟨links', same⟩ := linkAll_of_mem (n := s.slot) below member (Has.self c).slot_mem links
      rw [link, same, link_of_not_mem _ _ _ (slot_not_mem (nodup_slots_of_mem below member))]
      exact Std.ExtTreeMap.getElem?_insert_self
  | @deeper l s cs child o inside has ih =>
    have below := (List.nodup_cons.mp distinct).2
    obtain ⟨links', same⟩ := linkAll_of_mem (n := s.slot) below inside (has.child member).slot_mem links
    rw [link, same]
    exact ih (nodup_slots_of_mem below inside) member _

end Outline

/-! Links lead to smaller numbers. -/

namespace Links

def Descends (links : Links) : Prop :=
  ∀ m n : Nat, links[m]? = some n → n < m

theorem Descends.insert {links : Links} (descends : Descends links) {m n : Nat} (less : n < m) :
    Descends (links.insert m n) := by
  intro k j found
  rw [Std.ExtTreeMap.getElem?_insert] at found
  split at found
  · rename_i same
    cases Std.compare_eq_iff_eq.mp same
    cases found
    exact less
  · exact descends k j found

end Links

namespace Outline

open Links (Descends)

mutual
theorem link_descends : ∀ (o : Outline) (links : Links), o.slots.Pairwise (· < ·) → Descends links →
    Descends (o.link links)
  | mk _ s cs, links, sorted, before => by
    rw [slots, List.pairwise_cons] at sorted
    rw [link]
    exact linkAll_descends s.slot cs links sorted.1 sorted.2 before

theorem linkAll_descends (n : Nat) : ∀ (os : List Outline) (links : Links), (∀ m ∈ slotsAll os, n < m) →
    (slotsAll os).Pairwise (· < ·) → Descends links → Descends (linkAll n os links)
  | [], links, _, _, before => by
    rw [linkAll]
    exact before
  | mk l s cs :: os, links, above, sorted, before => by
    rw [slotsAll, List.forall_mem_append] at above
    rw [slotsAll, List.pairwise_append] at sorted
    rw [linkAll]
    have own : n < s.slot := above.1 _ (by rw [slots]; exact List.mem_cons_self)
    exact linkAll_descends n os _ above.2 sorted.2.1 (link_descends (mk l s cs) _ sorted.1 (before.insert own))
end

def climb (parent : Nat → Option Nat) (steps n : Nat) : Option Nat :=
  (·.bind parent)^[steps] (some n)

theorem climb_succ (parent : Nat → Option Nat) (steps n : Nat) :
    climb parent (steps + 1) n = (climb parent steps n).bind parent :=
  Function.iterate_succ_apply' _ _ _

section
variable {parent : Nat → Option Nat}

theorem climb_of_linked {n m : Nat} (linked : parent n = some m) (steps : Nat) :
    climb parent (steps + 1) n = climb parent steps m := by
  unfold climb
  rw [Function.iterate_succ_apply, Option.bind_some, linked]

theorem climb_of_not_linked {n : Nat} (top : parent n = none) (steps : Nat) : climb parent (steps + 1) n = none := by
  induction steps with
  | zero => exact top
  | succ steps ih => rw [climb_succ, ih, Option.bind_none]

theorem climb_has {top o : Outline} (has : top.Has o)
    (linked : ∀ p c, top.Has p → c ∈ p.children → parent c.site.slot = some p.site.slot) :
    ∃ steps, climb parent steps o.site.slot = some top.site.slot := by
  induction has with
  | self => exact ⟨0, rfl⟩
  | @deeper l s cs child o inside _ ih =>
    obtain ⟨steps, up⟩ := ih fun p c has member => linked p c (.deeper inside has) member
    refine ⟨steps + 1, ?_⟩
    rw [climb_succ, up]
    exact linked _ child (.self _) inside

mutual
/-- If all nodes are linked to the nodes that list them, then the links lead up from every node to the top, and the
depth in the listing counts them. -/
theorem climb_preorder : ∀ (o : Outline) (k : Nat),
    (∀ p c, o.Has p → c ∈ p.children → parent c.site.slot = some p.site.slot) →
    ∀ e ∈ o.preorder k, ∃ steps, e.1 = k + steps ∧ climb parent steps e.2.2.slot = some o.site.slot
  | mk l s cs, k, linked => by
    intro e member
    rw [preorder] at member
    rcases List.mem_cons.mp member with rfl | below
    · exact ⟨0, rfl, rfl⟩
    · obtain ⟨steps, depth, up⟩ := climb_preorderAll cs (k + 1) s.slot (fun c member => linked _ c (.self _) member)
        (fun c inside p q has member => linked p q (.deeper inside has) member) e below
      exact ⟨steps + 1, by omega, up⟩

theorem climb_preorderAll : ∀ (os : List Outline) (k n : Nat), (∀ c ∈ os, parent c.site.slot = some n) →
    (∀ c ∈ os, ∀ p q, c.Has p → q ∈ p.children → parent q.site.slot = some p.site.slot) →
    ∀ e ∈ preorderAll k os, ∃ steps, e.1 = k + steps ∧ climb parent (steps + 1) e.2.2.slot = some n
  | [], _, _, _, _ => by
    intro e member
    rw [preorderAll] at member
    cases member
  | o :: os, k, n, own, linked => by
    intro e member
    rw [preorderAll] at member
    rcases List.mem_append.mp member with here | later
    · obtain ⟨steps, depth, up⟩ := climb_preorder o k (linked o List.mem_cons_self) e here
      refine ⟨steps, depth, ?_⟩
      rw [climb_succ, up]
      exact own o List.mem_cons_self
    · exact climb_preorderAll os k n (fun c member => own c (List.mem_cons_of_mem _ member))
        (fun c member => linked c (List.mem_cons_of_mem _ member)) e later
end

end

end Outline

namespace Links

open Outline (climb climb_succ climb_of_linked climb_of_not_linked)

/-- Links that lead to smaller numbers cannot be followed more often than a number says. -/
theorem Descends.climb_le {links : Links} (descends : Descends links) {steps n m : Nat}
    (up : climb (links[·]?) steps n = some m) : m + steps ≤ n := by
  induction steps generalizing m with
  | zero =>
    cases up
    exact Nat.le_refl n
  | succ steps ih =>
    rw [climb_succ] at up
    obtain ⟨k, up, linked⟩ := Option.bind_eq_some_iff.mp up
    have below := ih up
    have less := descends k m linked
    omega

theorem top_of_climb {links : Links} {m : Nat} (top : links[m]? = none) {fuel steps n : Nat} (enough : steps ≤ fuel)
    (up : climb (links[·]?) steps n = some m) : links.top fuel n = m := by
  induction fuel generalizing steps n with
  | zero =>
    obtain rfl := Nat.le_zero.mp enough
    exact Option.some.inj up
  | succ fuel ih =>
    cases steps with
    | zero =>
      cases up
      rw [Links.top, top]
    | succ steps =>
      cases linked : links[n]? with
      | none =>
        rw [climb_of_not_linked linked] at up
        contradiction
      | some k =>
        rw [climb_of_linked linked] at up
        simp only [Links.top, linked]
        exact ih (by omega) up

end Links

namespace Outline

/-! Numbering changes nothing but numbers. -/

mutual
def plain : Outline → Outline
  | mk l s cs => mk l (.at s.range) (plainAll cs)

def plainAll : List Outline → List Outline
  | [] => []
  | o :: os => plain o :: plainAll os
end

theorem plainAll_append (os ps : List Outline) : plainAll (os ++ ps) = plainAll os ++ plainAll ps := by
  induction os with
  | nil => rfl
  | cons o os ih => rw [List.cons_append, plainAll, plainAll, ih, List.cons_append]

end Outline

open Outline (plain plainAll)

theorem Ident.plain_numberedAll (ids : List Ident) (n : Nat) :
    plainAll ((Ident.numberedAll ids n).1.map Ident.outline) = plainAll (ids.map Ident.outline) := by
  induction ids generalizing n with
  | nil => rfl
  | cons id ids ih =>
    simp only [Ident.numberedAll, List.map_cons, plainAll, ih]
    rfl

theorem Ident.length_numberedAll (ids : List Ident) (n : Nat) : (Ident.numberedAll ids n).1.length = ids.length := by
  induction ids generalizing n with
  | nil => rfl
  | cons id ids ih => rw [Ident.numberedAll, List.length_cons, List.length_cons, ih]

theorem Node.length_numberedAll (as : List Node) (n : Nat) : (Node.numberedAll as n).1.length = as.length := by
  induction as generalizing n with
  | nil => rw [Node.numberedAll]
  | cons a as ih => rw [Node.numberedAll, List.length_cons, List.length_cons, ih]

theorem Branch.shape_numberedAll (bs : List Branch) (n : Nat) :
    (Branch.numberedAll bs n).1.countP Branch.isGuarded = bs.countP Branch.isGuarded ∧
      (Branch.numberedAll bs n).1.map (·.body.length) = bs.map (·.body.length) := by
  induction bs generalizing n with
  | nil =>
    rw [Branch.numberedAll]
    exact ⟨rfl, rfl⟩
  | cons b bs ih =>
    cases b <;>
      simp only [Branch.numberedAll, List.countP_cons, List.map_cons, (ih _).1, (ih _).2] <;>
      exact ⟨rfl, congrArg (· :: _) (Node.length_numberedAll _ _)⟩

mutual
theorem Node.plain_numbered : ∀ (a : Node) (n : Nat), plain (a.numbered n).1.outline = plain a.outline
  | .int .., n | .str .., n | .bool .., n | .ident _, n | .breakLoop _, n | .continueLoop _, n | .error .., n => by
    simp only [Node.numbered, Node.outline, Ident.outline, Ident.numbered, plain, Site.numbered]
  | .array s es, n => by
    simp only [Node.numbered, Node.outline, plain, Site.numbered, Node.plain_numberedAll es]
  | .dict s es, n => by
    simp only [Node.numbered, Node.outline, plain, Site.numbered, Entry.plain_numberedAll es]
  | .call s callee argSite as, n => by
    simp only [Node.numbered, Node.outline, Ident.outline, Ident.numbered, plain, plainAll, Site.numbered,
      Node.plain_numberedAll as]
  | .method s r callee argSite as, n => by
    simp only [Node.numbered, Node.outline, Ident.outline, Ident.numbered, plain, plainAll, Site.numbered,
      Node.plain_numbered r, Node.plain_numberedAll as]
  | .keyword s key v, n => by
    simp only [Node.numbered, Node.outline, Ident.outline, Ident.numbered, plain, plainAll, Site.numbered,
      Node.plain_numbered v]
  | .index s o i, n => by
    simp only [Node.numbered, Node.outline, plain, plainAll, Site.numbered, Node.plain_numbered o,
      Node.plain_numbered i]
  | .unary s op x, n => by
    simp only [Node.numbered, Node.outline, plain, plainAll, Site.numbered, Node.plain_numbered x]
  | .binary s op l r, n => by
    simp only [Node.numbered, Node.outline, plain, plainAll, Site.numbered, Node.plain_numbered l,
      Node.plain_numbered r]
  | .ternary s c y z, n => by
    simp only [Node.numbered, Node.outline, plain, plainAll, Site.numbered, Node.plain_numbered c,
      Node.plain_numbered y, Node.plain_numbered z]
  | .assign s op t v, n => by
    simp only [Node.numbered, Node.outline, plain, plainAll, Site.numbered, Node.plain_numbered t,
      Node.plain_numbered v]
  | .select s bs, n => by
    simp only [Node.numbered, Node.outline, plain, Site.numbered, Branch.plain_numberedAll bs,
      (Branch.shape_numberedAll bs _).1, (Branch.shape_numberedAll bs _).2]
  | .loop s ids subject body, n => by
    simp only [Node.numbered, Node.outline, plain, plainAll, Outline.plainAll_append, Site.numbered,
      Ident.plain_numberedAll, Ident.length_numberedAll, Node.plain_numbered subject, Node.plain_numberedAll body]

theorem Node.plain_numberedAll : ∀ (as : List Node) (n : Nat),
    plainAll (Node.outlines (Node.numberedAll as n).1) = plainAll (Node.outlines as)
  | [], n => by simp only [Node.numberedAll]
  | a :: as, n => by
    simp only [Node.numberedAll, Node.outlines, plainAll, Node.plain_numbered a, Node.plain_numberedAll as]

theorem Entry.plain_numberedAll : ∀ (es : List Entry) (n : Nat),
    plainAll (Entry.outlines (Entry.numberedAll es n).1) = plainAll (Entry.outlines es)
  | [], n => by simp only [Entry.numberedAll]
  | .mk s k v :: es, n => by
    simp only [Entry.numberedAll, Entry.outlines, plain, plainAll, Site.numbered, Node.plain_numbered k,
      Node.plain_numbered v, Entry.plain_numberedAll es]

theorem Branch.plain_numberedAll : ∀ (bs : List Branch) (n : Nat),
    plainAll (Branch.outlines (Branch.numberedAll bs n).1) = plainAll (Branch.outlines bs)
  | [], n => by simp only [Branch.numberedAll]
  | .guarded c b :: bs, n => by
    simp only [Branch.numberedAll, Branch.outlines, plainAll, Outline.plainAll_append, List.cons_append,
      Node.plain_numbered c, Node.plain_numberedAll b, Branch.plain_numberedAll bs]
  | .otherwise b :: bs, n => by
    simp only [Branch.numberedAll, Branch.outlines, Outline.plainAll_append, Node.plain_numberedAll b,
      Branch.plain_numberedAll bs]
end

/-! Files. -/

namespace SourceFile

theorem plain_numbered (f : SourceFile) (id n : Nat) : plain (f.numbered id n).1.outline = plain f.outline := by
  unfold numbered
  cases body : f.body with
  | none => simp only [outline, body, plain, Site.numbered]
  | some b => simp only [outline, body, plain, plainAll, Site.numbered, Node.plain_numberedAll]

/-- Whether every node is linked to the node that lists it as a child, and the links lead from every node to the file,
in as many steps as the listing says, and end there. -/
structure Linked (f : SourceFile) : Prop where
  parent : ∀ o c, f.outline.Has o → c ∈ o.children → f.parent? c.site.slot = some o.site.slot
  top : f.parent? f.site.slot = none
  file : ∀ e ∈ f.nodes, Outline.climb f.parent? e.1 e.2.2.slot = some f.site.slot

theorem linked_numbered (f : SourceFile) (id n : Nat) : (f.numbered id n).1.Linked := by
  have distinct := (f.counts_numbered id n).nodup
  have parent : ∀ o c, (f.numbered id n).1.outline.Has o → c ∈ o.children →
      (f.numbered id n).1.parent? c.site.slot = some o.site.slot :=
    fun o c has member => Outline.link_child distinct has member _
  refine ⟨parent, Outline.link_of_not_mem _ _ _ (Outline.slot_not_mem distinct), fun e member => ?_⟩
  obtain ⟨steps, depth, up⟩ := Outline.climb_preorder _ 0 parent e member
  obtain rfl : e.1 = steps := by omega
  exact up

theorem descends_numbered (f : SourceFile) (id n : Nat) : (f.numbered id n).1.links.Descends := by
  refine Outline.link_descends _ _ ?_ fun m k linked => ?_
  · rw [(f.counts_numbered id n).consecutive]
    exact List.pairwise_lt_range'
  · rw [Std.ExtTreeMap.getElem?_empty] at linked
    contradiction

theorem exists_numbered {fs : List SourceFile} {id n : Nat} {f : SourceFile} (member : f ∈ numberedAll fs id n) :
    ∃ (g : SourceFile) (id' n' : Nat), f = (g.numbered id' n').1 := by
  induction fs generalizing id n with
  | nil => cases member
  | cons g fs ih =>
    rcases List.mem_cons.mp member with rfl | later
    · exact ⟨g, id, n, rfl⟩
    · exact ih later

theorem Linked.climb {f : SourceFile} (linked : f.Linked) {s : Site} (has : f.HasSite s) :
    ∃ steps, Outline.climb f.parent? steps s.slot = some f.site.slot := by
  obtain ⟨o, has, rfl⟩ := has
  exact Outline.climb_has has linked.parent

theorem top_links {f : SourceFile} (linked : f.Linked) (descends : f.links.Descends) {s : Site}
    (has : f.HasSite s) : f.links.top s.slot s.slot = f.site.slot := by
  obtain ⟨steps, up⟩ := linked.climb has
  have enough := descends.climb_le up
  exact Links.top_of_climb linked.top (by omega) up

theorem top_links_of_not_mem {f : SourceFile} {n : Nat} (outside : n ∉ f.outline.slots) : f.links.top n n = n := by
  rw [Outline.slots_eq, List.mem_cons, not_or] at outside
  have top : f.links[n]? = none := Outline.link_of_not_mem f.outline ∅ n outside.2
  exact Links.top_of_climb top (Nat.zero_le n) rfl

end SourceFile

namespace SourceTree

/-- Whether a node stands in a file of a tree. The links lead from the node to this file, where they end, and to no
other one. -/
structure StandsIn (t : SourceTree) (s : Site) (f : SourceFile) : Prop where
  inside : f.HasSite s
  up : ∃ steps, Outline.climb f.parent? steps s.slot = some f.site.slot
  top : f.parent? f.site.slot = none
  enclosing : t.linked.enclosing? s.slot = some f
  only : ∀ g, t.Encloses g s.slot ↔ g = f

theorem StandsIn.pathOf {t : SourceTree} {s : Site} {f : SourceFile} (stands : t.StandsIn s f) :
    t.linked.pathOf s = f.path := by
  rw [LinkedFiles.pathOf, stands.enclosing]
  rfl

variable {fs : List SourceFile} {f : SourceFile}

theorem linked_of_mem (member : f ∈ (ofFiles fs).all) : f.Linked ∧ f.links.Descends := by
  obtain ⟨g, id, n, rfl⟩ := SourceFile.exists_numbered (mem_numberedAll member)
  exact ⟨g.linked_numbered id n, g.descends_numbered id n⟩

theorem enclosing_eq (member : f ∈ (ofFiles fs).all) {s : Site} (has : f.HasSite s) :
    (ofFiles fs).linked.enclosing? s.slot = some f := by
  have ends : ∀ g ∈ (ofFiles fs).all, g.links.top s.slot s.slot == g.site.slot → g = f := fun g known same => by
    obtain ⟨o, has, rfl⟩ := has
    -- from the number no link of another file leads on, so that they end where they began
    by_contra other
    have outside : o.site.slot ∉ g.outline.slots := fun inside => other (eq_of_slot known member inside has.slot_mem)
    rw [SourceFile.top_links_of_not_mem outside] at same
    rw [eq_of_beq same] at outside
    exact outside (Outline.Has.self g.outline).slot_mem
  have own := SourceFile.top_links (linked_of_mem member).1 (linked_of_mem member).2 has
  unfold LinkedFiles.enclosing? linked
  rw [List.find?_map, Option.map_map]
  cases found : (ofFiles fs).all.find? _ with
  | none => exact absurd (beq_iff_eq.mpr own) (List.find?_eq_none.mp found f member)
  | some g =>
    have same := List.find?_some found
    exact congrArg some (ends g (List.mem_of_find?_eq_some found) same)

theorem standsIn (member : f ∈ (ofFiles fs).all) {s : Site} (has : f.HasSite s) : (ofFiles fs).StandsIn s f where
  inside := has
  up := (linked_of_mem member).1.climb has
  top := (linked_of_mem member).1.top
  enclosing := enclosing_eq member has
  only _ := encloses_iff member has

end SourceTree

end MesonCheck
