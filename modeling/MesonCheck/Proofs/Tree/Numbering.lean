import Mathlib.Data.List.Nodup
import Mathlib.Data.List.Pairwise
import MesonCheck.Proofs.Text.Sorted
import MesonCheck.Proofs.Tree.Outline
import MesonCheck.Tree.Source

/-! The numbers of nodes. The nodes of all files of a tree are counted in the order in which they are written, so that
no two of them have the same number. The links from nodes to what they are part of, followed from the number of a node,
lead to the file of the node and to no other. -/
namespace MesonCheck

namespace Outline

mutual
def slots : Outline → List Nat
  | mk _ s cs => s.slot :: slotsAll cs

def slotsAll : List Outline → List Nat
  | [] => []
  | o :: os => slots o ++ slotsAll os
end

theorem slotsAll_append (os ps : List Outline) : slotsAll (os ++ ps) = slotsAll os ++ slotsAll ps := by
  induction os with
  | nil => rfl
  | cons o os ih => rw [List.cons_append, slotsAll, slotsAll, ih, List.append_assoc]

theorem mem_slotsAll {o : Outline} {os : List Outline} {n : Nat} (member : o ∈ os) (inside : n ∈ o.slots) :
    n ∈ slotsAll os := by
  induction os with
  | nil => contradiction
  | cons p os ih =>
    rw [slotsAll]
    rcases List.mem_cons.mp member with rfl | later
    · exact List.mem_append_left _ inside
    · exact List.mem_append_right _ (ih later)

theorem Has.slot_mem {o c : Outline} (has : o.Has c) : c.site.slot ∈ o.slots := by
  induction has with
  | self o =>
    cases o
    exact List.mem_cons_self
  | deeper member _ ih =>
    rw [slots]
    exact List.mem_cons_of_mem _ (mem_slotsAll member ih)

end Outline

/-- Consecutive numbers from the first one on; the last argument is the one behind them. -/
structure Counts (n : Nat) (slots : List Nat) (n' : Nat) : Prop where
  consecutive : slots = List.range' n slots.length
  next : n' = n + slots.length

namespace Counts

theorem nil (n : Nat) : Counts n [] n :=
  ⟨rfl, rfl⟩

theorem cons {n n' : Nat} {slots : List Nat} (rest : Counts (n + 1) slots n') : Counts n (n :: slots) n' := by
  obtain ⟨consecutive, next⟩ := rest
  constructor
  · rw [List.length_cons, List.range'_succ, ← consecutive]
  · simp only [List.length_cons]
    omega

theorem single (n : Nat) : Counts n [n] (n + 1) :=
  (nil (n + 1)).cons

theorem append {n m n' : Nat} {slots slots' : List Nat} (first : Counts n slots m) (rest : Counts m slots' n') :
    Counts n (slots ++ slots') n' := by
  obtain ⟨consecutive, next⟩ := first
  obtain ⟨consecutive', next'⟩ := rest
  subst next
  constructor
  · rw [List.length_append, ← List.range'_append_1, ← consecutive, ← consecutive']
  · simp only [List.length_append]
    omega

theorem nodup {n n' : Nat} {slots : List Nat} (counts : Counts n slots n') : slots.Nodup := by
  rw [counts.consecutive]
  exact List.nodup_range'

end Counts

open Outline (slots slotsAll)

theorem Ident.counts_numberedAll (ids : List Ident) (n : Nat) :
    Counts n (slotsAll ((Ident.numberedAll ids n).1.map Ident.outline)) (Ident.numberedAll ids n).2 := by
  induction ids generalizing n with
  | nil => exact .nil n
  | cons id ids ih => exact (Counts.single n).append (ih (n + 1))

mutual
theorem Node.counts_numbered : ∀ (a : Node) (n : Nat), Counts n (slots (a.numbered n).1.outline) (a.numbered n).2
  | .int .., n | .str .., n | .bool .., n | .ident _, n | .breakLoop _, n | .continueLoop _, n | .error .., n => by
    simp only [Node.numbered, Node.outline, Ident.outline, slots, slotsAll]
    exact .single n
  | .array s es, n => by
    simp only [Node.numbered, Node.outline, slots]
    exact .cons (Node.counts_numberedAll es (n + 1))
  | .dict s es, n => by
    simp only [Node.numbered, Node.outline, slots]
    exact .cons (Entry.counts_numberedAll es (n + 1))
  | .call s callee argSite as, n => by
    simp only [Node.numbered, Node.outline, Ident.outline, slots, slotsAll, List.append_nil]
    exact .cons (.cons (.cons (Node.counts_numberedAll as (n + 3))))
  | .method s r callee argSite as, n => by
    simp only [Node.numbered, Node.outline, Ident.outline, slots, slotsAll, List.append_nil]
    exact .cons ((Node.counts_numbered r (n + 1)).append (.cons (.cons (Node.counts_numberedAll as _))))
  | .keyword s key v, n => by
    simp only [Node.numbered, Node.outline, Ident.outline, slots, slotsAll, List.append_nil]
    exact .cons (.cons (Node.counts_numbered v (n + 2)))
  | .index s o i, n => by
    simp only [Node.numbered, Node.outline, slots, slotsAll, List.append_nil]
    exact .cons ((Node.counts_numbered o (n + 1)).append (Node.counts_numbered i _))
  | .unary s op x, n => by
    simp only [Node.numbered, Node.outline, slots, slotsAll, List.append_nil]
    exact .cons (Node.counts_numbered x (n + 1))
  | .binary s op l r, n => by
    simp only [Node.numbered, Node.outline, slots, slotsAll, List.append_nil]
    exact .cons ((Node.counts_numbered l (n + 1)).append (Node.counts_numbered r _))
  | .ternary s c y z, n => by
    simp only [Node.numbered, Node.outline, slots, slotsAll, List.append_nil]
    exact .cons ((Node.counts_numbered c (n + 1)).append ((Node.counts_numbered y _).append (Node.counts_numbered z _)))
  | .assign s op t v, n => by
    simp only [Node.numbered, Node.outline, slots, slotsAll, List.append_nil]
    exact .cons ((Node.counts_numbered t (n + 1)).append (Node.counts_numbered v _))
  | .select s bs, n => by
    simp only [Node.numbered, Node.outline, slots]
    exact .cons (Branch.counts_numberedAll bs (n + 1))
  | .loop s ids subject body, n => by
    simp only [Node.numbered, Node.outline, slots, slotsAll, Outline.slotsAll_append]
    exact .cons ((Ident.counts_numberedAll ids (n + 1)).append
      ((Node.counts_numbered subject _).append (Node.counts_numberedAll body _)))

theorem Node.counts_numberedAll : ∀ (as : List Node) (n : Nat),
    Counts n (slotsAll (Node.outlines (Node.numberedAll as n).1)) (Node.numberedAll as n).2
  | [], n => by
    simp only [Node.numberedAll, Node.outlines, slotsAll]
    exact .nil n
  | a :: as, n => by
    simp only [Node.numberedAll, Node.outlines, slotsAll]
    exact (Node.counts_numbered a n).append (Node.counts_numberedAll as _)

theorem Entry.counts_numberedAll : ∀ (es : List Entry) (n : Nat),
    Counts n (slotsAll (Entry.outlines (Entry.numberedAll es n).1)) (Entry.numberedAll es n).2
  | [], n => by
    simp only [Entry.numberedAll, Entry.outlines, slotsAll]
    exact .nil n
  | .mk s k v :: es, n => by
    simp only [Entry.numberedAll, Entry.outlines, slots, slotsAll, List.append_nil, List.cons_append, List.append_assoc]
    exact .cons ((Node.counts_numbered k (n + 1)).append
      ((Node.counts_numbered v _).append (Entry.counts_numberedAll es _)))

theorem Branch.counts_numberedAll : ∀ (bs : List Branch) (n : Nat),
    Counts n (slotsAll (Branch.outlines (Branch.numberedAll bs n).1)) (Branch.numberedAll bs n).2
  | [], n => by
    simp only [Branch.numberedAll, Branch.outlines, slotsAll]
    exact .nil n
  | .guarded c b :: bs, n => by
    simp only [Branch.numberedAll, Branch.outlines, slotsAll, Outline.slotsAll_append, List.cons_append]
    exact (Node.counts_numbered c n).append ((Node.counts_numberedAll b _).append (Branch.counts_numberedAll bs _))
  | .otherwise b :: bs, n => by
    simp only [Branch.numberedAll, Branch.outlines, Outline.slotsAll_append]
    exact (Node.counts_numberedAll b n).append (Branch.counts_numberedAll bs _)
end

/-! Files. -/

namespace SourceFile

theorem counts_numbered (f : SourceFile) (id n : Nat) :
    Counts n (slots (f.numbered id n).1.outline) (f.numbered id n).2 := by
  unfold numbered
  cases body : f.body with
  | none =>
    simp only [outline, slots, slotsAll]
    exact .single n
  | some b =>
    simp only [outline, slots, slotsAll, List.append_nil]
    exact .cons (.cons (Node.counts_numberedAll b.statements (n + 2)))

theorem counts_numberedAll (fs : List SourceFile) (id n : Nat) :
    ∃ n', Counts n ((numberedAll fs id n).flatMap (slots ·.outline)) n' := by
  induction fs generalizing id n with
  | nil => exact ⟨n, .nil n⟩
  | cons f fs ih =>
    obtain ⟨n', rest⟩ := ih (id + 1) (f.numbered id n).2
    exact ⟨n', (f.counts_numbered id n).append rest⟩

theorem id_numbered (f : SourceFile) (id n : Nat) : (f.numbered id n).1.id = id := by
  unfold numbered
  split <;> rfl

theorem map_id_numberedAll (fs : List SourceFile) (id n : Nat) :
    (numberedAll fs id n).map (·.id) = List.range' id fs.length := by
  induction fs generalizing id n with
  | nil => rfl
  | cons f fs ih =>
    rw [numberedAll, List.map_cons, ih, id_numbered]
    rfl

end SourceFile

theorem Text.mem_of_mem_lastOn {α : Type} {key : α → String} {as : List α} {a : α} (member : a ∈ Text.lastOn key as) :
    a ∈ as := by
  fun_induction Text.lastOn key as with
  | case1 => exact member
  | case2 b bs _ ih => exact List.mem_cons_of_mem b (ih member)
  | case3 b bs _ ih =>
    rcases List.mem_cons.mp member with rfl | later
    · exact List.mem_cons_self
    · exact List.mem_cons_of_mem b (ih later)

namespace SourceTree

theorem length_all (t : SourceTree) : t.all.length ≤ t.files.length + 1 := by
  cases root : t.root <;> simp [all, root, sources]

theorem mem_numberedAll {fs : List SourceFile} {f : SourceFile} (member : f ∈ (ofFiles fs).all) :
    f ∈ SourceFile.numberedAll fs 0 0 := by
  rcases List.mem_append.mp member with root | registered
  · exact List.mem_of_mem_head? (Option.mem_toList.mp root)
  · obtain ⟨⟨path, g⟩, sorted, rfl⟩ := List.mem_map.mp registered
    obtain ⟨h, given, same⟩ := List.mem_map.mp (Text.mem_of_mem_lastOn (Text.mem_sortedOn.mp sorted))
    cases same
    exact given

/-- Whether the files of a tree are told apart by their identities. -/
def Identified (t : SourceTree) : Prop :=
  ∀ f ∈ t.all, ∀ g ∈ t.all, f.id = g.id → f = g

theorem identified_ofFiles (fs : List SourceFile) : (ofFiles fs).Identified := by
  have distinct : ((SourceFile.numberedAll fs 0 0).map (·.id)).Nodup := by
    rw [SourceFile.map_id_numberedAll]
    exact List.nodup_range'
  intro f hf g hg same
  exact List.inj_on_of_nodup_map distinct (mem_numberedAll hf) (mem_numberedAll hg) same

theorem eq_of_slot {fs : List SourceFile} {f g : SourceFile} (first : f ∈ (ofFiles fs).all)
    (second : g ∈ (ofFiles fs).all) {n : Nat} (inside : n ∈ f.outline.slots) (inside' : n ∈ g.outline.slots) :
    f = g := by
  obtain ⟨_, counts⟩ := SourceFile.counts_numberedAll fs 0 0
  have apart := (List.nodup_flatMap.mp counts.nodup).2
  have symmetric : Std.Symm (Function.onFun List.Disjoint fun f : SourceFile => f.outline.slots) :=
    ⟨fun _ _ disjoint _ inside inside' => disjoint inside' inside⟩
  by_contra different
  exact apart.forall (mem_numberedAll first) (mem_numberedAll second) different inside inside'

/-- Whether the links from nodes to what they are part of lead from a number to a file. -/
inductive Encloses (t : SourceTree) (f : SourceFile) : Nat → Prop where
  | file : f ∈ t.all → Encloses t f f.site.slot
  | child {g : SourceFile} {o c : Outline} : g ∈ t.all → g.outline.Has o → c ∈ o.children →
      Encloses t f o.site.slot → Encloses t f c.site.slot

theorem encloses_of_has {t : SourceTree} {f : SourceFile} (member : f ∈ t.all) {o : Outline} (has : f.outline.Has o) :
    t.Encloses f o.site.slot := by
  have below : ∀ {top o : Outline}, top.Has o → f.outline.Has top → t.Encloses f top.site.slot →
      t.Encloses f o.site.slot := by
    intro top o has
    induction has with
    | self o => exact fun _ enclosed => enclosed
    | deeper inside _ ih => exact fun top enclosed => ih (top.child inside) (.child member top inside enclosed)
  exact below has (.self _) (.file member)

theorem slot_of_encloses {fs : List SourceFile} {f : SourceFile} {n : Nat} (encloses : (ofFiles fs).Encloses f n) :
    f ∈ (ofFiles fs).all ∧ n ∈ f.outline.slots := by
  induction encloses with
  | file member => exact ⟨member, List.mem_cons_self⟩
  | child member has inside _ ih =>
    obtain ⟨known, slot⟩ := ih
    obtain rfl := eq_of_slot known member slot has.slot_mem
    exact ⟨known, (has.child inside).slot_mem⟩

/-- In a tree that is made of files the links lead from a node to its file and to no other. -/
theorem encloses_iff {fs : List SourceFile} {f g : SourceFile} (member : f ∈ (ofFiles fs).all) {s : Site}
    (has : f.HasSite s) : (ofFiles fs).Encloses g s.slot ↔ g = f := by
  obtain ⟨o, has, rfl⟩ := has
  constructor
  · intro encloses
    obtain ⟨known, slot⟩ := slot_of_encloses encloses
    exact eq_of_slot known member slot has.slot_mem
  · rintro rfl
    exact encloses_of_has member has

end SourceTree

end MesonCheck
