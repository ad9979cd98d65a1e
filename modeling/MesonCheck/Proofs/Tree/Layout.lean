import MesonCheck.Proofs.Tree.Outline
import MesonCheck.Proofs.Tree.Ranges
import MesonCheck.Tree.Layout

/-! Synthetic places. Nodes of all kinds are placed by one rule on the hierarchy of a file. -/
namespace MesonCheck

def Label.width : Label → Nat
  | .ident name => name.utf8ByteSize
  | .str text | .formatStr text => text.utf8ByteSize + 2
  | .breakLoop => 5
  | .continueLoop => 8
  | _ => 1

namespace Outline

def range (o : Outline) : Range :=
  o.site.range

mutual
/-- Places a hierarchy from a line on, by one rule for all kinds of nodes. -/
def laid : Outline → Nat → Outline × Nat
  | mk l _ cs, line =>
    let (cs, line) := laidAll cs line
    match Range.hull? (cs.map range) with
    | some r => (mk l (.at r) cs, line)
    | none => (mk l (.leaf line l.width) cs, line + 1)

def laidAll : List Outline → Nat → List Outline × Nat
  | [], line => ([], line)
  | o :: os, line =>
    let (o, line) := laid o line
    let (os, line) := laidAll os line
    (o :: os, line)
end

theorem laidAll_append (os ps : List Outline) (line : Nat) :
    laidAll (os ++ ps) line =
      let first := laidAll os line
      let rest := laidAll ps first.2
      (first.1 ++ rest.1, rest.2) := by
  induction os generalizing line with
  | nil => rfl
  | cons o os ih => simp only [List.cons_append, laidAll, ih]

theorem laid_eq {l : Label} (narrow : l.width = 1) (s : Site) (cs : List Outline) (line : Nat) :
    (mk l s cs).laid line =
      let placed := laidAll cs line
      let around := Site.around (placed.1.map range) placed.2
      (mk l around.1 placed.1, around.2) := by
  simp only [laid, Site.around, narrow]
  cases Range.hull? ((laidAll cs line).1.map range) <;> rfl

end Outline

theorem Site.around_fresh (rs : List Range) (line : Nat) :
    (Site.around rs line).1 = .at (Site.around rs line).1.range := by
  unfold Site.around
  split <;> rfl

theorem Node.range_outline (n : Node) : n.outline.range = n.range := by
  rw [Outline.range, Node.site_outline, Node.range]

theorem Node.range_outlines (ns : List Node) : (Node.outlines ns).map Outline.range = ns.map Node.range := by
  induction ns with
  | nil => rfl
  | cons n ns ih => rw [Node.outlines, List.map_cons, List.map_cons, ih, n.range_outline]

theorem Entry.range_outlines (es : List Entry) : (Entry.outlines es).map Outline.range = es.map (·.site.range) := by
  induction es with
  | nil => rfl
  | cons e es ih =>
    obtain ⟨s, k, v⟩ := e
    rw [Entry.outlines, List.map_cons, List.map_cons, ih]
    rfl

theorem Branch.range_outlines (bs : List Branch) : (Branch.outlines bs).map Outline.range = Branch.ranges bs := by
  induction bs with
  | nil => rfl
  | cons b bs ih =>
    cases b <;>
      simp only [Branch.outlines, Branch.ranges, List.map_append, List.map_cons, ih, Node.range_outlines,
        Node.range_outline]

theorem Ident.range_outlines (ids : List Ident) :
    (ids.map Ident.outline).map Outline.range = ids.map (·.site.range) := by
  rw [List.map_map]
  rfl

open Outline (laid laidAll)

theorem Ident.laid_outline (id : Ident) (line : Nat) :
    id.outline.laid line = ((id.placed line).outline, line + 1) := rfl

theorem Ident.laid_outlines (ids : List Ident) (line : Nat) :
    laidAll (ids.map Ident.outline) line =
      ((Ident.placedAll ids line).1.map Ident.outline, (Ident.placedAll ids line).2) := by
  induction ids generalizing line with
  | nil => rfl
  | cons id ids ih => simp only [List.map_cons, laidAll, Ident.laid_outline, ih, Ident.placedAll]

theorem Ident.length_placedAll (ids : List Ident) (line : Nat) : (Ident.placedAll ids line).1.length = ids.length := by
  induction ids generalizing line with
  | nil => rfl
  | cons id ids ih => rw [Ident.placedAll, List.length_cons, List.length_cons, ih]

theorem Node.length_placedAll (ns : List Node) (line : Nat) : (Node.placedAll ns line).1.length = ns.length := by
  induction ns generalizing line with
  | nil => rw [Node.placedAll]
  | cons n ns ih => rw [Node.placedAll, List.length_cons, List.length_cons, ih]

theorem Branch.shape_placedAll (bs : List Branch) (line : Nat) :
    (Branch.placedAll bs line).1.countP Branch.isGuarded = bs.countP Branch.isGuarded ∧
      (Branch.placedAll bs line).1.map (·.body.length) = bs.map (·.body.length) := by
  induction bs generalizing line with
  | nil =>
    rw [Branch.placedAll]
    exact ⟨rfl, rfl⟩
  | cons b bs ih =>
    cases b <;>
      simp only [Branch.placedAll, List.countP_cons, List.map_cons, (ih _).1, (ih _).2] <;>
      exact ⟨rfl, congrArg (· :: _) (Node.length_placedAll _ _)⟩

mutual
theorem Node.laid_outline : ∀ (n : Node) (line : Nat),
    n.outline.laid line = ((n.placed line).1.outline, (n.placed line).2)
  | .int .., line | .bool .., line | .ident _, line | .breakLoop _, line | .continueLoop _, line | .error .., line => by
    simp only [Node.placed, Node.outline]
    rfl
  | .str s t isFormat, line => by
    simp only [Node.placed, Node.outline]
    cases isFormat <;> rfl
  | .array s es, line => by
    rw [Node.outline, Outline.laid_eq (l := .array) rfl]
    simp only [Node.laid_outlines es, Node.range_outlines, Node.placed, Node.outline]
  | .dict s es, line => by
    rw [Node.outline, Outline.laid_eq (l := .dict) rfl]
    simp only [Entry.laid_outlines es, Entry.range_outlines, Node.placed, Node.outline]
  | .call s callee argSite as, line => by
    rw [Node.outline, Outline.laid_eq (l := .call callee.name) rfl]
    simp only [laidAll, Ident.laid_outline, Outline.laid_eq (l := .args) rfl, Node.laid_outlines as,
      Node.range_outlines, Node.placed]
    rfl
  | .method s r callee argSite as, line => by
    rw [Node.outline, Outline.laid_eq (l := .method callee.name) rfl]
    simp only [laidAll, Node.laid_outline r, Ident.laid_outline, Outline.laid_eq (l := .args) rfl,
      Node.laid_outlines as, Node.range_outlines, Node.placed, List.map_cons, Node.range_outline]
    rfl
  | .keyword s key v, line => by
    rw [Node.outline, Outline.laid_eq (l := .keyword key.name) rfl]
    simp only [laidAll, Ident.laid_outline, Node.laid_outline v, Node.placed, List.map_cons, Node.range_outline]
    rfl
  | .index s o i, line => by
    rw [Node.outline, Outline.laid_eq (l := .index) rfl]
    simp only [laidAll, Node.laid_outline o, Node.laid_outline i, Node.placed, List.map_cons, Node.range_outline]
    rfl
  | .unary s op x, line => by
    rw [Node.outline, Outline.laid_eq (l := .unary op) rfl]
    simp only [laidAll, Node.laid_outline x, Node.placed, List.map_cons, Node.range_outline]
    rfl
  | .binary s op l r, line => by
    rw [Node.outline, Outline.laid_eq (l := .binary op) rfl]
    simp only [laidAll, Node.laid_outline l, Node.laid_outline r, Node.placed, List.map_cons, Node.range_outline]
    rfl
  | .ternary s c y z, line => by
    rw [Node.outline, Outline.laid_eq (l := .ternary) rfl]
    simp only [laidAll, Node.laid_outline c, Node.laid_outline y, Node.laid_outline z, Node.placed, List.map_cons,
      Node.range_outline]
    rfl
  | .assign s op t v, line => by
    rw [Node.outline, Outline.laid_eq (l := .assign op) rfl]
    simp only [laidAll, Node.laid_outline t, Node.laid_outline v, Node.placed, List.map_cons, Node.range_outline]
    rfl
  | .select s bs, line => by
    rw [Node.outline, Outline.laid_eq (l := .select ..) rfl]
    simp only [Branch.laid_outlines bs, Branch.range_outlines, Node.placed, Node.outline,
      (Branch.shape_placedAll bs _).1, (Branch.shape_placedAll bs _).2]
  | .loop s ids subject body, line => by
    rw [Node.outline, Outline.laid_eq (l := .loop ids.length) rfl]
    simp only [Outline.laidAll_append, laidAll, Ident.laid_outlines, Node.laid_outline subject,
      Node.laid_outlines body, List.map_append, List.map_cons, Ident.range_outlines, Node.range_outline,
      Node.range_outlines, Node.placed, Node.outline, Ident.length_placedAll]

theorem Node.laid_outlines : ∀ (ns : List Node) (line : Nat),
    laidAll (Node.outlines ns) line = (Node.outlines (Node.placedAll ns line).1, (Node.placedAll ns line).2)
  | [], line => by simp only [Node.placedAll, Node.outlines, laidAll]
  | n :: ns, line => by
    simp only [Node.placedAll, Node.outlines, laidAll, Node.laid_outline n, Node.laid_outlines ns]

theorem Entry.laid_outlines : ∀ (es : List Entry) (line : Nat),
    laidAll (Entry.outlines es) line = (Entry.outlines (Entry.placedAll es line).1, (Entry.placedAll es line).2)
  | [], line => by simp only [Entry.placedAll, Entry.outlines, laidAll]
  | .mk s k v :: es, line => by
    simp only [Entry.placedAll, Entry.outlines, laidAll, Outline.laid_eq (l := .entry) rfl, Node.laid_outline k,
      Node.laid_outline v, Entry.laid_outlines es, List.map_cons, Node.range_outline]
    rfl

theorem Branch.laid_outlines : ∀ (bs : List Branch) (line : Nat),
    laidAll (Branch.outlines bs) line = (Branch.outlines (Branch.placedAll bs line).1, (Branch.placedAll bs line).2)
  | [], line => by simp only [Branch.placedAll, Branch.outlines, laidAll]
  | .guarded c b :: bs, line => by
    simp only [Branch.placedAll, Branch.outlines, laidAll, Outline.laidAll_append, List.cons_append,
      Node.laid_outline c, Node.laid_outlines b, Branch.laid_outlines bs]
  | .otherwise b :: bs, line => by
    simp only [Branch.placedAll, Branch.outlines, Outline.laidAll_append, Node.laid_outlines b,
      Branch.laid_outlines bs]
end

/-! What the rule gives. -/

namespace Outline

mutual
def inspected : Outline → List Outline
  | mk l s cs => mk l s cs :: inspectedAll cs

def inspectedAll : List Outline → List Outline
  | [] => []
  | o :: os => inspected o ++ inspectedAll os
end

mutual
theorem sites_preorder : ∀ (o : Outline) (depth : Nat), (o.preorder depth).map (·.2.2) = o.inspected.map site
  | mk l s cs, depth => by
    rw [preorder, inspected, List.map_cons, List.map_cons, sites_preorderAll cs]
    rfl

theorem sites_preorderAll : ∀ (os : List Outline) (depth : Nat),
    (preorderAll depth os).map (·.2.2) = (inspectedAll os).map site
  | [], depth => by
    rw [preorderAll, inspectedAll]
    rfl
  | o :: os, depth => by
    rw [preorderAll, inspectedAll, List.map_append, List.map_append, sites_preorder o, sites_preorderAll os]
end

def leaves (o : Outline) : List Outline :=
  o.inspected.filter (·.children.isEmpty)

theorem inspectedAll_eq (os : List Outline) : inspectedAll os = os.flatMap inspected := by
  induction os with
  | nil => rfl
  | cons o os ih => rw [inspectedAll, List.flatMap_cons, ih]

theorem leaves_of_ne_nil (l : Label) (s : Site) {cs : List Outline} (nonempty : cs ≠ []) :
    (mk l s cs).leaves = cs.flatMap leaves := by
  have inner : ¬(mk l s cs).children.isEmpty = true := by simpa using nonempty
  rw [leaves, inspected, List.filter_cons, if_neg inner, inspectedAll_eq, List.filter_flatMap]
  rfl

theorem Has.leaves_sublist {o p : Outline} (has : o.Has p) : p.leaves.Sublist o.leaves := by
  induction has with
  | self o => exact .refl _
  | @deeper l s cs c o member _ ih =>
    rw [leaves_of_ne_nil l s (List.ne_nil_of_mem member), List.flatMap_def]
    exact ih.trans (List.sublist_flatten_of_mem (List.mem_map_of_mem member))

def width : Outline → Nat
  | mk l _ _ => l.width

/-- Leaves on consecutive lines from the first one on; the last argument is the next free line. -/
structure Spread (line : Nat) (os : List Outline) (next : Nat) : Prop where
  sites : os.map site = os.mapIdx fun i o => .leaf (line + i) o.width
  next : next = line + os.length

theorem Spread.append {line mid next : Nat} {os ps : List Outline} (first : Spread line os mid)
    (rest : Spread mid ps next) : Spread line (os ++ ps) next := by
  obtain ⟨sites, rfl⟩ := first
  obtain ⟨sites', rfl⟩ := rest
  constructor
  · rw [List.map_append, List.mapIdx_append, sites, sites']
    simp only [Nat.add_assoc, Nat.add_comm os.length]
  · rw [List.length_append, Nat.add_assoc]

theorem length_laidAll (os : List Outline) (line : Nat) : (laidAll os line).1.length = os.length := by
  induction os generalizing line with
  | nil => rfl
  | cons o os ih => rw [laidAll, List.length_cons, List.length_cons, ih]

theorem laid_of_ne_nil (l : Label) (s : Site) {cs : List Outline} (nonempty : cs ≠ []) (line : Nat) :
    (laidAll cs line).1 ≠ [] ∧ ∃ r, Range.hull? ((laidAll cs line).1.map range) = some r ∧
      (mk l s cs).laid line = (mk l (.at r) (laidAll cs line).1, (laidAll cs line).2) := by
  have some : (laidAll cs line).1 ≠ [] := by
    rw [← List.length_pos_iff, length_laidAll]
    exact List.length_pos_iff.mpr nonempty
  obtain ⟨r, hull⟩ := Range.exists_hull (mt List.map_eq_nil_iff.mp some)
  exact ⟨some, r, hull, by simp only [laid, hull]⟩

mutual
theorem spread_laid : ∀ (o : Outline) (line : Nat), Spread line (o.laid line).1.leaves (o.laid line).2
  | mk l s [], line => ⟨rfl, rfl⟩
  | mk l s (c :: cs), line => by
    obtain ⟨nonempty, r, _, laid⟩ := laid_of_ne_nil l s (List.cons_ne_nil c cs) line
    rw [laid, leaves_of_ne_nil l _ nonempty]
    exact spread_laidAll (c :: cs) line

theorem spread_laidAll : ∀ (os : List Outline) (line : Nat),
    Spread line ((laidAll os line).1.flatMap leaves) (laidAll os line).2
  | [], line => ⟨rfl, rfl⟩
  | o :: os, line => by
    rw [laidAll, List.flatMap_cons]
    exact (spread_laid o line).append (spread_laidAll os _)
end

mutual
theorem hull_laid : ∀ (o : Outline) (line : Nat) (p : Outline), (o.laid line).1.Has p →
    Range.hull? (p.leaves.map range) = some p.range
  | mk l s [], line, p, has => by
    cases has with
    | self => rfl
    | deeper member => cases member
  | mk l s (c :: cs), line, p, has => by
    obtain ⟨nonempty, r, hull, laid⟩ := laid_of_ne_nil l s (List.cons_ne_nil c cs) line
    have below := hull_laidAll (c :: cs) line
    rw [laid] at has
    cases has with
    | self =>
      rw [leaves_of_ne_nil l _ nonempty, List.map_flatMap]
      exact (Range.hull?_flatMap fun o member => below o member o (.self o)).trans hull
    | deeper member has => exact below _ member p has

theorem hull_laidAll : ∀ (os : List Outline) (line : Nat), ∀ o ∈ (laidAll os line).1, ∀ p, o.Has p →
    Range.hull? (p.leaves.map range) = some p.range
  | [], line, o, member, p, has => by cases member
  | c :: cs, line, o, member, p, has => by
    rw [laidAll] at member
    rcases List.mem_cons.mp member with rfl | later
    · exact hull_laid c line p has
    · exact hull_laidAll cs _ o later p has
end

mutual
def bare : Outline → Outline
  | mk l _ cs => mk l (.at .zero) (bareAll cs)

def bareAll : List Outline → List Outline
  | [] => []
  | o :: os => bare o :: bareAll os
end

mutual
theorem bare_laid : ∀ (o : Outline) (line : Nat), (o.laid line).1.bare = o.bare
  | mk l s cs, line => by
    simp only [laid]
    cases Range.hull? ((laidAll cs line).1.map range) <;> exact congrArg (mk l (.at .zero)) (bareAll_laidAll cs line)

theorem bareAll_laidAll : ∀ (os : List Outline) (line : Nat), bareAll (laidAll os line).1 = bareAll os
  | [], line => rfl
  | o :: os, line => by rw [laidAll, bareAll, bareAll, bare_laid o, bareAll_laidAll os]
end

/-! Order. -/

namespace Spread

variable {line next : Nat} {os : List Outline}

theorem pairwise_above (spread : Spread line os next) : (os.map range).Pairwise Range.Above := by
  have ranges : os.map range = (os.map site).map (·.range) := by
    rw [List.map_map]
    rfl
  rw [ranges, spread.sites, List.pairwise_map, List.pairwise_iff_getElem]
  intro i j hi hj less
  rw [List.getElem_mapIdx, List.getElem_mapIdx]
  exact Int.ofNat_lt.mpr (Nat.add_lt_add_left less line)

theorem start_le_stop (spread : Spread line os next) : ∀ r ∈ os.map range, r.start ≤ r.stop := by
  intro r member
  obtain ⟨o, inside, rfl⟩ := List.mem_map.mp member
  have known : o.site ∈ os.mapIdx fun i o => Site.leaf (line + i) o.width := by
    rw [← spread.sites]
    exact List.mem_map_of_mem inside
  obtain ⟨i, hi, same⟩ := List.mem_mapIdx.mp known
  rw [range, ← same]
  exact .inr ⟨rfl, Int.natCast_nonneg _⟩

end Spread

/-- The children of a node stand in order, one above the other, inside the range of the node. -/
structure Nested (o : Outline) : Prop where
  ordered : (o.children.map range).Pairwise Range.Above
  inside : ∀ c ∈ o.children, c.range.Within o.range

/-- Nodes that reach from their first leaf to their last are nested if their leaves are in order. -/
theorem nested_of_hulls {line next : Nat} {o : Outline} (spread : Spread line o.leaves next)
    (hulls : ∀ p, o.Has p → Range.hull? (p.leaves.map range) = some p.range) {p : Outline} (has : o.Has p) :
    p.Nested := by
  have among := has.leaves_sublist.map range
  have sorted := spread.pairwise_above.sublist among
  have proper : ∀ r ∈ p.leaves.map range, r.start ≤ r.stop := fun r member =>
    spread.start_le_stop r (among.subset member)
  have below : ∀ c ∈ p.children, Range.hull? (c.leaves.map range) = some c.range := fun c member =>
    hulls c (has.child member)
  have whole := hulls p has
  obtain ⟨l, s, cs⟩ := p
  rw [children_mk] at below
  by_cases leaf : cs = []
  · subst leaf
    exact ⟨.nil, by simp⟩
  · rw [leaves_of_ne_nil l s leaf, List.map_flatMap] at sorted proper whole
    have apart := (List.pairwise_flatMap.mp sorted).2
    constructor
    · rw [children_mk, List.pairwise_map]
      refine apart.imp_of_mem fun here there above => ?_
      exact Range.hull_above_hull above (below _ here) (below _ there)
    · intro c member
      have subset : c.leaves.map range ⊆ cs.flatMap fun c => c.leaves.map range :=
        fun r inside => List.mem_flatMap.mpr ⟨c, member, inside⟩
      exact Range.hull_within_hull sorted proper whole subset (below c member)

end Outline

/-! Files. -/

namespace SourceFile

def unplaced (path : String) (statements : List Node) : SourceFile :=
  ⟨0, .at .zero, path, some ⟨.at .zero, statements⟩⟩

theorem laid_outline (path : String) (statements : List Node) (line : Nat) :
    (unplaced path statements).outline.laid line =
      ((laidOut path statements line).1.outline, (laidOut path statements line).2) := by
  -- the one child of a file is its body, so both stand at the same place
  have same (s : Site) (ns : List Node) (next : Nat) (fresh : s = .at s.range) :
      Site.around ([Outline.mk .body s (Node.outlines ns)].map Outline.range) next = (s, next) :=
    congrArg (·, next) fresh.symm
  rw [unplaced, outline, Outline.laid_eq (l := .file path) rfl]
  simp only [laidAll, Outline.laid_eq (l := .body) rfl, Node.laid_outlines, Node.range_outlines, laidOut]
  rw [same _ _ _ (Site.around_fresh ..)]
  rfl

theorem spread_laidOutAll (sources : List (String × List Node)) (line : Nat) :
    Outline.Spread line ((laidOutAll sources line).1.flatMap (·.outline.leaves)) (laidOutAll sources line).2 := by
  induction sources generalizing line with
  | nil => exact ⟨rfl, rfl⟩
  | cons source rest ih =>
    obtain ⟨path, statements⟩ := source
    have first := Outline.spread_laid (unplaced path statements).outline line
    rw [laid_outline] at first
    exact first.append (ih _)

theorem exists_laid {sources : List (String × List Node)} {line : Nat} {f : SourceFile}
    (member : f ∈ (laidOutAll sources line).1) : ∃ o start, f.outline = (Outline.laid o start).1 := by
  induction sources generalizing line with
  | nil => cases member
  | cons source rest ih =>
    obtain ⟨path, statements⟩ := source
    rcases List.mem_cons.mp member with rfl | later
    · exact ⟨_, line, congrArg Prod.fst (laid_outline path statements line).symm⟩
    · exact ih later

theorem bare_laidOutAll (sources : List (String × List Node)) (line : Nat) :
    (laidOutAll sources line).1.map (·.outline.bare) = sources.map fun s => (unplaced s.1 s.2).outline.bare := by
  induction sources generalizing line with
  | nil => rfl
  | cons source rest ih =>
    obtain ⟨path, statements⟩ := source
    have first := Outline.bare_laid (unplaced path statements).outline line
    rw [laid_outline] at first
    rw [laidOutAll, List.map_cons, List.map_cons, ih, first]

/-- Files that are laid out one after the other keep their nodes and get places for them. The leaves of all files, in
the order in which they are written, stand on consecutive lines, each from the first column on over its own width. Every
node reaches from the start of its first leaf to the end of its last one. So the children of a node stand one above the
other, no position belongs to two of them, and all of them lie inside the node. -/
theorem laidOutAll_nested (sources : List (String × List Node)) (line : Nat) :
    let placed := laidOutAll sources line
    let leaves := placed.1.flatMap (·.outline.leaves)
    placed.1.map (·.outline.bare) = sources.map (fun s => (unplaced s.1 s.2).outline.bare) ∧
    leaves.map Outline.site = leaves.mapIdx (fun i o => .leaf (line + i) o.width) ∧ placed.2 = line + leaves.length ∧
    ∀ f ∈ placed.1, f.nodes.map (·.2.2) = f.outline.inspected.map Outline.site ∧ ∀ o, f.outline.Has o →
      (∃ first last, o.leaves.head? = some first ∧ o.leaves.getLast? = some last ∧
        o.range = ⟨first.range.start, last.range.stop⟩) ∧
      (o.children.map Outline.range).Pairwise
        (fun a b => a.stop.line < b.start.line ∧ ∀ p, ¬(a.Covers p ∧ b.Covers p)) ∧
      ∀ c ∈ o.children, o.range.start ≤ c.range.start ∧ c.range.stop ≤ o.range.stop := by
  obtain ⟨sites, next⟩ := spread_laidOutAll sources line
  refine ⟨bare_laidOutAll sources line, sites, next, fun f member => ⟨Outline.sites_preorder _ 0, fun o has => ?_⟩⟩
  obtain ⟨top, start, placed⟩ := exists_laid member
  have hulls := Outline.hull_laid top start
  have spread := Outline.spread_laid top start
  rw [← placed] at hulls spread
  have nested := Outline.nested_of_hulls spread hulls has
  refine ⟨?_, nested.ordered.imp fun above => ⟨above, above.apart⟩, nested.inside⟩
  obtain ⟨a, b, head, last, same⟩ := Range.hull?_eq_some_iff.mp (hulls o has)
  rw [List.head?_map, Option.map_eq_some_iff] at head
  rw [List.getLast?_map, Option.map_eq_some_iff] at last
  obtain ⟨first, head, rfl⟩ := head
  obtain ⟨final, last, rfl⟩ := last
  exact ⟨first, final, head, last, same.symm⟩

def sampleSources : List (String × List Node) :=
  [("meson.build", [.assign (.at .zero) .assign (.ident ⟨.at .zero, "x"⟩) (.int (.at .zero) 1),
      .call (.at .zero) ⟨.at .zero, "files"⟩ (.at .zero) []]),
    ("sub/meson.build", [.loop (.at .zero) [⟨.at .zero, "i"⟩] (.array (.at .zero) []) [.breakLoop (.at .zero)]])]

/-- The second file starts on the line after the first one's last. Its loop spans three lines. -/
theorem laidOutAll_nested_sample :
    let placed := laidOutAll sampleSources 0
    placed.2 = 7 ∧ ∃ f ∈ placed.1, ∃ o, f.outline.Has o ∧ o.range = ⟨⟨4, 0⟩, ⟨6, 5⟩⟩ ∧
      o.children.map Outline.range = [⟨⟨4, 0⟩, ⟨4, 1⟩⟩, ⟨⟨5, 0⟩, ⟨5, 1⟩⟩, ⟨⟨6, 0⟩, ⟨6, 5⟩⟩] ∧
      ∀ c ∈ o.children, o.range.start ≤ c.range.start ∧ c.range.stop ≤ o.range.stop := by
  intro placed
  obtain ⟨_, _, next, files⟩ := laidOutAll_nested sampleSources 0
  have second : placed.1[1] ∈ placed.1 := List.getElem_mem _
  have has := (Outline.Has.self placed.1[1].outline).child (.head _) |>.child (.head _)
  exact ⟨next, _, second, _, has, rfl, rfl, ((files _ second).2 _ has).2.2⟩

end SourceFile

end MesonCheck
