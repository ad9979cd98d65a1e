import Mathlib.Algebra.GroupWithZero.Nat
import MesonCheck.Proofs.Tree.Dump
import MesonCheck.Proofs.Tree.Parents

/-! Files that were read from dumps. A dump is accepted exactly if every node that is reached through the fields which
the kinds of nodes use has what its kind needs. In the file that is made of it every node has all its children, every
condition of a selection guards one of its branches, and every node is linked to the node that lists it as a child, and
so to the file. -/
namespace MesonCheck

/-! Selections. -/

namespace Branch

def conditions (bs : List Branch) : List Node :=
  bs.filterMap cond?

def blocks (bs : List Branch) : List (List Node) :=
  bs.map body

/-- Whether there are as many conditions as blocks, or one fewer, and every condition guards the block in its place. -/
structure Paired (bs : List Branch) : Prop where
  counts : (conditions bs).length = (blocks bs).length ∨ (conditions bs).length + 1 = (blocks bs).length
  guards : ∀ (i : Nat) c, (conditions bs)[i]? = some c →
    ∃ body, (blocks bs)[i]? = some body ∧ bs[i]? = some (guarded c body)

theorem Paired.nil : Paired [] :=
  ⟨.inl rfl, nofun⟩

theorem Paired.otherwise (body : List Node) : Paired [.otherwise body] :=
  ⟨.inr rfl, nofun⟩

theorem Paired.guarded {bs : List Branch} (paired : Paired bs) (c : Node) (body : List Node) :
    Paired (.guarded c body :: bs) := by
  obtain ⟨counts, guards⟩ := paired
  constructor
  · simpa [conditions, blocks, cond?] using counts
  · intro i d found
    cases i with
    | zero =>
      cases found
      exact ⟨body, rfl, rfl⟩
    | succ i => exact guards i d found

end Branch

theorem paired_of_gives {bs : List BranchDump} {bs' : List Branch} (conds : ∀ b ∈ bs.dropLast, b.cond ≠ .null)
    (all : List.Forall₂ BranchDump.Gives bs bs') : Branch.Paired bs' := by
  induction all with
  | nil => exact .nil
  | @cons b b' bs bs' first rest ih =>
    cases first with
    | @guarded c body c' body' cond all =>
      refine (ih fun b member => conds b ?_).guarded c' body'
      cases bs with
      | nil => cases member
      | cons => exact List.mem_cons_of_mem _ member
    | @otherwise body body' all =>
      -- nothing can follow, for a branch without a condition would not be the last one
      cases rest with
      | nil => exact .otherwise body'
      | cons => exact (conds _ List.mem_cons_self rfl).elim

def NodeDump.branches : NodeDump → List BranchDump
  | null => []
  | node _ _ _ _ _ _ _ _ _ _ _ _ _ branches => branches

theorem NodeDump.Gives.select {d : NodeDump} {s : Site} {bs : List Branch} (gives : d.Gives (.select s bs)) :
    List.Forall₂ BranchDump.Gives d.branches bs ∧ Branch.Paired bs := by
  cases d with
  | null => cases gives
  | node h object expr operand left right cond yes no args elems body entries branches =>
    unfold Gives at gives
    rw [toNode] at gives
    cases kind : NodeKind.ofText? h.kind with
    | none =>
      simp only [kind] at gives
      cases gives
    | some k =>
      simp only [kind] at gives
      cases k <;> simp only [within_eq_ok_iff, map_eq_ok_iff, bind_eq_ok_iff, pure_eq_ok_iff, toBranches_eq_ok_iff,
        reduceCtorEq, and_false, exists_false, Node.select.injEq] at gives
      case select =>
        obtain ⟨_, ⟨conds, all⟩, _, rfl⟩ := gives
        exact ⟨all, paired_of_gives conds all⟩

/-! Nodes with all their children. -/

def Outline.label : Outline → Label
  | mk l _ _ => l

def Label.Fits : Label → List Label → Prop
  | file _, ls => ls = [body]
  | body, _ | array, _ | args, _ => True
  | dict, ls => ∀ l ∈ ls, l = entry
  | call name, ls => ls = [ident name, args]
  | method name, ls => ∃ receiver, ls = [receiver, ident name, args]
  | keyword name, ls => ∃ value, ls = [ident name, value]
  | unary _, ls => ls.length = 1
  | entry, ls | index, ls | binary _, ls | assign _, ls => ls.length = 2
  | ternary, ls => ls.length = 3
  | select conditions blocks, ls =>
    ls.length = conditions + blocks.sum ∧ (conditions = blocks.length ∨ conditions + 1 = blocks.length)
  | loop ids, ls => ids < ls.length ∧ ∀ l ∈ ls.take ids, ∃ name, l = ident name
  | _, ls => ls = []

structure Outline.Complete (o : Outline) : Prop where
  fits : o.label.Fits (o.children.map Outline.label)
  parts : ∀ c ∈ o.children, ∀ path, c.label ≠ .file path

def Outline.AllComplete (o : Outline) : Prop :=
  (∀ path, o.label ≠ .file path) ∧ ∀ p, o.Has p → p.Complete

theorem Outline.complete_mk {l : Label} {s : Site} {cs : List Outline} (fits : l.Fits (cs.map Outline.label))
    (below : ∀ c ∈ cs, c.AllComplete) : ∀ p, (mk l s cs).Has p → p.Complete := by
  intro p has
  cases has with
  | self => exact ⟨fits, fun c member => (below c member).1⟩
  | deeper inside has => exact (below _ inside).2 p has

theorem Outline.AllComplete.mk {l : Label} {s : Site} {cs : List Outline} (inner : ∀ path, l ≠ .file path)
    (fits : l.Fits (cs.map Outline.label)) (below : ∀ c ∈ cs, c.AllComplete) : (Outline.mk l s cs).AllComplete :=
  ⟨inner, complete_mk fits below⟩

theorem Ident.allComplete (id : Ident) : id.outline.AllComplete :=
  .mk nofun rfl nofun

def Node.AllPaired (n : Node) : Prop :=
  ∀ s bs, n.Holds (.select s bs) → Branch.Paired bs

theorem Node.AllPaired.part {n m : Node} (paired : n.AllPaired) (member : m ∈ n.parts) : m.AllPaired :=
  fun s bs holds => paired s bs (.head member holds)

theorem Node.length_outlines (ns : List Node) : (Node.outlines ns).length = ns.length := by
  induction ns with
  | nil => rw [Node.outlines]; rfl
  | cons n ns ih => rw [Node.outlines, List.length_cons, List.length_cons, ih]

theorem Entry.label_of_mem_outlines {es : List Entry} {o : Outline} (member : o ∈ Entry.outlines es) :
    o.label = .entry := by
  induction es with
  | nil =>
    rw [Entry.outlines] at member
    cases member
  | cons e es ih =>
    cases e
    rw [Entry.outlines] at member
    rcases List.mem_cons.mp member with rfl | later
    · rfl
    · exact ih later

theorem Branch.length_outlines (bs : List Branch) :
    (Branch.outlines bs).length = bs.countP Branch.isGuarded + (bs.map (·.body.length)).sum := by
  induction bs with
  | nil =>
    rw [Branch.outlines]
    rfl
  | cons b bs ih =>
    cases b with
    | guarded c body =>
      have guarded : (Branch.guarded c body).isGuarded := rfl
      have length : (Branch.guarded c body).body.length = body.length := rfl
      simp only [Branch.outlines, List.length_append, List.length_cons, Node.length_outlines, ih, List.map_cons,
        List.sum_cons, List.countP_cons_of_pos guarded]
      omega
    | otherwise body =>
      have unguarded : ¬(Branch.otherwise body).isGuarded := nofun
      have length : (Branch.otherwise body).body.length = body.length := rfl
      simp only [Branch.outlines, List.length_append, Node.length_outlines, ih, List.map_cons, List.sum_cons,
        List.countP_cons_of_neg unguarded]
      omega

theorem Branch.Paired.counts_guarded {bs : List Branch} (paired : Branch.Paired bs) :
    bs.countP Branch.isGuarded = bs.length ∨ bs.countP Branch.isGuarded + 1 = bs.length := by
  have conditions : (Branch.conditions bs).length = bs.countP Branch.isGuarded := by
    rw [Branch.conditions, List.length_filterMap_eq_countP]
    congr 1
    funext b
    cases b <;> rfl
  simpa [conditions, Branch.blocks] using paired.counts

mutual
theorem Node.allComplete : ∀ n : Node, n.AllPaired → n.outline.AllComplete
  | .int .., _ | .bool .., _ | .breakLoop _, _ | .continueLoop _, _ | .error .., _ => by
    rw [Node.outline]
    exact .mk nofun rfl nofun
  | .str _ _ isFormat, _ => by
    rw [Node.outline]
    cases isFormat <;> exact .mk nofun rfl nofun
  | .ident id, _ => by
    rw [Node.outline]
    exact id.allComplete
  | .array s es, paired => by
    rw [Node.outline]
    exact .mk nofun trivial (Node.allComplete_outlines es fun n member => paired.part member)
  | .dict s es, paired => by
    rw [Node.outline]
    have part : ∀ e ∈ es, ∀ n ∈ [e.key, e.value], n.AllPaired := fun e member n inside =>
      paired.part (List.mem_flatMap.mpr ⟨e, member, inside⟩)
    refine .mk nofun ?_ (Entry.allComplete_outlines es part)
    rw [Label.Fits, List.forall_mem_map]
    exact fun o member => Entry.label_of_mem_outlines member
  | .call s callee argSite as, paired => by
    rw [Node.outline]
    have args := Node.allComplete_outlines as fun n member => paired.part member
    refine .mk nofun rfl ?_
    rw [List.forall_mem_cons, List.forall_mem_singleton]
    exact ⟨callee.allComplete, .mk nofun trivial args⟩
  | .method s r callee argSite as, paired => by
    rw [Node.outline]
    have receiver := Node.allComplete r (paired.part List.mem_cons_self)
    have args := Node.allComplete_outlines as fun n member => paired.part (List.mem_cons_of_mem _ member)
    refine .mk nofun ⟨_, rfl⟩ ?_
    rw [List.forall_mem_cons, List.forall_mem_cons, List.forall_mem_singleton]
    exact ⟨receiver, callee.allComplete, .mk nofun trivial args⟩
  | .keyword s key v, paired => by
    rw [Node.outline]
    refine .mk nofun ⟨_, rfl⟩ ?_
    rw [List.forall_mem_cons, List.forall_mem_singleton]
    exact ⟨key.allComplete, Node.allComplete v (paired.part List.mem_cons_self)⟩
  | .unary s op x, paired => by
    rw [Node.outline]
    refine .mk nofun rfl ?_
    rw [List.forall_mem_singleton]
    exact Node.allComplete x (paired.part List.mem_cons_self)
  | .index s a b, paired | .binary s _ a b, paired | .assign s _ a b, paired => by
    have first := Node.allComplete a (paired.part List.mem_cons_self)
    have second := Node.allComplete b (paired.part (List.mem_cons_of_mem _ List.mem_cons_self))
    rw [Node.outline]
    refine .mk nofun rfl ?_
    rw [List.forall_mem_cons, List.forall_mem_singleton]
    exact ⟨first, second⟩
  | .ternary s c y z, paired => by
    have first := Node.allComplete c (paired.part (by simp [Node.parts]))
    have second := Node.allComplete y (paired.part (by simp [Node.parts]))
    have third := Node.allComplete z (paired.part (by simp [Node.parts]))
    rw [Node.outline]
    refine .mk nofun rfl ?_
    rw [List.forall_mem_cons, List.forall_mem_cons, List.forall_mem_singleton]
    exact ⟨first, second, third⟩
  | .select s bs, paired => by
    rw [Node.outline]
    refine .mk nofun ⟨?_, ?_⟩ (Branch.allComplete_outlines bs fun b member n inside =>
      paired.part (List.mem_flatMap.mpr ⟨b, member, inside⟩))
    · rw [List.length_map, Branch.length_outlines]
    · rw [List.length_map]
      exact (paired s bs .refl).counts_guarded
  | .loop s ids subject body, paired => by
    have first := Node.allComplete subject (paired.part List.mem_cons_self)
    have rest := Node.allComplete_outlines body fun n member => paired.part (List.mem_cons_of_mem _ member)
    rw [Node.outline]
    refine .mk nofun ⟨?_, ?_⟩ ?_
    · simp
    · rw [List.map_append, List.take_left' (by simp)]
      simp [Ident.outline, Outline.label]
    · rw [List.forall_mem_append, List.forall_mem_cons, List.forall_mem_map]
      exact ⟨fun id _ => id.allComplete, first, rest⟩

theorem Node.allComplete_outlines : ∀ ns : List Node, (∀ n ∈ ns, n.AllPaired) → ∀ o ∈ Node.outlines ns, o.AllComplete
  | [], _ => by
    rw [Node.outlines]
    exact nofun
  | n :: ns, paired => by
    rw [Node.outlines, List.forall_mem_cons]
    rw [List.forall_mem_cons] at paired
    exact ⟨Node.allComplete n paired.1, Node.allComplete_outlines ns paired.2⟩

theorem Entry.allComplete_outlines : ∀ es : List Entry, (∀ e ∈ es, ∀ n ∈ [e.key, e.value], n.AllPaired) →
    ∀ o ∈ Entry.outlines es, o.AllComplete
  | [], _ => by
    rw [Entry.outlines]
    exact nofun
  | .mk s k v :: es, paired => by
    rw [List.forall_mem_cons] at paired
    obtain ⟨here, paired⟩ := paired
    rw [List.forall_mem_cons, List.forall_mem_singleton] at here
    rw [Entry.outlines, List.forall_mem_cons]
    refine ⟨.mk nofun rfl ?_, Entry.allComplete_outlines es paired⟩
    rw [List.forall_mem_cons, List.forall_mem_singleton]
    exact ⟨Node.allComplete k here.1, Node.allComplete v here.2⟩

theorem Branch.allComplete_outlines : ∀ bs : List Branch, (∀ b ∈ bs, ∀ n ∈ b.cond?.toList ++ b.body, n.AllPaired) →
    ∀ o ∈ Branch.outlines bs, o.AllComplete
  | [], _ => by
    rw [Branch.outlines]
    exact nofun
  | .guarded c body :: bs, paired => by
    rw [List.forall_mem_cons] at paired
    obtain ⟨here, paired⟩ := paired
    obtain ⟨cond, here⟩ := List.forall_mem_cons.mp here
    rw [Branch.outlines, List.cons_append, List.forall_mem_cons, List.forall_mem_append]
    exact ⟨Node.allComplete c cond, Node.allComplete_outlines body here, Branch.allComplete_outlines bs paired⟩
  | .otherwise body :: bs, paired => by
    rw [List.forall_mem_cons] at paired
    rw [Branch.outlines, List.forall_mem_append]
    exact ⟨Node.allComplete_outlines body paired.1, Branch.allComplete_outlines bs paired.2⟩
end

/-! Files. -/

def FileDump.Reaches (d : FileDump) (m : NodeDump) : Prop :=
  ∃ s ∈ d.body, s.Reaches m

def SourceFile.Holds (f : SourceFile) (n : Node) : Prop :=
  ∃ b, f.body = some b ∧ ∃ s ∈ b.statements, s.Holds n

structure FileDump.Describes (d : FileDump) (f : SourceFile) : Prop where
  path : f.path = d.path
  /-- Nothing that is reached gets lost. -/
  reached : ∀ m, d.Reaches m → ∃ n, f.Holds n ∧ m.Gives n
  /-- The children of a node are made of the nodes in the fields that its kind uses, one by one. -/
  made : ∀ n, f.Holds n → ∃ m, d.Reaches m ∧ m.Gives n ∧ List.Forall₂ NodeDump.Gives m.used n.parts
  /-- The branches of a selection are made of those in the dump, each of its condition and its body. -/
  selections : ∀ s bs, f.Holds (.select s bs) → Branch.Paired bs ∧
    ∃ m, d.Reaches m ∧ m.Gives (.select s bs) ∧ List.Forall₂ BranchDump.Gives m.branches bs
  complete : ∀ o, f.outline.Has o → o.Complete
  /-- The nodes are told apart by their numbers, which can start anywhere. -/
  linked : ∀ id n, (f.numbered id n).1.outline.plain = f.outline.plain ∧ (f.numbered id n).1.Linked

namespace FileDump

theorem toFile_eq_ok_iff {d : FileDump} {f : SourceFile} :
    d.toFile = .ok f ↔ ∃ ns, List.Forall₂ NodeDump.Gives d.body ns ∧
      ∃ s, s = Site.at ((Range.hull? (ns.map Node.range)).getD .zero) ∧ f = ⟨0, s, d.path, some ⟨s, ns⟩⟩ := by
  simp only [toFile, bind_eq_ok_iff, toNodes_eq_ok_iff, pure_eq_ok_iff, exists_eq_left, @eq_comm _ f]

theorem exists_toFile_iff {d : FileDump} (valid : d.violations = []) :
    (∃ f, d.toFile = .ok f) ↔ ∀ m, d.Reaches m → m.HasFields := by
  have passes := passes_of_listViolations (List.append_eq_nil_iff.mp valid).2
  have each : (∀ s ∈ d.body, ∃ n, s.Gives n) ↔ ∀ m, d.Reaches m → m.HasFields := by
    constructor
    · rintro all m ⟨s, member, reaches⟩
      exact (NodeDump.Passes.exists_gives_iff (passes s member).1 (passes s member).2).mp (all s member) m reaches
    · intro all s member
      exact (NodeDump.Passes.exists_gives_iff (passes s member).1 (passes s member).2).mpr
        fun m reaches => all m ⟨s, member, reaches⟩
  rw [← each]
  constructor
  · rintro ⟨f, made⟩ s member
    obtain ⟨ns, all, _⟩ := toFile_eq_ok_iff.mp made
    obtain ⟨n, _, gives⟩ := exists_right_of_forall₂ all member
    exact ⟨n, gives⟩
  · intro all
    obtain ⟨ns, all⟩ := exists_forall₂ all
    exact ⟨_, toFile_eq_ok_iff.mpr ⟨ns, all, _, rfl, rfl⟩⟩

theorem describes_toFile {d : FileDump} {f : SourceFile} (made : d.toFile = .ok f) : d.Describes f := by
  obtain ⟨ns, all, s, _, rfl⟩ := toFile_eq_ok_iff.mp made
  have described : ∀ n, SourceFile.Holds ⟨0, s, d.path, some ⟨s, ns⟩⟩ n → ∃ m, d.Reaches m ∧ m.Gives n := by
    rintro n ⟨_, body, t, member, holds⟩
    cases body
    obtain ⟨m, inside, gives⟩ := exists_left_of_forall₂ all member
    obtain ⟨m', reaches, gives⟩ := gives.reaches holds
    exact ⟨m', ⟨m, inside, reaches⟩, gives⟩
  have paired : ∀ n ∈ ns, n.AllPaired := by
    intro n member t bs holds
    obtain ⟨m, _, gives⟩ := described _ ⟨_, rfl, n, member, holds⟩
    exact gives.select.2
  constructor
  · rfl
  · rintro m ⟨t, member, reaches⟩
    obtain ⟨n, inside, gives⟩ := exists_right_of_forall₂ all member
    obtain ⟨n', holds, gives⟩ := gives.holds reaches
    exact ⟨n', ⟨_, rfl, n, inside, holds⟩, gives⟩
  · intro n holds
    obtain ⟨m, reaches, gives⟩ := described n holds
    exact ⟨m, reaches, gives, gives.inv.2⟩
  · intro t bs holds
    obtain ⟨m, reaches, gives⟩ := described _ holds
    exact ⟨gives.select.2, m, reaches, gives, gives.select.1⟩
  · refine Outline.complete_mk rfl ?_
    rw [List.forall_mem_singleton]
    exact .mk nofun trivial (Node.allComplete_outlines ns paired)
  · intro id n
    exact ⟨SourceFile.plain_numbered _ id n, SourceFile.linked_numbered _ id n⟩

end FileDump

def NodeDump.lacksValue : NodeDump → Bool
  | null => false
  | node h _ _ _ _ _ _ _ _ _ _ _ _ _ => (h.kind == "int" || h.kind == "str" || h.kind == "bool") && h.value.isNone

namespace SourceFile

variable {text : String} {node : Option Yaml.Node} {dump : FileDump}

theorem load_eq_ok_iff (parsed : Yaml.parse text = .ok node) (read : FileDump.read (node.getD .absent) = .ok dump)
    (valid : dump.violations = []) {f : SourceFile} : load text = .ok f ↔ dump.toFile = .ok f := by
  simp only [load, parsed, bind_eq_ok_iff, mapError_eq_ok_iff, Except.ok.injEq, exists_eq_left', read, valid]
  exact mapError_eq_ok_iff

/-- A dump that can be read and whose fields pass their checks is accepted exactly if all nodes that are reached in it
have what their kinds need. The file is then the one that the dump describes. -/
theorem load_iff_hasFields (parsed : Yaml.parse text = .ok node)
    (read : FileDump.read (node.getD .absent) = .ok dump) (valid : dump.violations = []) :
    ((∃ f, load text = .ok f) ↔ ∀ m, dump.Reaches m → m.HasFields) ∧ ∀ f, load text = .ok f → dump.Describes f := by
  simp only [load_eq_ok_iff parsed read valid]
  exact ⟨FileDump.exists_toFile_iff valid, fun f made => FileDump.describes_toFile made⟩

theorem exists_dump {t : String} {p : FileDump → Bool}
    (ok : (Yaml.parse t).toOption.any fun node => (FileDump.read (node.getD .absent)).toOption.any p) :
    ∃ node dump, Yaml.parse t = .ok node ∧ FileDump.read (node.getD .absent) = .ok dump ∧ p dump := by
  cases parsed : Yaml.parse t with
  | error => simp [parsed, Except.toOption] at ok
  | ok node =>
    simp only [parsed, Except.toOption, Option.any_some] at ok
    cases read : FileDump.read (node.getD .absent) with
    | error => simp [read] at ok
    | ok dump =>
      simp only [read, Option.any_some] at ok
      exact ⟨node, dump, rfl, read, ok⟩

def sampleSelection : String :=
  "path: m\nbody:\n- kind: if\n  branches:\n  - cond:\n      kind: id\n      name: c\n  - body:\n    - kind: break\n"

def sampleLoneMethod : String :=
  "path: m\nbody:\n- kind: method\n  name: f\n"

theorem load_iff_hasFields_sample :
    (∃ node dump, Yaml.parse sampleSelection = .ok node ∧ FileDump.read (node.getD .absent) = .ok dump ∧
      dump.violations = [] ∧ (∀ m, dump.Reaches m → m.HasFields) ∧
      ∃ f, load sampleSelection = .ok f ∧ dump.Describes f ∧
        f.nodes.map (fun e => (e.1, e.2.1.kind)) = [(0, "file"), (1, "body"), (2, "if"), (3, "id"), (3, "break")]) ∧
    ∃ node dump, Yaml.parse sampleLoneMethod = .ok node ∧ FileDump.read (node.getD .absent) = .ok dump ∧
      dump.violations = [] ∧ ∃ m, dump.Reaches m ∧ ¬m.HasFields := by
  constructor
  · obtain ⟨node, dump, parsed, read, facts⟩ := exists_dump (t := sampleSelection)
      (p := fun dump => dump.violations.isEmpty && dump.toFile.toOption.any fun f =>
        f.nodes.map (fun e => (e.1, e.2.1.kind)) == [(0, "file"), (1, "body"), (2, "if"), (3, "id"), (3, "break")])
      (by decide +kernel)
    rw [Bool.and_eq_true, List.isEmpty_iff] at facts
    obtain ⟨valid, listed⟩ := facts
    obtain ⟨accepts, describes⟩ := load_iff_hasFields parsed read valid
    cases made : dump.toFile with
    | error => simp [made, Except.toOption] at listed
    | ok f =>
      have loaded := (load_eq_ok_iff parsed read valid).mpr made
      rw [made] at listed
      exact ⟨node, dump, parsed, read, valid, accepts.mp ⟨f, loaded⟩, f, loaded, describes f loaded, eq_of_beq listed⟩
  · obtain ⟨node, dump, parsed, read, facts⟩ := exists_dump (t := sampleLoneMethod)
      (p := fun dump => dump.violations.isEmpty && dump.toFile.toOption.isNone) (by decide +kernel)
    rw [Bool.and_eq_true, List.isEmpty_iff] at facts
    obtain ⟨valid, refused⟩ := facts
    have refused : ¬∃ f, load sampleLoneMethod = .ok f := by
      rintro ⟨f, loaded⟩
      rw [(load_eq_ok_iff parsed read valid).mp loaded] at refused
      cases refused
    rw [(load_iff_hasFields parsed read valid).1] at refused
    push Not at refused
    exact ⟨node, dump, parsed, read, valid, refused⟩

/-- A literal without a value is accepted. -/
theorem load_accepts_missing_value :
    ∃ node dump, Yaml.parse "path: m\nbody:\n- kind: int" = .ok node ∧
      FileDump.read (node.getD .absent) = .ok dump ∧ dump.violations = [] ∧
      (∃ m, dump.Reaches m ∧ m.lacksValue) ∧ ∃ f, load "path: m\nbody:\n- kind: int" = .ok f := by
  obtain ⟨node, dump, parsed, read, facts⟩ := exists_dump (t := "path: m\nbody:\n- kind: int")
    (p := fun dump => dump.violations.isEmpty && dump.body.any NodeDump.lacksValue && dump.toFile.toOption.isSome)
    (by decide +kernel)
  rw [Bool.and_eq_true, Bool.and_eq_true, List.isEmpty_iff, List.any_eq_true] at facts
  obtain ⟨⟨valid, m, member, lacks⟩, accepted⟩ := facts
  refine ⟨node, dump, parsed, read, valid, ⟨m, ⟨m, member, .refl⟩, lacks⟩, ?_⟩
  cases made : dump.toFile with
  | error => simp [made, Except.toOption] at accepted
  | ok f => exact ⟨f, (load_eq_ok_iff parsed read valid).mpr made⟩

end SourceFile

end MesonCheck
