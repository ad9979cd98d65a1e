import Mathlib.Data.List.Forall2
import Mathlib.Logic.Relation
import MesonCheck.Proofs.Reading
import MesonCheck.Tree.Dump

/-! Dumps and the nodes that they describe. A dumped node that passes the checks of its fields describes a node exactly
if every node that is reached from it through the fields which the kinds of nodes use has what its kind needs. The nodes
that are reached and the nodes of the tree then describe each other. -/
namespace MesonCheck

/-! What the kinds of nodes use and need. -/

def DumpHead.Readable {α : Type} (h : DumpHead) (read : Yaml.Node → Except Yaml.Fault α) : Prop :=
  ∀ v, h.value = some v → ∃ a, read v = .ok a

def BranchDump.cond : BranchDump → NodeDump
  | null => .null
  | branch c _ => c

def BranchDump.nodes : BranchDump → List NodeDump
  | null => []
  | branch .null body => body
  | branch c body => c :: body

def EntryDump.nodes : EntryDump → List NodeDump
  | null => []
  | entry k v => [k, v]

namespace NodeDump

def used : NodeDump → List NodeDump
  | null => []
  | node h object expr operand left right cond yes no args elems body entries branches =>
    match NodeKind.ofText? h.kind with
    | some .array => elems
    | some .dict => entries.flatMap EntryDump.nodes
    | some .call => args
    | some .method => object :: args
    | some .keyword => [expr]
    | some .index => [object, expr]
    | some .unary => [operand]
    | some .binary | some .assign => [left, right]
    | some .ternary => [cond, yes, no]
    | some .select => branches.flatMap BranchDump.nodes
    | some .loop => expr :: body
    | _ => []

/-- Whether a node has the fields that its kind needs. -/
def HasFields : NodeDump → Prop
  | null => True
  | node h object expr operand left right cond yes no _ _ _ _ branches =>
    match NodeKind.ofText? h.kind with
    | some .int => h.Readable (Yaml.Node.int 0)
    | some .str => h.Readable (Yaml.Node.text "")
    | some .bool => h.Readable (Yaml.Node.bool false)
    | some .ident | some .call => h.name ≠ ""
    | some .method => h.name ≠ "" ∧ object ≠ null
    | some .keyword => h.name ≠ "" ∧ expr ≠ null
    | some .index => object ≠ null ∧ expr ≠ null
    | some .unary => operand ≠ null
    | some .binary | some .assign => left ≠ null ∧ right ≠ null
    | some .ternary => cond ≠ null ∧ yes ≠ null ∧ no ≠ null
    | some .select => ∀ b ∈ branches.dropLast, b.cond ≠ null
    | some .loop => expr ≠ null
    | _ => True

/-- Whether a node is reached from another one through the fields that the kinds on the way use. -/
def Reaches : NodeDump → NodeDump → Prop :=
  Relation.ReflTransGen fun d m => m ∈ d.used

def Gives (d : NodeDump) (n : Node) : Prop :=
  d.toNode = .ok n

end NodeDump

inductive EntryDump.Gives : EntryDump → Entry → Prop where
  | entry {k v : NodeDump} {k' v' : Node} : k.Gives k' → v.Gives v' →
      Gives (.entry k v) (.mk (.at (.span k'.range v'.range)) k' v')

inductive BranchDump.Gives : BranchDump → Branch → Prop where
  | guarded {c : NodeDump} {body : List NodeDump} {c' : Node} {body' : List Node} : c.Gives c' →
      List.Forall₂ NodeDump.Gives body body' → Gives (.branch c body) (.guarded c' body')
  | otherwise {body : List NodeDump} {body' : List Node} : List.Forall₂ NodeDump.Gives body body' →
      Gives (.branch .null body) (.otherwise body')

/-! Single steps. -/

theorem within_eq_ok_iff {α : Type} {l : Locus} {r : Except DumpFault α} {a : α} : within l r = .ok a ↔ r = .ok a :=
  mapError_eq_ok_iff

theorem needed_eq_ok_iff {here : Locus} {field : String} {d : NodeDump} {made : Except DumpFault Node} {n : Node} :
    needed here field d made = .ok n ↔ d ≠ .null ∧ made = .ok n := by
  cases d <;> simp [needed, NodeDump.isNull]

theorem DumpHead.ident_eq_ok_iff {h : DumpHead} {id : Ident} :
    h.ident = .ok id ↔ h.name ≠ "" ∧ ⟨h.site, h.name⟩ = id := by
  by_cases unnamed : h.name = "" <;> simp [DumpHead.ident, unnamed]

theorem DumpHead.literal_eq_ok {α : Type} {h : DumpHead} {default : α} {read : Yaml.Node → Except Yaml.Fault α} :
    (∃ a, h.literal default read = .ok a) ↔ h.Readable read := by
  unfold literal Readable
  cases h.value with
  | none => simp
  | some v => simp [mapError_eq_ok_iff]

theorem toNodes_eq_ok_iff {ds : List NodeDump} {ns : List Node} :
    NodeDump.toNodes ds = .ok ns ↔ List.Forall₂ NodeDump.Gives ds ns := by
  induction ds generalizing ns with
  | nil => simp [NodeDump.toNodes, eq_comm]
  | cons d ds ih =>
    simp only [NodeDump.toNodes, bind_eq_ok_iff, pure_eq_ok_iff, ih, List.forall₂_cons_left_iff]
    constructor
    · rintro ⟨n, first, ns, rest, rfl⟩
      exact ⟨n, ns, first, rest, rfl⟩
    · rintro ⟨n, ns, first, rest, rfl⟩
      exact ⟨n, first, ns, rest, rfl⟩

theorem toEntries_eq_ok_iff {es : List EntryDump} {es' : List Entry} :
    EntryDump.toEntries es = .ok es' ↔ List.Forall₂ EntryDump.Gives es es' := by
  induction es generalizing es' with
  | nil => simp [EntryDump.toEntries, eq_comm]
  | cons e es ih =>
    rw [List.forall₂_cons_left_iff]
    cases e with
    | null =>
      constructor
      · intro ok
        cases ok
      · rintro ⟨_, _, gives, _⟩
        cases gives
    | entry k v =>
      simp only [EntryDump.toEntries, bind_eq_ok_iff, pure_eq_ok_iff, ih]
      constructor
      · rintro ⟨k', key, v', value, es', rest, rfl⟩
        exact ⟨_, es', .entry key value, rest, rfl⟩
      · rintro ⟨_, es', ⟨key, value⟩, rest, rfl⟩
        exact ⟨_, key, _, value, es', rest, rfl⟩

theorem toBranches_otherwise {here : Locus} {body : List NodeDump} {bs : List BranchDump} {bs' : List Branch} :
    BranchDump.toBranches here (.branch .null body :: bs) = .ok bs' ↔
      bs = [] ∧ ∃ body', List.Forall₂ NodeDump.Gives body body' ∧ [.otherwise body'] = bs' := by
  cases bs with
  | nil =>
    simp only [BranchDump.toBranches, List.isEmpty_nil, Bool.not_true, Bool.false_eq_true, if_false, bind_eq_ok_iff,
      toNodes_eq_ok_iff, pure_eq_ok_iff, Except.ok.injEq, exists_eq_left', true_and]
  | cons b bs =>
    constructor
    · intro ok
      cases ok
    · rintro ⟨absurd, _⟩
      cases absurd

theorem toBranches_guarded {here : Locus} {c : NodeDump} {body : List NodeDump} {bs : List BranchDump}
    {bs' : List Branch} (there : c ≠ .null) :
    BranchDump.toBranches here (.branch c body :: bs) = .ok bs' ↔
      ∃ c', c.Gives c' ∧ ∃ body', List.Forall₂ NodeDump.Gives body body' ∧
        ∃ rest, BranchDump.toBranches here bs = .ok rest ∧ .guarded c' body' :: rest = bs' := by
  cases c with
  | null => contradiction
  | node => simp only [BranchDump.toBranches, bind_eq_ok_iff, toNodes_eq_ok_iff, pure_eq_ok_iff, NodeDump.Gives]

theorem NodeDump.Gives.ne_null {d : NodeDump} {n : Node} (gives : d.Gives n) : d ≠ .null := by
  rintro rfl
  cases gives

theorem toBranches_eq_ok_iff {here : Locus} {bs : List BranchDump} {bs' : List Branch} :
    BranchDump.toBranches here bs = .ok bs' ↔
      (∀ b ∈ bs.dropLast, b.cond ≠ .null) ∧ List.Forall₂ BranchDump.Gives bs bs' := by
  induction bs generalizing bs' with
  | nil => simp [BranchDump.toBranches, eq_comm]
  | cons b bs ih =>
    rw [List.forall₂_cons_left_iff]
    cases b with
    | null =>
      constructor
      · intro ok
        cases ok
      · rintro ⟨_, _, _, gives, _⟩
        cases gives
    | branch c body =>
      by_cases none : c = .null
      · subst none
        rw [toBranches_otherwise]
        constructor
        · rintro ⟨rfl, body', all, rfl⟩
          exact ⟨by simp, _, _, .otherwise all, .nil, rfl⟩
        · rintro ⟨others, _, rest, gives, later, rfl⟩
          cases bs with
          | nil =>
            cases later
            cases gives with
            | guarded first => exact (first.ne_null rfl).elim
            | otherwise all => exact ⟨rfl, _, all, rfl⟩
          | cons b bs => exact (others (.branch .null body) (by simp) rfl).elim
      · have others : (∀ b ∈ (BranchDump.branch c body :: bs).dropLast, b.cond ≠ .null) ↔
            ∀ b ∈ bs.dropLast, b.cond ≠ .null := by
          cases bs <;> simp [BranchDump.cond, none]
        simp only [toBranches_guarded none, ih, others]
        constructor
        · rintro ⟨c', first, body', all, rest, ⟨conds, later⟩, rfl⟩
          exact ⟨conds, _, rest, .guarded first all, later, rfl⟩
        · rintro ⟨conds, _, rest, gives, later, rfl⟩
          cases gives with
          | guarded first all => exact ⟨_, first, _, all, rest, ⟨conds, later⟩, rfl⟩
          | otherwise => contradiction

/-! The nodes that a node is made of. -/

def Node.parts : Node → List Node
  | .array _ es => es
  | .dict _ es => es.flatMap fun e => [e.key, e.value]
  | .call _ _ _ as => as
  | .method _ r _ _ as => r :: as
  | .keyword _ _ v | .unary _ _ v => [v]
  | .index _ a b | .binary _ _ a b | .assign _ _ a b => [a, b]
  | .ternary _ c y z => [c, y, z]
  | .select _ bs => bs.flatMap fun b => b.cond?.toList ++ b.body
  | .loop _ _ subject body => subject :: body
  | _ => []

theorem forall₂_entries {es : List EntryDump} {es' : List Entry} (all : List.Forall₂ EntryDump.Gives es es') :
    List.Forall₂ NodeDump.Gives (es.flatMap EntryDump.nodes) (es'.flatMap fun e => [e.key, e.value]) := by
  induction all with
  | nil => exact .nil
  | cons first _ ih =>
    cases first with
    | entry key value => exact .cons key (.cons value ih)

theorem forall₂_branches {bs : List BranchDump} {bs' : List Branch} (all : List.Forall₂ BranchDump.Gives bs bs') :
    List.Forall₂ NodeDump.Gives (bs.flatMap BranchDump.nodes) (bs'.flatMap fun b => b.cond?.toList ++ b.body) := by
  induction all with
  | nil => exact .nil
  | cons first _ ih =>
    rw [List.flatMap_cons, List.flatMap_cons]
    refine List.rel_append ?_ ih
    cases first with
    | @guarded c body c' body' cond all =>
      have nodes : (BranchDump.branch c body).nodes = c :: body := by
        cases c with
        | null => exact (cond.ne_null rfl).elim
        | node => rfl
      rw [nodes]
      exact .cons cond all
    | otherwise all => exact all

namespace NodeDump

/-- What is known of a node that was accepted: it has its fields, and its parts are made of the nodes in them. -/
theorem Gives.inv {d : NodeDump} {n : Node} (gives : d.Gives n) :
    d.HasFields ∧ List.Forall₂ Gives d.used n.parts := by
  cases d with
  | null => cases gives
  | node h object expr operand left right cond yes no args elems body entries branches =>
    unfold Gives at gives
    rw [toNode] at gives
    rw [HasFields, used]
    cases kind : NodeKind.ofText? h.kind with
    | none =>
      simp only [kind] at gives
      cases gives
    | some k =>
      simp only [kind] at gives ⊢
      cases k <;> simp only [within_eq_ok_iff, map_eq_ok_iff, bind_eq_ok_iff, pure_eq_ok_iff, needed_eq_ok_iff,
        DumpHead.ident_eq_ok_iff, toNodes_eq_ok_iff] at gives
      case int | str | bool =>
        obtain ⟨v, read, rfl⟩ := gives
        exact ⟨DumpHead.literal_eq_ok.mp ⟨v, read⟩, .nil⟩
      case array =>
        obtain ⟨ns, all, rfl⟩ := gives
        exact ⟨trivial, all⟩
      case dict =>
        obtain ⟨es, all, rfl⟩ := gives
        exact ⟨trivial, forall₂_entries (toEntries_eq_ok_iff.mp all)⟩
      case ident =>
        obtain ⟨_, ⟨named, rfl⟩, rfl⟩ := gives
        exact ⟨named, .nil⟩
      case call =>
        obtain ⟨_, ⟨named, rfl⟩, as, all, rfl⟩ := gives
        exact ⟨named, all⟩
      case method =>
        obtain ⟨r, ⟨there, first⟩, _, ⟨named, rfl⟩, as, all, rfl⟩ := gives
        exact ⟨⟨named, there⟩, .cons first all⟩
      case keyword =>
        obtain ⟨_, ⟨named, rfl⟩, v, ⟨there, value⟩, rfl⟩ := gives
        exact ⟨⟨named, there⟩, .cons value .nil⟩
      case index | binary | assign =>
        obtain ⟨a, ⟨there, first⟩, b, ⟨there', second⟩, rfl⟩ := gives
        exact ⟨⟨there, there'⟩, .cons first (.cons second .nil)⟩
      case unary =>
        obtain ⟨x, ⟨there, only⟩, rfl⟩ := gives
        exact ⟨there, .cons only .nil⟩
      case ternary =>
        obtain ⟨c, ⟨there, first⟩, y, ⟨there', second⟩, z, ⟨there'', third⟩, rfl⟩ := gives
        exact ⟨⟨there, there', there''⟩, .cons first (.cons second (.cons third .nil))⟩
      case select =>
        obtain ⟨bs, all, rfl⟩ := gives
        obtain ⟨conds, all⟩ := toBranches_eq_ok_iff.mp all
        exact ⟨conds, forall₂_branches all⟩
      case loop =>
        obtain ⟨subject, ⟨there, first⟩, body, all, rfl⟩ := gives
        exact ⟨there, .cons first all⟩
      case breakLoop | continueLoop | error =>
        subst gives
        exact ⟨trivial, .nil⟩

end NodeDump

/-! Dumps whose fields pass their checks. -/

theorem Violation.ofRules_eq_nil_iff {path : List String} {field : String} {rules : List (String × Bool)} :
    Violation.ofRules path field rules = [] ↔ ∀ r ∈ rules, r.2 := by
  unfold Violation.ofRules
  cases broken : rules.find? (!·.2) with
  | none => simpa using broken
  | some r =>
    have member := List.mem_of_find?_eq_some broken
    have broken := List.find?_some broken
    simp only [List.cons_ne_nil, false_iff]
    intro all
    simp [all r member] at broken

/-- Whether the fields of a node, and of all nodes in them, pass their checks. The path only shows in what is told of
those that do not. -/
def NodeDump.Passes (d : NodeDump) : Prop :=
  ∃ path, d.violations path = []

theorem NodeDump.isNull_eq_false_iff {d : NodeDump} : d.isNull = false ↔ d ≠ .null := by
  cases d <;> simp [NodeDump.isNull]

theorem passes_of_listViolations {path : List String} {field : String} {i : Nat} {ds : List NodeDump}
    (none : NodeDump.listViolations path field i ds = []) : ∀ d ∈ ds, d ≠ .null ∧ d.Passes := by
  induction ds generalizing i with
  | nil => simp
  | cons d ds ih =>
    simp only [NodeDump.listViolations, List.append_eq_nil_iff, Violation.ofRules_eq_nil_iff, List.forall_mem_singleton,
      Bool.not_eq_true', NodeDump.isNull_eq_false_iff] at none
    obtain ⟨⟨there, here⟩, rest⟩ := none
    exact List.forall_mem_cons.mpr ⟨⟨there, _, here⟩, ih rest⟩

theorem passes_of_entryViolations {path : List String} {i : Nat} {es : List EntryDump}
    (none : EntryDump.listViolations path i es = []) :
    ∀ e ∈ es, e ≠ .null ∧ ∀ d ∈ e.nodes, d ≠ .null ∧ d.Passes := by
  induction es generalizing i with
  | nil => simp
  | cons e es ih =>
    cases e with
    | null => simp [EntryDump.listViolations, Violation.ofRules_eq_nil_iff] at none
    | entry k v =>
      simp only [EntryDump.listViolations, List.append_eq_nil_iff, Violation.ofRules_eq_nil_iff,
        List.forall_mem_singleton, Bool.not_eq_true', NodeDump.isNull_eq_false_iff] at none
      obtain ⟨⟨⟨⟨key, keyPasses⟩, value⟩, valuePasses⟩, rest⟩ := none
      refine List.forall_mem_cons.mpr ⟨⟨nofun, ?_⟩, ih rest⟩
      simp only [EntryDump.nodes, List.forall_mem_cons]
      exact ⟨⟨key, _, keyPasses⟩, ⟨value, _, valuePasses⟩, by simp⟩

theorem passes_of_branchViolations {path : List String} {i : Nat} {bs : List BranchDump}
    (none : BranchDump.listViolations path i bs = []) :
    ∀ b ∈ bs, b ≠ .null ∧ ∀ d ∈ b.nodes, d ≠ .null ∧ d.Passes := by
  induction bs generalizing i with
  | nil => simp
  | cons b bs ih =>
    cases b with
    | null => simp [BranchDump.listViolations, Violation.ofRules_eq_nil_iff] at none
    | branch c body =>
      simp only [BranchDump.listViolations, List.append_eq_nil_iff] at none
      obtain ⟨⟨cond, body⟩, rest⟩ := none
      have inBody := passes_of_listViolations body
      refine List.forall_mem_cons.mpr ⟨⟨nofun, ?_⟩, ih rest⟩
      cases c with
      | null => exact inBody
      | node => exact List.forall_mem_cons.mpr ⟨⟨nofun, _, cond⟩, inBody⟩

namespace NodeDump

theorem Passes.inv {h : DumpHead} {object expr operand left right cond yes no : NodeDump}
    {args elems body : List NodeDump} {entries : List EntryDump} {branches : List BranchDump}
    (passes : (node h object expr operand left right cond yes no args elems body entries branches).Passes) :
    (NodeKind.ofText? h.kind).isSome ∧
      (∀ d ∈ [object, expr, operand, left, right, cond, yes, no], d.Passes) ∧
      (∀ d ∈ args ++ elems ++ body, d ≠ null ∧ d.Passes) ∧
      (∀ e ∈ entries, e ≠ .null ∧ ∀ d ∈ e.nodes, d ≠ null ∧ d.Passes) ∧
      ∀ b ∈ branches, b ≠ .null ∧ ∀ d ∈ b.nodes, d ≠ null ∧ d.Passes := by
  obtain ⟨path, none⟩ := passes
  simp only [violations, List.append_eq_nil_iff] at none
  obtain ⟨⟨⟨⟨⟨⟨⟨⟨⟨⟨⟨⟨⟨⟨kind, object⟩, args⟩, elems⟩, entries⟩, expr⟩, operand⟩, left⟩, right⟩, cond⟩, yes⟩, no⟩, _⟩,
    body⟩, branches⟩ := none
  simp only [DumpHead.kindViolations, List.append_eq_nil_iff, Violation.ofRules_eq_nil_iff,
    List.forall_mem_cons] at kind
  refine ⟨kind.1.2.1, ?_, ?_, passes_of_entryViolations entries, passes_of_branchViolations branches⟩
  · simp only [List.forall_mem_cons]
    exact ⟨⟨_, object⟩, ⟨_, expr⟩, ⟨_, operand⟩, ⟨_, left⟩, ⟨_, right⟩, ⟨_, cond⟩, ⟨_, yes⟩, ⟨_, no⟩, by simp⟩
  · simp only [List.forall_mem_append]
    exact ⟨⟨passes_of_listViolations args, passes_of_listViolations elems⟩, passes_of_listViolations body⟩

theorem Passes.of_mem_used {d m : NodeDump} (passes : d.Passes) (fields : d.HasFields) (member : m ∈ d.used) :
    m ≠ null ∧ m.Passes := by
  cases d with
  | null => cases member
  | node h object expr operand left right cond yes no args elems body entries branches =>
    obtain ⟨_, single, listed, entries, branches⟩ := passes.inv
    simp only [List.forall_mem_cons, List.forall_mem_append] at single listed
    obtain ⟨object, expr, operand, left, right, cond, yes, no, _⟩ := single
    obtain ⟨⟨args, elems⟩, body⟩ := listed
    rw [used] at member
    rw [HasFields] at fields
    cases kind : NodeKind.ofText? h.kind with
    | none => simp [kind] at member
    | some k =>
      simp only [kind] at member fields
      cases k <;> simp only [List.mem_cons, List.not_mem_nil, or_false, List.mem_flatMap] at member
      case array => exact elems m member
      case dict =>
        obtain ⟨e, inside, member⟩ := member
        exact (entries e inside).2 m member
      case call => exact args m member
      case method =>
        rcases member with rfl | member
        · exact ⟨fields.2, object⟩
        · exact args m member
      case keyword =>
        subst member
        exact ⟨fields.2, expr⟩
      case index =>
        rcases member with rfl | rfl
        · exact ⟨fields.1, object⟩
        · exact ⟨fields.2, expr⟩
      case unary =>
        subst member
        exact ⟨fields, operand⟩
      case binary | assign =>
        rcases member with rfl | rfl
        · exact ⟨fields.1, left⟩
        · exact ⟨fields.2, right⟩
      case ternary =>
        rcases member with rfl | rfl | rfl
        · exact ⟨fields.1, cond⟩
        · exact ⟨fields.2.1, yes⟩
        · exact ⟨fields.2.2, no⟩
      case select =>
        obtain ⟨b, inside, member⟩ := member
        exact (branches b inside).2 m member
      case loop =>
        rcases member with rfl | member
        · exact ⟨fields, expr⟩
        · exact body m member

end NodeDump

theorem exists_forall₂ {α β : Type} {R : α → β → Prop} {as : List α} (all : ∀ a ∈ as, ∃ b, R a b) :
    ∃ bs, List.Forall₂ R as bs := by
  induction as with
  | nil => exact ⟨[], .nil⟩
  | cons a as ih =>
    obtain ⟨⟨b, first⟩, rest⟩ := List.forall_mem_cons.mp all
    obtain ⟨bs, rest⟩ := ih rest
    exact ⟨b :: bs, .cons first rest⟩

theorem EntryDump.exists_gives {e : EntryDump} (there : e ≠ .null) (all : ∀ d ∈ e.nodes, ∃ n, d.Gives n) :
    ∃ e', e.Gives e' := by
  cases e with
  | null => contradiction
  | entry k v =>
    obtain ⟨k', key⟩ := all k (by simp [EntryDump.nodes])
    obtain ⟨v', value⟩ := all v (by simp [EntryDump.nodes])
    exact ⟨_, .entry key value⟩

theorem BranchDump.exists_gives {b : BranchDump} (there : b ≠ .null) (all : ∀ d ∈ b.nodes, ∃ n, d.Gives n) :
    ∃ b', b.Gives b' := by
  cases b with
  | null => contradiction
  | branch c body =>
    cases c with
    | null =>
      obtain ⟨body', all⟩ := exists_forall₂ all
      exact ⟨_, .otherwise all⟩
    | node =>
      obtain ⟨⟨c', cond⟩, all⟩ := List.forall_mem_cons.mp all
      obtain ⟨body', all⟩ := exists_forall₂ all
      exact ⟨_, .guarded cond all⟩

theorem EntryDump.sizeOf_lt_of_mem_nodes {e : EntryDump} {d : NodeDump} (member : d ∈ e.nodes) :
    sizeOf d < sizeOf e := by
  cases e with
  | null => cases member
  | entry k v =>
    simp only [EntryDump.nodes, List.mem_cons, List.not_mem_nil, or_false] at member
    rcases member with rfl | rfl <;> simp only [EntryDump.entry.sizeOf_spec] <;> omega

theorem BranchDump.sizeOf_lt_of_mem_nodes {b : BranchDump} {d : NodeDump} (member : d ∈ b.nodes) :
    sizeOf d < sizeOf b := by
  cases b with
  | null => cases member
  | branch c body =>
    have inBody : d ∈ body → sizeOf d < 1 + sizeOf c + sizeOf body := by
      intro inside
      have small := List.sizeOf_lt_of_mem inside
      omega
    simp only [BranchDump.branch.sizeOf_spec]
    cases c with
    | null => exact inBody member
    | node =>
      rcases List.mem_cons.mp member with rfl | member
      · omega
      · exact inBody member

namespace NodeDump

theorem Passes.exists_gives {d : NodeDump} (passes : d.Passes) (there : d ≠ null) (fields : d.HasFields)
    (all : ∀ m ∈ d.used, ∃ n, m.Gives n) : ∃ n, d.Gives n := by
  cases d with
  | null => contradiction
  | node h object expr operand left right cond yes no args elems body entries branches =>
    obtain ⟨known, _, _, noneMissing, noneMissing'⟩ := passes.inv
    obtain ⟨k, kind⟩ := Option.isSome_iff_exists.mp known
    unfold Gives
    rw [toNode]
    rw [HasFields] at fields
    rw [used] at all
    simp only [kind] at all fields ⊢
    cases k <;> simp only [within_eq_ok_iff, map_eq_ok_iff, bind_eq_ok_iff, pure_eq_ok_iff, needed_eq_ok_iff,
      DumpHead.ident_eq_ok_iff, toNodes_eq_ok_iff, toEntries_eq_ok_iff, toBranches_eq_ok_iff,
      List.forall_mem_cons] at all ⊢
    case int | str | bool =>
      obtain ⟨v, read⟩ := DumpHead.literal_eq_ok.mpr fields
      exact ⟨_, v, read, rfl⟩
    case array =>
      obtain ⟨ns, all⟩ := exists_forall₂ all
      exact ⟨_, ns, all, rfl⟩
    case dict =>
      have each : ∀ e ∈ entries, ∃ e', e.Gives e' := fun e member =>
        EntryDump.exists_gives (noneMissing e member).1 fun d inside =>
          all d (List.mem_flatMap.mpr ⟨e, member, inside⟩)
      obtain ⟨es, all⟩ := exists_forall₂ each
      exact ⟨_, es, all, rfl⟩
    case ident => exact ⟨_, _, ⟨fields, rfl⟩, rfl⟩
    case call =>
      obtain ⟨as, all⟩ := exists_forall₂ all
      exact ⟨_, _, ⟨fields, rfl⟩, as, all, rfl⟩
    case method =>
      obtain ⟨⟨r, first⟩, all⟩ := all
      obtain ⟨as, all⟩ := exists_forall₂ all
      exact ⟨_, r, ⟨fields.2, first⟩, _, ⟨fields.1, rfl⟩, as, all, rfl⟩
    case keyword =>
      obtain ⟨⟨v, value⟩, _⟩ := all
      exact ⟨_, _, ⟨fields.1, rfl⟩, v, ⟨fields.2, value⟩, rfl⟩
    case index | binary | assign =>
      obtain ⟨⟨a, first⟩, ⟨b, second⟩, _⟩ := all
      exact ⟨_, a, ⟨fields.1, first⟩, b, ⟨fields.2, second⟩, rfl⟩
    case unary =>
      obtain ⟨⟨x, only⟩, _⟩ := all
      exact ⟨_, x, ⟨fields, only⟩, rfl⟩
    case ternary =>
      obtain ⟨⟨c, first⟩, ⟨y, second⟩, ⟨z, third⟩, _⟩ := all
      exact ⟨_, c, ⟨fields.1, first⟩, y, ⟨fields.2.1, second⟩, z, ⟨fields.2.2, third⟩, rfl⟩
    case select =>
      have each : ∀ b ∈ branches, ∃ b', b.Gives b' := fun b member =>
        BranchDump.exists_gives (noneMissing' b member).1 fun d inside =>
          all d (List.mem_flatMap.mpr ⟨b, member, inside⟩)
      obtain ⟨bs, all⟩ := exists_forall₂ each
      exact ⟨_, bs, ⟨fields, all⟩, rfl⟩
    case loop =>
      obtain ⟨⟨subject, first⟩, all⟩ := all
      obtain ⟨body', all⟩ := exists_forall₂ all
      exact ⟨_, subject, ⟨fields, first⟩, body', all, rfl⟩
    case breakLoop | continueLoop | error => exact ⟨_, rfl⟩

/-! Whole trees. -/

theorem mem_used {h : DumpHead} {object expr operand left right cond yes no m : NodeDump}
    {args elems body : List NodeDump} {entries : List EntryDump} {branches : List BranchDump}
    (member : m ∈ (node h object expr operand left right cond yes no args elems body entries branches).used) :
    m ∈ [object, expr, operand, left, right, cond, yes, no] ∨ (m ∈ args ∨ m ∈ elems ∨ m ∈ body) ∨
      (∃ e ∈ entries, m ∈ e.nodes) ∨ ∃ b ∈ branches, m ∈ b.nodes := by
  rw [used] at member
  split at member <;> grind

theorem sizeOf_lt_of_mem_used {d m : NodeDump} (member : m ∈ d.used) : sizeOf m < sizeOf d := by
  cases d with
  | null => cases member
  | node h object expr operand left right cond yes no args elems body entries branches =>
    simp only [node.sizeOf_spec]
    rcases mem_used member with single | listed | ⟨e, inside, member⟩ | ⟨b, inside, member⟩
    · simp only [List.mem_cons, List.not_mem_nil, or_false] at single
      rcases single with rfl | rfl | rfl | rfl | rfl | rfl | rfl | rfl <;> omega
    · rcases listed with inside | inside | inside
      all_goals
        have small := List.sizeOf_lt_of_mem inside
        omega
    · have small := List.sizeOf_lt_of_mem inside
      have smaller := EntryDump.sizeOf_lt_of_mem_nodes member
      omega
    · have small := List.sizeOf_lt_of_mem inside
      have smaller := BranchDump.sizeOf_lt_of_mem_nodes member
      omega

end NodeDump

def Node.Holds : Node → Node → Prop :=
  Relation.ReflTransGen fun a b => b ∈ a.parts

theorem exists_right_of_forall₂ {α β : Type} {R : α → β → Prop} {as : List α} {bs : List β}
    (all : List.Forall₂ R as bs) {a : α} (member : a ∈ as) : ∃ b ∈ bs, R a b := by
  induction all with
  | nil => cases member
  | cons first _ ih =>
    rcases List.mem_cons.mp member with rfl | later
    · exact ⟨_, List.mem_cons_self, first⟩
    · obtain ⟨b, inside, related⟩ := ih later
      exact ⟨b, List.mem_cons_of_mem _ inside, related⟩

theorem exists_left_of_forall₂ {α β : Type} {R : α → β → Prop} {as : List α} {bs : List β}
    (all : List.Forall₂ R as bs) {b : β} (member : b ∈ bs) : ∃ a ∈ as, R a b :=
  exists_right_of_forall₂ (R := fun b a => R a b) (List.Forall₂.flip all) member

namespace NodeDump

theorem Gives.holds {d m : NodeDump} {n : Node} (gives : d.Gives n) (reaches : d.Reaches m) :
    ∃ n', n.Holds n' ∧ m.Gives n' := by
  induction reaches with
  | refl => exact ⟨n, .refl, gives⟩
  | tail _ member ih =>
    obtain ⟨a, holds, gives⟩ := ih
    obtain ⟨b, inside, gives⟩ := exists_right_of_forall₂ gives.inv.2 member
    exact ⟨b, holds.tail inside, gives⟩

theorem Gives.reaches {d : NodeDump} {n n' : Node} (gives : d.Gives n) (holds : n.Holds n') :
    ∃ m, d.Reaches m ∧ m.Gives n' := by
  induction holds with
  | refl => exact ⟨d, .refl, gives⟩
  | tail _ member ih =>
    obtain ⟨m, reaches, gives⟩ := ih
    obtain ⟨m', inside, gives⟩ := exists_left_of_forall₂ gives.inv.2 member
    exact ⟨m', reaches.tail inside, gives⟩

theorem Passes.exists_gives_iff {d : NodeDump} (there : d ≠ null) (passes : d.Passes) :
    (∃ n, d.Gives n) ↔ ∀ m, d.Reaches m → m.HasFields := by
  constructor
  · rintro ⟨n, gives⟩ m reaches
    obtain ⟨n', _, gives⟩ := gives.holds reaches
    exact gives.inv.1
  · -- a used node is smaller than the one that uses it, and what it reaches is reached from there too
    induction size : sizeOf d using Nat.strongRecOn generalizing d with
    | ind size ih =>
      subst size
      intro fields
      have here := fields d .refl
      refine passes.exists_gives there here fun m member => ?_
      obtain ⟨there, passes⟩ := passes.of_mem_used here member
      exact ih _ (sizeOf_lt_of_mem_used member) there passes rfl fun m' reaches => fields m' (.head member reaches)

end NodeDump

end MesonCheck
