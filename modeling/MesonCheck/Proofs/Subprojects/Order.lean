import Mathlib.Data.Set.Finite.Basic
import Mathlib.Logic.Relation
import MesonCheck.Proofs.Subprojects.Countdown
import MesonCheck.Subprojects.Resolve

/-! The order in which subprojects are analysed. Taking off level by level what uses nothing of the rest leaves a set in
which every member uses another one. Such a set holds a cycle, unless it is empty; so once the members of cycles are
gone, everything can be taken off. -/
namespace MesonCheck

open Relation (ReflTransGen TransGen)

namespace Graph

def Uses (g : Graph) (a b : String) : Prop :=
  (∃ d ∈ g.declared, d.1 = a ∧ b ∈ d.2) ∧ ∃ d ∈ g.declared, d.1 = b

variable {g : Graph}

theorem mem_dependencies {a b : String} : b ∈ g.dependencies a ↔ g.Uses a b := by
  simp [dependencies, Uses]

theorem mem_names {a : String} : a ∈ g.names ↔ ∃ d ∈ g.declared, d.1 = a := by
  rw [names, Text.mem_sortedUnique, List.mem_map]

theorem Uses.mem_names {a b : String} (uses : g.Uses a b) : b ∈ g.names :=
  Graph.mem_names.mpr uses.2

theorem names_sorted (g : Graph) : g.names.Pairwise (· < ·) :=
  Text.sortedUnique_sorted _

/-! Levels. -/

def At (levels : List (List String)) (k : Nat) (a : String) : Prop :=
  ∃ level, levels[k]? = some level ∧ a ∈ level

theorem At.mem_flatten {levels : List (List String)} {k : Nat} {a : String} (placed : At levels k a) :
    a ∈ levels.flatten := by
  obtain ⟨level, found, member⟩ := placed
  exact List.mem_flatten.mpr ⟨level, List.mem_of_getElem? found, member⟩

theorem exists_at {levels : List (List String)} {a : String} (member : a ∈ levels.flatten) : ∃ k, At levels k a := by
  obtain ⟨level, among, inside⟩ := List.mem_flatten.mp member
  obtain ⟨k, found⟩ := List.mem_iff_getElem?.mp among
  exact ⟨k, level, found, inside⟩

structure Layered (g : Graph) (set : List String) (levels : List (List String)) (left : List String) : Prop where
  parts : (levels.flatten ++ left).Perm set
  inOrder : ∀ level ∈ levels, level.Sublist set
  leftInOrder : left.Sublist set
  stuck : ∀ a ∈ left, ∃ b ∈ left, g.Uses a b
  earlier : ∀ k a b, At levels k a → g.Uses a b → b ∈ set → ∃ j < k, At levels j b

theorem mem_ready {set : List String} {a : String} :
    a ∈ g.ready set ↔ a ∈ set ∧ ∀ b, g.Uses a b → b ∉ set := by
  simp [ready, mem_dependencies]

theorem mem_unready {set : List String} {a : String} (member : a ∈ set) (later : a ∉ g.ready set) :
    ∃ b ∈ set, g.Uses a b := by
  simpa [mem_ready, member, and_comm] using later

theorem layered_ready {set : List String} {levels : List (List String)} {left : List String}
    (rest : Layered g (set.filter (!(g.ready set).contains ·)) levels left) :
    Layered g set (g.ready set :: levels) left where
  parts := by
    have split : (g.ready set ++ set.filter (!(g.ready set).contains ·)).Perm set := by
      have same : g.ready set = set.filter ((g.ready set).contains ·) := by
        refine List.filter_congr fun a member => ?_
        rw [Bool.eq_iff_iff, List.contains_iff_mem, ready, List.mem_filter, and_iff_right member]
      nth_rewrite 1 [same]
      exact List.filter_append_perm _ set
    rw [List.flatten_cons, List.append_assoc]
    exact (rest.parts.append_left _).trans split
  inOrder := by
    refine List.forall_mem_cons.mpr ⟨List.filter_sublist, fun level member => ?_⟩
    exact (rest.inOrder level member).trans List.filter_sublist
  leftInOrder := rest.leftInOrder.trans List.filter_sublist
  stuck := rest.stuck
  earlier := by
    rintro k a b ⟨level, found, member⟩ uses inside
    cases k with
    | zero =>
      cases Option.some.inj found
      exact absurd inside ((mem_ready.mp member).2 b uses)
    | succ k =>
      by_cases first : b ∈ g.ready set
      · exact ⟨0, k.succ_pos, _, rfl, first⟩
      · have remains : b ∈ set.filter (!(g.ready set).contains ·) := by simp [inside, first]
        obtain ⟨j, before, placed⟩ := rest.earlier k a b ⟨level, found, member⟩ uses remains
        exact ⟨j + 1, Nat.succ_lt_succ before, placed⟩

theorem peel_layered (g : Graph) (fuel : Nat) (set : List String) (enough : set.length ≤ fuel) :
    Layered g set (g.peel fuel set).1 (g.peel fuel set).2 := by
  induction fuel generalizing set with
  | zero =>
    cases List.eq_nil_of_length_eq_zero (Nat.le_zero.mp enough)
    exact ⟨.nil, by simp [peel], .slnil, by simp [peel], by simp [peel, At]⟩
  | succ fuel ih =>
    cases found : g.ready set with
    | nil =>
      have stop : g.peel (fuel + 1) set = ([], set) := by
        rw [peel, found]
      rw [stop]
      refine ⟨.refl set, by simp, .refl set, fun a member => ?_, by simp [At]⟩
      exact mem_unready member (by simp [found])
    | cons n ns =>
      have step : g.peel (fuel + 1) set = (g.ready set :: (g.peel fuel (set.filter (!(g.ready set).contains ·))).1,
          (g.peel fuel (set.filter (!(g.ready set).contains ·))).2) := by
        rw [peel, found]
      rw [step]
      refine layered_ready (ih _ ?_)
      -- at least one member has been taken off
      have member : n ∈ g.ready set := found ▸ List.mem_cons_self
      have fewer : (set.filter (!(g.ready set).contains ·)).length < set.length := by
        refine List.length_filter_lt_length_iff_exists.mpr ⟨n, (mem_ready.mp member).1, ?_⟩
        simp [member]
      omega

theorem layers_layered (g : Graph) (fuel : Nat) {set : List String} (part : set.Sublist g.names)
    (enough : set.length ≤ fuel) : Layered g set (g.layers fuel set).1 (g.layers fuel set).2 := by
  rw [layers_eq_peel (g.names_sorted.sublist part) fun n member => part.subset member]
  exact g.peel_layered fuel set enough

namespace Layered

variable {set : List String} {levels : List (List String)} {left : List String}

theorem mem_left (layered : Layered g set levels left) {a : String} (member : a ∈ left) : a ∈ set :=
  layered.leftInOrder.subset member

theorem at_or_left (layered : Layered g set levels left) {a : String} (member : a ∈ set) :
    (∃ k, At levels k a) ∨ a ∈ left := by
  rcases List.mem_append.mp (layered.parts.mem_iff.mpr member) with placed | stays
  · exact .inl (exists_at placed)
  · exact .inr stays

theorem mem_left_of_closed (layered : Layered g set levels left) {C : String → Prop} (inside : ∀ a, C a → a ∈ set)
    (closed : ∀ a, C a → ∃ b, C b ∧ g.Uses a b) {a : String} (member : C a) : a ∈ left := by
  have never : ∀ k a, C a → ¬ At levels k a := by
    intro k
    induction k using Nat.strongRecOn with
    | ind k ih =>
      intro a member placed
      obtain ⟨b, next, uses⟩ := closed a member
      obtain ⟨j, before, earlier⟩ := layered.earlier k a b placed uses (inside b next)
      exact ih j before b next earlier
  rcases layered.at_or_left (inside a member) with ⟨k, placed⟩ | stays
  · exact absurd placed (never k a member)
  · exact stays

end Layered

/-! Cycles. -/

theorem exists_cycle {set : List String} (stuck : ∀ a ∈ set, ∃ b ∈ set, g.Uses a b) {a : String} (member : a ∈ set) :
    ∃ c ∈ set, TransGen g.Uses c c := by
  by_contra none
  let Behind (x y : { n // n ∈ set }) : Prop := TransGen g.Uses y.1 x.1
  have : IsTrans _ Behind := ⟨fun _ _ _ first second => TransGen.trans second first⟩
  have : Std.Irrefl Behind := ⟨fun x cycle => none ⟨x.1, x.2, cycle⟩⟩
  have : Finite { n // n ∈ set } := List.finite_toSet set
  refine (Finite.wellFounded_of_trans_of_irrefl Behind).induction (C := fun _ => False) ⟨a, member⟩ ?_
  rintro ⟨m, among⟩ none_behind
  obtain ⟨b, next, uses⟩ := stuck m among
  exact none_behind ⟨b, next⟩ (.single uses)

def UsesIn (g : Graph) (set : List String) (a b : String) : Prop :=
  g.Uses a b ∧ b ∈ set

def Closed (g : Graph) (set part : List String) : Prop :=
  ∀ a ∈ part, ∀ b, g.UsesIn set a b → b ∈ part

theorem Closed.mem_of_reach {set part : List String} (closed : g.Closed set part) {a b : String} (member : a ∈ part)
    (path : ReflTransGen (g.UsesIn set) a b) : b ∈ part := by
  induction path with
  | refl => exact member
  | tail _ uses ih => exact closed _ ih _ uses

theorem dropWhile_cases (set visited stack : List String) :
    (stack.dropWhile (fun n => !set.contains n || visited.contains n) = [] ∧ ∀ m ∈ stack, m ∈ set → m ∈ visited) ∨
    ∃ passed n rest, stack = passed ++ n :: rest ∧ (∀ m ∈ passed, m ∈ set → m ∈ visited) ∧ n ∈ set ∧ n ∉ visited ∧
      stack.dropWhile (fun n => !set.contains n || visited.contains n) = n :: rest := by
  induction stack with
  | nil => exact .inl ⟨rfl, by simp⟩
  | cons m stack ih =>
    by_cases skipped : (!set.contains m || visited.contains m) = true
    · have known : m ∈ set → m ∈ visited := by simpa [Decidable.imp_iff_not_or] using skipped
      rw [List.dropWhile_cons_of_pos (p := fun n => !set.contains n || visited.contains n) skipped]
      rcases ih with ⟨empty, all⟩ | ⟨passed, n, rest, rfl, all, next⟩
      · exact .inl ⟨empty, List.forall_mem_cons.mpr ⟨known, all⟩⟩
      · exact .inr ⟨m :: passed, n, rest, rfl, List.forall_mem_cons.mpr ⟨known, all⟩, next⟩
    · have fresh : m ∈ set ∧ m ∉ visited := by simpa using skipped
      exact .inr ⟨[], m, stack, rfl, by simp, fresh.1, fresh.2, List.dropWhile_cons_of_neg skipped⟩

theorem descend_sound {set stack visited : List String} {goal : String} {fuel : Nat}
    (found : g.descend set goal fuel stack visited = true) :
    ∃ n ∈ stack, n ∈ set ∧ ReflTransGen (g.UsesIn set) n goal := by
  induction fuel generalizing stack visited with
  | zero => cases found
  | succ fuel ih =>
    rcases dropWhile_cases set visited stack with ⟨empty, _⟩ | ⟨passed, n, rest, rfl, _, member, _, next⟩
    · rw [descend, empty] at found
      cases found
    · rw [descend, next] at found
      have here : n ∈ passed ++ n :: rest := by simp
      rcases (Bool.or_eq_true _ _).mp found with same | below
      · exact ⟨n, here, member, by rw [eq_of_beq same]⟩
      · obtain ⟨m, pushed, among, path⟩ := ih below
        rcases List.mem_append.mp pushed with used | older
        · have uses : g.Uses n m := mem_dependencies.mp (List.mem_reverse.mp used)
          exact ⟨n, here, member, .head ⟨uses, among⟩ path⟩
        · exact ⟨m, by simp [older], among, path⟩

/-- A search that fails has visited whatever can be reached. The invariant is that what a visited name uses has been
visited or is on the stack. -/
theorem descend_complete {set stack visited : List String} {goal : String} {fuel : Nat}
    (enough : (set.filter (!visited.contains ·)).length ≤ fuel)
    (pending : ∀ a ∈ visited, ∀ b, g.UsesIn set a b → b ∈ visited ∨ b ∈ stack) (missed : goal ∉ visited)
    (failed : g.descend set goal fuel stack visited = false) :
    ∃ part, g.Closed set part ∧ goal ∉ part ∧ visited ⊆ part ∧ ∀ n ∈ stack, n ∈ set → n ∈ part := by
  induction fuel generalizing stack visited with
  | zero =>
    have all := List.filter_eq_nil_iff.mp (List.eq_nil_of_length_eq_zero (Nat.le_zero.mp enough))
    have known : ∀ n ∈ set, n ∈ visited := fun n member => by simpa using all n member
    exact ⟨visited, fun _ _ b uses => known b uses.2, missed, List.Subset.refl _, fun n _ => known n⟩
  | succ fuel ih =>
    rcases dropWhile_cases set visited stack with ⟨empty, known⟩ | ⟨passed, n, rest, rfl, known, member, fresh, next⟩
    · refine ⟨visited, fun a there b uses => ?_, missed, List.Subset.refl _, known⟩
      exact (pending a there b uses).elim id fun waiting => known b waiting uses.2
    · rw [descend, next] at failed
      obtain ⟨other, below⟩ := (Bool.or_eq_false_iff).mp failed
      have fewer : (set.filter (!(n :: visited).contains ·)).length < (set.filter (!visited.contains ·)).length := by
        have same : set.filter (!(n :: visited).contains ·) = (set.filter (!visited.contains ·)).filter (· != n) := by
          rw [List.filter_filter]
          refine List.filter_congr fun m _ => ?_
          rw [List.contains_cons, Bool.not_or]
          rfl
        rw [same]
        exact List.length_filter_lt_length_iff_exists.mpr ⟨n, by simp [member, fresh], by simp⟩
      have pending' : ∀ a ∈ n :: visited, ∀ b, g.UsesIn set a b →
          b ∈ n :: visited ∨ b ∈ (g.dependencies n).reverse ++ rest := by
        intro a there b uses
        rcases List.mem_cons.mp there with rfl | there
        · exact .inr (List.mem_append_left _ (List.mem_reverse.mpr (mem_dependencies.mpr uses.1)))
        · rcases pending a there b uses with visited | waiting
          · exact .inl (List.mem_cons_of_mem n visited)
          · rcases List.mem_append.mp waiting with skipped | waiting
            · exact .inl (List.mem_cons_of_mem n (known b skipped uses.2))
            · rcases List.mem_cons.mp waiting with rfl | waiting
              · exact .inl List.mem_cons_self
              · exact .inr (List.mem_append_right _ waiting)
      have missed' : goal ∉ n :: visited :=
        List.not_mem_cons_of_ne_of_not_mem (Ne.symm (ne_of_beq_false other)) missed
      obtain ⟨part, closed, out, visited_in, stacked⟩ := ih (by omega) pending' missed' below
      refine ⟨part, closed, out, fun m there => visited_in (List.mem_cons_of_mem n there), fun m waiting among => ?_⟩
      rcases List.mem_append.mp waiting with skipped | waiting
      · exact visited_in (List.mem_cons_of_mem n (known m skipped among))
      · rcases List.mem_cons.mp waiting with rfl | waiting
        · exact visited_in List.mem_cons_self
        · exact stacked m (List.mem_append_right _ waiting) among

theorem reaches_iff {set : List String} {a b : String} : g.reaches set a b = true ↔ TransGen (g.UsesIn set) a b := by
  have first : ∀ c, c ∈ (g.dependencies a).reverse ↔ g.Uses a c := by simp [mem_dependencies]
  constructor
  · intro found
    obtain ⟨c, next, member, path⟩ := descend_sound found
    exact .head' ⟨(first c).mp next, member⟩ path
  · intro path
    by_contra failed
    obtain ⟨part, closed, missed, -, started⟩ :=
      descend_complete (List.length_filter_le _ set) (by simp) List.not_mem_nil (Bool.eq_false_iff.mpr failed)
    obtain ⟨c, next, rest⟩ := TransGen.head'_iff.mp path
    exact missed (closed.mem_of_reach (started c ((first c).mpr next.1) next.2) rest)

theorem ordered_layered (g : Graph) : Layered g g.names g.ordered.1 g.ordered.2 :=
  g.layers_layered _ (.refl _) (Nat.le_refl _)

theorem usesIn_of_cycle {a : String} (cycle : TransGen g.Uses a a) :
    a ∈ g.ordered.2 ∧ TransGen (g.UsesIn g.ordered.2) a a := by
  have stays {b : String} (there : TransGen g.Uses a b) (back : TransGen g.Uses b a) : b ∈ g.ordered.2 := by
    refine g.ordered_layered.mem_left_of_closed
      (C := fun b => TransGen g.Uses a b ∧ TransGen g.Uses b a) ?_ ?_ ⟨there, back⟩
    · rintro b ⟨there, -⟩
      obtain ⟨c, -, uses⟩ := TransGen.tail'_iff.mp there
      exact uses.mem_names
    · rintro b ⟨there, back⟩
      obtain ⟨c, uses, rest⟩ := TransGen.head'_iff.mp back
      exact ⟨c, ⟨.tail there uses, .trans_right rest cycle⟩, uses⟩
  have inside {b : String} (there : TransGen g.Uses a b) (back : ReflTransGen g.Uses b a) :
      ReflTransGen (g.UsesIn g.ordered.2) b a := by
    induction back using ReflTransGen.head_induction_on with
    | refl => exact .refl
    | head uses rest ih =>
      have further := TransGen.tail there uses
      exact .head ⟨uses, stays further (.trans_right rest cycle)⟩ (ih further)
  obtain ⟨b, uses, rest⟩ := TransGen.head'_iff.mp cycle
  refine ⟨stays cycle cycle, .head' ⟨uses, stays (.single uses) (.trans_right rest cycle)⟩ ?_⟩
  exact inside (.single uses) rest

theorem mem_cyclic {a : String} : a ∈ g.cyclic ↔ TransGen g.Uses a a := by
  rw [cyclic, List.mem_filter, reaches_iff]
  constructor
  · rintro ⟨-, cycle⟩
    exact TransGen.mono (fun _ _ uses => uses.1) _ _ cycle
  · exact usesIn_of_cycle

/-! The order of the analysis. -/

def behindCycles (g : Graph) : List String :=
  g.ordered.2.filter (!g.cyclic.contains ·)

theorem levels_eq (g : Graph) :
    g.levels = g.ordered.1 ++ (g.layers g.behindCycles.length g.behindCycles).1 := rfl

theorem behindCycles_sublist (g : Graph) : g.behindCycles.Sublist g.names :=
  List.filter_sublist.trans g.ordered_layered.leftInOrder

theorem behindCycles_layered (g : Graph) :
    Layered g g.behindCycles (g.layers g.behindCycles.length g.behindCycles).1 [] := by
  have layered := g.layers_layered _ g.behindCycles_sublist (Nat.le_refl _)
  have none : (g.layers g.behindCycles.length g.behindCycles).2 = [] := by
    refine List.eq_nil_iff_forall_not_mem.mpr fun a member => ?_
    obtain ⟨c, among, cycle⟩ := exists_cycle layered.stuck member
    have free := (List.mem_filter.mp (layered.mem_left among)).2
    simp [mem_cyclic.mpr cycle] at free
  exact none ▸ layered

theorem at_append_left {levels more : List (List String)} {k : Nat} {a : String} (placed : At levels k a) :
    At (levels ++ more) k a := by
  obtain ⟨level, found, member⟩ := placed
  exact ⟨level, List.getElem?_append_left (List.getElem?_eq_some_iff.mp found).1 ▸ found, member⟩

theorem at_append_right {levels more : List (List String)} {k : Nat} {a : String} (placed : At more k a) :
    At (levels ++ more) (levels.length + k) a := by
  obtain ⟨level, found, member⟩ := placed
  refine ⟨level, ?_, member⟩
  rw [List.getElem?_append_right (Nat.le_add_right ..), Nat.add_sub_cancel_left, found]

theorem levels_parts (g : Graph) : (g.levels.flatten ++ g.cyclic).Perm g.names := by
  have second := g.behindCycles_layered.parts
  rw [List.append_nil] at second
  have rest : (g.behindCycles ++ g.cyclic).Perm g.ordered.2 := by
    have same : g.cyclic = g.ordered.2.filter (g.cyclic.contains ·) := by
      refine List.filter_congr fun a member => ?_
      rw [Bool.eq_iff_iff, List.contains_iff_mem, cyclic, List.mem_filter, and_iff_right member]
    nth_rewrite 1 [same]
    exact List.perm_append_comm.trans (List.filter_append_perm _ _)
  rw [levels_eq, List.flatten_append, List.append_assoc]
  exact (((second.append_right _).trans rest).append_left _).trans g.ordered_layered.parts

theorem levels_sorted (g : Graph) : ∀ level ∈ g.levels, level.Pairwise (· < ·) := by
  intro level member
  rw [levels_eq, List.mem_append] at member
  rcases member with member | member
  · exact g.names_sorted.sublist (g.ordered_layered.inOrder level member)
  · exact g.names_sorted.sublist ((g.behindCycles_layered.inOrder level member).trans g.behindCycles_sublist)

theorem levels_earlier {k : Nat} {a b : String} (placed : At g.levels k a) (uses : g.Uses a b) :
    b ∈ g.cyclic ∨ ∃ j < k, At g.levels j b := by
  rw [levels_eq] at placed ⊢
  obtain ⟨level, found, member⟩ := placed
  rcases Nat.lt_or_ge k g.ordered.1.length with first | second
  · rw [List.getElem?_append_left first] at found
    obtain ⟨j, before, earlier⟩ := g.ordered_layered.earlier k a b ⟨level, found, member⟩ uses uses.mem_names
    exact .inr ⟨j, before, at_append_left earlier⟩
  · rw [List.getElem?_append_right second] at found
    rcases g.ordered_layered.at_or_left uses.mem_names with ⟨j, l, within, inside⟩ | remains
    · have bound := (List.getElem?_eq_some_iff.mp within).1
      exact .inr ⟨j, by omega, at_append_left ⟨l, within, inside⟩⟩
    · by_cases cyclic : b ∈ g.cyclic
      · exact .inl cyclic
      · have behind : b ∈ g.behindCycles := by simp [behindCycles, remains, cyclic]
        obtain ⟨j, before, earlier⟩ := g.behindCycles_layered.earlier _ a b ⟨level, found, member⟩ uses behind
        exact .inr ⟨g.ordered.1.length + j, by omega, at_append_right earlier⟩

/-! Subprojects. -/

theorem ofSubprojects_uses {ss : List Subproject} {a b : String} :
    (ofSubprojects ss).Uses a b ↔ (∃ s ∈ ss, s.name = a ∧ b ∈ s.references) ∧ b ∈ ss.map (·.name) := by
  simp [Uses, ofSubprojects]

theorem ofSubprojects_names (ss : List Subproject) (unique : (ss.map (·.name)).Nodup) :
    (ofSubprojects ss).names.Perm (ss.map (·.name)) := by
  refine (List.perm_ext_iff_of_nodup (Text.nodup_of_sorted (names_sorted _)) unique).mpr fun a => ?_
  simp [mem_names, ofSubprojects]

/-- Every subproject stands in one level, once, or is on a cycle. The levels are sorted, and what a subproject of a
level uses is on a cycle or stands in a level before. -/
theorem levels_partition (ss : List Subproject) (unique : (ss.map (·.name)).Nodup) :
    let g := ofSubprojects ss
    (g.levels.flatten ++ g.cyclic).Perm (ss.map (·.name)) ∧
    (∀ level ∈ g.levels, level.Pairwise (· < ·)) ∧
    ∀ k, ∀ s ∈ ss, At g.levels k s.name → ∀ d ∈ s.references, d ∈ ss.map (·.name) →
      d ∈ g.cyclic ∨ ∃ j < k, At g.levels j d := by
  intro g
  refine ⟨g.levels_parts.trans (ofSubprojects_names ss unique), g.levels_sorted, ?_⟩
  intro k s member placed d asked declared
  exact levels_earlier placed (ofSubprojects_uses.mpr ⟨⟨s, member, rfl, asked⟩, declared⟩)

def sampleUser (name : String) (others : List String) : Subproject where
  name := name
  tree := some (.ofFiles [⟨0, .at .zero, "meson.build", some ⟨.at .zero, others.map fun other =>
    .call (.at .zero) ⟨.at .zero, "subproject"⟩ (.at .zero) [.str (.at .zero) other false]⟩⟩])
  options := none
  provides := []

/-- `a` and `b` use each other, `c` uses `a`, and `e` uses `c`, `d` and one that is not declared. -/
def sampleUsers : List Subproject :=
  [sampleUser "e" ["d", "x", "c"], sampleUser "a" ["b"], sampleUser "b" ["a"], sampleUser "d" [], sampleUser "c" ["a"]]

theorem levels_partition_sample :
    (sampleUsers.map (·.name)).Nodup ∧ (ofSubprojects sampleUsers).levels = [["d"], ["c"], ["e"]] ∧
    (ofSubprojects sampleUsers).cyclic = ["a", "b"] ∧
    ([["d"], ["c"], ["e"]].flatten ++ ["a", "b"]).Perm (sampleUsers.map (·.name)) ∧
    (∃ j < 2, At [["d"], ["c"], ["e"]] j "c") := by
  have unique : (sampleUsers.map (·.name)).Nodup := by decide
  have levels : (ofSubprojects sampleUsers).levels = [["d"], ["c"], ["e"]] := by decide +kernel
  have cyclic : (ofSubprojects sampleUsers).cyclic = ["a", "b"] := by decide +kernel
  have asked : "c" ∈ (sampleUser "e" ["d", "x", "c"]).references := by decide +kernel
  obtain ⟨parts, -, earlier⟩ := levels_partition sampleUsers unique
  rw [levels, cyclic] at parts
  have before := earlier 2 _ List.mem_cons_self (levels ▸ ⟨_, rfl, List.mem_cons_self⟩) "c" asked (by decide)
  rw [levels, cyclic] at before
  exact ⟨unique, levels, cyclic, parts, before.resolve_left (by decide)⟩

end Graph

end MesonCheck
