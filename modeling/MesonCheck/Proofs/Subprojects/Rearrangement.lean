import MesonCheck.Proofs.Subprojects.Cycles

/-! The order in which subprojects are listed does not matter. What a graph computes depends on the names that are
declared and on what each of them uses, and both are kept sorted. -/
namespace MesonCheck.Graph

structure Alike (g g' : Graph) : Prop where
  names : g.names = g'.names
  dependencies : ∀ n, g.dependencies n = g'.dependencies n

namespace Alike

variable {g g' : Graph}

theorem peel (alike : Alike g g') (fuel : Nat) (set : List String) : g.peel fuel set = g'.peel fuel set := by
  induction fuel generalizing set with
  | zero => rfl
  | succ fuel ih => simp only [Graph.peel, ready, alike.dependencies, ih]

/-- The uses may be settled in another order, since the users are declared in another one. -/
theorem layers (alike : Alike g g') (fuel : Nat) {set : List String} (part : set.Sublist g.names) :
    g.layers fuel set = g'.layers fuel set := by
  have increasing := g.names_sorted.sublist part
  have declared : ∀ n ∈ set, n ∈ g.names := fun n member => part.subset member
  have declared' : ∀ n ∈ set, n ∈ g'.names := fun n member => alike.names ▸ declared n member
  rw [layers_eq_peel increasing declared, layers_eq_peel increasing declared', alike.peel]

theorem descend (alike : Alike g g') (set : List String) (goal : String) (fuel : Nat) (stack visited : List String) :
    g.descend set goal fuel stack visited = g'.descend set goal fuel stack visited := by
  induction fuel generalizing stack visited with
  | zero => rfl
  | succ fuel ih => simp only [Graph.descend, alike.dependencies, ih]

theorem ordered (alike : Alike g g') : g.ordered = g'.ordered := by
  rw [Graph.ordered, Graph.ordered, alike.layers _ (.refl _), alike.names]

theorem cyclic (alike : Alike g g') : g.cyclic = g'.cyclic := by
  simp only [Graph.cyclic, reaches, alike.ordered, alike.dependencies, alike.descend]

theorem levels (alike : Alike g g') : g.levels = g'.levels := by
  have behind : g'.behindCycles = g.behindCycles := by
    rw [behindCycles, behindCycles, alike.ordered, alike.cyclic]
  rw [levels_eq, levels_eq, behind, alike.ordered, alike.layers _ g.behindCycles_sublist]

theorem search (alike : Alike g g') (goal : String) (fuel : Nat) (f : Frontier) :
    g.search goal fuel f = g'.search goal fuel f := by
  induction fuel generalizing f with
  | zero => rfl
  | succ fuel ih =>
    obtain ⟨queue, links⟩ := f
    cases queue with
    | nil => rfl
    | cons name queue => simp only [Graph.search, alike.dependencies, ih]

theorem cyclePath (alike : Alike g g') (name : String) : g.cyclePath name = g'.cyclePath name := by
  rw [Graph.cyclePath, Graph.cyclePath, alike.cyclic, alike.names, alike.search]

end Alike

theorem dependencies_of_declared {g : Graph} (unique : (g.declared.map (·.1)).Nodup) {d : String × List String}
    (member : d ∈ g.declared) : g.dependencies d.1 = d.2.filter (g.declared.any fun e => e.1 == ·) := by
  have alone : g.declared.filter (·.1 == d.1) = [d] := Text.filter_key_eq unique member
  rw [dependencies, alone, List.flatMap_singleton]

theorem dependencies_sorted {ss : List Subproject} (unique : (ss.map (·.name)).Nodup) (n : String) :
    ((ofSubprojects ss).dependencies n).Pairwise (· < ·) := by
  by_cases declared : ∃ s ∈ ss, s.name = n
  · obtain ⟨s, member, rfl⟩ := declared
    have distinct : ((ofSubprojects ss).declared.map (·.1)).Nodup := by
      simpa [ofSubprojects, Function.comp_def] using unique
    have entry : (s.name, s.references) ∈ (ofSubprojects ss).declared := List.mem_map_of_mem member
    rw [dependencies_of_declared distinct entry]
    exact (Text.sortedUnique_sorted _).sublist List.filter_sublist
  · have none : (ofSubprojects ss).dependencies n = [] := by
      apply List.eq_nil_iff_forall_not_mem.mpr
      intro b used
      obtain ⟨⟨s, member, named, -⟩, -⟩ := ofSubprojects_uses.mp (mem_dependencies.mp used)
      exact declared ⟨s, member, named⟩
    rw [none]
    exact .nil

theorem alike_of_perm {ss ss' : List Subproject} (unique : (ss.map (·.name)).Nodup) (perm : ss.Perm ss') :
    Alike (ofSubprojects ss) (ofSubprojects ss') where
  names := by
    apply Text.sorted_ext (names_sorted _) (names_sorted _)
    intro n
    simp [mem_names, ofSubprojects, perm.mem_iff]
  dependencies n := by
    have unique' : (ss'.map (·.name)).Nodup := (perm.map _).nodup_iff.mp unique
    apply Text.sorted_ext (dependencies_sorted unique n) (dependencies_sorted unique' n)
    intro b
    simp [mem_dependencies, ofSubprojects_uses, perm.mem_iff]

/-- The levels, the members of cycles, what each subproject uses and the path around each cycle are the same in whatever
order subprojects of different names are listed. -/
theorem same_in_any_listing (ss ss' : List Subproject) (unique : (ss.map (·.name)).Nodup) (perm : ss.Perm ss') :
    (ofSubprojects ss).levels = (ofSubprojects ss').levels ∧
    (ofSubprojects ss).cyclic = (ofSubprojects ss').cyclic ∧
    (∀ n, (ofSubprojects ss).dependencies n = (ofSubprojects ss').dependencies n) ∧
    ∀ n, (ofSubprojects ss).cyclePath n = (ofSubprojects ss').cyclePath n := by
  have alike := alike_of_perm unique perm
  exact ⟨alike.levels, alike.cyclic, alike.dependencies, alike.cyclePath⟩

theorem same_in_any_listing_sample :
    (sampleUsers.map (·.name)).Nodup ∧ sampleUsers.Perm sampleUsers.reverse ∧
    (ofSubprojects sampleUsers).dependents "a" = ["b", "c"] ∧
    (ofSubprojects sampleUsers.reverse).dependents "a" = ["c", "b"] ∧
    (ofSubprojects sampleUsers.reverse).levels = [["d"], ["c"], ["e"]] ∧
    (ofSubprojects sampleUsers.reverse).cyclic = ["a", "b"] ∧
    (ofSubprojects sampleUsers.reverse).dependencies "e" = ["c", "d"] ∧
    (ofSubprojects sampleUsers.reverse).cyclePath "b" = some ["b", "a", "b"] := by
  have unique : (sampleUsers.map (·.name)).Nodup := by decide
  have perm : sampleUsers.Perm sampleUsers.reverse := (List.reverse_perm _).symm
  obtain ⟨levels, cyclic, dependencies, cyclePath⟩ := same_in_any_listing _ _ unique perm
  refine ⟨unique, perm, by decide +kernel, by decide +kernel, ?_, ?_, ?_, ?_⟩
  · rw [← levels]
    decide +kernel
  · rw [← cyclic]
    decide +kernel
  · rw [← dependencies]
    decide +kernel
  · rw [← cyclePath]
    decide +kernel

end MesonCheck.Graph
