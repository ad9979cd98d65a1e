import MesonCheck.Analysis.Statement

/-! What rules find wrong with arguments and loops. -/
namespace MesonCheck

theorem Finding.exists_of_across {ss : List Site} {i : Issue} {f : Finding} (found : across? ss i = some f) :
    ∃ a ∈ ss, ∃ b ∈ ss, f = ⟨a, b, i⟩ := by
  unfold across? at found
  split at found
  · rename_i a b first last
    cases found
    exact ⟨a, List.mem_of_mem_head? first, b, List.mem_of_getLast? last, rfl⟩
  · contradiction

def Issue.isMisuse : Issue → Bool
  | .positionalAfterKeyword | .positionalCount .. | .duplicateKeyword _ | .unknownKeyword _ | .missingKeyword _
  | .typeMismatch .. | .unusedParameter | .pointlessFormat | .parametersOutOfBounds _ | .notIterable | .dictNeedsTwoIds
  | .listNeedsOneId => true
  | _ => false

theorem Place.isMisuse_of_loopTypes {ids : Nat} {subject : TypeSet} {issue : Issue}
    (found : (loopTypes ids subject).2 = some issue) : issue.isMisuse = true := by
  unfold loopTypes at found
  split at found
  · dsimp only at found
    split at found
    · contradiction
    · split at found <;> cases found <;> rfl
  · split at found
    · contradiction
    · dsimp only at found
      split at found <;> cases found <;> rfl
  · contradiction

/-! What the passes over arguments can find. -/

namespace Callable

variable {P : Finding → Prop} {site : Site} {args : List Argument}

theorem orderFindings_all (seen : Bool) (each : ∀ a ∈ args, P (a.finding .positionalAfterKeyword)) :
    ∀ x ∈ orderFindings seen args, P x := by
  fun_induction orderFindings seen args with
  | case1 => simp
  | case2 _ _ _ ih =>
    obtain ⟨first, rest⟩ := List.forall_mem_cons.mp each
    exact List.forall_mem_cons.mpr ⟨first, ih rest⟩
  | case3 _ _ _ _ _ ih | case4 _ _ _ _ ih => exact ih (List.forall_mem_cons.mp each).2

theorem countFindings_all (f : Callable) (each : ∀ expected given, P (.about site (.positionalCount expected given))) :
    ∀ x ∈ f.countFindings site args, P x := by
  rw [countFindings, List.forall_mem_append]
  constructor
  · split <;> simp [each]
  · split
    · split <;> simp [each]
    · simp

theorem keywordFindings_all (f : Callable) (used : List String)
    (each : ∀ a ∈ args, ∀ key, P (a.finding (.duplicateKeyword key)) ∧ P (a.finding (.unknownKeyword key))) :
    ∀ x ∈ f.keywordFindings used args, P x := by
  fun_induction keywordFindings f used args with
  | case1 => simp
  | case2 _ _ _ _ ih | case3 _ _ _ _ ih | case6 _ _ _ _ _ _ _ _ ih => exact ih (List.forall_mem_cons.mp each).2
  | case4 _ _ _ _ _ _ _ ih =>
    obtain ⟨first, rest⟩ := List.forall_mem_cons.mp each
    exact List.forall_mem_cons.mpr ⟨(first _).1, ih rest⟩
  | case5 _ _ _ _ _ _ _ _ ih =>
    obtain ⟨first, rest⟩ := List.forall_mem_cons.mp each
    exact List.forall_mem_cons.mpr ⟨(first _).2, ih rest⟩

theorem requiredFindings_all (f : Callable) (each : ∀ k, P (.about site (.missingKeyword k))) :
    ∀ x ∈ f.requiredFindings site args, P x := by
  dsimp only [requiredFindings]
  split
  · simp
  · intro x member
    obtain ⟨k, _, rfl⟩ := List.mem_map.mp member
    exact each k

theorem typeFindings_all (f : Callable) (i : Nat)
    (each : ∀ a ∈ args, ∀ expected, P (a.finding (.typeMismatch expected a.types))) :
    ∀ x ∈ f.typeFindings i args, P x := by
  have typed {a : Argument} (here : ∀ expected, P (a.finding (.typeMismatch expected a.types))) (expected : TypeSet) :
      ∀ x ∈ typeFinding a expected, P x := by
    unfold typeFinding
    split <;> simp [here]
  fun_induction typeFindings f i args with
  | case1 => simp
  | case2 _ _ _ _ _ ih | case3 _ _ _ _ ih =>
    obtain ⟨first, rest⟩ := List.forall_mem_cons.mp each
    refine List.forall_mem_append.mpr ⟨?_, ih rest⟩
    split
    · exact typed first _
    · simp

end Callable

def Misuses (spot : Site → Prop) (fs : List Finding) : Prop :=
  ∀ f ∈ fs, f.issue.isMisuse = true ∧ spot f.first ∧ spot f.last

namespace Misuses

variable {spot : Site → Prop}

theorem nil : Misuses spot [] := by
  simp [Misuses]

theorem cons {f : Finding} {fs : List Finding} (misuse : f.issue.isMisuse = true) (here : spot f.first ∧ spot f.last)
    (tail : Misuses spot fs) : Misuses spot (f :: fs) :=
  List.forall_mem_cons.mpr ⟨⟨misuse, here⟩, tail⟩

theorem append {fs gs : List Finding} (first : Misuses spot fs) (second : Misuses spot gs) : Misuses spot (fs ++ gs) :=
  List.forall_mem_append.mpr ⟨first, second⟩

theorem findings (spot : Site → Prop) (f : Callable) (site : Site) (args : List Argument) (here : spot site)
    (spots : ∀ a ∈ args, spot a.node.site) : Misuses spot (f.findings site args) := by
  refine append (append (append (append ?_ ?_) ?_) ?_) ?_
  · exact Callable.orderFindings_all _ fun a member => ⟨rfl, spots a member, spots a member⟩
  · exact f.countFindings_all fun _ _ => ⟨rfl, here, here⟩
  · exact f.keywordFindings_all _ fun a member _ =>
      ⟨⟨rfl, spots a member, spots a member⟩, rfl, spots a member, spots a member⟩
  · exact f.requiredFindings_all fun _ => ⟨rfl, here, here⟩
  · exact f.typeFindings_all _ fun a member _ => ⟨rfl, spots a member, spots a member⟩

theorem formatFindings (spot : Site → Prop) {call text : Site} (value : String) {args : List Argument}
    (here : spot call) (inside : spot text) (spots : ∀ a ∈ args, spot a.node.site) :
    Misuses spot (formatFindings call text value args) := by
  have unused (i : Nat) (args : List Argument) (spots : ∀ a ∈ args, spot a.node.site) :
      Misuses spot (unusedParameters value i args) := by
    fun_induction unusedParameters value i args with
    | case1 => exact nil
    | case2 _ _ _ _ ih => exact ih (List.forall_mem_cons.mp spots).2
    | case3 _ _ _ _ ih =>
      obtain ⟨first, rest⟩ := List.forall_mem_cons.mp spots
      exact cons rfl ⟨first, first⟩ (ih rest)
  refine append (unused 0 args spots) ?_
  split
  · split
    · exact cons rfl ⟨here, here⟩ nil
    · exact nil
  · exact cons rfl ⟨inside, inside⟩ nil

end Misuses

end MesonCheck
