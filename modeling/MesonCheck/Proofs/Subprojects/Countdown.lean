import Mathlib.Data.List.Count
import MesonCheck.Proofs.Text.Sorted
import MesonCheck.Subprojects.Graph

/-! Levels by counting. What has no open uses is taken off, and then each use of it is settled, in the order in which
the users were declared. The count of a name that is left is how many of the rest it uses; so what is gathered along the
way is, up to its order, what uses none of the rest, and sorting it makes the next level. -/
namespace MesonCheck.Graph

variable {g : Graph} {set rest : List String}

def ready (g : Graph) (set : List String) : List String :=
  set.filter fun n => (g.dependencies n).all (!set.contains ·)

/-- Takes off what is ready, level by level. The second result is what is left then. -/
def peel (g : Graph) : Nat → List String → List (List String) × List String
  | 0, rest => ([], rest)
  | fuel + 1, rest =>
    match g.ready rest with
    | [] => ([], rest)
    | ready =>
      let (levels, left) := peel g fuel (rest.filter (!ready.contains ·))
      (ready :: levels, left)

/-! Numbers of uses. -/

theorem usesOf_eq_zero {n : String} : g.usesOf set n = 0 ↔ ∀ m ∈ g.dependencies n, m ∉ set := by
  simp [usesOf, List.countP_eq_zero]

theorem mem_ready_iff {n : String} : n ∈ g.ready set ↔ n ∈ set ∧ g.usesOf set n = 0 := by
  simp [ready, usesOf_eq_zero]

theorem usesOf_congr {set' : List String} (same : ∀ m, m ∈ set ↔ m ∈ set') (n : String) :
    g.usesOf set n = g.usesOf set' n := by
  simp [usesOf, same]

theorem usesOf_append {part : List String} (apart : ∀ m ∈ part, m ∉ rest) (n : String) :
    g.usesOf (part ++ rest) n = g.usesOf part n + g.usesOf rest n := by
  simp only [usesOf]
  induction g.dependencies n with
  | nil => rfl
  | cons m ms ih =>
    simp only [List.countP_cons, ih]
    by_cases inPart : m ∈ part
    · simp [inPart, apart m inPart]
      omega
    · simp [inPart]
      omega

theorem usesOf_singleton (m n : String) : g.usesOf [m] n = (g.dependencies n).count m := by
  simp only [usesOf, List.count]
  congr 1
  funext x
  rw [Bool.eq_iff_iff]
  simp

theorem count_dependents {m : String} (declared : m ∈ g.names) (n : String) :
    (g.dependents m).count n = (g.dependencies n).count m := by
  have known : (g.declared.any fun d => d.1 == m) = true := by
    simpa [names, Text.mem_sortedUnique] using declared
  rw [dependencies, List.count_filter (p := fun x => g.declared.any fun d => d.1 == x) known, dependents]
  induction g.declared with
  | nil => rfl
  | cons d ds ih =>
    rw [List.flatMap_cons, List.count_append, ih, List.map_const', List.count_replicate]
    by_cases user : d.1 = n
    · simp [user, List.count, List.countP_eq_length_filter]
    · simp [user]

theorem count_users {level : List String} (declared : ∀ m ∈ level, m ∈ g.names) (unique : level.Nodup) (n : String) :
    (level.flatMap g.dependents).count n = g.usesOf level n := by
  induction level with
  | nil => simp [usesOf]
  | cons m ms ih =>
    have ⟨new, rest⟩ := List.nodup_cons.mp unique
    have apart : ∀ x ∈ [m], x ∉ ms := by simpa using new
    have ⟨first, others⟩ := List.forall_mem_cons.mp declared
    have together : g.usesOf (m :: ms) n = g.usesOf [m] n + g.usesOf ms n := usesOf_append apart n
    rw [List.flatMap_cons, List.count_append, count_dependents first, ih others rest, together, usesOf_singleton]

/-! Settling uses. -/

namespace Countdown

variable {c : Countdown}

theorem uses_settle (m n : String) :
    (c.settle set m).uses.getD n 0 = c.uses.getD n 0 - if m ∈ set ∧ m = n then 1 else 0 := by
  by_cases member : m ∈ set
  · by_cases same : m = n
    · subst same
      simp [settle, member]
    · simp [settle, member, same, Std.ExtTreeMap.getD_insert]
  · simp [settle, member]

theorem count_free_settle (m n : String) :
    (c.settle set m).free.count n = c.free.count n + if m ∈ set ∧ m = n ∧ c.uses.getD n 0 = 1 then 1 else 0 := by
  by_cases member : m ∈ set
  · by_cases last : c.uses.getD m 0 = 1
    · by_cases same : m = n
      · subst same
        simp [settle, member, last]
      · simp [settle, member, last, same]
    · have more : ¬ c.uses.getD m 0 - 1 = 0 := by omega
      by_cases same : m = n
      · subst same
        simp [settle, member, last, more]
      · simp [settle, member, more, same]
  · simp [settle, member]

theorem uses_settleAll (users : List String) {n : String} (member : n ∈ set) :
    (users.foldl (settle set) c).uses.getD n 0 = c.uses.getD n 0 - users.count n := by
  induction users generalizing c with
  | nil => simp
  | cons m ms ih =>
    rw [List.foldl_cons, ih, uses_settle, List.count_cons]
    by_cases same : m = n
    · simp [same, member]
      omega
    · simp [same]

/-- A name is gathered, once, when its last open use is settled. -/
theorem count_free_settleAll (users : List String) (enough : ∀ n ∈ set, (users.count n : Int) ≤ c.uses.getD n 0)
    (n : String) :
    (users.foldl (settle set) c).free.count n =
      c.free.count n + if n ∈ set ∧ 0 < users.count n ∧ c.uses.getD n 0 = users.count n then 1 else 0 := by
  induction users generalizing c with
  | nil => simp
  | cons m ms ih =>
    have enough' : ∀ x ∈ set, (ms.count x : Int) ≤ (c.settle set m).uses.getD x 0 := by
      intro x member
      have before := enough x member
      rw [List.count_cons] at before
      rw [uses_settle]
      by_cases same : m = x
      · simp only [same, member, BEq.rfl, if_true, and_self] at before ⊢
        omega
      · simpa [same] using before
    rw [List.foldl_cons, ih enough', uses_settle, count_free_settle, List.count_cons]
    by_cases same : m = n
    · subst same
      by_cases member : m ∈ set
      · have total := enough m member
        rw [List.count_cons_self] at total
        simp only [member, BEq.rfl, if_true, true_and, and_self]
        split_ifs <;> omega
      · simp [member]
    · simp [same]

end Countdown

/-! Stages of the countdown. -/

def remaining (g : Graph) (set : List String) : List String :=
  set.filter (!(g.ready set).contains ·)

theorem mem_remaining {n : String} : n ∈ g.remaining set ↔ n ∈ set ∧ g.usesOf set n ≠ 0 := by
  have taken : (g.ready set).contains n = false ↔ n ∉ g.ready set := by simp
  simp only [remaining, List.mem_filter, Bool.not_eq_true', taken, mem_ready_iff, not_and]
  constructor
  · rintro ⟨member, later⟩
    exact ⟨member, later member⟩
  · rintro ⟨member, some⟩
    exact ⟨member, fun _ => some⟩

theorem usesOf_parts (g : Graph) (set : List String) (n : String) :
    g.usesOf set n = g.usesOf (g.ready set) n + g.usesOf (g.remaining set) n := by
  rw [← usesOf_append]
  · apply usesOf_congr
    intro m
    simp only [List.mem_append, mem_ready_iff, mem_remaining]
    by_cases zero : g.usesOf set m = 0 <;> simp [zero]
  · intro m taken left
    exact (mem_remaining.mp left).2 (mem_ready_iff.mp taken).2

structure Stage (g : Graph) (set rest : List String) (c : Countdown) : Prop where
  inside : ∀ n ∈ rest, n ∈ set
  increasing : rest.Pairwise (· < ·)
  uses : ∀ n ∈ set, c.uses.getD n 0 = g.usesOf rest n
  settled : ∀ n ∈ set, n ∉ rest → g.usesOf rest n = 0
  free : c.free.Perm (g.ready rest)

theorem ready_increasing (increasing : rest.Pairwise (· < ·)) : (g.ready rest).Pairwise (· < ·) :=
  increasing.sublist List.filter_sublist

namespace Stage

variable {c : Countdown}

theorem level (stage : Stage g set rest c) : Text.sorted c.free = g.ready rest :=
  Text.sorted_eq_of_perm stage.free (ready_increasing stage.increasing)

theorem next (stage : Stage g set rest c) (declared : ∀ n ∈ set, n ∈ g.names) :
    Stage g set (g.remaining rest)
      (((g.ready rest).flatMap g.dependents).foldl (Countdown.settle set) { c with free := [] }) := by
  have increasing : (g.remaining rest).Pairwise (· < ·) := stage.increasing.sublist List.filter_sublist
  have known : ∀ n ∈ g.ready rest, n ∈ g.names := by
    intro n taken
    exact declared n (stage.inside n (mem_ready_iff.mp taken).1)
  have settled : ∀ n, ((g.ready rest).flatMap g.dependents).count n = g.usesOf (g.ready rest) n :=
    count_users known (Text.nodup_of_sorted (ready_increasing stage.increasing))
  have parts := g.usesOf_parts rest
  constructor
  · intro n left
    exact stage.inside n (mem_remaining.mp left).1
  · exact increasing
  · intro n member
    have before : c.uses.getD n 0 = g.usesOf rest n := stage.uses n member
    rw [Countdown.uses_settleAll _ member, settled, before, parts n]
    omega
  · intro n member taken
    have total := parts n
    by_cases left : n ∈ rest
    · have zero : g.usesOf rest n = 0 := by simpa [mem_remaining, left] using taken
      omega
    · have zero := stage.settled n member left
      omega
  · apply List.perm_iff_count.mpr
    intro n
    have unique := Text.nodup_of_sorted (ready_increasing (g := g) increasing)
    have enough : ∀ m ∈ set, (((g.ready rest).flatMap g.dependents).count m : Int) ≤
        ({ c with free := [] } : Countdown).uses.getD m 0 := by
      intro m member
      rw [settled, stage.uses m member, parts m]
      omega
    rw [Countdown.count_free_settleAll _ enough, unique.count, settled]
    have total := parts n
    -- a name that is left is gathered exactly if all that it still uses has been taken off
    have gathered : n ∈ g.ready (g.remaining rest) ↔
        n ∈ set ∧ 0 < g.usesOf (g.ready rest) n ∧ c.uses.getD n 0 = g.usesOf (g.ready rest) n := by
      rw [mem_ready_iff, mem_remaining]
      constructor
      · rintro ⟨⟨left, some⟩, zero⟩
        have member := stage.inside n left
        rw [stage.uses n member]
        exact ⟨member, by omega, by omega⟩
      · rintro ⟨member, some, all⟩
        rw [stage.uses n member] at all
        have left : n ∈ rest := by
          by_contra taken
          have zero := stage.settled n member taken
          omega
        exact ⟨⟨left, by omega⟩, by omega⟩
    simp [gathered]

theorem countdown_eq (stage : Stage g set rest c) (declared : ∀ n ∈ set, n ∈ g.names) (fuel : Nat) :
    g.countdown set fuel c = (g.peel fuel rest).1 := by
  induction fuel generalizing rest c with
  | zero => rfl
  | succ fuel ih =>
    rw [countdown, stage.level, peel]
    cases found : g.ready rest with
    | nil => rfl
    | cons n ns =>
      have later := ih (stage.next declared)
      rw [found] at later
      simp only [later, remaining, found]

end Stage

theorem peel_left (g : Graph) (fuel : Nat) (set : List String) :
    (g.peel fuel set).2 = set.filter (!(g.peel fuel set).1.flatten.contains ·) := by
  induction fuel generalizing set with
  | zero => simp [peel]
  | succ fuel ih =>
    rw [peel]
    cases found : g.ready set with
    | nil => simp
    | cons n ns =>
      simp only [ih, List.filter_filter, List.flatten_cons, List.contains_append, Bool.not_or]
      congr 1
      funext m
      exact Bool.and_comm ..

theorem layers_eq_peel (increasing : set.Pairwise (· < ·)) (declared : ∀ n ∈ set, n ∈ g.names) (fuel : Nat) :
    g.layers fuel set = g.peel fuel set := by
  let uses := Std.ExtTreeMap.ofList (set.map fun n => (n, (g.usesOf set n : Int)))
  have counts : ∀ n ∈ set, uses.getD n 0 = g.usesOf set n := by
    intro n member
    have entry : (n, (g.usesOf set n : Int)) ∈ set.map fun n => (n, (g.usesOf set n : Int)) :=
      List.mem_map.mpr ⟨n, member, rfl⟩
    apply Std.ExtTreeMap.getD_ofList_of_mem Std.ReflCmp.compare_self _ entry
    apply List.pairwise_map.mpr
    exact (Text.nodup_of_sorted increasing).imp fun differ same => differ (Std.compare_eq_iff_eq.mp same)
  have start : Stage g set set ⟨uses, set.filter (uses.getD · 0 == 0)⟩ := by
    constructor
    · exact fun n member => member
    · exact increasing
    · exact counts
    · exact fun n member other => absurd member other
    · have same : set.filter (uses.getD · 0 == 0) = g.ready set := by
        apply List.filter_congr
        intro n member
        rw [Bool.eq_iff_iff, counts n member]
        simp [usesOf_eq_zero]
      rw [same]
  have levels := start.countdown_eq declared fuel
  apply Prod.ext
  · exact levels
  · rw [peel_left, ← levels]
    rfl

end MesonCheck.Graph
