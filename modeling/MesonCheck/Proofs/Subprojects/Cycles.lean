import Mathlib.Data.List.Chain
import MesonCheck.Proofs.Subprojects.Order

/-! Cycles and the shortest ways around them. The search for a way back goes through the names in the order of their
distance: when a name is looked at, no name that waits is nearer, and every other way from the start has to pass one
that waits. -/
namespace MesonCheck.Graph

open Relation (ReflTransGen TransGen)

def Circuit (g : Graph) (a : String) (path : List String) : Prop :=
  path.IsChain g.Uses ∧ ∃ inner, path = a :: (inner ++ [a])

/-- A way along the uses that starts at `goal`, written backwards. -/
inductive Trail (g : Graph) (goal : String) : List String → Prop where
  | start : Trail g goal [goal]
  | step {a b : String} {path : List String} : Trail g goal (a :: path) → g.Uses a b → Trail g goal (b :: a :: path)

variable {g : Graph} {goal : String}

theorem trail_iff {path : List String} :
    g.Trail goal path ↔ path.IsChain (fun b a => g.Uses a b) ∧ path.getLast? = some goal := by
  induction path with
  | nil => exact ⟨nofun, by simp⟩
  | cons b path ih =>
    cases path with
    | nil =>
      constructor
      · rintro ⟨⟩
        simp
      · rintro ⟨-, last⟩
        cases Option.some.inj last
        exact .start
    | cons a path =>
      rw [List.isChain_cons_cons, List.getLast?_cons_cons, and_assoc, ← ih]
      constructor
      · rintro (_ | ⟨trail, uses⟩)
        exact ⟨uses, trail⟩
      · rintro ⟨uses, trail⟩
        exact .step trail uses

theorem Trail.suffix {a : String} {rest path : List String} (trail : g.Trail goal path) (inside : a :: rest <:+ path) :
    g.Trail goal (a :: rest) := by
  obtain ⟨chain, last⟩ := trail_iff.mp trail
  refine trail_iff.mpr ⟨chain.suffix inside, ?_⟩
  obtain ⟨before, rfl⟩ := inside
  rwa [List.getLast?_append_of_ne_nil _ (by simp)] at last

theorem circuit_iff {path : List String} :
    g.Circuit goal path ↔ ∃ b rest, path = (goal :: b :: rest).reverse ∧ g.Trail goal (b :: rest) ∧ g.Uses b goal := by
  constructor
  · rintro ⟨chain, inner, rfl⟩
    obtain ⟨b, rest, split⟩ := List.exists_cons_of_ne_nil (l := inner.reverse ++ [goal]) (by simp)
    have backwards : (goal :: (inner ++ [goal])).reverse = goal :: b :: rest := by simp [split]
    rw [← List.isChain_reverse, backwards, List.isChain_cons_cons] at chain
    have last : (b :: rest).getLast? = some goal := by simp [← split]
    exact ⟨b, rest, List.reverse_eq_iff.mp backwards, trail_iff.mpr ⟨chain.2, last⟩, chain.1⟩
  · rintro ⟨b, rest, rfl, trail, uses⟩
    obtain ⟨chain, last⟩ := trail_iff.mp trail
    refine ⟨List.isChain_reverse.mpr (List.isChain_cons_cons.mpr ⟨uses, chain⟩), ?_⟩
    obtain ⟨inner, split⟩ := List.getLast?_eq_some_iff.mp last
    exact ⟨inner.reverse, by simp [split]⟩

theorem Trail.reflTransGen {b : String} {rest : List String} (trail : g.Trail goal (b :: rest)) :
    ReflTransGen g.Uses goal b := by
  generalize same : b :: rest = path at trail
  induction trail generalizing b rest with
  | start =>
    cases same
    exact .refl
  | step _ uses ih =>
    cases same
    exact .tail (ih rfl) uses

theorem exists_trail {b : String} (path : ReflTransGen g.Uses goal b) : ∃ rest, g.Trail goal (b :: rest) := by
  induction path with
  | refl => exact ⟨[], .start⟩
  | tail _ uses ih =>
    obtain ⟨rest, trail⟩ := ih
    exact ⟨_, .step trail uses⟩

theorem exists_circuit_iff : (∃ path, g.Circuit goal path) ↔ TransGen g.Uses goal goal := by
  constructor
  · rintro ⟨path, circuit⟩
    obtain ⟨b, rest, -, trail, uses⟩ := circuit_iff.mp circuit
    exact .tail' trail.reflTransGen uses
  · intro cycle
    obtain ⟨b, path, uses⟩ := TransGen.tail'_iff.mp cycle
    obtain ⟨rest, trail⟩ := exists_trail path
    exact ⟨_, circuit_iff.mpr ⟨b, rest, rfl, trail, uses⟩⟩

def distinct : List String → List String
  | [] => []
  | a :: as => a :: (distinct as).filter (· != a)

theorem mem_distinct {a : String} {as : List String} : a ∈ distinct as ↔ a ∈ as := by
  induction as with
  | nil => rfl
  | cons b as ih => by_cases same : a = b <;> simp [distinct, ih, same]

theorem distinct_nodup (as : List String) : (distinct as).Nodup := by
  induction as with
  | nil => exact .nil
  | cons b as ih => exact List.nodup_cons.mpr ⟨by simp, ih.filter _⟩

/-! The search. -/

def Waits (queue : List (List String)) (a : String) : Prop :=
  ∃ rest, a :: rest ∈ queue

def Found (goal : String) (seen : List String) (a : String) : Prop :=
  a = goal ∨ a ∈ seen

structure Searching (g : Graph) (goal : String) (queue : List (List String)) (seen : List String) : Prop where
  trails : ∀ path ∈ queue, g.Trail goal path
  simple : ∀ path ∈ queue, path.Nodup
  found : ∀ path ∈ queue, ∀ a ∈ path, Found goal seen a
  shortest : ∀ a rest path, a :: rest ∈ queue → g.Trail goal (a :: path) → rest.length ≤ path.length
  inOrder : queue.Pairwise (·.length ≤ ·.length)
  narrow : ∀ p ∈ queue, ∀ q ∈ queue, q.length ≤ p.length + 1
  finished : ∀ a, Found goal seen a → ¬ Waits queue a → ¬ g.Uses a goal ∧ ∀ b, g.Uses a b → b ∈ seen
  unique : seen.Nodup
  declared : seen ⊆ g.names

theorem searching_start (g : Graph) (goal : String) : Searching g goal [[goal]] [] where
  trails := by simpa using Trail.start
  simple := by simp
  found := by simp [Found]
  shortest := by
    intro a rest path member _
    cases List.mem_singleton.mp member
    exact Nat.zero_le _
  inOrder := by simp
  narrow := by simp
  finished := by
    rintro a (rfl | seen) idle
    · exact absurd ⟨[], List.mem_singleton.mpr rfl⟩ idle
    · cases seen
  unique := .nil
  declared := by simp

namespace Searching

variable {queue : List (List String)} {seen : List String}

/-- A way that has been looked at to its end passes nothing that waits. -/
theorem frontier (s : Searching g goal queue seen) {path : List String} (trail : g.Trail goal path) :
    (∃ a rest, a :: rest <:+ path ∧ Waits queue a) ∨ ∀ a ∈ path, Found goal seen a ∧ ¬ Waits queue a := by
  induction trail with
  | start =>
    by_cases waits : Waits queue goal
    · exact .inl ⟨goal, [], List.suffix_refl _, waits⟩
    · exact .inr (by simpa using ⟨.inl rfl, waits⟩)
  | @step a b path trail uses ih =>
    rcases ih with ⟨c, rest, inside, waits⟩ | done
    · exact .inl ⟨c, rest, inside.trans (List.suffix_cons ..), waits⟩
    · obtain ⟨found, idle⟩ := done a List.mem_cons_self
      have next : Found goal seen b := .inr ((s.finished a found idle).2 b uses)
      by_cases waits : Waits queue b
      · exact .inl ⟨b, _, List.suffix_refl _, waits⟩
      · exact .inr (List.forall_mem_cons.mpr ⟨⟨next, waits⟩, done⟩)

variable {x : String} {rest : List String}

/-- No way to a name that has not been looked at is shorter than the first one in the queue. -/
theorem length_le (s : Searching g goal ((x :: rest) :: queue) seen) {b : String} {path : List String}
    (trail : g.Trail goal (b :: path)) (ahead : ¬ (Found goal seen b ∧ ¬ Waits ((x :: rest) :: queue) b)) :
    ∃ a tail, a :: tail <:+ b :: path ∧ Found goal seen a ∧ rest.length ≤ tail.length := by
  rcases s.frontier trail with ⟨a, tail, inside, other, waits⟩ | done
  · have first : (x :: rest).length ≤ (a :: other).length := by
      rcases List.mem_cons.mp waits with same | later
      · rw [same]
      · exact (List.pairwise_cons.mp s.inOrder).1 _ later
    have nearest := s.shortest a other tail waits (trail.suffix inside)
    refine ⟨a, tail, inside, s.found _ waits a List.mem_cons_self, ?_⟩
    simp only [List.length_cons] at first
    omega
  · exact absurd (done b List.mem_cons_self) ahead

theorem step (s : Searching g goal ((x :: rest) :: queue) seen) (further : ¬ g.Uses x goal) {fresh : List String}
    (fresh_iff : ∀ b, b ∈ fresh ↔ g.Uses x b ∧ b ∉ seen) (unique : fresh.Nodup) :
    Searching g goal (queue ++ fresh.map (· :: x :: rest)) (seen ++ fresh) := by
  have first : x :: rest ∈ (x :: rest) :: queue := List.mem_cons_self
  have old {path : List String} (member : path ∈ queue) : path ∈ (x :: rest) :: queue := List.mem_cons_of_mem _ member
  have new {b : String} (member : b ∈ fresh) : ¬ Found goal seen b := by
    obtain ⟨uses, unseen⟩ := (fresh_iff b).mp member
    rintro (rfl | seen)
    · exact further uses
    · exact unseen seen
  have found_of_old {a : String} (found : Found goal seen a) : Found goal (seen ++ fresh) a :=
    found.imp_right (List.mem_append_left _)
  have cases_on {P : List String → Prop} (olds : ∀ path ∈ queue, P path) (news : ∀ b ∈ fresh, P (b :: x :: rest)) :
      ∀ path ∈ queue ++ fresh.map (· :: x :: rest), P path := by
    simpa [or_imp, forall_and] using ⟨olds, news⟩
  have atLeast : ∀ path ∈ queue, (x :: rest).length ≤ path.length := (List.pairwise_cons.mp s.inOrder).1
  have atMost : ∀ path ∈ queue, path.length ≤ (x :: rest).length + 1 :=
    fun path member => s.narrow _ first _ (old member)
  refine ⟨?_, ?_, ?_, ?_, ?_, ?_, ?_, ?_, ?_⟩
  · exact cases_on (fun path member => s.trails path (old member))
      fun b member => .step (s.trails _ first) ((fresh_iff b).mp member).1
  · refine cases_on (fun path member => s.simple path (old member)) fun b member => ?_
    exact List.nodup_cons.mpr ⟨fun inside => new member (s.found _ first b inside), s.simple _ first⟩
  · refine cases_on (fun path member a inside => found_of_old (s.found path (old member) a inside)) fun b member => ?_
    refine List.forall_mem_cons.mpr ⟨.inr (List.mem_append_right _ member), ?_⟩
    exact fun a inside => found_of_old (s.found _ first a inside)
  · intro a tail path member trail
    refine cases_on (P := fun p => p = a :: tail → tail.length ≤ path.length) ?_ ?_ _ member rfl
    · rintro _ queued rfl
      exact s.shortest a tail path (old queued) trail
    · rintro b fresh ⟨⟩
      -- the way to the new name passes another one that has been found
      obtain ⟨c, tail, inside, found, longer⟩ := s.length_le trail fun h => new fresh h.1
      rcases List.suffix_cons_iff.mp inside with same | inside
      · cases same
        exact absurd found (new fresh)
      · have := inside.length_le
        simp only [List.length_cons] at this ⊢
        omega
  · refine List.pairwise_append.mpr ⟨(List.pairwise_cons.mp s.inOrder).2, ?_, ?_⟩
    · exact List.pairwise_map.mpr (List.pairwise_of_forall fun _ _ => Nat.le_refl _)
    · intro path member new added
      obtain ⟨b, -, rfl⟩ := List.mem_map.mp added
      exact atMost path member
  · have lengths : ∀ path ∈ queue ++ fresh.map (· :: x :: rest),
        (x :: rest).length ≤ path.length ∧ path.length ≤ (x :: rest).length + 1 :=
      cases_on (fun path member => ⟨atLeast path member, atMost path member⟩) (by simp)
    intro p hp q hq
    have := lengths p hp
    have := lengths q hq
    omega
  · intro a found idle
    have unqueued : ¬ Waits queue a := fun ⟨r, member⟩ => idle ⟨r, List.mem_append_left _ member⟩
    have earlier : Found goal seen a := by
      rcases found with rfl | member
      · exact .inl rfl
      · refine .inr ((List.mem_append.mp member).resolve_right fun added => idle ⟨x :: rest, ?_⟩)
        exact List.mem_append_right _ (List.mem_map_of_mem added)
    by_cases waited : Waits ((x :: rest) :: queue) a
    · obtain ⟨r, member⟩ := waited
      have same := (List.mem_cons.mp member).resolve_right fun later => unqueued ⟨r, later⟩
      cases same
      refine ⟨further, fun b uses => List.mem_append.mpr ?_⟩
      by_cases known : b ∈ seen
      · exact .inl known
      · exact .inr ((fresh_iff b).mpr ⟨uses, known⟩)
    · obtain ⟨away, uses⟩ := s.finished a earlier waited
      exact ⟨away, fun b h => List.mem_append_left _ (uses b h)⟩
  · refine List.nodup_append.mpr ⟨s.unique, unique, ?_⟩
    rintro a known _ added rfl
    exact ((fresh_iff a).mp added).2 known
  · refine List.append_subset.mpr ⟨s.declared, fun b added => ?_⟩
    exact ((fresh_iff b).mp added).1.mem_names

end Searching

/-- A way back to a name that visits nothing twice and is as short as any other. -/
def Shortest (g : Graph) (a : String) (path : List String) : Prop :=
  g.Circuit a path ∧ path.dropLast.Nodup ∧ ∀ other, g.Circuit a other → path.length ≤ other.length

theorem Searching.shortest_circuit {queue : List (List String)} {seen rest : List String} {x : String}
    (s : Searching g goal ((x :: rest) :: queue) seen) (uses : g.Uses x goal) :
    g.Shortest goal (goal :: x :: rest).reverse := by
  have first : x :: rest ∈ (x :: rest) :: queue := List.mem_cons_self
  refine ⟨circuit_iff.mpr ⟨x, rest, rfl, s.trails _ first, uses⟩, ?_, fun other circuit => ?_⟩
  · rw [List.reverse_cons, List.dropLast_concat, List.nodup_reverse]
    exact s.simple _ first
  · obtain ⟨b, path, rfl, trail, back⟩ := circuit_iff.mp circuit
    obtain ⟨a, tail, inside, -, longer⟩ := s.length_le trail fun ⟨found, idle⟩ => (s.finished b found idle).1 back
    have := inside.length_le
    simp only [List.length_reverse, List.length_cons] at this ⊢
    omega

theorem Searching.no_circuit {seen path : List String} (s : Searching g goal [] seen) : ¬ g.Circuit goal path := by
  intro circuit
  obtain ⟨b, rest, -, trail, uses⟩ := circuit_iff.mp circuit
  rcases s.frontier trail with ⟨a, tail, -, other, waits⟩ | done
  · cases waits
  · obtain ⟨found, idle⟩ := done b List.mem_cons_self
    exact (s.finished b found idle).1 uses

/-- The search with whole ways in the queue, written backwards, instead of links. -/
def searchPaths (g : Graph) (goal : String) : Nat → List (List String) → List String → Option (List String)
  | 0, _, _ => none
  | _, [], _ => none
  | fuel + 1, path :: queue, seen =>
    let next := g.dependencies (path.headD goal)
    if next.contains goal then some (goal :: path).reverse
    else
      let fresh := distinct (next.filter (!seen.contains ·))
      searchPaths g goal fuel (queue ++ fresh.map (· :: path)) (seen ++ fresh)

theorem searchPaths_succ (fuel : Nat) (x : String) (rest : List String) (queue : List (List String))
    (seen : List String) :
    g.searchPaths goal (fuel + 1) ((x :: rest) :: queue) seen =
      if (g.dependencies x).contains goal then some (goal :: x :: rest).reverse
      else
        let fresh := distinct ((g.dependencies x).filter (!seen.contains ·))
        g.searchPaths goal fuel (queue ++ fresh.map (· :: x :: rest)) (seen ++ fresh) := rfl

/-- Every round looks at one name, and no name is put into the queue twice. -/
theorem searchPaths_shortest {queue : List (List String)} {seen : List String} (s : Searching g goal queue seen)
    (fuel : Nat) (enough : queue.length + g.names.length ≤ fuel + seen.length) (cycle : ∃ path, g.Circuit goal path) :
    ∃ path, g.searchPaths goal fuel queue seen = some path ∧ g.Shortest goal path := by
  obtain ⟨circuit, closed⟩ := cycle
  induction fuel generalizing queue seen with
  | zero =>
    have bound : seen.length ≤ g.names.length := (s.unique.subperm s.declared).length_le
    cases List.eq_nil_of_length_eq_zero (l := queue) (by omega)
    exact absurd closed s.no_circuit
  | succ fuel ih =>
    cases queue with
    | nil => exact absurd closed s.no_circuit
    | cons path queue =>
      cases path with
      | nil => cases s.trails [] List.mem_cons_self
      | cons x rest =>
        rw [searchPaths_succ]
        by_cases back : g.Uses x goal
        · rw [if_pos (by simpa [mem_dependencies] using back)]
          exact ⟨_, rfl, s.shortest_circuit back⟩
        · rw [if_neg (by simpa [mem_dependencies] using back)]
          have fresh_iff : ∀ b, b ∈ distinct ((g.dependencies x).filter (!seen.contains ·)) ↔
              g.Uses x b ∧ b ∉ seen := by
            simp [mem_distinct, mem_dependencies]
          refine ih (s.step back fresh_iff (distinct_nodup _)) ?_
          simp only [List.length_cons, List.length_append, List.length_map] at enough ⊢
          omega

/-! Links and ways. -/

namespace Frontier

def found (f : Frontier) : List String :=
  (f.links.map (·.1)).reverse

def way (goal : String) (f : Frontier) (name : String) : List String :=
  trace f.links name ++ [goal]

/-- What a search keeps: the start has no link, and all other names that wait have one. -/
structure Linked (goal : String) (f : Frontier) : Prop where
  start : goal ∉ f.found
  waiting : ∀ n ∈ f.queue, n = goal ∨ n ∈ f.found

def add (f : Frontier) (name : String) (fresh : List String) : Frontier :=
  ⟨f.queue ++ fresh, (fresh.map (·, name)).reverse ++ f.links⟩

theorem found_add (f : Frontier) (name : String) (fresh : List String) :
    (f.add name fresh).found = f.found ++ fresh := by
  simp [found, add, Function.comp_def]

end Frontier

theorem trace_of_not_mem {links : List (String × String)} {name : String} (absent : name ∉ links.map (·.1)) :
    trace links name = [] := by
  induction links with
  | nil => rfl
  | cons link links ih =>
    rw [List.map_cons, List.mem_cons, not_or] at absent
    rw [trace, if_neg (Ne.symm absent.1), ih absent.2]

theorem head?_trace {links : List (String × String)} {name : String} (member : name ∈ links.map (·.1)) :
    ∃ rest, trace links name = name :: rest := by
  induction links with
  | nil => cases member
  | cons link links ih =>
    rw [trace]
    split
    · exact ⟨_, rfl⟩
    · rename_i other
      exact ih ((List.mem_cons.mp member).resolve_left fun same => other same.symm)

/-- Links from a name that has none among them go on with the older ones. -/
theorem trace_append {news links : List (String × String)} {name m : String} (from_name : ∀ l ∈ news, l.2 = name)
    (absent : name ∉ news.map (·.1)) :
    trace (news ++ links) m = if m ∈ news.map (·.1) then m :: trace links name else trace links m := by
  induction news generalizing m with
  | nil => simp
  | cons link news ih =>
    obtain ⟨here, rest⟩ := List.forall_mem_cons.mp from_name
    obtain ⟨other, absent⟩ : name ≠ link.1 ∧ name ∉ news.map (·.1) := by simpa using absent
    rw [List.cons_append, trace, ih rest absent, ih rest absent, here, if_neg absent]
    by_cases same : link.1 = m
    · simp [same]
    · simp only [if_neg same, List.map_cons, List.mem_cons, Ne.symm same, false_or]

namespace Frontier

variable {f : Frontier} {name : String} {fresh : List String}

theorem way_add (absent : name ∉ fresh) (m : String) :
    (f.add name fresh).way goal m = if m ∈ fresh then m :: f.way goal name else f.way goal m := by
  have keys : ((fresh.map (·, name)).reverse.map (·.1)) = fresh.reverse := by simp [Function.comp_def]
  have origins : ∀ l ∈ (fresh.map (·, name)).reverse, l.2 = name := by simp
  rw [way, add, trace_append origins (by simpa [keys] using absent), keys]
  simp only [List.mem_reverse]
  split <;> rfl

theorem exists_way (start : goal ∉ f.found) (known : name = goal ∨ name ∈ f.found) :
    ∃ rest, f.way goal name = name :: rest := by
  rcases known with rfl | member
  · refine ⟨[], ?_⟩
    rw [way, trace_of_not_mem (by simpa [found] using start)]
    rfl
  · obtain ⟨rest, traced⟩ := head?_trace (by simpa [found] using member)
    exact ⟨rest ++ [goal], by rw [way, traced, List.cons_append]⟩

theorem Linked.add {queue : List String} {links : List (String × String)} (linked : Linked goal ⟨name :: queue, links⟩)
    (new : ∀ n ∈ fresh, n ≠ goal) : Linked goal (Frontier.add ⟨queue, links⟩ name fresh) := by
  constructor
  · rw [found_add]
    exact List.not_mem_append linked.start fun member => new goal member rfl
  · rw [found_add]
    intro n waiting
    rcases List.mem_append.mp waiting with old | member
    · exact (linked.waiting n (List.mem_cons_of_mem name old)).imp_right (List.mem_append_left _)
    · exact .inr (List.mem_append_right _ member)

end Frontier

theorem distinct_filter (p : String → Bool) (as : List String) : distinct (as.filter p) = (distinct as).filter p := by
  induction as with
  | nil => rfl
  | cons a as ih =>
    by_cases keep : p a = true
    · rw [List.filter_cons_of_pos keep, distinct, distinct, List.filter_cons_of_pos keep, ih, List.filter_filter,
        List.filter_filter]
      simp only [Bool.and_comm]
    · rw [List.filter_cons_of_neg keep, distinct, List.filter_cons_of_neg keep, ih, List.filter_filter]
      refine List.filter_congr fun b _ => ?_
      by_cases same : b = a <;> simp_all

theorem explore_eq {name : String} {f : Frontier} (start : goal ∉ f.found) (known : name = goal ∨ name ∈ f.found)
    (deps : List String) :
    explore goal name deps f =
      if goal ∈ deps then .inl (goal :: f.way goal name).reverse
      else .inr (f.add name (distinct (deps.filter (!f.found.contains ·)))) := by
  induction deps generalizing f with
  | nil => simp [explore, Frontier.add, distinct]
  | cons dep deps ih =>
    rw [explore]
    by_cases back : dep = goal
    · subst back
      simp [Frontier.way]
    · have met : f.links.any (·.1 == dep) = f.found.contains dep := by
        rw [Bool.eq_iff_iff]
        simp [Frontier.found]
      rw [if_neg back, met]
      by_cases old : f.found.contains dep = true
      · have rest := ih start known
        simp only [old, if_true, rest, List.mem_cons, Ne.symm back, false_or, List.filter_cons, Bool.not_true,
          Bool.false_eq_true, if_false]
      · let next := f.add name [dep]
        have found : next.found = f.found ++ [dep] := f.found_add name [dep]
        have fresh : dep ∉ f.found := by simpa using old
        have apart : dep ≠ name := by
          rintro rfl
          exact known.elim back fresh
        have rest := ih (f := next) (by simp [found, start, Ne.symm back]) (by simp [found]; tauto)
        have way : next.way goal name = f.way goal name := by
          rw [Frontier.way, Frontier.way]
          exact congrArg (· ++ [goal]) (if_neg apart)
        have names : distinct ((dep :: deps).filter (!f.found.contains ·)) =
            dep :: distinct (deps.filter (!next.found.contains ·)) := by
          rw [List.filter_cons_of_pos (by simpa using fresh), distinct, ← distinct_filter, List.filter_filter, found]
          congr 2
          refine List.filter_congr fun b _ => ?_
          rw [List.contains_append, Bool.not_or, Bool.and_comm]
          simp [bne, Bool.beq_eq_decide_eq, eq_comm]
        have added : next.add name (distinct (deps.filter (!next.found.contains ·))) =
            f.add name (dep :: distinct (deps.filter (!next.found.contains ·))) := by
          simp [next, Frontier.add]
        rw [if_neg old, names, ← added, ← way]
        simp only [List.mem_cons, Ne.symm back, false_or]
        exact rest

theorem search_eq_searchPaths {f : Frontier} (linked : f.Linked goal) (fuel : Nat) :
    g.search goal fuel f = g.searchPaths goal fuel (f.queue.map (f.way goal)) f.found := by
  induction fuel generalizing f with
  | zero => rfl
  | succ fuel ih =>
    obtain ⟨queue, links⟩ := f
    cases queue with
    | nil => rfl
    | cons name queue =>
      let f : Frontier := ⟨queue, links⟩
      have start : goal ∉ f.found := linked.start
      have known : name = goal ∨ name ∈ f.found := linked.waiting name List.mem_cons_self
      obtain ⟨rest, way⟩ := Frontier.exists_way start known
      rw [search, explore_eq start known, List.map_cons]
      change _ = g.searchPaths goal (fuel + 1) (f.way goal name :: queue.map (f.way goal)) f.found
      rw [way, searchPaths_succ, ← way]
      by_cases back : goal ∈ g.dependencies name
      · simp only [if_pos back, List.contains_iff_mem.mpr back, if_true]
      · let fresh := distinct ((g.dependencies name).filter (!f.found.contains ·))
        have new : ∀ n ∈ fresh, n ≠ goal ∧ n ∉ f.found := by
          intro n member
          obtain ⟨used, unknown⟩ := List.mem_filter.mp (mem_distinct.mp member)
          exact ⟨fun same => back (same ▸ used), by simpa using unknown⟩
        have older {n : String} (old : n = goal ∨ n ∈ f.found) : n ∉ fresh := fun member =>
          old.elim (new n member).1 (new n member).2
        have ways : (f.add name fresh).queue.map ((f.add name fresh).way goal) =
            queue.map (f.way goal) ++ fresh.map (· :: f.way goal name) := by
          refine List.map_append.trans (congrArg₂ (· ++ ·) ?_ ?_)
          · refine List.map_congr_left fun n waiting => ?_
            rw [Frontier.way_add (older known), if_neg (older (linked.waiting n (List.mem_cons_of_mem name waiting)))]
          · refine List.map_congr_left fun n member => ?_
            rw [Frontier.way_add (older known), if_pos member]
        simp only [if_neg back, mt List.contains_iff_mem.mp back, Bool.false_eq_true, if_false]
        rw [ih (linked.add fun n member => (new n member).1), ways, f.found_add]

/-- The subprojects on cycles are exactly those that use themselves in some way. For each of them the path that explains
it leads from it back to it along the uses, visits nothing twice and is as short as any; for no other name is there a
path. -/
theorem cyclePath_shortest (ss : List Subproject) :
    let g := ofSubprojects ss
    (∀ a, a ∈ g.cyclic ↔ ∃ path, g.Circuit a path) ∧
    (∀ a ∈ g.cyclic, ∃ inner, g.cyclePath a = some (a :: (inner ++ [a])) ∧
      (a :: (inner ++ [a])).IsChain g.Uses ∧ (a :: inner).Nodup ∧
      ∀ path, g.Circuit a path → (a :: (inner ++ [a])).length ≤ path.length) ∧
    ∀ a, a ∉ g.cyclic → g.cyclePath a = none := by
  intro g
  have cyclic_iff : ∀ a, a ∈ g.cyclic ↔ ∃ path, g.Circuit a path := fun a => mem_cyclic.trans exists_circuit_iff.symm
  refine ⟨cyclic_iff, fun a member => ?_, fun a other => ?_⟩
  · obtain ⟨path, found, ⟨chain, inner, rfl⟩, simple, shortest⟩ :=
      searchPaths_shortest (g.searching_start a) (g.names.length + 1) (by simp; omega) ((cyclic_iff a).mp member)
    have start : Frontier.Linked a ⟨[a], []⟩ := ⟨by simp [Frontier.found], by simp⟩
    refine ⟨inner, ?_, chain, ?_, shortest⟩
    · rw [cyclePath, if_pos (by simpa using member), search_eq_searchPaths start]
      exact found
    · rwa [← List.cons_append, List.dropLast_concat] at simple
  · rw [cyclePath, if_neg (by simpa using other)]

/-- Two cycles that share a part: `a`, `b` and `c` use each other in turn, and `c` uses `b` as well. -/
def sampleKnot : List Subproject :=
  [sampleUser "c" ["a", "b"], sampleUser "a" ["b"], sampleUser "b" ["c"], sampleUser "d" ["a"]]

theorem cyclePath_shortest_sample :
    (ofSubprojects sampleKnot).cyclic = ["a", "b", "c"] ∧
    (ofSubprojects sampleKnot).cyclePath "a" = some ["a", "b", "c", "a"] ∧
    (∀ path, (ofSubprojects sampleKnot).Circuit "a" path → 4 ≤ path.length) ∧
    (ofSubprojects sampleKnot).cyclePath "b" = some ["b", "c", "b"] ∧
    (ofSubprojects sampleKnot).cyclePath "d" = none := by
  have cyclic : (ofSubprojects sampleKnot).cyclic = ["a", "b", "c"] := by decide +kernel
  have around : (ofSubprojects sampleKnot).cyclePath "a" = some ["a", "b", "c", "a"] := by decide +kernel
  have across : (ofSubprojects sampleKnot).cyclePath "b" = some ["b", "c", "b"] := by decide +kernel
  obtain ⟨-, explained, others⟩ := cyclePath_shortest sampleKnot
  obtain ⟨inner, found, -, -, shortest⟩ := explained "a" (by simp [cyclic])
  refine ⟨cyclic, around, fun path circuit => ?_, across, others "d" (by simp [cyclic])⟩
  have same := Option.some.inj (around.symm.trans found)
  have length := shortest path circuit
  rw [← same] at length
  exact length

end MesonCheck.Graph
