import Mathlib.Data.List.Sort
import MesonCheck.Text.Sorted

/-! Sorted lists of texts: what they hold, and that an increasing list is known by what it holds. -/
namespace MesonCheck.Text

theorem mem_insertUnique (n m : String) (ms : List String) : n ∈ insertUnique m ms ↔ n = m ∨ n ∈ ms := by
  induction ms with
  | nil => simp [insertUnique]
  | cons k ks ih =>
    unfold insertUnique
    split
    · simp
    · split
      · rename_i same
        simp [same]
      · simp only [List.mem_cons, ih, or_left_comm]

theorem mem_foldl_insertUnique (n : String) (ns ms : List String) :
    n ∈ ns.foldl (fun ms n => insertUnique n ms) ms ↔ n ∈ ns ∨ n ∈ ms := by
  induction ns generalizing ms with
  | nil => simp
  | cons k ks ih =>
    rw [List.foldl_cons, ih, mem_insertUnique, List.mem_cons, or_left_comm, or_assoc]

theorem mem_sortedUnique (n : String) (ns : List String) : n ∈ sortedUnique ns ↔ n ∈ ns := by
  induction ns with
  | nil => rfl
  | cons m ms ih =>
    rw [List.mem_cons, ← ih]
    exact mem_insertUnique n m _

theorem insertUnique_sorted (n : String) (ns : List String) (sorted : ns.Pairwise (· < ·)) :
    (insertUnique n ns).Pairwise (· < ·) := by
  induction ns with
  | nil => simp [insertUnique]
  | cons m ms ih =>
    have hp := List.pairwise_cons.mp sorted
    unfold insertUnique
    split
    · rename_i lt
      refine List.pairwise_cons.mpr ⟨?_, sorted⟩
      intro k hk
      rcases List.mem_cons.mp hk with rfl | hk
      · exact lt
      · exact String.lt_trans lt (hp.1 k hk)
    · split
      · exact sorted
      · rename_i nlt ne
        refine List.pairwise_cons.mpr ⟨?_, ih hp.2⟩
        intro k hk
        rcases (mem_insertUnique k n ms).mp hk with rfl | hk
        · apply Classical.byContradiction
          intro h
          exact ne (String.le_antisymm h nlt)
        · exact hp.1 k hk

theorem foldl_insertUnique_sorted (ns ms : List String) (sorted : ms.Pairwise (· < ·)) :
    (ns.foldl (fun ms n => insertUnique n ms) ms).Pairwise (· < ·) := by
  induction ns generalizing ms with
  | nil => exact sorted
  | cons n ns ih => exact ih _ (insertUnique_sorted n ms sorted)

theorem sortedUnique_sorted (ns : List String) : (sortedUnique ns).Pairwise (· < ·) := by
  induction ns with
  | nil => exact List.Pairwise.nil
  | cons n ns ih => exact insertUnique_sorted n _ ih

theorem nodup_of_sorted {ns : List String} (sorted : ns.Pairwise (· < ·)) : ns.Nodup := by
  refine sorted.imp ?_
  intro a b lt eq
  exact String.lt_irrefl a (eq ▸ lt)

theorem sorted_ext {ns ms : List String} (hn : ns.Pairwise (· < ·)) (hm : ms.Pairwise (· < ·))
    (members : ∀ n, n ∈ ns ↔ n ∈ ms) : ns = ms := by
  have perm : ns.Perm ms :=
    (List.perm_ext_iff_of_nodup (nodup_of_sorted hn) (nodup_of_sorted hm)).mpr (members ·)
  exact perm.eq_of_pairwise (fun a b _ _ ab ba => absurd ab (String.lt_asymm ba)) hn hm

/-! Items sorted by a key. -/

variable {α : Type} {key : α → String}

theorem insertOn_eq (a : α) (as : List α) : insertOn key a as = as.orderedInsert (key · ≤ key ·) a := by
  induction as with
  | nil => rfl
  | cons b bs ih => rw [insertOn, List.orderedInsert, ih]

theorem sortedOn_eq (as : List α) : sortedOn key as = as.insertionSort (key · ≤ key ·) := by
  induction as with
  | nil => rfl
  | cons a as ih => exact (congrArg (insertOn key a) ih).trans (insertOn_eq a _)

theorem sortedOn_perm (as : List α) : (sortedOn key as).Perm as := by
  rw [sortedOn_eq]
  exact List.perm_insertionSort _ as

theorem mem_sortedOn {b : α} {as : List α} : b ∈ sortedOn key as ↔ b ∈ as :=
  (sortedOn_perm as).mem_iff

theorem sortedOn_sorted (as : List α) : (sortedOn key as).Pairwise (key · ≤ key ·) := by
  have : Std.Total (α := α) (key · ≤ key ·) := ⟨fun a b => String.le_total (key a) (key b)⟩
  have : IsTrans α (key · ≤ key ·) := ⟨fun _ _ _ => String.le_trans⟩
  rw [sortedOn_eq]
  exact List.pairwise_insertionSort _ as

theorem sorted_eq (ns : List String) : sorted ns = sortedOn (fun n => n) ns := by
  have place : ∀ n ms, insertSorted n ms = insertOn (fun n => n) n ms := by
    intro n ms
    induction ms with
    | nil => rfl
    | cons m ms ih => rw [insertSorted, insertOn, ih]
  rw [sorted, sortedOn]
  congr 1
  funext n ms
  exact place n ms

theorem sorted_eq_of_perm {ns ms : List String} (perm : ns.Perm ms) (increasing : ms.Pairwise (· < ·)) :
    sorted ns = ms := by
  have weakly : ms.Pairwise (· ≤ ·) := increasing.imp fun lt => String.not_lt.mp (String.lt_asymm lt)
  have same : (sortedOn (fun n => n) ns).Perm ms := (sortedOn_perm ns).trans perm
  rw [sorted_eq]
  exact same.eq_of_pairwise (fun _ _ _ _ ab ba => String.le_antisymm ab ba) (sortedOn_sorted ns) weakly

theorem sortedOn_eq_of_perm {as bs : List α} (perm : as.Perm bs) (distinct : (as.map key).Nodup) :
    sortedOn key as = sortedOn key bs := by
  have both : (sortedOn key as).Perm (sortedOn key bs) := ((sortedOn_perm as).trans perm).trans (sortedOn_perm bs).symm
  refine both.eq_of_pairwise ?_ (sortedOn_sorted as) (sortedOn_sorted bs)
  intro a b ha hb ab ba
  have left : a ∈ as := mem_sortedOn.mp ha
  have right : b ∈ as := perm.mem_iff.mpr (mem_sortedOn.mp hb)
  exact List.inj_on_of_nodup_map distinct left right (String.le_antisymm ab ba)

theorem sortedOn_append (as bs : List α) : sortedOn key (as ++ bs) = as.foldr (insertOn key) (sortedOn key bs) :=
  List.foldr_append

theorem find_key_eq_some {as : List α} (distinct : (as.map key).Nodup) {k : String} {a : α} :
    as.find? (key · == k) = some a ↔ a ∈ as ∧ key a = k := by
  constructor
  · intro found
    exact ⟨List.mem_of_find?_eq_some found, by simpa using List.find?_some found⟩
  · rintro ⟨member, rfl⟩
    cases found : as.find? (key · == key a) with
    | none => simpa using List.find?_eq_none.mp found a member
    | some b =>
      have same : key b = key a := by simpa using List.find?_some found
      rw [List.inj_on_of_nodup_map distinct (List.mem_of_find?_eq_some found) member same]

theorem filter_key_eq {as : List α} (distinct : (as.map key).Nodup) {a : α} (member : a ∈ as) :
    as.filter (key · == key a) = [a] := by
  obtain ⟨before, after, rfl⟩ := List.append_of_mem member
  rw [List.map_append, List.map_cons, List.nodup_middle, List.nodup_cons, List.mem_append] at distinct
  have others : ∀ b, b ∈ before ∨ b ∈ after → ¬(key b == key a) = true := by
    intro b here same
    have known := here.imp (List.mem_map_of_mem (f := key)) (List.mem_map_of_mem (f := key))
    exact distinct.1 (beq_iff_eq.mp same ▸ known)
  have itself : (key a == key a) = true := BEq.rfl
  rw [List.filter_append, List.filter_cons, if_pos itself,
    List.filter_eq_nil_iff.mpr fun b here => others b (.inl here),
    List.filter_eq_nil_iff.mpr fun b here => others b (.inr here), List.nil_append]

end MesonCheck.Text
