import MesonCheck.Text.Placeholder
import MesonCheck.Text.Split

/-! Numbered placeholders of a text. The scanner finds them from left to right, and none begins inside another one; a
search for the written form of one number can hit a place where no placeholder begins. -/
namespace MesonCheck.Text

def placeholderAt? : List Char → Option (List Char × List Char)
  | '@' :: cs =>
    match cs.takeWhile Char.isDigit, cs.dropWhile Char.isDigit with
    | d :: ds, '@' :: rest => some (d :: ds, rest)
    | _, _ => none
  | _ => none

theorem isDigit_at : Char.isDigit '@' = false := rfl

theorem span_digits {ds : List Char} (digits : ∀ d ∈ ds, d.isDigit = true) (rest : List Char) :
    (ds ++ '@' :: rest).takeWhile Char.isDigit = ds ∧ (ds ++ '@' :: rest).dropWhile Char.isDigit = '@' :: rest := by
  constructor
  · rw [List.takeWhile_append_of_pos digits, List.takeWhile_cons_of_neg (by simp [isDigit_at]), List.append_nil]
  · rw [List.dropWhile_append_of_pos digits, List.dropWhile_cons_of_neg (by simp [isDigit_at])]

theorem placeholderAt?_eq_some_iff {cs ds rest : List Char} :
    placeholderAt? cs = some (ds, rest) ↔
      ds ≠ [] ∧ (∀ d ∈ ds, d.isDigit = true) ∧ cs = '@' :: (ds ++ '@' :: rest) := by
  constructor
  · intro found
    unfold placeholderAt? at found
    split at found
    · rename_i cs
      split at found
      · rename_i d ds' rest' taken dropped
        cases found
        refine ⟨List.cons_ne_nil _ _, ?_, ?_⟩
        · rw [← taken]
          exact List.all_eq_true.mp List.all_takeWhile
        · rw [← taken, ← dropped, List.takeWhile_append_dropWhile]
      · contradiction
    · contradiction
  · rintro ⟨some, digits, rfl⟩
    obtain ⟨taken, dropped⟩ := span_digits digits rest
    obtain ⟨d, ds, rfl⟩ := List.exists_cons_of_ne_nil some
    simp only [placeholderAt?, taken, dropped]

theorem length_of_placeholderAt? {cs ds rest : List Char} (found : placeholderAt? cs = some (ds, rest)) :
    rest.length < cs.length := by
  obtain ⟨_, _, rfl⟩ := placeholderAt?_eq_some_iff.mp found
  simp
  omega

def placeholders (cs : List Char) : List (List Char × List Char) :=
  match cs with
  | [] => []
  | c :: cs =>
    match _found : placeholderAt? (c :: cs) with
    | some (ds, rest) => (ds, rest) :: placeholders rest
    | none => placeholders cs
termination_by cs.length
decreasing_by
  · exact length_of_placeholderAt? ‹_›
  · exact Nat.lt_succ_self _

/-! The scanner. -/

abbrev scan : Option (List Char) → List Char → List (List Char) :=
  placeholderChars Char.isDigit Char.isDigit

theorem scan_digits {ds : List Char} (digits : ∀ d ∈ ds, d.isDigit = true) (acc rest : List Char)
    (some : acc.reverse ++ ds ≠ []) : scan (.some acc) (ds ++ '@' :: rest) = (acc.reverse ++ ds) :: scan none rest := by
  induction ds generalizing acc with
  | nil =>
    cases acc with
    | nil => simp at some
    | cons a acc => simp [scan, placeholderChars]
  | cons d ds ih =>
    obtain ⟨digit, digits⟩ := List.forall_mem_cons.mp digits
    have other : d ≠ '@' := by
      rintro rfl
      cases digit
    have step : scan (.some acc) (d :: (ds ++ '@' :: rest)) = scan (.some (d :: acc)) (ds ++ '@' :: rest) := by
      cases acc <;> simp [scan, placeholderChars, other, digit]
    rw [List.cons_append, step, ih digits (d :: acc) (by simp)]
    simp

/-- Characters that do not get to an at sign are as if they were not there. -/
theorem scan_broken {acc cs : List Char}
    (broken : ∀ ds rest, (∀ d ∈ ds, d.isDigit = true) → cs = ds ++ '@' :: rest → acc = [] ∧ ds = []) :
    scan (some acc) cs = scan none cs := by
  -- what has been collected is dropped at the first character that is neither a digit nor an at sign
  induction cs generalizing acc with
  | nil => cases acc <;> rfl
  | cons c cs ih =>
    by_cases sign : c = '@'
    · obtain ⟨rfl, _⟩ := broken [] cs (by simp) (by rw [sign]; rfl)
      simp [scan, placeholderChars, sign]
    · by_cases digit : c.isDigit = true
      · have step : scan (some acc) (c :: cs) = scan (some (c :: acc)) cs := by
          cases acc <;> simp [scan, placeholderChars, sign, digit]
        rw [step, ih]
        · simp [scan, placeholderChars, sign]
        · intro ds rest digits same
          have := (broken (c :: ds) rest (List.forall_mem_cons.mpr ⟨digit, digits⟩) (by rw [same]; rfl)).2
          contradiction
      · cases acc <;> simp [scan, placeholderChars, sign, digit]

theorem scan_none (cs : List Char) : scan none cs = (placeholders cs).map (·.1) := by
  fun_induction placeholders cs with
  | case1 => rfl
  | case2 c cs ds rest found ih =>
    obtain ⟨some, digits, same⟩ := placeholderAt?_eq_some_iff.mp found
    cases same
    rw [List.map_cons, ← ih]
    exact scan_digits digits [] rest some
  | case3 c cs missing ih =>
    rw [← ih]
    by_cases sign : c = '@'
    · have step : scan none (c :: cs) = scan (some []) cs := by simp [scan, placeholderChars, sign]
      rw [step]
      apply scan_broken
      intro ds rest digits same
      refine ⟨rfl, Classical.byContradiction fun nonempty => ?_⟩
      have found : placeholderAt? (c :: cs) = some (ds, rest) :=
        placeholderAt?_eq_some_iff.mpr ⟨nonempty, digits, by rw [sign, same]⟩
      rw [found] at missing
      contradiction
    · simp [scan, placeholderChars, sign]

/-! Searching. -/

theorem afterChars?_isSome_iff (part cs : List Char) : (afterChars? part cs).isSome = true ↔ part <+: cs := by
  induction part generalizing cs with
  | nil => simp [afterChars?]
  | cons h hs ih =>
    cases cs with
    | nil => simp [afterChars?]
    | cons c cs =>
      rw [afterChars?, List.cons_prefix_cons, ← ih]
      split
      · simp [*]
      · simp [*]

theorem containsChars_iff (part cs : List Char) : containsChars part cs = true ↔ part <:+: cs := by
  induction cs with
  | nil => simp [containsChars]
  | cons c cs ih => rw [containsChars, Bool.or_eq_true, afterChars?_isSome_iff, ih, List.infix_cons_iff]

theorem infix_digits_iff {ds : List Char} (digits : ∀ d ∈ ds, d.isDigit = true) (part rest : List Char) :
    '@' :: part <:+: ds ++ rest ↔ '@' :: part <:+: rest := by
  induction ds with
  | nil => rfl
  | cons d ds ih =>
    obtain ⟨digit, digits⟩ := List.forall_mem_cons.mp digits
    have other : ¬('@' :: part <+: d :: (ds ++ rest)) := by
      rw [List.cons_prefix_cons]
      rintro ⟨rfl, _⟩
      cases digit
    rw [List.cons_append, List.infix_cons_iff, ih digits]
    simp [other]

theorem digits_prefix_iff {ds es : List Char} (digits : ∀ d ∈ ds, d.isDigit = true)
    (digits' : ∀ d ∈ es, d.isDigit = true) (rest : List Char) : ds ++ ['@'] <+: es ++ '@' :: rest ↔ ds = es := by
  induction ds generalizing es with
  | nil =>
    cases es with
    | nil => simp
    | cons e es =>
      have other : '@' ≠ e := by
        rintro rfl
        cases (List.forall_mem_cons.mp digits').1
      simp [List.cons_prefix_cons, other]
  | cons d ds ih =>
    obtain ⟨digit, digits⟩ := List.forall_mem_cons.mp digits
    cases es with
    | nil =>
      have other : d ≠ '@' := by
        rintro rfl
        cases digit
      simp [List.cons_prefix_cons, other]
    | cons e es =>
      obtain ⟨_, digits'⟩ := List.forall_mem_cons.mp digits'
      simp [List.cons_prefix_cons, ih digits digits']

/-- The written form of a number stands in a text where a placeholder has just these digits, or where the digits and an
at sign follow a placeholder, whose own sign they begin with. -/
theorem infix_iff_placeholders {ds : List Char} (some : ds ≠ []) (digits : ∀ d ∈ ds, d.isDigit = true)
    (cs : List Char) :
    '@' :: (ds ++ ['@']) <:+: cs ↔ ∃ m ∈ placeholders cs, m.1 = ds ∨ ds ++ ['@'] <+: m.2 := by
  fun_induction placeholders cs with
  | case1 => simp
  | case2 c cs es rest found ih =>
    obtain ⟨_, digits', same⟩ := placeholderAt?_eq_some_iff.mp found
    cases same
    -- it can begin at the first sign, not among the digits, at the last sign, or behind
    rw [List.infix_cons_iff, infix_digits_iff digits', List.infix_cons_iff, ih, List.cons_prefix_cons,
      List.cons_prefix_cons, digits_prefix_iff digits digits']
    simp [eq_comm, or_assoc]
  | case3 c cs missing ih =>
    have nowhere : ¬('@' :: (ds ++ ['@']) <+: c :: cs) := by
      rintro ⟨rest, same⟩
      have found : placeholderAt? (c :: cs) = .some (ds, rest) :=
        placeholderAt?_eq_some_iff.mpr ⟨some, digits, by rw [← same]; simp⟩
      rw [found] at missing
      contradiction
    rw [List.infix_cons_iff, ih]
    simp [nowhere]

/-! Numbers. -/

def placeholderValues (s : String) : List Nat :=
  (placeholders s.toList).map fun m => digitsNat m.1

/-- Whether the written form of a number stands in a text: in a placeholder, or behind one that ends with its sign. -/
def Mentions (s : String) (i : Nat) : Prop :=
  ∃ m ∈ placeholders s.toList, m.1 = Nat.toDigits 10 i ∨ Nat.toDigits 10 i ++ ['@'] <+: m.2

instance (s : String) (i : Nat) : Decidable (Mentions s i) :=
  inferInstanceAs (Decidable (∃ m ∈ placeholders s.toList, _))

theorem digitsNat_toDigits (i : Nat) : digitsNat (Nat.toDigits 10 i) = i := by
  rw [digitsNat, ← Nat.ofDigitChars_eq_foldl, Nat.ofDigitChars_ten_toDigits]

theorem contains_placeholder_iff (s : String) (i : Nat) : contains s (placeholder i) = true ↔ Mentions s i := by
  have written : (placeholder i).toList = '@' :: (Nat.toDigits 10 i ++ ['@']) := by
    simp [placeholder]
  rw [contains, containsChars_iff, written]
  refine infix_iff_placeholders Nat.toDigits_ne_nil ?_ s.toList
  intro d member
  exact Nat.isDigit_of_mem_toDigits (by decide) (by decide) member

/-- Whether every placeholder of a text is written without needless zeros, and is not followed by the rest of another
one. -/
def Plain (s : String) : Prop :=
  ∀ m ∈ placeholders s.toList, m.1 = Nat.toDigits 10 (digitsNat m.1) ∧ ∀ i, ¬Nat.toDigits 10 i ++ ['@'] <+: m.2

theorem Plain.mentions_iff {s : String} (plain : Plain s) (i : Nat) : Mentions s i ↔ i ∈ placeholderValues s := by
  rw [placeholderValues, List.mem_map]
  constructor
  · rintro ⟨m, member, same | behind⟩
    · exact ⟨m, member, by rw [same, digitsNat_toDigits]⟩
    · exact absurd behind ((plain m member).2 i)
  · rintro ⟨m, member, rfl⟩
    exact ⟨m, member, .inl (plain m member).1⟩

theorem placeholderIndices_eq (s : String) : placeholderIndices s = (placeholderValues s).filter (· < signedLimit) := by
  have scanned : placeholderChars Char.isDigit Char.isDigit none s.toList = (placeholders s.toList).map (·.1) :=
    scan_none s.toList
  rw [placeholderIndices, scanned, List.map_map]
  rfl

theorem mem_insertIndex (i n : Nat) (ms : List Nat) : i ∈ insertIndex n ms ↔ i = n ∨ i ∈ ms := by
  induction ms with
  | nil => simp [insertIndex]
  | cons m ms ih =>
    rw [insertIndex]
    split
    · simp
    · split
      · simp_all
      · rw [List.mem_cons, ih, List.mem_cons]
        exact or_left_comm

theorem insertIndex_sorted (n : Nat) {ms : List Nat} (sorted : ms.Pairwise (· < ·)) :
    (insertIndex n ms).Pairwise (· < ·) := by
  induction ms with
  | nil => simp [insertIndex]
  | cons m ms ih =>
    obtain ⟨least, tail⟩ := List.pairwise_cons.mp sorted
    rw [insertIndex]
    split
    · rename_i lower
      refine List.pairwise_cons.mpr ⟨?_, sorted⟩
      intro i member
      rcases List.mem_cons.mp member with rfl | member
      · exact lower
      · exact Nat.lt_trans lower (least i member)
    · split
      · exact sorted
      · refine List.pairwise_cons.mpr ⟨?_, ih tail⟩
        intro i member
        rcases (mem_insertIndex i n ms).mp member with rfl | member
        · omega
        · exact least i member

theorem foldr_insertIndex (ns : List Nat) :
    (ns.foldr insertIndex []).Pairwise (· < ·) ∧ ∀ i, i ∈ ns.foldr insertIndex [] ↔ i ∈ ns := by
  induction ns with
  | nil => simp
  | cons n ns ih =>
    obtain ⟨sorted, members⟩ := ih
    refine ⟨insertIndex_sorted n sorted, fun i => ?_⟩
    rw [List.foldr_cons, mem_insertIndex, members, List.mem_cons]

theorem indicesFrom_sorted (count : Nat) (s : String) : (indicesFrom count s).Pairwise (· < ·) :=
  (foldr_insertIndex _).1

theorem mem_indicesFrom (count : Nat) (s : String) (i : Nat) :
    i ∈ indicesFrom count s ↔ i ∈ placeholderValues s ∧ count ≤ i ∧ i < signedLimit := by
  rw [indicesFrom, (foldr_insertIndex _).2, placeholderIndices_eq]
  simp only [List.mem_filter, decide_eq_true_eq, and_assoc]
  exact and_congr_right fun _ => and_comm

end MesonCheck.Text
