import Mathlib.Data.Prod.Lex
import Mathlib.Data.String.Basic
import MesonCheck.Diagnostic

/-! The order of reports. Diagnostics are sorted by file, start, severity and message. On errors and warnings this is a
linear order of keys, so sorting them gives a list whose keys do not decrease. What has the same key stays in the order
it came in, and together the two facts leave only one list: the sorted one. -/
namespace MesonCheck.Diagnostic

def key (d : Diagnostic) : String ×ₗ Int ×ₗ Int ×ₗ Bool ×ₗ String :=
  toLex (d.file, toLex (d.range.start.line, toLex (d.range.start.column, toLex (d.severity != .error, d.message))))

def IsGraded (d : Diagnostic) : Prop :=
  d.severity = .error ∨ d.severity = .warning

theorem before_iff {a b : Diagnostic} (left : a.IsGraded) (right : b.IsGraded) :
    a.before b = true ↔ a.key < b.key := by
  have severe :
      (if a.severity ≠ b.severity then decide (a.severity = .error) else decide (a.message < b.message)) = true ↔
      toLex (a.severity != .error, a.message) < toLex (b.severity != .error, b.message) := by
    have warning : (Severity.warning != .error) = true := rfl
    rw [Prod.Lex.toLex_lt_toLex]
    rcases left with grade | grade <;> rcases right with grade' | grade' <;> simp [grade, grade', warning]
  unfold before key
  rw [Prod.Lex.toLex_lt_toLex, Prod.Lex.toLex_lt_toLex, Prod.Lex.toLex_lt_toLex, ← severe]
  by_cases file : a.file = b.file
  · by_cases line : a.range.start.line = b.range.start.line
    · by_cases column : a.range.start.column = b.range.start.column
      · simp [file, line, column]
      · simp [file, line, column]
    · simp [file, line]
  · simp [file]

/-! Sorting. -/

theorem place_perm (d : Diagnostic) (es : List Diagnostic) : (place d es).Perm (d :: es) := by
  induction es with
  | nil => exact .refl _
  | cons e es ih =>
    rw [place]
    split
    · exact (ih.cons e).trans (.swap d e es)
    · exact .refl _

theorem sort_perm (ds : List Diagnostic) : (sort ds).Perm ds := by
  have placed (done : List Diagnostic) : (ds.foldl (fun done d => place d done) done).Perm (ds ++ done) := by
    induction ds generalizing done with
    | nil => exact .refl _
    | cons d ds ih => exact ((ih _).trans ((place_perm d done).append_left ds)).trans List.perm_middle
  exact (List.reverse_perm _).trans ((placed []).trans (.of_eq (List.append_nil ds)))

/-- Until it is reversed, what has been sorted has the largest keys first. -/
theorem place_sorted {d : Diagnostic} {es : List Diagnostic} (graded : ∀ e ∈ d :: es, e.IsGraded)
    (sorted : es.Pairwise fun a b => b.key ≤ a.key) : (place d es).Pairwise fun a b => b.key ≤ a.key := by
  induction es with
  | nil => exact List.pairwise_singleton _ _
  | cons e es ih =>
    obtain ⟨first, rest, others⟩ := by simpa only [List.forall_mem_cons] using graded
    obtain ⟨largest, tail⟩ := List.pairwise_cons.mp sorted
    rw [place]
    split
    · rename_i less
      have less := (before_iff first rest).mp less
      refine List.pairwise_cons.mpr ⟨fun x member => ?_, ih (List.forall_mem_cons.mpr ⟨first, others⟩) tail⟩
      rcases List.mem_cons.mp ((place_perm d es).mem_iff.mp member) with rfl | old
      · exact less.le
      · exact largest x old
    · rename_i notLess
      have more := not_lt.mp (mt (before_iff first rest).mpr notLess)
      refine List.pairwise_cons.mpr ⟨List.forall_mem_cons.mpr ⟨more, fun x member => ?_⟩, sorted⟩
      exact (largest x member).trans more

theorem sort_sorted {ds : List Diagnostic} (graded : ∀ d ∈ ds, d.IsGraded) :
    (sort ds).Pairwise fun a b => a.key ≤ b.key := by
  have placed (done : List Diagnostic) (before : ∀ d ∈ done, d.IsGraded)
      (sorted : done.Pairwise fun a b => b.key ≤ a.key) :
      (ds.foldl (fun done d => place d done) done).Pairwise fun a b => b.key ≤ a.key := by
    induction ds generalizing done with
    | nil => exact sorted
    | cons d ds ih =>
      obtain ⟨first, others⟩ := List.forall_mem_cons.mp graded
      have both : ∀ e ∈ d :: done, e.IsGraded := List.forall_mem_cons.mpr ⟨first, before⟩
      exact ih others _ (fun e member => both e ((place_perm d done).mem_iff.mp member)) (place_sorted both sorted)
  exact List.pairwise_reverse.mpr (placed [] (by simp) .nil)

/-! Diagnostics with the same key. -/

theorem filter_place {d : Diagnostic} {es : List Diagnostic} (graded : ∀ e ∈ d :: es, e.IsGraded)
    (k : String ×ₗ Int ×ₗ Int ×ₗ Bool ×ₗ String) :
    (place d es).filter (·.key = k) = (d :: es).filter (·.key = k) := by
  induction es with
  | nil => rfl
  | cons e es ih =>
    obtain ⟨first, rest, others⟩ := by simpa only [List.forall_mem_cons] using graded
    rw [place]
    split
    · rename_i less
      have differ : d.key ≠ e.key := ((before_iff first rest).mp less).ne
      have inside := ih (List.forall_mem_cons.mpr ⟨first, others⟩)
      -- only one of the two that change places can have this key
      by_cases same : d.key = k
      · have other : e.key ≠ k := fun h => differ (same.trans h.symm)
        simp [inside, same, other]
      · simp [List.filter_cons, inside, same]
    · rfl

theorem filter_sort {ds : List Diagnostic} (graded : ∀ d ∈ ds, d.IsGraded)
    (k : String ×ₗ Int ×ₗ Int ×ₗ Bool ×ₗ String) : (sort ds).filter (·.key = k) = ds.filter (·.key = k) := by
  have placed (done : List Diagnostic) (before : ∀ d ∈ done, d.IsGraded) :
      (ds.foldl (fun done d => place d done) done).filter (·.key = k) = (ds.reverse ++ done).filter (·.key = k) := by
    induction ds generalizing done with
    | nil => rfl
    | cons d ds ih =>
      obtain ⟨first, others⟩ := List.forall_mem_cons.mp graded
      have both : ∀ e ∈ d :: done, e.IsGraded := List.forall_mem_cons.mpr ⟨first, before⟩
      rw [List.foldl_cons, ih others _ fun e member => both e ((place_perm d done).mem_iff.mp member),
        List.filter_append, filter_place both, ← List.filter_append, List.reverse_cons, List.append_assoc,
        List.singleton_append]
  rw [sort, List.filter_reverse, placed [] (by simp), List.append_nil, List.filter_reverse, List.reverse_reverse]

/-- A list in the order of keys is known by what it holds under each of them. -/
theorem eq_of_filter_key {as bs : List Diagnostic} (left : as.Pairwise fun a b => a.key ≤ b.key)
    (right : bs.Pairwise fun a b => a.key ≤ b.key)
    (same : ∀ k, as.filter (·.key = k) = bs.filter (·.key = k)) : as = bs := by
  have key_mem {as bs : List Diagnostic} (same : ∀ k, as.filter (·.key = k) = bs.filter (·.key = k)) {a : Diagnostic}
      (member : a ∈ as) : a ∈ bs := by
    have found : a ∈ as.filter (·.key = a.key) := by simpa using member
    rw [same] at found
    exact (List.mem_filter.mp found).1
  induction as generalizing bs with
  | nil =>
    cases bs with
    | nil => rfl
    | cons b bs => exact absurd (key_mem (fun k => (same k).symm) List.mem_cons_self) List.not_mem_nil
  | cons a as ih =>
    cases bs with
    | nil => exact absurd (key_mem same List.mem_cons_self) List.not_mem_nil
    | cons b bs =>
      obtain ⟨least, tail⟩ := List.pairwise_cons.mp left
      obtain ⟨least', tail'⟩ := List.pairwise_cons.mp right
      -- each of the two first ones is also in the other list, where it is not smaller than the first one there
      have le : a.key ≤ b.key := by
        rcases List.mem_cons.mp (key_mem (fun k => (same k).symm) (List.mem_cons_self : b ∈ b :: bs)) with rfl | later
        · exact le_rfl
        · exact least b later
      have ge : b.key ≤ a.key := by
        rcases List.mem_cons.mp (key_mem same (List.mem_cons_self : a ∈ a :: as)) with rfl | later
        · exact le_rfl
        · exact least' a later
      have equal : a.key = b.key := le_antisymm le ge
      have first : a = b := by
        have heads := same b.key
        simp only [List.filter_cons, equal, decide_true, if_true] at heads
        exact (List.cons.inj heads).1
      subst first
      refine congrArg (a :: ·) (ih tail tail' fun k => ?_)
      have rest := same k
      simp only [List.filter_cons] at rest
      split at rest
      · exact (List.cons.inj rest).2
      · exact rest

/-! What keys tell. -/

def heading (d : Diagnostic) : String × Position × Severity × String :=
  (d.file, d.range.start, d.severity, d.message)

theorem heading_eq_of_key {a b : Diagnostic} (left : a.IsGraded) (right : b.IsGraded) (same : a.key = b.key) :
    a.heading = b.heading := by
  simp only [key, toLex_inj, Prod.mk.injEq] at same
  obtain ⟨file, line, column, severe, message⟩ := same
  have start : a.range.start = b.range.start := by
    cases ha : a.range.start
    cases hb : b.range.start
    simp_all
  have severity : a.severity = b.severity := by
    rcases left with grade | grade <;> rcases right with grade' | grade' <;> simp_all
  rw [heading, heading, file, start, severity, message]

theorem map_key_sort {ds es : List Diagnostic} (graded : ∀ d ∈ ds, d.IsGraded) (perm : es.Perm ds) :
    (sort es).map key = (sort ds).map key := by
  have graded' : ∀ d ∈ es, d.IsGraded := fun d member => graded d (perm.mem_iff.mp member)
  have both : ((sort es).map key).Perm ((sort ds).map key) :=
    (((sort_perm es).trans perm).trans (sort_perm ds).symm).map key
  refine both.eq_of_pairwise (fun _ _ _ _ ab ba => le_antisymm ab ba) ?_ ?_
  · exact List.pairwise_map.mpr (sort_sorted graded')
  · exact List.pairwise_map.mpr (sort_sorted graded)

theorem map_heading_sort {ds es : List Diagnostic} (graded : ∀ d ∈ ds, d.IsGraded) (perm : es.Perm ds) :
    (sort es).map heading = (sort ds).map heading := by
  have agree {as bs : List Diagnostic} (left : ∀ d ∈ as, d.IsGraded) (right : ∀ d ∈ bs, d.IsGraded)
      (keys : as.map key = bs.map key) : as.map heading = bs.map heading := by
    induction as generalizing bs with
    | nil =>
      obtain rfl := List.map_eq_nil_iff.mp keys.symm
      rfl
    | cons a as ih =>
      obtain ⟨b, bs, rfl, first, rest⟩ := List.map_eq_cons_iff.mp keys.symm
      obtain ⟨grade, left⟩ := List.forall_mem_cons.mp left
      obtain ⟨grade', right⟩ := List.forall_mem_cons.mp right
      rw [List.map_cons, List.map_cons, ih left right rest.symm, heading_eq_of_key grade grade' first.symm]
  refine agree (fun d member => ?_) (fun d member => ?_) (map_key_sort graded perm)
  · exact graded d (perm.mem_iff.mp ((sort_perm es).mem_iff.mp member))
  · exact graded d ((sort_perm ds).mem_iff.mp member)

/-- Errors and warnings have one order: sorting rearranges them by file, start line, start column, severity and message,
leaves those that agree in all of these as they came, does nothing to a sorted list, and of two arrangements of the same
diagnostics makes lists that agree in all of these entry by entry. -/
theorem sort_canonical (ds : List Diagnostic) (graded : ∀ d ∈ ds, d.IsGraded) :
    (sort ds).Perm ds ∧ (sort ds).Pairwise (fun a b => a.key ≤ b.key) ∧
      (∀ k, (sort ds).filter (·.key = k) = ds.filter (·.key = k)) ∧ sort (sort ds) = sort ds ∧
      ∀ es es' : List Diagnostic, es.Perm ds → es'.Perm ds → (sort es).map heading = (sort es').map heading := by
  have graded' : ∀ d ∈ sort ds, d.IsGraded := fun d member => graded d ((sort_perm ds).mem_iff.mp member)
  refine ⟨sort_perm ds, sort_sorted graded, filter_sort graded, ?_, fun es es' left right => ?_⟩
  · exact eq_of_filter_key (sort_sorted graded') (sort_sorted graded) (filter_sort graded')
  · exact (map_heading_sort graded left).trans (map_heading_sort graded right).symm

/-- Two diagnostics that differ in their ends only, and an error and a warning around them. -/
def sampleFindings : List Diagnostic :=
  [⟨.warning, "b", ⟨⟨0, 0⟩, ⟨0, 9⟩⟩, "m"⟩, ⟨.warning, "b", ⟨⟨0, 0⟩, ⟨0, 1⟩⟩, "m"⟩, ⟨.error, "b", ⟨⟨0, 0⟩, ⟨0, 1⟩⟩, "n"⟩,
    ⟨.warning, "a", ⟨⟨7, 0⟩, ⟨7, 1⟩⟩, "m"⟩]

theorem sort_canonical_sample :
    (∀ d ∈ sampleFindings, d.IsGraded) ∧ sort sampleFindings ≠ sort sampleFindings.reverse ∧
      (sort sampleFindings).map heading = (sort sampleFindings.reverse).map heading ∧
      (sort sampleFindings).map (·.range.stop.column) = [1, 1, 9, 1] := by
  have graded : ∀ d ∈ sampleFindings, d.IsGraded := by simp [sampleFindings, IsGraded]
  obtain ⟨-, -, -, -, agree⟩ := sort_canonical sampleFindings graded
  exact ⟨graded, by decide, agree _ _ (.refl _) (List.reverse_perm _), by decide⟩

end MesonCheck.Diagnostic
