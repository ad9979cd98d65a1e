import MesonCheck.Proofs.Types.Levels
import MesonCheck.Types.Compatible

/-! Lists are transparent to the check of arguments. A set is flattened by taking the elements of its lists in their
place, at every depth; an empty list leaves a member about which nothing is known. Whether a given set fits a declared
one can then be read off the two flat lists, one pair of members at a time. -/
namespace MesonCheck

mutual
/-- The members that are left of a type when its lists are opened; `none` is what an empty list holds. -/
def Ty.flat : Ty → List (Option Ty)
  | .list es => if es.isEmpty then [none] else TypeSet.flat es
  | t => [some t]

def TypeSet.flat : List Ty → List (Option Ty)
  | [] => []
  | t :: ts => t.flat ++ TypeSet.flat ts
end

def Ty.ancestors (t : Ty) : List Ty :=
  t.lineage.tail

inductive Ty.Meets : Ty → Ty → Prop
  | equal {g e : Ty} (plain : g.kind ≠ .dict) (same : g.equal e = true) : Meets g e
  | ancestor {g e a : Ty} (above : a ∈ g.ancestors) (same : a.equal e = true) : Meets g e
  | values {gs es : TypeSet} (fits : TypeSet.fits gs es = true) : Meets (.dict gs) (.dict es)

namespace TypeSet

/-- Only objects have descendants, at every depth of the set. -/
def Rooted (s : TypeSet) : Prop :=
  ∀ level ∈ s.levels, ∀ t ∈ level, ∀ a ∈ t.ancestors, a.kind = .object

def Filled (s : TypeSet) : Prop :=
  ∀ level ∈ s.levels, level ≠ []

instance (s : TypeSet) : Decidable s.Rooted :=
  inferInstanceAs (Decidable (∀ level ∈ s.levels, ∀ t ∈ level, ∀ a ∈ t.ancestors, a.kind = .object))

instance (s : TypeSet) : Decidable s.Filled :=
  inferInstanceAs (Decidable (∀ level ∈ s.levels, level ≠ []))

end TypeSet

theorem Ty.flat_of_ne_list {t : Ty} (plain : t.kind ≠ .list) : t.flat = [some t] := by
  cases t <;> simp_all [Ty.flat, Ty.kind]

theorem TypeSet.mem_flat {s : List Ty} {x : Option Ty} : x ∈ TypeSet.flat s ↔ ∃ t ∈ s, x ∈ t.flat := by
  induction s with
  | nil => simp [TypeSet.flat]
  | cons t ts ih => simp [TypeSet.flat, ih]

mutual
theorem Ty.flat_ne_nil : ∀ t : Ty, t.flat ≠ []
  | .list [] => by simp [Ty.flat]
  | .list (e :: es) => by
    have inside := TypeSet.flat_ne_nil (e :: es) (by simp)
    simpa [Ty.flat] using inside
  | .any | .bool | .int | .str | .disabler | .customIndex | .dict _ | .object _ _ | .subproject _ => by
    simp [Ty.flat]

theorem TypeSet.flat_ne_nil : ∀ s : List Ty, s ≠ [] → TypeSet.flat s ≠ []
  | [], ne => absurd rfl ne
  | t :: _, _ => by simp [TypeSet.flat, Ty.flat_ne_nil t]
end

mutual
theorem Ty.mem_flat_cases : ∀ (t : Ty) (x : Option Ty), x ∈ t.flat →
    x = none ∧ [] ∈ t.levels ∨ ∃ u, x = some u ∧ u.kind ≠ .list ∧ (u = t ∨ ∃ level ∈ t.levels, u ∈ level)
  | .list [], x, member => .inl ⟨by simpa [Ty.flat] using member, by simp [Ty.levels]⟩
  | .list (e :: es), x, member => by
    have inside : x ∈ TypeSet.flat (e :: es) := by simpa [Ty.flat] using member
    rcases TypeSet.mem_flat_cases (e :: es) x inside with ⟨unknown, empty⟩ | ⟨u, known, plain, origin⟩
    · exact .inl ⟨unknown, List.mem_cons_of_mem _ empty⟩
    · exact .inr ⟨u, known, plain, .inr (by simpa [Ty.levels] using origin)⟩
  | .any, x, member | .bool, x, member | .int, x, member | .str, x, member | .disabler, x, member
  | .customIndex, x, member | .dict _, x, member | .object _ _, x, member | .subproject _, x, member =>
    .inr ⟨_, by simpa [Ty.flat] using member, by simp [Ty.kind], .inl rfl⟩

theorem TypeSet.mem_flat_cases : ∀ (s : List Ty) (x : Option Ty), x ∈ TypeSet.flat s →
    x = none ∧ [] ∈ TypeSet.inner s ∨ ∃ u, x = some u ∧ u.kind ≠ .list ∧ (u ∈ s ∨ ∃ level ∈ TypeSet.inner s, u ∈ level)
  | [], _, member => by simp [TypeSet.flat] at member
  | t :: ts, x, member => by
    rcases List.mem_append.mp member with head | tail
    · rcases Ty.mem_flat_cases t x head with ⟨unknown, empty⟩ | ⟨u, known, plain, origin⟩
      · exact .inl ⟨unknown, List.mem_append_left _ empty⟩
      · refine .inr ⟨u, known, plain, ?_⟩
        rcases origin with rfl | ⟨level, deeper, here⟩
        · exact .inl List.mem_cons_self
        · exact .inr ⟨level, List.mem_append_left _ deeper, here⟩
    · rcases TypeSet.mem_flat_cases ts x tail with ⟨unknown, empty⟩ | ⟨u, known, plain, origin⟩
      · exact .inl ⟨unknown, List.mem_append_right _ empty⟩
      · refine .inr ⟨u, known, plain, ?_⟩
        rcases origin with here | ⟨level, deeper, here⟩
        · exact .inl (List.mem_cons_of_mem _ here)
        · exact .inr ⟨level, List.mem_append_right _ deeper, here⟩
end

theorem Ty.kind_of_mem_flat {e t : Ty} (member : some t ∈ e.flat) : t.kind ≠ .list := by
  rcases e.mem_flat_cases _ member with ⟨unknown, _⟩ | ⟨u, known, plain, _⟩
  · cases unknown
  · cases known
    exact plain

theorem TypeSet.Rooted.of_mem_flat {s : TypeSet} (rooted : s.Rooted) {t a : Ty} (member : some t ∈ flat s)
    (above : a ∈ t.ancestors) : a.kind = .object := by
  rcases TypeSet.mem_flat_cases s _ member with ⟨unknown, _⟩ | ⟨u, known, _, here | ⟨level, deeper, here⟩⟩
  · cases unknown
  · cases known
    exact rooted s List.mem_cons_self t here a above
  · cases known
    exact rooted level (List.mem_cons_of_mem _ deeper) t here a above

theorem TypeSet.Filled.none_not_mem_flat {s : TypeSet} (filled : s.Filled) : none ∉ flat s := by
  intro unknown
  rcases TypeSet.mem_flat_cases s none unknown with ⟨_, empty⟩ | ⟨u, known, _⟩
  · exact filled [] (List.mem_cons_of_mem _ empty) rfl
  · cases known

/-! A declared list is searched for a member that the given type meets. -/

namespace Ty

theorem equal_eq_same {g : Ty} (list : g.kind ≠ .list) (dict : g.kind ≠ .dict) (e : Ty) : g.equal e = g.same e := by
  cases g <;> cases e <;> simp_all [equal, normal, same, kind]

theorem same_list {g : Ty} (plain : g.kind ≠ .list) (es : List Ty) : g.same (.list es) = false := by
  cases g <;> simp_all [same, kind]

theorem isAny_iff (t : Ty) : t.isAny = true ↔ t = .any := by
  cases t <;> simp [isAny]

theorem isOpen_iff (t : Ty) : t.isOpen = true ↔ t = .any ∨ t = .disabler := by
  cases t <;> simp [isOpen]

mutual
/-- A search finds what stands in the flat form, where a list passes the test only through a member of its own. -/
theorem searched_iff (leaf : Ty → Bool)
    (lists : ∀ es, leaf (.list es) = true → ∃ t, some t ∈ (Ty.list es).flat ∧ (t = .any ∨ leaf t = true)) :
    ∀ e : Ty, (e.isAny || e.searched leaf false) = true ↔ ∃ t, some t ∈ e.flat ∧ (t = .any ∨ leaf t = true)
  | .list [] => by
    have empty := lists []
    simpa [flat, searched, searchedAny, isAny] using empty
  | .list (e :: es) => by
    have opened : (Ty.list (e :: es)).flat = TypeSet.flat (e :: es) := by simp [flat]
    have whole := lists (e :: es)
    rw [opened, ← searchedAny_iff leaf lists (e :: es)] at whole
    rw [opened, ← searchedAny_iff leaf lists (e :: es)]
    simpa [searched, isAny] using whole
  | .any | .bool | .int | .str | .disabler | .customIndex | .dict _ | .object _ _ | .subproject _ => by
    simp [flat, searched, isAny]

theorem searchedAny_iff (leaf : Ty → Bool)
    (lists : ∀ es, leaf (.list es) = true → ∃ t, some t ∈ (Ty.list es).flat ∧ (t = .any ∨ leaf t = true)) :
    ∀ es : List Ty,
      Ty.searchedAny leaf false es = true ↔ ∃ t, some t ∈ TypeSet.flat es ∧ (t = .any ∨ leaf t = true)
  | [] => by simp [searchedAny, TypeSet.flat]
  | e :: es => by
    rw [searchedAny, Bool.or_eq_true, searched_iff leaf lists e, searchedAny_iff leaf lists es]
    simp only [TypeSet.flat, List.mem_append, or_and_right, exists_or]
end

end Ty

/-! A given type that is neither a list nor open fits where its flat counterpart is met. -/

namespace Ty

theorem ancestors_object (n : String) (p : Ty) : (object n (some p)).ancestors = p.lineage := rfl

theorem lineage_eq (t : Ty) : t.lineage = t :: t.ancestors := by
  unfold ancestors lineage
  split <;> rfl

theorem meets_dict (gs : TypeSet) (t : Ty) :
    (Ty.dict gs).Meets t ↔ ∃ es, t = .dict es ∧ TypeSet.fits gs es = true := by
  constructor
  · intro meets
    cases meets with
    | equal plain _ => simp [kind] at plain
    | ancestor above _ => simp [ancestors, lineage] at above
    | values fits => exact ⟨_, rfl, fits⟩
  · rintro ⟨es, rfl, fits⟩
    exact .values fits

theorem meets_orphan {g : Ty} (list : g.kind ≠ .list) (dict : g.kind ≠ .dict) (orphan : g.ancestors = []) (t : Ty) :
    g.Meets t ↔ g.same t = true := by
  rw [← equal_eq_same list dict]
  constructor
  · intro meets
    cases meets with
    | equal _ same => exact same
    | ancestor above _ => simp [orphan] at above
    | values _ => simp [kind] at dict
  · exact .equal dict

theorem meets_object {n : String} {p : Ty} (object : p.kind = .object) (t : Ty) :
    (Ty.object n (some p)).Meets t ↔ (Ty.object n none).same t = true ∨ p.Meets t := by
  have plain : p.kind ≠ .dict := by simp [object]
  have lineage : (Ty.object n (some p)).ancestors = p :: p.ancestors := by rw [ancestors_object, lineage_eq]
  have named : (Ty.object n (some p)).equal t = (Ty.object n none).same t := by
    cases t <;> simp [equal, normal, same]
  constructor
  · intro meets
    cases meets with
    | equal _ same => exact .inl (named ▸ same)
    | ancestor above same =>
      rw [lineage] at above
      rcases List.mem_cons.mp above with rfl | above
      · exact .inr (.equal plain same)
      · exact .inr (.ancestor above same)
  · rintro (same | meets)
    · exact .equal (by simp [kind]) (named.trans same)
    · cases meets with
      | equal _ same => exact .ancestor (by simp [lineage]) same
      | ancestor above same => exact .ancestor (by simp [lineage, above]) same
      | values _ => simp [kind] at plain

theorem fits_child {n : String} {p : Ty} (object : p.kind = .object)
    (parent : ∀ e : Ty, (e.isAny || p.fits e) = true ↔ ∃ t, some t ∈ e.flat ∧ (t = .any ∨ p.Meets t)) (e : Ty) :
    (e.isAny || (Ty.object n (some p)).fits e) = true ↔
      ∃ t, some t ∈ e.flat ∧ (t = .any ∨ (Ty.object n (some p)).Meets t) := by
  have single : ∀ t : Ty, t.kind ≠ .list → (t = .any ∨ p.fits t = true ↔ t = .any ∨ p.Meets t) := by
    intro t plain
    have known := parent t
    simpa [flat_of_ne_list plain, isAny_iff] using known
  rw [fits, searched_iff]
  · apply exists_congr
    intro t
    apply and_congr_right
    intro member
    have known := single t (kind_of_mem_flat member)
    rw [meets_object object, Bool.or_eq_true]
    tauto
  · intro es test
    have above : p.fits (.list es) = true := by simpa [same] using test
    obtain ⟨t, member, meets⟩ := (parent (.list es)).mp (by simp [above])
    have known := (single t (kind_of_mem_flat member)).mpr meets
    exact ⟨t, member, known.imp_right fun fits => by simp [fits]⟩

theorem fits_closed : ∀ g : Ty, g.kind ≠ .list → g.isOpen = false → (∀ a ∈ g.ancestors, a.kind = .object) →
    ∀ e : Ty, (e.isAny || g.fits e) = true ↔ ∃ t, some t ∈ e.flat ∧ (t = .any ∨ g.Meets t)
  | .dict gs, _, _, _, e => by
    rw [fits, searched_iff _ (by simp) e]
    apply exists_congr
    intro t
    rw [meets_dict]
    cases t <;> simp [TypeSet.fits]
  | .object n (some p), _, _, objects, e => by
    have object : p.kind = .object := objects p (by simp [ancestors_object, lineage_eq p])
    apply fits_child object
    apply fits_closed p
    · simp [object]
    · cases p <;> simp_all [kind, isOpen]
    · intro a above
      exact objects a (by simp [ancestors_object, lineage_eq p, above])
  | .bool, h, _, _, e | .int, h, _, _, e | .str, h, _, _, e | .customIndex, h, _, _, e | .object _ none, h, _, _, e
  | .subproject _, h, _, _, e => by
    rw [fits, isOpen, searched_iff]
    · simp only [meets_orphan h (by simp [kind]) rfl]
    · intro es whole
      simp [same_list h] at whole
    all_goals simp
  | .list _, ne, _, _, _ => absurd rfl ne
  | .any, _, closed, _, _ | .disabler, _, closed, _, _ => by simp [isOpen] at closed

end Ty

/-! Lists on both sides. -/

def Ty.Agree (x y : Option Ty) : Prop :=
  (x = none ∨ x = some .any ∨ x = some .disabler) ∨ y = some .any ∨ ∃ g e, x = some g ∧ y = some e ∧ g.Meets e

def Ty.opened : Ty → TypeSet
  | .list es => es
  | t => [t]

namespace Ty

theorem fits_list (gs : List Ty) (e : Ty) : (list gs).fits e = (gs.isEmpty || TypeSet.someFits gs e.opened) := by
  cases e <;> simp [fits, opened]

theorem opened_ne_nil {e : Ty} (known : none ∉ e.flat) : e.opened ≠ [] := by
  cases e with
  | list es =>
    intro empty
    simp [flat, show es = [] from empty] at known
  | _ => simp [opened]

theorem flat_opened {e : Ty} (known : none ∉ e.flat) : TypeSet.flat e.opened = e.flat := by
  have filled := opened_ne_nil known
  cases e <;> simp_all [opened, flat, TypeSet.flat]

theorem exists_agree_of_open {g : Ty} (isOpen : g.isOpen = true) (e : Ty) :
    ∃ x ∈ g.flat, ∃ y ∈ e.flat, Agree x y := by
  obtain ⟨y, member⟩ := List.exists_mem_of_ne_nil _ e.flat_ne_nil
  rcases (isOpen_iff g).mp isOpen with rfl | rfl
  · exact ⟨some .any, by simp [flat], y, member, .inl (by simp)⟩
  · exact ⟨some .disabler, by simp [flat], y, member, .inl (by simp)⟩

theorem exists_agree_of_any (g : Ty) {e : Ty} (any : e.isAny = true) : ∃ x ∈ g.flat, ∃ y ∈ e.flat, Agree x y := by
  obtain ⟨x, member⟩ := List.exists_mem_of_ne_nil _ g.flat_ne_nil
  rw [isAny_iff] at any
  exact ⟨x, member, some .any, by simp [any, flat], .inr (.inl rfl)⟩

theorem exists_agree_closed {g : Ty} (plain : g.kind ≠ .list) (closed : g.isOpen = false) (e : Ty) :
    (∃ x ∈ g.flat, ∃ y ∈ e.flat, Agree x y) ↔ ∃ t, some t ∈ e.flat ∧ (t = .any ∨ g.Meets t) := by
  rw [flat_of_ne_list plain]
  constructor
  · rintro ⟨x, here, y, member, agree⟩
    obtain rfl := List.mem_singleton.mp here
    rcases agree with lenient | rfl | ⟨_, t, same, rfl, meets⟩
    · rcases lenient with none | any | disabler <;> simp_all [isOpen]
    · exact ⟨.any, member, .inl rfl⟩
    · cases same
      exact ⟨t, member, .inr meets⟩
  · rintro ⟨t, member, rfl | meets⟩
    · exact ⟨some g, by simp, some .any, member, .inr (.inl rfl)⟩
    · exact ⟨some g, by simp, some t, member, .inr (.inr ⟨g, t, rfl, rfl, meets⟩)⟩

theorem fits_flat_plain {g : Ty} (plain : g.kind ≠ .list) (rooted : ∀ a ∈ g.ancestors, a.kind = .object) (e : Ty) :
    (g.isOpen || (e.isAny || g.fits e)) = true ↔ ∃ x ∈ g.flat, ∃ y ∈ e.flat, Agree x y := by
  by_cases isOpen : g.isOpen = true
  · simp [isOpen, exists_agree_of_open isOpen e]
  · have closed : g.isOpen = false := by simpa using isOpen
    rw [exists_agree_closed plain closed, ← fits_closed g plain closed rooted, closed, Bool.false_or]

end Ty

theorem TypeSet.someFits_cons (g : Ty) (gs : List Ty) {es : TypeSet} (filled : es ≠ []) :
    TypeSet.someFits (g :: gs) es = true ↔
      (∃ e ∈ es, (g.isOpen || (e.isAny || g.fits e)) = true) ∨ TypeSet.someFits gs es = true := by
  obtain ⟨e, declared⟩ := List.exists_mem_of_ne_nil es filled
  cases isOpen : g.isOpen
  · simp [TypeSet.someFits, isOpen]
  · have passes : ∃ e : Ty, e ∈ es := ⟨e, declared⟩
    simp [TypeSet.someFits, isOpen, passes]

mutual
/-- Given and declared type agree when flat members of them do. The recursion is that of the check, on the given type;
only where both are lists does the declared one get smaller with it. -/
theorem Ty.fits_flat : ∀ g : Ty, (∀ t, some t ∈ g.flat → ∀ a ∈ t.ancestors, a.kind = .object) →
    ∀ e : Ty, none ∉ e.flat → ((g.isOpen || (e.isAny || g.fits e)) = true ↔ ∃ x ∈ g.flat, ∃ y ∈ e.flat, Ty.Agree x y)
  | .list [], _, e, _ => by
    obtain ⟨y, member⟩ := List.exists_mem_of_ne_nil _ e.flat_ne_nil
    have unknown : ∃ x ∈ (Ty.list []).flat, ∃ y ∈ e.flat, Ty.Agree x y :=
      ⟨none, by simp [Ty.flat], y, member, .inl (.inl rfl)⟩
    simp [Ty.fits_list, unknown]
  | .list (g :: gs), rooted, e, known => by
    have flat : (Ty.list (g :: gs)).flat = TypeSet.flat (g :: gs) := by simp [Ty.flat]
    have inside := TypeSet.someFits_flat (g :: gs) (by simpa [flat] using rooted) e.opened (Ty.opened_ne_nil known)
    rw [Ty.flat_opened known, ← flat] at inside
    have any := Ty.exists_agree_of_any (.list (g :: gs)) (e := e)
    rw [Ty.fits_list, ← inside known]
    rw [← inside known] at any
    simpa [Ty.isOpen] using any
  | .any, rooted, e, _ | .bool, rooted, e, _ | .int, rooted, e, _ | .str, rooted, e, _ | .disabler, rooted, e, _
  | .customIndex, rooted, e, _ | .dict _, rooted, e, _ | .object _ _, rooted, e, _ | .subproject _, rooted, e, _ => by
    apply Ty.fits_flat_plain
    · simp [Ty.kind]
    · exact rooted _ (by simp [Ty.flat])

theorem TypeSet.someFits_flat : ∀ gs : List Ty,
    (∀ t, some t ∈ TypeSet.flat gs → ∀ a ∈ t.ancestors, a.kind = .object) → ∀ es : List Ty, es ≠ [] →
    none ∉ TypeSet.flat es →
      (TypeSet.someFits gs es = true ↔ ∃ x ∈ TypeSet.flat gs, ∃ y ∈ TypeSet.flat es, Ty.Agree x y)
  | [], _, _, _, _ => by simp [TypeSet.someFits, TypeSet.flat]
  | g :: gs, rooted, es, filled, known => by
    have head : ∀ e ∈ es, ((g.isOpen || (e.isAny || g.fits e)) = true ↔ ∃ x ∈ g.flat, ∃ y ∈ e.flat, Ty.Agree x y) := by
      intro e declared
      apply Ty.fits_flat g
      · intro t member
        exact rooted t (List.mem_append_left _ member)
      · intro unknown
        exact known (TypeSet.mem_flat.mpr ⟨e, declared, unknown⟩)
    have tail := TypeSet.someFits_flat gs (fun t member => rooted t (List.mem_append_right _ member)) es filled known
    rw [TypeSet.someFits_cons g gs filled, tail]
    constructor
    · rintro (⟨e, declared, fits⟩ | ⟨x, given, rest⟩)
      · obtain ⟨x, given, y, member, agree⟩ := (head e declared).mp fits
        exact ⟨x, List.mem_append_left _ given, y, TypeSet.mem_flat.mpr ⟨e, declared, member⟩, agree⟩
      · exact ⟨x, List.mem_append_right _ given, rest⟩
    · rintro ⟨x, given, y, member, agree⟩
      rcases List.mem_append.mp given with given | given
      · obtain ⟨e, declared, member⟩ := TypeSet.mem_flat.mp member
        exact .inl ⟨e, declared, (head e declared).mpr ⟨x, given, y, member, agree⟩⟩
      · exact .inr ⟨x, given, y, member, agree⟩
end

namespace TypeSet

/-- A given set fits a declared one when it is empty, when one of its flat members is unknown or open, when the declared
set takes `any`, or when two flat members meet. -/
theorem fits_iff_flat (given expected : TypeSet) (rooted : given.Rooted) (filled : expected.Filled) :
    given.fits expected = true ↔
      given = [] ∨
      (none ∈ flat given ∨ some .any ∈ flat given ∨ some .disabler ∈ flat given) ∨
      some .any ∈ flat expected ∨
      ∃ g e, some g ∈ flat given ∧ some e ∈ flat expected ∧ g.Meets e := by
  have declared : expected ≠ [] := filled expected List.mem_cons_self
  have pairs := someFits_flat given (fun _ member _ => rooted.of_mem_flat member) expected declared
    filled.none_not_mem_flat
  rw [fits, Bool.or_eq_true, List.isEmpty_iff, pairs]
  apply or_congr_right'
  intro nonempty
  obtain ⟨x, first⟩ := List.exists_mem_of_ne_nil _ (flat_ne_nil given nonempty)
  obtain ⟨y, last⟩ := List.exists_mem_of_ne_nil _ (flat_ne_nil expected declared)
  constructor
  · rintro ⟨x, hx, y, hy, lenient | rfl | ⟨g, e, rfl, rfl, meets⟩⟩
    · rcases lenient with rfl | rfl | rfl <;> simp [hx]
    · exact .inr (.inl hy)
    · exact .inr (.inr ⟨g, e, hx, hy, meets⟩)
  · rintro ((unknown | any | disabler) | any | ⟨g, e, hg, he, meets⟩)
    · exact ⟨none, unknown, y, last, .inl (.inl rfl)⟩
    · exact ⟨some .any, any, y, last, .inl (.inr (.inl rfl))⟩
    · exact ⟨some .disabler, disabler, y, last, .inl (.inr (.inr rfl))⟩
    · exact ⟨x, first, some .any, any, .inr (.inl rfl)⟩
    · exact ⟨some g, hg, some e, he, .inr (.inr ⟨g, e, rfl, rfl, meets⟩)⟩

/-- A dict inside two lists is found where the declared dict stands in another number of lists, and its executable is
taken for the build target that is declared as an element of a list of values. -/
theorem fits_iff_flat_nested :
    let given : TypeSet := [.list [.int, .list [.dict [.object "exe" (some (.object "build_tgt" none))]]]]
    let expected : TypeSet := [.str, .list [.list [.list [.dict [.list [.object "build_tgt" none]]]]]]
    given.Rooted ∧ expected.Filled ∧ given.fits expected = true := by
  intro given expected
  have rooted : given.Rooted := by decide
  have filled : expected.Filled := by decide
  have values :
      fits [.object "exe" (some (.object "build_tgt" none))] [.list [.object "build_tgt" none]] = true := by
    decide
  refine ⟨rooted, filled, (fits_iff_flat given expected rooted filled).mpr ?_⟩
  exact .inr (.inr (.inr ⟨_, _, by simp [given, flat, Ty.flat], by simp [expected, flat, Ty.flat], .values values⟩))

end TypeSet

end MesonCheck
