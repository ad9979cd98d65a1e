/-! Readings that succeed. What a reading in several steps returns is made of what each step returns. -/
namespace MesonCheck

variable {ε ε' α β : Type}

theorem pure_eq_ok_iff {a b : α} : (pure a : Except ε α) = .ok b ↔ a = b := by
  simp [pure, Except.pure]

theorem bind_eq_ok_iff {x : Except ε α} {f : α → Except ε β} {b : β} :
    (x >>= f) = .ok b ↔ ∃ a, x = .ok a ∧ f a = .ok b := by
  cases x <;> simp [bind, Except.bind]

theorem bind_eq_ok {x : Except ε α} {f : α → Except ε β} {b : β} (ok : (x >>= f) = .ok b) :
    ∃ a, x = .ok a ∧ f a = .ok b :=
  bind_eq_ok_iff.mp ok

theorem map_eq_ok_iff {x : Except ε α} {f : α → β} {b : β} : f <$> x = .ok b ↔ ∃ a, x = .ok a ∧ f a = b := by
  cases x <;> simp [Functor.map, Except.map]

theorem mapError_eq_ok_iff {g : ε → ε'} {x : Except ε α} {a : α} : x.mapError g = .ok a ↔ x = .ok a := by
  constructor
  · intro ok
    cases x <;> cases ok
    rfl
  · rintro rfl
    rfl

theorem mapError_eq_ok {g : ε → ε'} {x : Except ε α} {a : α} (ok : x.mapError g = .ok a) : x = .ok a :=
  mapError_eq_ok_iff.mp ok

theorem mem_of_mapM_eq_ok {f : α → Except ε β} {as : List α} {bs : List β} (ok : as.mapM f = .ok bs) {b : β}
    (member : b ∈ bs) : ∃ a ∈ as, f a = .ok b := by
  induction as generalizing bs with
  | nil =>
    cases ok
    cases member
  | cons a as ih =>
    rw [List.mapM_cons] at ok
    obtain ⟨c, first, ok⟩ := bind_eq_ok ok
    obtain ⟨cs, rest, ok⟩ := bind_eq_ok ok
    cases ok
    rcases List.mem_cons.mp member with rfl | member
    · exact ⟨a, List.mem_cons_self, first⟩
    · obtain ⟨a', later, found⟩ := ih rest member
      exact ⟨a', List.mem_cons_of_mem _ later, found⟩

end MesonCheck
