import MesonCheck.Analysis.Run

/-! What lists of events say about one variable: what it was bound to last, what a selection hides of it, and what it is
read as until something binds it. Events are listed in the order in which they happened. -/
namespace MesonCheck

def Event.boundTo (x : String) : Event → Option TypeSet
  | .bound y ts _ => if y = x then some ts else none
  | _ => none

def lastBound (x : String) : List Event → Option TypeSet
  | [] => none
  | e :: es => (lastBound x es).or (e.boundTo x)

/-- The types that a name had, starting from `now`, when it was first bound with as many open selections as `level`
says. A name that was not bound then is looked at again the next time. -/
def shadowed (x : String) (level : Nat) : Option TypeSet → List Event → Option TypeSet
  | _, [] => none
  | now, .bound y ts l :: es =>
    if y = x then
      if l = level then now.or (shadowed x level (some ts) es) else shadowed x level (some ts) es
    else shadowed x level now es
  | now, _ :: es => shadowed x level now es

def firstLevel (x : String) : List Event → Option Nat
  | [] => none
  | .bound y _ l :: es => if y = x then some l else firstLevel x es
  | _ :: es => firstLevel x es

def ReadsAs (x : String) (ts : TypeSet) : List Event → Prop
  | [] => True
  | .bound y _ _ :: es => y = x ∨ ReadsAs x ts es
  | .read id us :: es => (id.name = x → us = ts) ∧ ReadsAs x ts es
  | _ :: es => ReadsAs x ts es

theorem lastBound_append (x : String) (es fs : List Event) :
    lastBound x (es ++ fs) = (lastBound x fs).or (lastBound x es) := by
  induction es with
  | nil => simp [lastBound]
  | cons e es ih => simp only [List.cons_append, lastBound, ih, Option.or_assoc]

theorem lastBound_eq_none_iff (x : String) (es : List Event) :
    lastBound x es = none ↔ ∀ ts l, Event.bound x ts l ∉ es := by
  induction es with
  | nil => simp [lastBound]
  | cons e es ih =>
    rw [lastBound, Option.or_eq_none_iff, ih]
    cases e with
    | bound y ts l =>
      simp only [Event.boundTo, List.mem_cons, not_or]
      constructor
      · rintro ⟨rest, head⟩ us k
        refine ⟨?_, rest us k⟩
        intro same
        cases same
        simp at head
      · intro h
        refine ⟨fun us k => (h us k).2, ?_⟩
        by_cases same : y = x
        · subst same
          exact absurd rfl (h ts l).1
        · simp [same]
    | _ => simp [Event.boundTo]

theorem mem_of_lastBound {x : String} {es : List Event} {ts : TypeSet} (last : lastBound x es = some ts) :
    ∃ l, Event.bound x ts l ∈ es := by
  induction es with
  | nil => simp [lastBound] at last
  | cons e es ih =>
    rw [lastBound, Option.or_eq_some_iff] at last
    rcases last with rest | ⟨_, head⟩
    · obtain ⟨l, hl⟩ := ih rest
      exact ⟨l, List.mem_cons_of_mem _ hl⟩
    · cases e with
      | bound y us l =>
        simp only [Event.boundTo, Option.ite_none_right_eq_some, Option.some.injEq] at head
        obtain ⟨rfl, rfl⟩ := head
        exact ⟨l, List.mem_cons_self⟩
      | _ => simp [Event.boundTo] at head

theorem exists_lastBound {x : String} {ts : TypeSet} {l : Nat} {es : List Event} (bound : Event.bound x ts l ∈ es) :
    ∃ us, lastBound x es = some us := by
  rw [← Option.ne_none_iff_exists', ne_eq, lastBound_eq_none_iff]
  exact fun unbound => unbound ts l bound

theorem shadowed_append (x : String) (level : Nat) (now : Option TypeSet) (es fs : List Event) :
    shadowed x level now (es ++ fs) =
      (shadowed x level now es).or (shadowed x level ((lastBound x es).or now) fs) := by
  induction es generalizing now with
  | nil => simp [shadowed, lastBound]
  | cons e es ih =>
    cases e with
    | bound y ts l =>
      simp only [List.cons_append, shadowed, lastBound, Event.boundTo, ih]
      by_cases same : y = x
      · simp only [if_pos same]
        have now' : ((lastBound x es).or (some ts)).or now = (lastBound x es).or (some ts) := by
          cases lastBound x es <;> rfl
        rw [now']
        split
        · rw [Option.or_assoc]
        · rfl
      · simp [same]
    | _ => simp [shadowed, lastBound, Event.boundTo, ih]

theorem shadowed_eq_none {x : String} {level : Nat} {es : List Event}
    (elsewhere : ∀ ts, Event.bound x ts level ∉ es) (now : Option TypeSet) : shadowed x level now es = none := by
  induction es generalizing now with
  | nil => rfl
  | cons e es ih =>
    have rest : ∀ ts, Event.bound x ts level ∉ es := fun ts h => elsewhere ts (List.mem_cons_of_mem _ h)
    cases e with
    | bound y ts l =>
      rw [shadowed]
      split
      · rename_i same
        have other : ¬ l = level := by
          rintro rfl
          exact elsewhere ts (same ▸ List.mem_cons_self)
        rw [if_neg other]
        exact ih rest _
      · exact ih rest now
    | _ => exact ih rest now

theorem lastBound_eq_none_of_firstLevel {x : String} {es : List Event} (unbound : firstLevel x es = none) :
    lastBound x es = none := by
  induction es with
  | nil => rfl
  | cons e es ih =>
    cases e with
    | bound y ts l =>
      by_cases same : y = x
      · simp [firstLevel, same] at unbound
      · rw [firstLevel, if_neg same] at unbound
        simp [lastBound, Event.boundTo, same, ih unbound]
    | _ => simp [lastBound, Event.boundTo, ih unbound]

/-- A selection that sees the first binding of a name keeps what the name stood for before. -/
theorem shadowed_of_firstLevel {x : String} {level : Nat} {es : List Event} (first : firstLevel x es = some level)
    (ts : TypeSet) : shadowed x level (some ts) es = some ts := by
  induction es with
  | nil => simp [firstLevel] at first
  | cons e es ih =>
    cases e with
    | bound y us l =>
      by_cases same : y = x
      · rw [firstLevel, if_pos same] at first
        simp [shadowed, same, Option.some.inj first]
      · rw [firstLevel, if_neg same] at first
        rw [shadowed, if_neg same]
        exact ih first
    | _ => exact ih first

theorem readsAs_append (x : String) (ts : TypeSet) (es fs : List Event) :
    ReadsAs x ts (es ++ fs) ↔ ReadsAs x ts es ∧ (lastBound x es = none → ReadsAs x ts fs) := by
  induction es with
  | nil => simp [ReadsAs, lastBound]
  | cons e es ih =>
    cases e with
    | bound y us l =>
      by_cases same : y = x
      · simp [ReadsAs, lastBound, Event.boundTo, same]
      · simp [ReadsAs, lastBound, Event.boundTo, same, ih]
    | read id us => simp [ReadsAs, lastBound, Event.boundTo, ih, and_assoc]
    | _ => simp [ReadsAs, lastBound, Event.boundTo, ih]

theorem ReadsAs.types_eq {x : String} {ts us : TypeSet} {es fs : List Event} {id : Ident}
    (reads : ReadsAs x ts (es ++ .read id us :: fs)) (unbound : lastBound x es = none) (named : id.name = x) :
    us = ts :=
  (((readsAs_append x ts es _).mp reads).2 unbound).1 named

def Event.isStill : Event → Bool
  | .bound .. | .read .. => false
  | _ => true

theorem still_facts {es : List Event} (still : ∀ e ∈ es, e.isStill = true) :
    (∀ x ts l, Event.bound x ts l ∉ es) ∧ ∀ x ts, ReadsAs x ts es := by
  induction es with
  | nil => simp [ReadsAs]
  | cons e es ih =>
    have rest := ih fun e he => still e (List.mem_cons_of_mem _ he)
    have head := still e List.mem_cons_self
    cases e <;> simp_all [Event.isStill, ReadsAs]

end MesonCheck
