import MesonCheck.Proofs.Walk.Moments

/-! Where reports and faults come from. What a visit reports by itself is about nodes of its own file. Two things can
break an analysis off: a guess that does not end, and a call that reads a method the catalogue does not have. -/
namespace MesonCheck

/-! Steps with grounds. -/

def Event.isReport : Event → Bool
  | .found .. => true
  | _ => false

/-- What can be reported and what can break a walk off, and the stretches of it in which other files are walked. -/
structure Grounds where
  reports : Finding → Prop
  faults : Fault → Run → Prop
  files : Run → Run → Prop

inductive Grounded (g : Grounds) : Run → Run → Prop where
  | trans {a b c : Run} : Grounded g a b → Grounded g b c → Grounded g a c
  | silent {r r' : Run} : r'.log = r.log → r'.fault = r.fault → Grounded g r r'
  | emit {r r' : Run} {e : Event} : r'.log = e :: r.log → r'.fault = r.fault →
      (∀ f, e = .found f → g.reports f) → Grounded g r r'
  | fail {r : Run} {f : Fault} : g.faults f r → Grounded g r (r.fail f)
  | file {r r' : Run} : r.Kept r' → g.files r r' → Grounded g r r'

namespace Grounded

variable {g : Grounds} {r r' : Run}

theorem kept (grounded : Grounded g r r') : r.Kept r' := by
  induction grounded with
  | trans _ _ first second => exact first.trans second
  | silent log fault => exact ⟨log ▸ List.suffix_rfl, fun f failed => fault.trans failed⟩
  | emit log fault _ => exact ⟨log ▸ List.suffix_cons _ _, fun f failed => fault.trans failed⟩
  | fail _ => exact ⟨List.suffix_rfl, fun f failed => by simp [Run.fail, failed]⟩
  | file kept _ => exact kept

theorem found (grounded : Grounded g r r') {n : Nat} {f : Finding} (later : r.log.length ≤ n)
    (here : r'.eventAt n = some (.found f)) :
    g.reports f ∨ ∃ s s', g.files s s' ∧ s.log.length ≤ n ∧ n < s'.log.length ∧ s'.Kept r' := by
  induction grounded with
  | @trans a b c _ rest first second =>
    by_cases early : n < b.log.length
    · rw [Run.eventAt_of_suffix rest.kept.log early] at here
      rcases first later here with own | ⟨s, s', other, after, before, kept⟩
      · exact .inl own
      · exact .inr ⟨s, s', other, after, before, kept.trans rest.kept⟩
    · exact second (Nat.le_of_not_lt early) here
  | silent log _ =>
    have bound := Run.lt_of_eventAt here
    rw [log] at bound
    omega
  | emit log _ reports => exact .inl (reports f (Run.eq_of_eventAt_next log later here).symm)
  | fail _ =>
    have bound := Run.lt_of_eventAt here
    exact absurd later (Nat.not_le_of_lt bound)
  | file _ other => exact .inr ⟨_, _, other, later, Run.lt_of_eventAt here, .refl _⟩

theorem broken (grounded : Grounded g r r') {f : Fault} (sound : r.fault = none) (failed : r'.fault = some f) :
    (∃ s, g.faults f s ∧ s.fault = none) ∨ ∃ s s', g.files s s' ∧ s.fault = none ∧ s'.fault = some f := by
  induction grounded with
  | @trans a b c _ rest first second =>
    cases between : b.fault with
    | none => exact second between failed
    | some h =>
      have same := rest.kept.fault h between
      rw [failed] at same
      cases same
      exact first sound between
  | silent _ fault | emit _ fault _ =>
    rw [fault, sound] at failed
    contradiction
  | @fail r h cause =>
    have same : some h = some f := by rw [← failed, Run.fail, sound]; rfl
    cases same
    exact .inl ⟨r, cause, sound⟩
  | file _ other => exact .inr ⟨_, _, other, sound, failed⟩

/-! Single steps. -/

theorem refl (r : Run) : Grounded g r r :=
  .silent rfl rfl

theorem ite {c : Prop} [Decidable c] {a b : Run} (yes : Grounded g r a) (no : Grounded g r b) :
    Grounded g r (if c then a else b) := by
  split
  · exact yes
  · exact no

theorem foldl {α : Type} (f : Run → α → Run) {as : List α} (step : ∀ r, ∀ a ∈ as, Grounded g r (f r a)) (r : Run) :
    Grounded g r (as.foldl f r) := by
  induction as generalizing r with
  | nil => exact .refl r
  | cons a as ih =>
    exact (step r a List.mem_cons_self).trans (ih (fun r b member => step r b (List.mem_cons_of_mem a member)) (f r a))

theorem report {f : Finding} (ground : g.reports f) (r : Run) : Grounded g r (r.report f) := by
  refine .emit rfl rfl fun _ same => ?_
  cases same
  exact ground

theorem reportAll {fs : List Finding} (grounds : ∀ f ∈ fs, g.reports f) (r : Run) :
    Grounded g r (r.reportAll fs) :=
  .foldl _ (fun r f member => .report (grounds f member) r) r

theorem event {r r' : Run} {e : Event} (log : r'.log = e :: r.log) (fault : r'.fault = r.fault)
    (other : e.isReport = false) : Grounded g r r' := by
  refine .emit log fault fun f same => ?_
  subst same
  contradiction

theorem note {e : Event} (other : e.isReport = false) (r : Run) : Grounded g r (r.emit e) :=
  .event rfl rfl other

theorem annotate (s : Site) (ts : TypeSet) (r : Run) : Grounded g r (r.annotate s ts) :=
  .silent rfl rfl

theorem use (x : String) (r : Run) : Grounded g r (r.use x) :=
  .event rfl rfl rfl

theorem bind (x : String) (ts : TypeSet) (r : Run) : Grounded g r (r.bind x ts) := by
  refine .event (e := .bound x ts (r.note x ts).selections.length) ?_ (r.fault_bind x ts) rfl
  exact congrArg _ (r.note_log x ts)

theorem owe (d : Debt) (r : Run) : Grounded g r (r.owe d) := by
  unfold Run.owe
  split
  · exact .refl r
  · exact .event rfl rfl rfl

theorem ignore (names : List String) (r : Run) : Grounded g r (r.ignore names) :=
  .silent rfl rfl

theorem unignore (names : List String) (r : Run) : Grounded g r (r.unignore names) :=
  .silent rfl rfl

theorem openDebts (r : Run) : Grounded g r r.openDebts :=
  .silent rfl rfl

theorem closeDebts (r : Run) : Grounded g r r.closeDebts.2 :=
  .silent rfl rfl

theorem carry (ds : List Debt) (r : Run) : Grounded g r (r.carry ds) := by
  unfold Run.carry
  split
  · exact .refl r
  · exact .silent rfl rfl

theorem closeSelection (isExhaustive : Bool) (before : Frame) (r : Run) :
    Grounded g r (Place.closeSelection isExhaustive before r) := by
  unfold Place.closeSelection
  split
  · exact .refl r
  · rename_i s outer _
    refine .trans (b := { r with selections := outer }) (.silent rfl rfl) (.foldl _ (fun r b _ => ?_) _)
    exact .bind b.1 b.2 r

end Grounded

end MesonCheck
