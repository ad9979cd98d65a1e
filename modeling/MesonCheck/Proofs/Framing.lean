import MesonCheck.Proofs.Walk.Nesting
import MesonCheck.Proofs.Walk.Simulation

/-! The frames of included files. An included file binds its variables in a frame of its own, which is moved into the
frame around it when the file ends. A walk that keeps all variables in one frame comes to the same end, and so does one
that goes deeper than there are files. -/
namespace MesonCheck

inductive Framing where
  /-- In a frame of their own, which is moved into the one around it when the file ends. -/
  | own
  /-- In the frame of the file that includes it. -/
  | shared

namespace Framing

def enter (framing : Framing) (walk : SourceFile → Run → Run) (f : SourceFile) (r : Run) : Run :=
  match framing with
  | own =>
    let r := walk f { r with scope := r.scope.push }
    { r with scope := r.scope.flush }
  | shared => walk f r

end Framing

namespace Setting

def walkBy (cx : Setting) (framing : Framing) (deep : SourceFile → Run → Run) : Nat → SourceFile → Run → Run
  | 0, f, r => deep f r
  | fuel + 1, f, r => Place.walk ⟨cx, f, framing.enter (cx.walkBy framing deep fuel)⟩ r

def finishBy (cx : Setting) (framing : Framing) (deep : SourceFile → Run → Run) (fuel : Nat) : Run :=
  match cx.tree.root with
  | some f => cx.walkBy framing deep fuel f cx.start
  | none => cx.start

def analyzeBy (cx : Setting) (framing : Framing) (deep : SourceFile → Run → Run) (fuel : Nat) : Except Fault Outcome :=
  let r := cx.finishBy framing deep fuel
  match r.fault with
  | some f => .error f
  | none => .ok (r.outcome cx)

end Setting

namespace Framing

/-- How a walk with this framing differs from the analysis: with a shared frame, there is one frame that shows the same
variables. -/
def comparison : Framing → Comparison
  | own => .ofRecords Eq (fun _ same => by rw [same]) (fun _ same => by rw [same])
  | shared =>
    { scopes := fun s s' => (∀ x, s'.lookup x = s.lookup x) ∧ s'.outer = []
      records := Eq
      lookup := fun same => same.1
      bind := fun same x ts => ⟨fun y => by rw [Scope.lookup_bind, Scope.lookup_bind, same.1], same.2⟩
      emit := fun _ same => by rw [same]
      fail := fun _ same => by rw [same] }

theorem records_eq (framing : Framing) : framing.comparison.records = Eq := by
  cases framing <;> rfl

theorem matches_start (framing : Framing) (cx : Setting) : framing.comparison.Matches cx.start cx.start := by
  cases framing with
  | own => exact .mk rfl rfl
  | shared => exact .mk ⟨fun _ => rfl, rfl⟩ rfl

theorem eq_of_matches {framing : Framing} {r r' : Run} (m : framing.comparison.Matches r r')
    (flat : r.scope.outer = []) : r' = r := by
  obtain ⟨scope, records⟩ := m
  rename_i s log fault
  have same : s = r.scope := by
    cases framing with
    | own => exact scope.symm
    | shared => exact Scope.eq_of_lookup scope.2 flat scope.1
  rw [records_eq] at records
  cases records
  rw [same]

theorem enter_matches {framing : Framing} {old : Leftovers} {walk walk' : SourceFile → Run → Run} {f : SourceFile}
    {r r' : Run} (m : framing.comparison.Matches r r')
    (steps : Walks old { r with scope := r.scope.push } (walk f { r with scope := r.scope.push }))
    (inside : ∀ r', framing.comparison.Matches { r with scope := r.scope.push } r' →
      framing.comparison.Matches (walk f { r with scope := r.scope.push }) (walk' f r')) :
    framing.comparison.Matches (own.enter walk f r) (framing.enter walk' f r') := by
  obtain ⟨es, trace, _⟩ := steps.trace
  cases framing with
  | own =>
    have pushed : own.comparison.Matches { r with scope := r.scope.push } { r' with scope := r'.scope.push } := by
      obtain ⟨scope, records⟩ := m
      exact .mk (congrArg Scope.push scope) records
    have done := inside _ pushed
    dsimp only [enter]
    generalize walk' f { r' with scope := r'.scope.push } = s at done ⊢
    obtain ⟨scope, records⟩ := done
    exact .mk (congrArg Scope.flush scope) records
  | shared =>
    have pushed : shared.comparison.Matches { r with scope := r.scope.push } r' := by
      obtain ⟨⟨visible, flat⟩, records⟩ := m
      exact .mk ⟨fun x => (visible x).trans (Scope.lookup_push ..).symm, flat⟩ records
    have done := inside _ pushed
    dsimp only [enter]
    generalize walk' f r' = s at done ⊢
    obtain ⟨⟨visible, flat⟩, records⟩ := done
    exact .mk ⟨fun x => (visible x).trans (Scope.lookup_flush _ _ _ trace.outer x).symm, flat⟩ records

end Framing

namespace Setting

variable {cx : Setting} {framing : Framing}

theorem framing_follows {fuel : Nat} {f : SourceFile} {outer : List SourceFile} {enter : SourceFile → Run → Run}
    (enters : ∀ v g r r', cx.Nests fuel f outer v → (g, r) ∈ (cx.place fuel f).entered v →
      framing.comparison.Matches r r' → framing.comparison.Matches ((cx.place fuel f).enter g r) (enter g r')) :
    Place.Follows framing.comparison (cx.Nests fuel f outer) (cx.place fuel f) cx.switches enter := by
  -- both walks record the same, so whatever one of them records the other does too
  have together {a b : Records} (step : Records → Records) (same : framing.comparison.records a b) :
      framing.comparison.records (step a) (step b) := by
    rw [framing.records_eq] at same ⊢
    rw [same]
  refine ⟨.of_reports fun _ _ _ same _ _ => together _ same, .part, fun _ _ _ _ _ _ => together _,
    fun nests i resolved => ⟨fun _ _ _ => together _, ?_⟩⟩
  intro fresh r' m
  have member := (Place.mem_entered_iff _).mpr ⟨i, resolved, fresh, rfl, rfl⟩
  exact enters _ i.file i.before r' nests member m

/-- Where a walk has fuel for every file that it enters, more fuel and another framing make no difference. -/
theorem walkBy_matches (deep : SourceFile → Run → Run) (extra : Nat) {fuel : Nat} {f : SourceFile}
    {outer : List SourceFile} {r r' : Run} (nests : cx.Nests fuel f outer ⟨false, .file, r⟩)
    (m : framing.comparison.Matches r r') :
    framing.comparison.Matches (cx.walk (fuel + 1) f r) (cx.walkBy framing deep (extra + fuel + 1) f r') := by
  induction fuel generalizing f outer r r' with
  | zero =>
    -- nothing is entered without fuel, so it does not matter what `deep` does
    refine Place.walk_matches (framing_follows ?_) nests m
    intro v g r r' nests member
    exact absurd (nests.fuel_pos member) (Nat.lt_irrefl 0)
  | succ fuel ih =>
    refine Place.walk_matches (framing_follows ?_) nests m
    intro v g r r' nests member m
    obtain ⟨i, _, fresh, rfl, rfl⟩ := (Place.mem_entered_iff _).mp member
    refine Framing.enter_matches m (cx.walk_walks _ _ _ fresh) fun r' m => ?_
    exact ih (.included nests member) m

theorem finishBy_eq (cx : Setting) (framing : Framing) (deep : SourceFile → Run → Run) (extra : Nat) :
    cx.finishBy framing deep (cx.tree.files.length + 1 + extra) = cx.finish := by
  unfold finishBy finish
  cases root : cx.tree.root with
  | none => rfl
  | some f =>
    have m := walkBy_matches deep extra (.root root) (framing.matches_start cx)
    obtain ⟨es, trace, _⟩ := (cx.walk_walks (cx.tree.files.length + 1) f cx.start rfl).trace
    rw [Nat.add_comm _ extra]
    exact Framing.eq_of_matches m trace.outer

/-- If included files were walked in the scope of the file that includes them, in one frame for the whole tree, an
analysis would come to the same end: the same events in the same order, the same types and calls, the same variables. -/
theorem analyze_in_one_frame (cx : Setting) (deep : SourceFile → Run → Run) (extra : Nat) :
    let fuel := cx.tree.files.length + 1 + extra
    cx.finishBy .shared deep fuel = cx.finish ∧ cx.analyzeBy .shared deep fuel = cx.analyze := by
  have same := cx.finishBy_eq .shared deep extra
  refine ⟨same, ?_⟩
  rw [analyzeBy, same]
  rfl

end Setting

end MesonCheck
