import MesonCheck.Catalogue.Builtin
import MesonCheck.Proofs.Unused
import MesonCheck.Proofs.Walk.Survey

/-! Where diagnostics are located. What is reported while a file is the innermost one that is being walked is about
nodes of that file, and an assignment that is not used is reported where it is written, though the root has ended then.
The reports do not know which file is being walked: a diagnostic has the file to which the links from its node lead. -/
namespace MesonCheck

/-! Assignments that have to be used. -/

def Deed.isOwing (d : Deed) : Bool :=
  match d.act with
  | .owe _ => true
  | _ => false

theorem Deed.along_isOwing {α : Type} (step : Run → α → Run) {deeds : Run → α → List Deed}
    (none : ∀ r a, ∀ d ∈ deeds r a, d.isOwing = false) (as : List α) (r : Run) :
    ∀ d ∈ along step deeds as r, d.isOwing = false := by
  induction as generalizing r with
  | nil => simp [along]
  | cons a as ih => exact List.forall_mem_append.mpr ⟨none r a, ih _⟩

namespace Place

variable {p : Place}

theorem functionDeeds_isOwing (f : Callable) (args : List Argument) (r : Run) :
    ∀ d ∈ p.functionDeeds f args r, d.isOwing = false := by
  unfold functionDeeds
  split
  · unfold getDeeds
    split
    · simp
    · split
      · simp [Deed.isOwing]
      · exact Deed.along_isOwing _ (by simp [Deed.isOwing]) _ _
  · unfold setDeeds
    split
    · split
      · simp [Deed.isOwing]
      · exact Deed.along_isOwing _ (by simp [Deed.isOwing]) _ _
    · simp
  · simp

variable {d : Debt} {r : Run}

theorem owe_mem_assignDeeds {site : Site} {op : Operator} {target value : Node} {before ts : TypeSet} {s : Run}
    (member : ⟨.owe d, r⟩ ∈ p.assignDeeds site op target value before ts s) :
    ∃ id, op = .assign ∧ target = .ident id ∧ d.site = id.site := by
  unfold assignDeeds at member
  split at member
  · rename_i id
    split at member
    · contradiction
    · split at member
      · rename_i plain
        unfold plainDeeds at member
        split at member
        · contradiction
        · have owed := (List.mem_cons.mp member).resolve_left (by simp)
          cases List.mem_singleton.mp owed
          exact ⟨id, plain, rfl, rfl⟩
      · cases List.mem_singleton.mp member
  · contradiction

theorem owe_mem_deeds {v : Visit} (member : ⟨.owe d, r⟩ ∈ p.deeds v) :
    ∃ s id value, v.task = .node (.assign s .assign (.ident id) value) ∧ d.site = id.site := by
  have notMem {ds : List Deed} (none : ∀ e ∈ ds, e.isOwing = false) : ⟨.owe d, r⟩ ∉ ds := fun owes => by
    cases none _ owes
  obtain ⟨inLoop, task, before⟩ := v
  cases task with
  | node n =>
    cases n with
    | ident id => exact absurd member (notMem (by simp [deeds, readDeeds, Deed.isOwing]))
    | str s t isFormat =>
      cases isFormat with
      | false => contradiction
      | true => exact absurd member (notMem (Deed.along_isOwing _ (by simp [Deed.isOwing]) _ _))
    | call s callee argSite as =>
      dsimp only [deeds] at member
      split at member
      · exact absurd member (notMem (functionDeeds_isOwing _ _ _))
      · contradiction
    | assign s op t x =>
      obtain ⟨id, rfl, rfl, site⟩ := owe_mem_assignDeeds member
      exact ⟨s, id, x, rfl, site⟩
    | loop s ids subject body => exact absurd member (notMem (Deed.along_isOwing _ (by simp [Deed.isOwing]) _ _))
    | _ => contradiction
  | _ => contradiction

end Place

namespace Setting

/-- Whether a file is being walked at a moment. The files around it, the nearest one first, have included it. -/
def ActiveAt (cx : Setting) (n : Nat) (f : SourceFile) (outer : List SourceFile) : Prop :=
  ∃ fuel r, cx.Nests fuel f outer ⟨false, .file, r⟩ ∧ r.log.length ≤ n ∧ n < ((cx.place fuel f).ending r).log.length

def Innermost (cx : Setting) (n : Nat) (f : SourceFile) (outer : List SourceFile) : Prop :=
  cx.ActiveAt n f outer ∧ ∀ g, ¬cx.ActiveAt n g (f :: outer)

variable {cx : Setting} {n : Nat} {f : SourceFile} {outer : List SourceFile} {finding : Finding}

theorem Nests.activeAt {fuel : Nat} {v : Visit} (nests : cx.Nests fuel f outer v) {g : SourceFile} {r : Run}
    (member : (g, r) ∈ (cx.place fuel f).entered v) (later : r.log.length ≤ n)
    (early : n < ((cx.place fuel f).enter g r).log.length) : cx.ActiveAt n g (f :: outer) := by
  obtain ⟨i, resolved, _, rfl, rfl⟩ := (Place.mem_entered_iff _).mp member
  have active := (Place.inclusions_isInclusion (cx.place_enters _ _) v i resolved).active
  rw [nests.within_eq] at active
  obtain ⟨k, rfl, included⟩ := nests.exists_included member
  refine ⟨k, _, included, later, ?_⟩
  rw [← Place.log_walk_of_active _ _ (by rw [active]; rfl)]
  exact early

/-- What is reported while a file is being walked is about nodes of that file, or it is reported by a file that it
includes. -/
theorem ActiveAt.reports (active : cx.ActiveAt n f outer) (found : cx.finish.eventAt n = some (.found finding)) :
    (f.Locates finding ∧ Event.isCommon (.found finding) = true) ∨ ∃ g, cx.ActiveAt n g (f :: outer) := by
  obtain ⟨fuel, r, nests, later, early⟩ := active
  have kept := ((cx.place fuel f).log_ending_suffix r).trans nests.log_suffix
  rw [Run.eventAt_of_suffix kept early] at found
  rcases nests.ending_grounded.found later found with own | ⟨s, s', entered, later, early, -⟩
  · exact .inl own
  · obtain ⟨v, i, nests, resolved, fresh, rfl, rfl⟩ := entered
    exact .inr ⟨i.file, nests.activeAt ((Place.mem_entered_iff _).mpr ⟨i, resolved, fresh, rfl, rfl⟩) later early⟩

theorem ActiveAt.exists_innermost (active : cx.ActiveAt n f outer) : ∃ g inner, cx.Innermost n g inner := by
  obtain ⟨fuel, active⟩ := active
  -- a file that is included has less fuel
  induction fuel using Nat.strong_induction_on generalizing f outer with
  | _ fuel ih =>
    by_cases deeper : ∃ g, cx.ActiveAt n g (f :: outer)
    · obtain ⟨g, fuel', r, nests, inside⟩ := deeper
      have less := nests.fuel_eq
      have depth := active.choose_spec.1.fuel_eq
      simp only [List.length_cons] at less
      exact ih fuel' (by omega) ⟨r, nests, inside⟩
    · exact ⟨f, outer, ⟨fuel, active⟩, fun g inside => deeper ⟨g, inside⟩⟩

theorem Innermost.reports (innermost : cx.Innermost n f outer)
    (found : cx.finish.eventAt n = some (.found finding)) :
    f.Locates finding ∧ Event.isCommon (.found finding) = true :=
  (innermost.1.reports found).resolve_right fun inside => inside.elim innermost.2

theorem exists_activeAt (found : cx.finish.eventAt n = some (.found finding))
    (other : finding.issue ≠ .unusedAssignment) : ∃ f, cx.ActiveAt n f [] := by
  unfold finish at found
  split at found
  · rename_i f root
    refine ⟨f, _, cx.start, .root root, Nat.zero_le n, ?_⟩
    have log := Run.log_settle cx ((cx.place cx.tree.files.length f).ending cx.start).closeDebts.1
      ((cx.place cx.tree.files.length f).ending cx.start).closeDebts.2.closeFile
    refine Run.lt_of_eventAt (Run.eventAt_before log found fun member => ?_)
    obtain ⟨d, -, same⟩ := List.mem_map.mp member
    cases same
    exact other rfl
  · contradiction

theorem exists_recording (found : cx.finish.eventAt n = some (.found finding))
    (unused : finding.issue = .unusedAssignment) :
    ∃ d : Recording, cx.Does d.deed ∧ finding = .about d.debt.site .unusedAssignment := by
  obtain ⟨r, es, ds, ledger, log⟩ := cx.finish_ledger
  by_cases early : n < r.log.length
  · rw [Run.eventAt_of_suffix ⟨_, log.symm⟩ early] at found
    have silent := ledger.silent _ (Run.mem_of_eventAt_later ledger.log (Nat.zero_le n) found)
    obtain ⟨first, last, issue⟩ := finding
    cases unused
    contradiction
  · have reported := Run.mem_of_eventAt_later log (Nat.le_of_not_lt early) found
    obtain ⟨debt, unsettled, same⟩ := List.mem_map.mp reported
    obtain ⟨d, member, rfl⟩ := List.mem_map.mp (List.mem_filter.mp unsettled).1
    cases same
    exact ⟨d, (ledger.recorded d member).1, rfl⟩

/-- Every report is located in the file that it is about, which is the one that the links from its nodes lead to. Only
unused assignments are reported when no file is being walked any more. -/
theorem diagnostics_located {fs : List SourceFile} {cx : Setting} (built : cx.tree = .ofFiles fs) {o : Outcome}
    (analysed : cx.analyze = .ok o) {n : Nat} {finding : Finding} (found : o.events[n]? = some (.found finding)) :
    (finding.issue ≠ .unusedAssignment → (∃ f outer, cx.Innermost n f outer) ∧
      ∀ f outer, cx.Innermost n f outer →
        cx.tree.StandsIn finding.first f ∧ cx.tree.StandsIn finding.last f ∧
        finding.diagnostic o.tree.linked = ⟨finding.issue.severity, f.path,
          .span finding.first.range finding.last.range, finding.issue.message⟩) ∧
    (finding.issue = .unusedAssignment → (∀ f outer, ¬cx.ActiveAt n f outer) ∧
      ∃ f s id value, f.outline.Has (Node.assign s .assign (.ident id) value).outline ∧
        finding.first = id.site ∧ finding.last = id.site ∧ cx.tree.StandsIn id.site f ∧
        finding.diagnostic o.tree.linked =
          ⟨.warning, f.path, id.site.range, Issue.unusedAssignment.message⟩) := by
  obtain ⟨_, rfl⟩ := (cx.analyze_eq_ok_iff o).mp analysed
  refine ⟨fun other => ⟨?_, fun f outer innermost => ?_⟩, fun unused => ⟨fun f outer active => ?_, ?_⟩⟩
  · obtain ⟨f, active⟩ := exists_activeAt found other
    exact active.exists_innermost
  · obtain ⟨⟨first, last⟩, -⟩ := innermost.reports found
    obtain ⟨_, _, nests, -⟩ := innermost.1
    have stands := nests.standsIn first built
    refine ⟨stands, nests.standsIn last built, ?_⟩
    rw [Finding.diagnostic, ← stands.pathOf]
    rfl
  · -- while a file is walked, nothing is reported as unused
    obtain ⟨g, inner, innermost⟩ := active.exists_innermost
    obtain ⟨-, common⟩ := innermost.reports found
    obtain ⟨first, last, issue⟩ := finding
    cases unused
    contradiction
  · obtain ⟨d, ⟨fuel, f, v, makes, member⟩, rfl⟩ := exists_recording found unused
    obtain ⟨s, id, value, task, site⟩ := Place.owe_mem_deeds member
    obtain ⟨outer, nests⟩ := exists_nests_iff.mpr makes
    have inside : f.outline.Has (Node.assign s .assign (.ident id) value).outline := by
      have isIn := nests.isIn
      rwa [task] at isIn
    have stands := nests.standsIn (Ident.hasSite (inside.child List.mem_cons_self)) built
    refine ⟨f, s, id, value, inside, site, site, stands, ?_⟩
    rw [Finding.diagnostic, ← stands.pathOf, ← site]
    rfl

/-- A root that includes `a`, where `x = 1` is not used. Each file ends with a statement that needs a loop. -/
def sampleLocated : Setting where
  catalogue := .builtin
  tree := .ofFiles [
    ⟨0, .at .zero, "meson.build", some ⟨.at .zero, [
      .call (.at .zero) ⟨.at .zero, "project"⟩ (.at .zero) [.str (.at .zero) "d" false],
      .call (.at ⟨⟨1, 0⟩, ⟨1, 11⟩⟩) ⟨.at .zero, "subdir"⟩ (.at .zero) [.str (.at .zero) "a" false],
      .breakLoop (.at ⟨⟨2, 0⟩, ⟨2, 5⟩⟩)]⟩⟩,
    ⟨0, .at .zero, "a/meson.build", some ⟨.at .zero, [
      .assign (.at ⟨⟨0, 0⟩, ⟨0, 5⟩⟩) .assign (.ident ⟨.at ⟨⟨0, 0⟩, ⟨0, 1⟩⟩, "x"⟩) (.int (.at ⟨⟨0, 4⟩, ⟨0, 5⟩⟩) 1),
      .continueLoop (.at ⟨⟨1, 0⟩, ⟨1, 8⟩⟩)]⟩⟩]

theorem diagnostics_located_sample :
    ∃ o, sampleLocated.analyze = .ok o ∧
      (o.events[5]? = some (.found (.about ⟨⟨⟨1, 0⟩, ⟨1, 8⟩⟩, 16⟩ (.outsideLoop "continue"))) ∧
        o.events[7]? = some (.found (.about ⟨⟨⟨2, 0⟩, ⟨2, 5⟩⟩, 10⟩ (.outsideLoop "break"))) ∧
        o.events[8]? = some (.found (.about ⟨⟨⟨0, 0⟩, ⟨0, 1⟩⟩, 14⟩ .unusedAssignment))) ∧
      (∃ f outer, sampleLocated.Innermost 5 f outer ∧ f.path = "a/meson.build") ∧
      (∃ f outer, sampleLocated.Innermost 7 f outer ∧ f.path = "meson.build") ∧
      (∀ f outer, ¬sampleLocated.ActiveAt 8 f outer) ∧
      ∃ f, sampleLocated.tree.StandsIn ⟨⟨⟨0, 0⟩, ⟨0, 1⟩⟩, 14⟩ f ∧ f.path = "a/meson.build" := by
  obtain ⟨o, analysed, inside, outside, unused⟩ : ∃ o, sampleLocated.analyze = .ok o ∧
      o.events[5]? = some (.found (.about ⟨⟨⟨1, 0⟩, ⟨1, 8⟩⟩, 16⟩ (.outsideLoop "continue"))) ∧
      o.events[7]? = some (.found (.about ⟨⟨⟨2, 0⟩, ⟨2, 5⟩⟩, 10⟩ (.outsideLoop "break"))) ∧
      o.events[8]? = some (.found (.about ⟨⟨⟨0, 0⟩, ⟨0, 1⟩⟩, 14⟩ .unusedAssignment)) := ⟨_, rfl, rfl, rfl, rfl⟩
  obtain ⟨⟨f, outer, innermost⟩, located⟩ := (diagnostics_located rfl analysed inside).1 nofun
  obtain ⟨⟨f', outer', innermost'⟩, located'⟩ := (diagnostics_located rfl analysed outside).1 nofun
  obtain ⟨ended, g, s, id, value, -, site, -, stands, -⟩ := (diagnostics_located rfl analysed unused).2 rfl
  rw [← site] at stands
  exact ⟨o, analysed, ⟨inside, outside, unused⟩,
    ⟨f, outer, innermost, (located f outer innermost).1.pathOf.symm⟩,
    ⟨f', outer', innermost', (located' f' outer' innermost').1.pathOf.symm⟩, ended, g, stands, stands.pathOf.symm⟩

end Setting

end MesonCheck
