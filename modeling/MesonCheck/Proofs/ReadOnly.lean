import MesonCheck.Catalogue.Builtin
import MesonCheck.Proofs.Rerun
import MesonCheck.Proofs.Visibility

/-! Read-only variables. Only plain assignments look whether a variable may be assigned. A predefined read-only variable
keeps its types exactly if no loop, augmented assignment or call of `set_variable` binds it, or if the types that it was
given last are the same. -/
namespace MesonCheck

def Visit.isPlainAssignment (v : Visit) : Bool :=
  match v.task with
  | .node (.assign _ .assign _ _) => true
  | _ => false

/-! Plain assignments never bind a read-only variable. -/

namespace Place

variable {p : Place} {x : String} {ts : TypeSet} {r : Run}

theorem plainDeeds_writable {id : Ident} {value : Node} {us : TypeSet} {s : Run}
    (binds : ⟨.bind x ts, r⟩ ∈ p.plainDeeds id value us s) : x ∉ readOnlyNames := by
  unfold plainDeeds at binds
  split at binds
  · exact absurd binds List.not_mem_nil
  · rename_i writable
    rcases List.mem_cons.mp binds with same | other
    · cases same
      simpa using writable
    · cases List.mem_singleton.mp other

theorem assignDeeds_writable {site : Site} {target value : Node} {before us : TypeSet} {s : Run}
    (binds : ⟨.bind x ts, r⟩ ∈ p.assignDeeds site .assign target value before us s) : x ∉ readOnlyNames := by
  unfold assignDeeds at binds
  split at binds
  · split at binds
    · exact absurd binds List.not_mem_nil
    · exact plainDeeds_writable binds
  · exact absurd binds List.not_mem_nil

theorem deeds_writable {v : Visit} (plain : v.isPlainAssignment = true) (binds : ⟨.bind x ts, r⟩ ∈ p.deeds v) :
    x ∉ readOnlyNames := by
  unfold Visit.isPlainAssignment at plain
  split at plain
  · rename_i task
    rw [deeds, task] at binds
    exact assignDeeds_writable binds
  · contradiction

end Place

namespace Setting

variable {cx : Setting}

/-- Whether a loop, an augmented assignment or a call of `set_variable` binds a name. -/
def Overwrites (cx : Setting) (x : String) : Prop :=
  ∃ fuel f v ts r, cx.Makes fuel f v ∧ v.isPlainAssignment = false ∧ ⟨.bind x ts, r⟩ ∈ (cx.place fuel f).deeds v

theorem Does.overwrites {x : String} {ts : TypeSet} {r : Run} (does : cx.Does ⟨.bind x ts, r⟩)
    (readOnly : x ∈ readOnlyNames) : cx.Overwrites x := by
  obtain ⟨fuel, f, v, makes, binds⟩ := does
  refine ⟨fuel, f, v, ts, r, makes, Bool.eq_false_iff.mpr fun plain => ?_, binds⟩
  exact Place.deeds_writable plain binds readOnly

theorem outcome_scope (x : String) :
    (cx.finish.outcome cx).scope[x]? =
      (lastBound x (cx.finish.outcome cx).events).or (cx.start.scope.lookup x) := by
  obtain ⟨⟨names, opens⟩, _⟩ := cx.passes_finish.opens
  obtain ⟨es, log, lookup⟩ := opens.lookup_eq
  have events : cx.finish.log.reverse = es := by
    rw [log, List.reverse_append, List.reverse_reverse]
    exact List.nil_append es
  rw [Run.outcome, Scope.getElem?_flatten, lookup, events]

theorem lastBound_readOnly {x : String} (readOnly : x ∈ readOnlyNames) :
    lastBound x (cx.finish.outcome cx).events = none ↔ ¬cx.Overwrites x := by
  refine (lastBound_eq_none_iff x _).trans ⟨?_, fun kept ts l member => ?_⟩
  · rintro unbound ⟨fuel, f, v, ts, r, makes, _, binds⟩
    have does : cx.Does ⟨.bind x ts, r⟩ := ⟨fuel, f, v, makes, binds⟩
    exact unbound _ _ (List.mem_of_getElem? does.eventAt_bind)
  · obtain ⟨n, bound⟩ := List.mem_iff_getElem?.mp member
    obtain ⟨us, s, does, _⟩ := finish_exists_bind bound
    exact kept (does.overwrites readOnly)

/-- A read-only variable keeps its predefined types exactly if nothing but plain assignments is made to it, or if it was
given these types again in the end. -/
theorem readOnly_types_iff (cx : Setting) (o : Outcome) (analysed : cx.analyze = .ok o) (x : String)
    (readOnly : x ∈ readOnlyNames) :
    o.scope[x]? = cx.start.scope.lookup x ↔ ¬cx.Overwrites x ∨ lastBound x o.events = cx.start.scope.lookup x := by
  obtain ⟨_, rfl⟩ := (cx.analyze_eq_ok_iff o).mp analysed
  rw [outcome_scope, ← lastBound_readOnly readOnly]
  cases lastBound x (cx.finish.outcome cx).events with
  | none => simp
  | some ts => simp

def sampleProject (n : Node) : Setting where
  catalogue := .builtin
  tree := .ofFiles [⟨0, .at .zero, "meson.build", some ⟨.at .zero,
    [.call (.at .zero) ⟨.at .zero, "project"⟩ (.at .zero) [.str (.at .zero) "d" false], n]⟩⟩]

def samplePlain : Setting :=
  sampleProject (.assign (.at .zero) .assign (.ident ⟨.at .zero, "meson"⟩) (.int (.at .zero) 1))

def sampleOverwriting : Setting :=
  sampleProject (.call (.at .zero) ⟨.at .zero, "set_variable"⟩ (.at .zero)
    [.str (.at .zero) "meson" false, .int (.at .zero) 1])

theorem readOnly_types_iff_sample :
    "meson" ∈ readOnlyNames ∧
    (∃ o, samplePlain.analyze = .ok o ∧ o.scope["meson"]? = some [.object "meson" none] ∧
      ¬samplePlain.Overwrites "meson") ∧
    ∃ o, sampleOverwriting.analyze = .ok o ∧ o.scope["meson"]? = some [.int] ∧
      sampleOverwriting.Overwrites "meson" := by
  have readOnly : "meson" ∈ readOnlyNames := by decide
  have plain := readOnly_types_iff samplePlain _ rfl "meson" readOnly
  have overwriting := readOnly_types_iff sampleOverwriting _ rfl "meson" readOnly
  refine ⟨readOnly, ⟨_, rfl, rfl, ?_⟩, _, rfl, rfl, ?_⟩
  · exact (plain.mp rfl).resolve_right nofun
  · by_contra kept
    cases overwriting.mpr (.inl kept)

/-- A call of `set_variable` gives a read-only variable other types, and nothing is reported. -/
theorem set_variable_replaces_readOnly :
    "meson" ∈ readOnlyNames ∧ sampleOverwriting.start.scope.lookup "meson" = some [.object "meson" none] ∧
      ∃ o, sampleOverwriting.analyze = .ok o ∧ o.diagnostics = [] ∧ o.scope["meson"]? = some [.int] :=
  ⟨by decide, rfl, _, rfl, rfl, rfl⟩

end Setting

end MesonCheck
