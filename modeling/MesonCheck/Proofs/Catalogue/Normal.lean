import MesonCheck.Catalogue.Builtin
import MesonCheck.Catalogue.Document
import MesonCheck.Proofs.Reading
import MesonCheck.Proofs.Types.Canonical

/-! Catalogues in normal form. A type expression is normalised when it is read and a declared type is an object, so what
an analysis copies from a catalogue that was read from a document is normal. The builtin catalogue is checked. -/
namespace MesonCheck

theorem TypeExpr.parse_isNormal {lookup : String → Option Ty} {text : String} {ts : TypeSet}
    (ok : TypeExpr.parse lookup text = .ok ts) : TypeSet.IsNormal ts := by
  dsimp only [TypeExpr.parse] at ok
  split at ok
  · cases ok
    trivial
  · obtain ⟨⟨us, rest⟩, _, ok⟩ := bind_eq_ok ok
    cases rest with
    | nil =>
      cases ok
      exact TypeSet.normal_isNormal us
    | cons c cs => cases ok

namespace Catalogue

structure IsNormal (c : Catalogue) : Prop where
  globals : ∀ g ∈ c.globals, TypeSet.IsNormal g.2
  functions : ∀ f ∈ c.functions, TypeSet.IsNormal f.returns
  types : ∀ t ∈ c.types, t.2.IsNormal

/-! Catalogues that are read. -/

theorem addTypes_isNormal {es : List TypeEntry} {c c' : Catalogue} (normal : ∀ t ∈ c.types, t.2.IsNormal)
    (ok : c.addTypes es = .ok c') : ∀ t ∈ c'.types, t.2.IsNormal := by
  induction es generalizing c with
  | nil =>
    cases ok
    exact normal
  | cons e es ih =>
    have added (parent : Option Ty) : ∀ t ∈ c.types ++ [(e.name, .object e.name parent)], t.2.IsNormal := by
      intro t member
      rcases List.mem_append.mp member with old | new
      · exact normal t old
      · cases List.mem_singleton.mp new
        trivial
    dsimp only [addTypes] at ok
    split at ok
    · cases ok
    · split at ok
      · exact ih (added none) ok
      · split at ok
        · exact ih (added _) ok
        · cases ok

theorem buildCallable_isNormal {c : Catalogue} {receiver : Option String} {e : CallableEntry} {f : Callable}
    (ok : c.buildCallable receiver e = .ok f) : TypeSet.IsNormal f.returns := by
  dsimp only [buildCallable] at ok
  obtain ⟨params, _, ok⟩ := bind_eq_ok ok
  obtain ⟨keywords, _, ok⟩ := bind_eq_ok ok
  obtain ⟨returns, read, ok⟩ := bind_eq_ok ok
  cases ok
  exact TypeExpr.parse_isNormal (mapError_eq_ok read)

theorem buildTable_all {P : Callable → Prop} {c : Catalogue} {receiver : Option String} {twice : Callable → Fault}
    (each : ∀ e f, c.buildCallable receiver e = .ok f → P f) {es : List CallableEntry} {known fs : List Callable}
    (before : ∀ f ∈ known, P f) (ok : c.buildTable receiver twice known es = .ok fs) : ∀ f ∈ fs, P f := by
  induction es generalizing known with
  | nil =>
    cases ok
    exact fun f member => before f (Text.mem_sortedOn.mp member)
  | cons e es ih =>
    rw [buildTable] at ok
    obtain ⟨f, built, ok⟩ := bind_eq_ok ok
    dsimp only at ok
    split at ok
    · cases ok
    · refine ih ?_ ok
      intro g member
      rcases List.mem_append.mp member with old | new
      · exact before g old
      · cases List.mem_singleton.mp new
        exact each e f built

theorem buildGlobal_isNormal {c : Catalogue} {e : String × String} {g : String × TypeSet}
    (ok : c.buildGlobal e = .ok g) : TypeSet.IsNormal g.2 := by
  obtain ⟨types, read, ok⟩ := bind_eq_ok ok
  cases ok
  exact TypeExpr.parse_isNormal (mapError_eq_ok read)

/-- How a catalogue has been put together from a document; `base` has its types only. -/
structure Assembled (d : Document) (base c : Catalogue) : Prop where
  declared : empty.addTypes d.types = .ok base
  types : c.types = Text.sortedOn (·.1) base.types
  globals : (Text.sortedOn (·.1) d.globals).mapM base.buildGlobal = .ok c.globals
  functions : base.buildTable none (fun f => .functionTwice f.name) [] d.functions = .ok c.functions
  methods : (Text.sortedOn (·.1) d.methods).mapM base.buildMethods = .ok c.methods

theorem ofDocument_assembled {d : Document} {c : Catalogue} (ok : ofDocument d = .ok c) :
    ∃ base, Assembled d base c := by
  obtain ⟨base, declared, ok⟩ := bind_eq_ok ok
  obtain ⟨globals, global, ok⟩ := bind_eq_ok ok
  obtain ⟨functions, table, ok⟩ := bind_eq_ok ok
  obtain ⟨methods, tables, ok⟩ := bind_eq_ok ok
  obtain ⟨_, _, ok⟩ := bind_eq_ok ok
  cases ok
  exact ⟨base, declared, rfl, global, table, tables⟩

theorem load_assembled {text : String} {c : Catalogue} (ok : load text = .ok c) :
    ∃ d base, Assembled d base c := by
  obtain ⟨node, _, ok⟩ := bind_eq_ok ok
  obtain ⟨document, _, ok⟩ := bind_eq_ok ok
  dsimp only at ok
  split at ok
  · cases ok
  · exact ⟨document, ofDocument_assembled (mapError_eq_ok ok)⟩

theorem Assembled.isNormal {d : Document} {base c : Catalogue} (assembled : Assembled d base c) : c.IsNormal := by
  constructor
  · intro g member
    obtain ⟨e, _, built⟩ := mem_of_mapM_eq_ok assembled.globals member
    exact buildGlobal_isNormal built
  · exact buildTable_all (fun _ _ => buildCallable_isNormal) (by simp) assembled.functions
  · intro t member
    rw [assembled.types] at member
    exact addTypes_isNormal (by simp [empty]) assembled.declared t (Text.mem_sortedOn.mp member)

/-! The builtin catalogue. -/

theorem builtin_isNormal : builtin.IsNormal where
  globals := by decide
  functions := by decide
  types := by decide

def Loaded (c : Catalogue) : Prop :=
  c = builtin ∨ ∃ text, load text = .ok c

theorem Loaded.isNormal {c : Catalogue} (loaded : c.Loaded) : c.IsNormal := by
  rcases loaded with rfl | ⟨text, ok⟩
  · exact builtin_isNormal
  · obtain ⟨d, base, assembled⟩ := load_assembled ok
    exact assembled.isNormal

theorem IsNormal.optionTypes {c : Catalogue} (normal : c.IsNormal) (k : OptionKind) :
    TypeSet.IsNormal (c.optionTypes k) := by
  cases k with
  | feature =>
    apply TypeSet.singleton_isNormal
    cases found : c.types.lookup "feature" with
    | none => trivial
    | some t =>
      obtain ⟨before, after, same, _⟩ := List.lookup_eq_some_iff.mp found
      exact normal.types ("feature", t) (by simp [same])
  | array | other label => exact TypeSet.singleton_isNormal (TypeSet.singleton_isNormal (t := .str) trivial)
  | _ => exact TypeSet.singleton_isNormal trivial

end Catalogue

end MesonCheck
