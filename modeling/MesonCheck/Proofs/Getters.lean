import MesonCheck.Catalogue.Builtin
import MesonCheck.Catalogue.Document
import MesonCheck.Proofs.Walk.Survey

/-! Methods that are read without asking whether they are there. A call of `get` on an empty list, an empty dict or
configuration data reads the method `get` of that type, and the analysis breaks off if the catalogue lacks it. -/
namespace MesonCheck

def getterTypes : List String :=
  ["list", "dict", "cfg_data"]

def Catalogue.HasGetters (c : Catalogue) : Prop :=
  ∀ t ∈ getterTypes, (c.methodOf? t "get").isSome

instance (c : Catalogue) : Decidable c.HasGetters :=
  inferInstanceAs (Decidable (∀ t ∈ getterTypes, _))

theorem Catalogue.builtin_hasGetters : builtin.HasGetters := by
  decide +kernel

namespace Place

theorem getterOf?_mem {receiver : TypeSet} {args : List Argument} {t : String}
    (read : getterOf? receiver args = some t) : t ∈ getterTypes := by
  have list {c : Ty} (found : receiver.first? .list = some c) : c.name = "list" := by
    have kind : c.kind = .list := by simpa using List.find?_some found
    cases c <;> first | rfl | contradiction
  have dict {c : Ty} (found : receiver.first? .dict = some c) : c.name = "dict" := by
    have kind : c.kind = .dict := by simpa using List.find?_some found
    cases c <;> first | rfl | contradiction
  dsimp only [getterOf?] at read
  split at read
  · rename_i found _
    simp only [Option.ite_none_right_eq_some, Option.some.injEq] at read
    simp [← read.2, list found, getterTypes]
  · rename_i found _ _
    simp only [Option.ite_none_right_eq_some, Option.some.injEq] at read
    simp [← read.2, dict found, getterTypes]
  · simp only [Option.ite_none_right_eq_some, Option.some.injEq] at read
    simp [← read.2, getterTypes]

theorem mem_getters_iff {p : Place} {v : Visit} {t : String} {r : Run} : (t, r) ∈ p.getters v ↔
    ∃ s receiver callee argSite as, v.task = .node (.method s receiver callee argSite as) ∧ callee.name = "get" ∧
      let recv := p.visit v.inLoop receiver v.before
      let args := p.visitAll v.inLoop as recv.2
      getterOf? recv.1 (as.zipWith Argument.mk args.1) = some t ∧ r = args.2 := by
  unfold getters
  constructor
  · intro read
    split at read
    · rename_i s receiver callee argSite as task
      dsimp only at read
      split at read
      · rename_i called
        obtain ⟨t, found, same⟩ := List.mem_map.mp read
        cases same
        exact ⟨s, receiver, callee, argSite, as, task, called, Option.mem_toList.mp found, rfl⟩
      · contradiction
    · contradiction
  · rintro ⟨s, receiver, callee, argSite, as, task, called, found, rfl⟩
    rw [task]
    simp [called, found]

theorem fault_of_getter {p : Place} {v : Visit} {t : String} {r : Run} (inside : v.task.IsIn p.file)
    (read : (t, r) ∈ p.getters v) (missing : p.cx.catalogue.methodOf? t "get" = none) (sound : r.fault = none) :
    (p.after v).fault = some (.missingGetter t) := by
  obtain ⟨inLoop, task, before⟩ := v
  obtain ⟨s, receiver, callee, argSite, as, rfl, called, found, rfl⟩ := mem_getters_iff.mp read
  obtain ⟨site, first, named, given⟩ :=
    hasSite_method inside (p.visitAll inLoop as (p.visit inLoop receiver before).2).1
  refine (resolved_grounded (V := fun _ => False) site first named given).kept.fault _ ?_
  rw [resolveMethod, if_pos called, resolveGet_eq]
  dsimp only at found
  rw [found]
  simp [missing, Run.fail, sound]

end Place

namespace Setting

variable {cx : Setting} {t : String}

theorem analyze_eq_error_iff (cx : Setting) (f : Fault) : cx.analyze = .error f ↔ cx.finish.fault = some f := by
  unfold analyze
  cases cx.finish.fault <;> simp

/-- Whether a visit reads a method that is not there, while nothing has broken the analysis off. -/
def Misses (cx : Setting) (t : String) : Prop :=
  cx.catalogue.methodOf? t "get" = none ∧
    ∃ fuel f v r, cx.Makes fuel f v ∧ (t, r) ∈ (cx.place fuel f).getters v ∧ r.fault = none

variable {fuel : Nat} {f : SourceFile} {outer : List SourceFile} {r : Run}

theorem Nests.misses_or_enters (nests : cx.Nests fuel f outer ⟨false, .file, r⟩) (sound : r.fault = none)
    (failed : (cx.walk (fuel + 1) f r).fault = some (.missingGetter t)) :
    cx.Misses t ∨ ∃ v g s, cx.Nests fuel f outer v ∧ (g, s) ∈ (cx.place fuel f).entered v ∧ s.fault = none ∧
      ((cx.place fuel f).enter g s).fault = some (.missingGetter t) := by
  rw [walk_succ, Place.fault_walk] at failed
  rcases nests.ending_grounded.broken sound failed with ⟨s, cause, sound⟩ | ⟨s, _, file, sound, failed⟩
  · obtain ⟨⟨v, nests, read⟩, missing⟩ := cause t rfl
    exact .inl ⟨missing, fuel, f, v, s, exists_nests_iff.mp ⟨outer, nests⟩, read, sound⟩
  · obtain ⟨v, i, nests, resolved, fresh, rfl, rfl⟩ := file
    exact .inr ⟨v, i.file, i.before, nests, (Place.mem_entered_iff _).mpr ⟨i, resolved, fresh, rfl, rfl⟩, sound, failed⟩

theorem Nests.misses (nests : cx.Nests fuel f outer ⟨false, .file, r⟩) (sound : r.fault = none)
    (failed : (cx.walk (fuel + 1) f r).fault = some (.missingGetter t)) : cx.Misses t := by
  induction fuel using Nat.strong_induction_on generalizing f outer r with
  | _ fuel ih =>
    rcases nests.misses_or_enters sound failed with own | ⟨v, g, s, nests, member, sound, failed⟩
    · exact own
    · obtain ⟨k, rfl, included⟩ := nests.exists_included member
      exact ih k (Nat.lt_succ_self k) included sound failed

theorem missingGetter_iff_misses (cx : Setting) (t : String) :
    cx.analyze = .error (.missingGetter t) ↔ cx.Misses t := by
  rw [analyze_eq_error_iff]
  constructor
  · intro failed
    unfold finish at failed
    split at failed
    · exact Nests.misses (.root ‹_›) rfl failed
    · contradiction
  · rintro ⟨missing, fuel, f, v, r, makes, read, sound⟩
    obtain ⟨outer, nests⟩ := exists_nests_iff.mpr makes
    exact nests.kept.fault _ (Place.fault_of_getter nests.isIn read missing sound)

/-! Catalogues. -/

def sampleGet (receiver : Node) (as : List Node) (earlier : List (Nat × TypeSet)) : Setting where
  catalogue := .empty
  tree := .ofFiles [⟨0, .at .zero, "meson.build", some ⟨.at .zero,
    [.method (.at .zero) receiver ⟨.at .zero, "get"⟩ (.at .zero) as]⟩⟩]
  earlier := .ofList earlier

def sampleListGet : Setting :=
  sampleGet (.array (.at .zero) []) [.int (.at .zero) 0] []

def sampleDictGet : Setting :=
  sampleGet (.dict (.at .zero) []) [.str (.at .zero) "" false] []

/-- `1.get().get()`, where `1.get()` has been configuration data. -/
def sampleConfigGet : Setting :=
  sampleGet (.method (.at .zero) (.int (.at .zero) 1) ⟨.at .zero, "get"⟩ (.at .zero) []) []
    [(3, [.object "cfg_data" none])]

theorem exists_misses (t : String) (known : t ∈ getterTypes) :
    ∃ cx : Setting, ∀ c : Catalogue, c.methodOf? t "get" = none → Misses { cx with catalogue := c } t := by
  simp only [getterTypes, List.mem_cons, List.not_mem_nil, or_false] at known
  have misses {cx : Setting} {f : SourceFile} {v : Visit} (makes : cx.Makes 1 f v)
      (reads : ((cx.place 1 f).getters v).any (fun g => g.1 == t && g.2.fault.isNone) = true)
      (missing : cx.catalogue.methodOf? t "get" = none) : cx.Misses t := by
    obtain ⟨⟨_, r⟩, read, facts⟩ := List.any_eq_true.mp reads
    simp only [Bool.and_eq_true, beq_iff_eq, Option.isNone_iff_eq_none] at facts
    obtain ⟨rfl, sound⟩ := facts
    exact ⟨missing, 1, f, v, r, makes, read, sound⟩
  rcases known with rfl | rfl | rfl
  · exact ⟨sampleListGet, fun c missing => misses (.part (.part (.root rfl) (.head _)) (.head _)) rfl missing⟩
  · exact ⟨sampleDictGet, fun c missing => misses (.part (.part (.root rfl) (.head _)) (.head _)) rfl missing⟩
  · exact ⟨sampleConfigGet, fun c missing => misses (.part (.part (.root rfl) (.head _)) (.head _)) rfl missing⟩

/-- An analysis breaks off at a getter exactly where a call reads one that the catalogue does not have, and the
catalogues with which no analysis does so are those that have all three, as the builtin one has. -/
theorem missing_getter_iff (cx : Setting) :
    (∀ t : String, cx.analyze = .error (.missingGetter t) ↔ cx.Misses t) ∧
    ((∀ (other : Setting) (t : String),
      Setting.analyze { other with catalogue := cx.catalogue } ≠ .error (.missingGetter t)) ↔
        cx.catalogue.HasGetters) ∧
    Catalogue.builtin.HasGetters := by
  refine ⟨missingGetter_iff_misses cx, ⟨fun safe t known => ?_, fun has other t => ?_⟩, Catalogue.builtin_hasGetters⟩
  · by_contra missing
    obtain ⟨other, misses⟩ := exists_misses t known
    refine safe other t ((missingGetter_iff_misses _ t).mpr (misses cx.catalogue ?_))
    simpa using missing
  · rw [ne_eq, missingGetter_iff_misses]
    rintro ⟨missing, fuel, f, v, r, -, read, -⟩
    obtain ⟨_, _, _, _, _, -, -, found, -⟩ := Place.mem_getters_iff.mp read
    have known := has t (Place.getterOf?_mem found)
    rw [missing] at known
    contradiction

def sampleDocument : Catalogue.Document :=
  ⟨[], [], [⟨"project", ["str..."], [], ""⟩], [], [], [], fun _ => []⟩

/-- With a catalogue that is accepted, `[].get(0)` breaks the analysis off. -/
theorem accepted_catalogue_misses_getter :
    sampleDocument.violations = [] ∧ ∃ c, Catalogue.ofDocument sampleDocument = .ok c ∧
      Setting.analyze { sampleListGet with catalogue := c } = .error (.missingGetter "list") :=
  ⟨by decide, _, rfl, rfl⟩

end Setting

end MesonCheck
