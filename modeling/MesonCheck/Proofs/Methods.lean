import MesonCheck.Proofs.ReadOnly
import MesonCheck.Proofs.Types.Canonical
import MesonCheck.Proofs.Walk.Reports

/-! Which methods are found on a receiver of several types. The members are asked one by one; a wildcard is not asked,
and only a receiver of nothing but wildcards is given a method of some other type. -/
namespace MesonCheck

def Issue.isUnknownMethod : Issue → Bool
  | .unknownMethod .. => true
  | _ => false

namespace Catalogue

theorem guessMethod?_isSome {c : Catalogue} {t : Ty} {n : String} {m : Callable} (found : c.method? t n = some m) :
    ∃ g, c.guessMethod? n = some g := by
  obtain ⟨u, _, found⟩ := List.exists_of_findSome?_eq_some found
  obtain ⟨table, tables, listed⟩ : ∃ table, (u.name, table) ∈ c.methods ∧ table.find? (·.name == n) = some m := by
    unfold methodOf? methodsOf at found
    cases table : c.methods.lookup u.name with
    | none => simp [table] at found
    | some fs =>
      obtain ⟨before, after, same, _⟩ := List.lookup_eq_some_iff.mp table
      exact ⟨fs, by simp [same], by simpa [table] using found⟩
  apply Option.isSome_iff_exists.mp
  rw [guessMethod?, List.findSome?_isSome_iff]
  exact ⟨_, tables, by simp [listed]⟩

end Catalogue

namespace Place

/-! What is reported besides. -/

section

variable {kind : Issue → Prop} (p : Place) {site : Site} {args : List Argument}

theorem guess_reports (n : Node) (r : Run) : Run.ReportsOnly kind r (p.guess n r).2 := by
  unfold guess
  split
  · exact .refl r
  · exact .of_log rfl

theorem keep_reports (r : Run) : Run.ReportsOnly kind r (p.keep site r).2 := by
  unfold keep
  split
  · exact .refl r
  · exact .emit rfl

theorem foreignTypes_reports (allowed : ∀ names, kind (.missingVariables names)) (handle : Ty) (r : Run) :
    Run.ReportsOnly kind r (p.foreignTypes site handle args r).2 := by
  unfold foreignTypes
  split
  · exact (p.guess_reports _ r).trans (.reportIf fun _ => allowed _)
  · exact .refl r

theorem checkFormat_reports (misuse : ∀ issue : Issue, issue.isMisuse = true → kind issue) (receiver : Node)
    (f : Callable) (r : Run) : Run.ReportsOnly kind r (checkFormat site receiver f args r) := by
  unfold checkFormat
  split
  · split
    · apply Run.ReportsOnly.reportAll
      intro x found
      exact misuse _ (Misuses.formatFindings (fun _ => True) _ trivial trivial (fun _ _ => trivial) x found).1
    · exact .refl r
  · exact .refl r

end

/-! The members of a receiver, one by one. -/

/-- Whether nothing is lost from one match to another, and no method is reported in between. -/
structure Grows (a b : Match × Run) : Prop where
  found : a.1.1.isSome = true → b.1.1.isSome = true
  types : ∀ x, TypeSet.Allows a.1.2 x → TypeSet.Allows b.1.2 x
  reports : a.2.ReportsOnly (fun issue => issue.isUnknownMethod = false) b.2

theorem Grows.refl (a : Match × Run) : Grows a a :=
  ⟨id, fun _ => id, .refl _⟩

theorem Grows.trans {a b c : Match × Run} (first : Grows a b) (second : Grows b c) : Grows a c :=
  ⟨second.found ∘ first.found, fun x => second.types x ∘ first.types x, first.reports.trans second.reports⟩

def Answers (p : Place) (name : String) (t : Ty) : Prop :=
  t.isWildcard = false ∧ (p.cx.catalogue.method? t name).isSome = true

section

variable (p : Place) (site : Site) (name : String) (args : List Argument)

theorem resolveMember_skip {t : Ty} (silent : ¬p.Answers name t) (a : Match × Run) :
    p.resolveMember site name args a t = a := by
  unfold resolveMember
  cases wildcard : t.isWildcard with
  | true => rfl
  | false =>
    have none : p.cx.catalogue.method? t name = none := by
      simpa [Answers, wildcard] using silent
    simp [none]

variable {name}

theorem resolveMember_take {t : Ty} (concrete : t.isWildcard = false) {m : Callable}
    (method : p.cx.catalogue.method? t name = some m) (a : Match × Run) :
    ∃ more r, p.resolveMember site name args a t = ((some m, a.1.2 ++ m.returns ++ more), r) ∧
      a.2.ReportsOnly (fun issue => issue.isUnknownMethod = false) r := by
  unfold resolveMember
  rw [concrete, method]
  dsimp only
  split
  · contradiction
  · split
    · exact ⟨_, _, rfl, p.foreignTypes_reports (fun _ => rfl) t a.2⟩
    · exact ⟨[], a.2, by simp, .refl a.2⟩

variable (name)

theorem resolveMember_grows (a : Match × Run) (t : Ty) : Grows a (p.resolveMember site name args a t) := by
  by_cases answers : p.Answers name t
  · obtain ⟨concrete, some⟩ := answers
    obtain ⟨m, method⟩ := Option.isSome_iff_exists.mp some
    obtain ⟨more, r, taken, reports⟩ := p.resolveMember_take site args concrete method a
    rw [taken]
    refine ⟨fun _ => rfl, ?_, reports⟩
    intro x allowed
    simp [TypeSet.allows_append, allowed]
  · rw [p.resolveMember_skip site name args answers]
    exact .refl a

theorem resolveMembers_grows (ts : TypeSet) (a : Match × Run) :
    Grows a (ts.foldl (p.resolveMember site name args) a) := by
  induction ts generalizing a with
  | nil => exact .refl a
  | cons t ts ih => exact (p.resolveMember_grows site name args a t).trans (ih _)

theorem resolveMembers_skip {ts : TypeSet} (silent : ∀ t ∈ ts, ¬p.Answers name t) (a : Match × Run) :
    ts.foldl (p.resolveMember site name args) a = a := by
  induction ts with
  | nil => rfl
  | cons t ts ih =>
    rw [List.foldl_cons, p.resolveMember_skip site name args (silent t List.mem_cons_self)]
    exact ih fun u member => silent u (List.mem_cons_of_mem t member)

variable {name}

theorem resolveMembers_take {ts : TypeSet} {t : Ty} (member : t ∈ ts) (concrete : t.isWildcard = false) {m : Callable}
    (method : p.cx.catalogue.method? t name = some m) (a : Match × Run) :
    (ts.foldl (p.resolveMember site name args) a).1.1.isSome = true ∧
      ∀ x, TypeSet.Allows m.returns x → TypeSet.Allows (ts.foldl (p.resolveMember site name args) a).1.2 x := by
  obtain ⟨before, after, rfl⟩ := List.append_of_mem member
  rw [List.foldl_append, List.foldl_cons]
  generalize before.foldl (p.resolveMember site name args) a = b
  obtain ⟨more, r, taken, _⟩ := p.resolveMember_take site args concrete method b
  rw [taken]
  have rest := p.resolveMembers_grows site name args after ((some m, b.1.2 ++ m.returns ++ more), r)
  refine ⟨rest.found rfl, ?_⟩
  intro x allowed
  apply rest.types
  simp [TypeSet.allows_append, allowed]

end

/-! The call. -/

section

variable (p : Place) (site : Site) (receiver : Node) {types : TypeSet} {callee : Ident} {args : List Argument}
  {r s : Run} {found : Match}

theorem callMethod_of_match (resolved : p.resolveMethod site callee.name types args r = (found, s)) {f : Callable}
    {ts : TypeSet} (guessed : p.guessMethod callee.name types found = (some f, ts)) :
    (p.callMethod site receiver types callee args r).1 = ts.normal ∧
      s.ReportsOnly (fun issue => issue.isUnknownMethod = false)
        (p.callMethod site receiver types callee args r).2 := by
  have misuse (issue : Issue) (misused : issue.isMisuse = true) : issue.isUnknownMethod = false := by
    cases issue <;> first | rfl | contradiction
  unfold callMethod
  rw [resolved]
  dsimp only
  rw [guessed]
  refine ⟨rfl, ?_⟩
  have annotated : s.ReportsOnly (fun issue => issue.isUnknownMethod = false) (s.annotate site ts.normal) := .of_log rfl
  apply annotated.trans
  refine .trans ?_ (checkFormat_reports misuse receiver f _)
  exact p.checkCall_reports misuse (fun _ _ => rfl) site callee f args _

theorem callMethod_of_none (resolved : p.resolveMethod site callee.name types args r = (found, r))
    (guessed : p.guessMethod callee.name types found = (none, found.2)) (other : types ≠ [.disabler]) :
    .about site (.unknownMethod callee.name types) ∈
      r.reported (p.callMethod site receiver types callee args r).2 := by
  unfold callMethod
  rw [resolved]
  dsimp only
  rw [guessed]
  have missed (s : Run) : missMethod site callee.name types s =
      s.report (.about site (.unknownMethod callee.name types)) := by
    unfold missMethod
    split
    · contradiction
    · rfl
  have kept : r.ReportsOnly (fun _ => True) (p.keep site r).2 := p.keep_reports r
  dsimp only [Prod.map]
  rw [missed]
  have reports (s : Run) : s.ReportsOnly (fun _ => True)
      (s.report (.about site (.unknownMethod callee.name types))) := .report trivial
  rw [kept.reported_append (reports _), Run.reported_report]
  simp

theorem resolveMethod_eq (other : callee.name ≠ "get") : p.resolveMethod site callee.name types args r =
    types.foldl (p.resolveMember site callee.name args) ((none, []), r) :=
  if_neg other

variable (args r)

theorem callMethod_answered (other : callee.name ≠ "get") (answered : ∃ u ∈ types, p.Answers callee.name u) :
    (∀ x ∈ r.reported (p.callMethod site receiver types callee args r).2, x.issue.isUnknownMethod = false) ∧
      ∀ t ∈ types, t.isWildcard = false → ∀ m, p.cx.catalogue.method? t callee.name = some m →
        m.returns.Within (p.callMethod site receiver types callee args r).1 := by
  obtain ⟨u, among, concrete, has⟩ := answered
  obtain ⟨n, own⟩ := Option.isSome_iff_exists.mp has
  have resolved : p.resolveMethod site callee.name types args r = _ := p.resolveMethod_eq site other
  have some := (p.resolveMembers_take site args among concrete own ((none, []), r)).1
  have grown := p.resolveMembers_grows site callee.name args types ((none, []), r)
  have taken {t : Ty} {m : Callable} (member : t ∈ types) (concrete : t.isWildcard = false)
      (method : p.cx.catalogue.method? t callee.name = .some m) :=
    (p.resolveMembers_take site args member concrete method ((none, []), r)).2
  generalize types.foldl (p.resolveMember site callee.name args) ((none, []), r) = out at *
  obtain ⟨⟨_ | f, ts⟩, s⟩ := out
  · cases some
  · have guessed : p.guessMethod callee.name types (.some f, ts) = (.some f, ts) := rfl
    obtain ⟨result, quiet⟩ := p.callMethod_of_match site receiver resolved guessed
    refine ⟨(grown.reports.trans quiet).issues, ?_⟩
    intro t member concrete m method
    rw [result, TypeSet.within_iff]
    intro x allowed
    rw [TypeSet.allows_normal]
    exact taken member concrete method x allowed

theorem callMethod_wildcards (other : callee.name ≠ "get") (wildcards : ∀ u ∈ types, u.isWildcard = true) {g : Callable}
    (first : p.cx.catalogue.guessMethod? callee.name = some g) :
    (∀ x ∈ r.reported (p.callMethod site receiver types callee args r).2, x.issue.isUnknownMethod = false) ∧
      (p.callMethod site receiver types callee args r).1 = g.returns.normal := by
  have silent : ∀ u ∈ types, ¬p.Answers callee.name u := by
    rintro u among ⟨concrete, _⟩
    rw [wildcards u among] at concrete
    cases concrete
  have resolved := (p.resolveMethod_eq site other).trans (p.resolveMembers_skip site callee.name args silent (_, r))
  have guessed : p.guessMethod callee.name types (none, []) = (some g, g.returns) := by
    simpa [guessMethod, first] using wildcards
  obtain ⟨result, quiet⟩ := p.callMethod_of_match site receiver resolved guessed
  exact ⟨quiet.issues, result⟩

theorem callMethod_unanswered (other : callee.name ≠ "get") (silent : ∀ u ∈ types, ¬p.Answers callee.name u)
    (concrete : ∃ u ∈ types, u.isWildcard = false) (alone : types ≠ [.disabler]) :
    ∃ x ∈ r.reported (p.callMethod site receiver types callee args r).2, x.issue.isUnknownMethod = true := by
  have resolved := (p.resolveMethod_eq site other).trans (p.resolveMembers_skip site callee.name args silent (_, r))
  have mixed : types.all Ty.isWildcard = false := by simpa using concrete
  have guessed : p.guessMethod callee.name types (none, []) = (none, []) := by simp [guessMethod, mixed]
  exact ⟨_, p.callMethod_of_none site receiver resolved guessed alone, rfl⟩

end

/-- A method that a concrete member of the receiver has is found, and its types are among those of the call. Where only
wildcards have it, it is reported as unknown next to a concrete member, and otherwise taken from the first receiver of
the catalogue that has one. -/
theorem callMethod_finds (p : Place) (site : Site) (receiver : Node) (types : TypeSet) (callee : Ident)
    (args : List Argument) (r : Run) (other : callee.name ≠ "get") {t : Ty} (member : t ∈ types) {m : Callable}
    (method : p.cx.catalogue.method? t callee.name = some m) :
    (t.isWildcard = false →
      (∀ x ∈ r.reported (p.callMethod site receiver types callee args r).2, x.issue.isUnknownMethod = false) ∧
      m.returns.Within (p.callMethod site receiver types callee args r).1) ∧
    ((∃ x ∈ r.reported (p.callMethod site receiver types callee args r).2, x.issue.isUnknownMethod = true) ↔
      (∃ u ∈ types, u.isWildcard = false) ∧
        ∀ u ∈ types, u.isWildcard = false → p.cx.catalogue.method? u callee.name = none) ∧
    ((∀ u ∈ types, u.isWildcard = true) → ∃ g, p.cx.catalogue.guessMethod? callee.name = some g ∧
      (p.callMethod site receiver types callee args r).1 = g.returns.normal) := by
  have answers (concrete : t.isWildcard = false) : p.Answers callee.name t := ⟨concrete, by simp [method]⟩
  obtain ⟨g, first⟩ := Catalogue.guessMethod?_isSome method
  refine ⟨?_, ⟨?_, ?_⟩, ?_⟩
  · intro concrete
    obtain ⟨known, within⟩ := p.callMethod_answered site receiver args r other ⟨t, member, answers concrete⟩
    exact ⟨known, within t member concrete m method⟩
  · rintro ⟨x, reported, unknown⟩
    have missed {P : Prop} (known : ∀ x ∈ r.reported (p.callMethod site receiver types callee args r).2,
        x.issue.isUnknownMethod = false) : P := by
      rw [known x reported] at unknown
      cases unknown
    constructor
    · by_contra none
      have wildcards : ∀ u ∈ types, u.isWildcard = true := by simpa using none
      exact missed (p.callMethod_wildcards site receiver args r other wildcards first).1
    · intro u among concrete
      by_contra has
      have own : p.Answers callee.name u := ⟨concrete, Option.isSome_iff_ne_none.mpr has⟩
      exact missed (p.callMethod_answered site receiver args r other ⟨u, among, own⟩).1
  · rintro ⟨concrete, none⟩
    have silent : ∀ u ∈ types, ¬p.Answers callee.name u := by
      rintro u among ⟨concrete, has⟩
      simp [none u among concrete] at has
    -- the member that has the method is a wildcard, which a disabler is not
    have alone : types ≠ [.disabler] := by
      rintro rfl
      cases List.mem_singleton.mp member
      exact silent _ member (answers rfl)
    exact p.callMethod_unanswered site receiver args r other silent concrete alone
  · intro wildcards
    exact ⟨g, first, (p.callMethod_wildcards site receiver args r other wildcards first).2⟩

theorem callMethod_finds_sample :
    ∃ m, Catalogue.builtin.method? (.list [.str]) "length" = some m ∧ m.returns = [.int] ∧
      TypeSet.Within [.int] (sample.callMethod (.at .zero) (.ident ⟨.at .zero, "x"⟩) [.list [.str], .str]
        ⟨.at .zero, "length"⟩ [] sample.cx.start).1 := by
  have finds := callMethod_finds sample (.at .zero) (.ident ⟨.at .zero, "x"⟩) [.list [.str], .str] ⟨.at .zero, "length"⟩
    [] sample.cx.start (by decide) List.mem_cons_self (m := _) rfl
  exact ⟨_, rfl, rfl, (finds.1 rfl).2⟩

end Place

/-- `message((true ? [get_variable('a')] : 's').length())`. -/
def Setting.sampleMixed : Setting :=
  sampleProject (.call (.at .zero) ⟨.at .zero, "message"⟩ (.at .zero) [.method (.at .zero)
    (.ternary (.at .zero) (.bool (.at .zero) true)
      (.array (.at .zero) [.call (.at .zero) ⟨.at .zero, "get_variable"⟩ (.at .zero) [.str (.at .zero) "a" false]])
      (.str (.at .zero) "s" false))
    ⟨.at .zero, "length"⟩ (.at .zero) []])

/-- A list of anything has the method, but it is reported as unknown beside a text. -/
theorem Setting.method_of_wildcard_reported :
    (∃ m, sampleMixed.catalogue.method? (.list [.any]) "length" = some m) ∧
      ∃ o, sampleMixed.analyze = .ok o ∧ o.diagnostics =
        [⟨.error, "meson.build", .zero, "no method `length` found for types `list(any)|str`"⟩] :=
  ⟨⟨_, rfl⟩, _, rfl, by decide +kernel⟩

end MesonCheck
