import MesonCheck.Proofs.Methods
import MesonCheck.Proofs.Text.Placeholders

/-! Calls of `format` on a literal. Whether an argument is used is a matter of how its number is written, and whether a
placeholder has an argument is a matter of its value; the two come apart for leading zeros, for placeholders that share
an at sign and for numbers that do not fit a word. -/
namespace MesonCheck

def Issue.isFormat : Issue → Bool
  | .unusedParameter | .parametersOutOfBounds _ | .pointlessFormat => true
  | _ => false

/-! The findings. -/

def unusedBy (used : Nat → Prop) [DecidablePred used] (i : Nat) (args : List Argument) : List Finding :=
  ((args.zipIdx i).filter fun x => ¬used x.2).map fun x => x.1.finding .unusedParameter

theorem unusedParameters_eq (value : String) (i : Nat) (args : List Argument) :
    unusedParameters value i args = unusedBy (Text.Mentions value) i args := by
  unfold unusedBy
  induction args generalizing i with
  | nil => rfl
  | cons a as ih =>
    have search := Text.contains_placeholder_iff value i
    rw [unusedParameters, List.zipIdx_cons, ih]
    by_cases mentioned : Text.Mentions value i
    · rw [if_pos (search.mpr mentioned)]
      simp [mentioned]
    · rw [if_neg (mt search.mp mentioned)]
      simp [mentioned]

theorem unusedBy_congr {used used' : Nat → Prop} [DecidablePred used] [DecidablePred used']
    (same : ∀ i, used i ↔ used' i) (i : Nat) (args : List Argument) : unusedBy used i args = unusedBy used' i args := by
  simp only [unusedBy, same]

theorem formatFindings_eq (call text : Site) (value : String) (args : List Argument) :
    formatFindings call text value args = unusedBy (Text.Mentions value) 0 args ++
      if Text.indicesFrom args.length value ≠ [] then
        [.about text (.parametersOutOfBounds (Text.indicesFrom args.length value))]
      else if args = [] then [.about call .pointlessFormat] else [] := by
  rw [formatFindings, unusedParameters_eq]
  congr 1
  split
  · rename_i none
    simp [none]
  · rename_i is some
    rw [if_pos some]

theorem isFormat_of_mem_formatFindings {call text : Site} {value : String} {args : List Argument} {x : Finding}
    (found : x ∈ formatFindings call text value args) : x.issue.isFormat = true := by
  rw [formatFindings_eq, List.mem_append] at found
  rcases found with unused | rest
  · obtain ⟨y, _, rfl⟩ := List.mem_map.mp unused
    rfl
  · split at rest
    · cases List.mem_singleton.mp rest
      rfl
    · split at rest
      · cases List.mem_singleton.mp rest
        rfl
      · cases rest

theorem Callable.findings_not_format (f : Callable) (site : Site) (args : List Argument) :
    ∀ x ∈ f.findings site args, x.issue.isFormat = false := by
  simp only [findings, List.forall_mem_append]
  refine ⟨⟨⟨⟨?_, ?_⟩, ?_⟩, ?_⟩, ?_⟩
  · exact orderFindings_all _ fun _ _ => rfl
  · exact f.countFindings_all fun _ _ => rfl
  · exact f.keywordFindings_all _ fun _ _ _ => ⟨rfl, rfl⟩
  · exact f.requiredFindings_all fun _ => rfl
  · exact f.typeFindings_all _ fun _ _ _ => rfl

namespace Place

variable (p : Place)

theorem length_visitAll (inLoop : Bool) (ns : List Node) (r : Run) : (p.visitAll inLoop ns r).1.length = ns.length := by
  induction ns generalizing r with
  | nil => rfl
  | cons n ns ih =>
    rw [visitAll_cons]
    exact congrArg (· + 1) (ih _)

theorem callMethod_text (site : Site) (receiver : Node) {callee : Ident} (args : List Argument) (r : Run) {m : Callable}
    (other : callee.name ≠ "get") (declared : p.cx.catalogue.method? .str callee.name = some m) :
    (p.callMethod site receiver [.str] callee args r).2 =
      checkFormat site receiver m args (p.checkCall site callee m args (r.annotate site m.returns.normal)) := by
  have member : p.resolveMember site callee.name args ((none, []), r) .str = ((some m, m.returns), r) := by
    simp [resolveMember, declared, Ty.isWildcard, Ty.kind]
  have resolved : p.resolveMethod site callee.name [.str] args r = ((some m, m.returns), r) :=
    (p.resolveMethod_eq site other).trans member
  unfold callMethod
  rw [resolved]
  rfl

theorem format_reported (site s : Site) (t : String) (isFormat : Bool) {callee : Ident} (args : List Argument) (r : Run)
    {m : Callable} (named : callee.name = "format") (declared : p.cx.catalogue.method? .str callee.name = some m)
    (own : m.id = "str.format") :
    (r.reported (p.callMethod site (.str s t isFormat) [.str] callee args r).2).filter (·.issue.isFormat) =
      formatFindings site s t args := by
  have other : callee.name ≠ "get" := by
    rw [named]
    decide
  let typed := r.annotate site m.returns.normal
  let checked := p.checkCall site callee m args typed
  have final : (p.callMethod site (.str s t isFormat) [.str] callee args r).2 =
      checked.reportAll (formatFindings site s t args) := by
    rw [p.callMethod_text site _ args r other declared]
    exact if_pos own
  obtain ⟨xs, calls, deprecated⟩ := p.checkCall_reported site callee m args typed
  have first : Run.ReportsOnly (fun _ => True) r typed := .of_log rfl
  have second : Run.ReportsOnly (fun _ => True) typed checked :=
    p.checkCall_reports (fun _ _ => trivial) (fun _ _ => trivial) site callee m args typed
  have third : Run.ReportsOnly (fun _ => True) checked
      (checked.reportAll (formatFindings site s t args)) := .reportAll (fun _ _ => trivial) _
  have before : (r.reported checked).filter (·.issue.isFormat) = [] := by
    rw [List.filter_eq_nil_iff, first.reported_append second, calls]
    intro x found
    rcases List.mem_append.mp found with none | found
    · simp [typed, Run.reported, Run.eventsSince, Run.annotate] at none
    · rcases List.mem_append.mp found with found | found
      · simp [m.findings_not_format site args x found]
      · obtain ⟨id, alternatives, issue⟩ := deprecated x found
        simp [issue, Issue.isFormat]
  have here : (formatFindings site s t args).filter (·.issue.isFormat) =
      formatFindings site s t args := by
    rw [List.filter_eq_self]
    intro x found
    exact isFormat_of_mem_formatFindings found
  rw [final, (first.trans second).reported_append third, List.filter_append, before, Run.reported_reportAll, here]
  rfl

/-- What a call of `format` on a literal reports. An argument is unused if its number is not written in the text as the
number of an argument is; the placeholders without an argument are found by their values, as far as these fit a word;
and a call without arguments is pointless if there are none of those. In a text whose placeholders are plain and fit a
word, all of this goes by the values. -/
theorem format_call_reports (inLoop : Bool) (site s argSite : Site) (t : String) (isFormat : Bool) (callee : Ident)
    (as : List Node) (r : Run) (m : Callable) (named : callee.name = "format")
    (declared : p.cx.catalogue.method? .str callee.name = some m) (own : m.id = "str.format") :
    let args := p.visitAll inLoop as (p.visit inLoop (.str s t isFormat) r).2
    let arguments := as.zipWith Argument.mk args.1
    let found := (args.2.reported (p.visit inLoop (.method site (.str s t isFormat) callee argSite as) r).2).filter
      (·.issue.isFormat)
    ∃ beyond : List Nat, beyond.Pairwise (· < ·) ∧
      (∀ i, i ∈ beyond ↔ i ∈ Text.placeholderValues t ∧ as.length ≤ i ∧ i < signedLimit) ∧
      found = unusedBy (Text.Mentions t) 0 arguments ++
        (if beyond ≠ [] then [.about s (.parametersOutOfBounds beyond)]
        else if as = [] then [.about site .pointlessFormat] else []) ∧
      (Text.Plain t → unusedBy (Text.Mentions t) 0 arguments = unusedBy (· ∈ Text.placeholderValues t) 0 arguments) ∧
      ((∀ i ∈ Text.placeholderValues t, i < signedLimit) →
        (∀ i, i ∈ beyond ↔ i ∈ Text.placeholderValues t ∧ as.length ≤ i) ∧
        (as = [] → (beyond = [] ↔ Text.placeholders t.toList = []))) := by
  have text : (p.visit inLoop (.str s t isFormat) r).1 = [.str] := by
    rw [visit]
    rfl
  dsimp only
  rw [visit_method]
  dsimp only
  rw [text]
  generalize (p.visit inLoop (.str s t isFormat) r).2 = start
  have count : (as.zipWith Argument.mk (p.visitAll inLoop as start).1).length = as.length := by
    rw [List.length_zipWith, p.length_visitAll, Nat.min_self]
  have empty : as.zipWith Argument.mk (p.visitAll inLoop as start).1 = [] ↔ as = [] := by
    rw [← List.length_eq_zero_iff, count, List.length_eq_zero_iff]
  have members := Text.mem_indicesFrom as.length t
  refine ⟨Text.indicesFrom as.length t, Text.indicesFrom_sorted _ _, members, ?_, ?_, ?_⟩
  · rw [p.format_reported site s t isFormat _ _ named declared own, formatFindings_eq, count]
    simp only [empty]
  · intro plain
    exact unusedBy_congr plain.mentions_iff 0 _
  · intro fits
    have all (i : Nat) : i ∈ Text.indicesFrom as.length t ↔ i ∈ Text.placeholderValues t ∧ as.length ≤ i := by
      rw [members]
      exact ⟨fun h => ⟨h.1, h.2.1⟩, fun h => ⟨h.1, h.2, fits i h.1⟩⟩
    refine ⟨all, ?_⟩
    rintro rfl
    have none : Text.indicesFrom 0 t = [] ↔ Text.placeholderValues t = [] := by
      rw [List.eq_nil_iff_forall_not_mem, List.eq_nil_iff_forall_not_mem]
      refine forall_congr' fun i => not_congr ((all i).trans ?_)
      exact and_iff_left (Nat.zero_le i)
    exact none.trans List.map_eq_nil_iff

theorem format_call_reports_sample :
    let literal : Node := .str (.at .zero) "@1@ @0@ @7@" false
    let argument : Node := .str (.at .zero) "a" false
    let start := sample.visitAll false [argument] (sample.visit false literal sample.cx.start).2
    ∃ beyond : List Nat, (∀ i, i ∈ beyond ↔ i = 1 ∨ i = 7) ∧
      (start.2.reported (sample.visit false (.method (.at .zero) literal ⟨.at .zero, "format"⟩ (.at .zero) [argument])
        sample.cx.start).2).filter (·.issue.isFormat) = [.about (.at .zero) (.parametersOutOfBounds beyond)] := by
  have declared : ∃ m, sample.cx.catalogue.method? .str "format" = some m ∧ m.id = "str.format" := ⟨_, rfl, rfl⟩
  obtain ⟨m, declared, own⟩ := declared
  obtain ⟨beyond, sorted, members, found, _⟩ := sample.format_call_reports false (.at .zero) (.at .zero) (.at .zero)
    "@1@ @0@ @7@" false ⟨.at .zero, "format"⟩ [.str (.at .zero) "a" false] sample.cx.start m rfl declared own
  have values : Text.placeholderValues "@1@ @0@ @7@" = [1, 0, 7] := by decide +kernel
  have mentioned : Text.Mentions "@1@ @0@ @7@" 0 := by decide +kernel
  have two (i : Nat) : i ∈ beyond ↔ i = 1 ∨ i = 7 := by
    rw [members, values]
    simp [signedLimit]
    omega
  have some : beyond ≠ [] := List.ne_nil_of_mem ((two 1).mpr (.inl rfl))
  have used (a : Argument) : unusedBy (Text.Mentions "@1@ @0@ @7@") 0 [a] = [] := by simp [unusedBy, mentioned]
  refine ⟨beyond, two, found.trans ?_⟩
  rw [if_pos some]
  exact congrArg (· ++ _) (used _)

end Place

namespace Setting

def lineStart (line : Int) : Range :=
  ⟨⟨line, 0⟩, ⟨line, 0⟩⟩

def sampleFormat (line : Int) (text : String) (args : List String) : Node :=
  .method (.at (lineStart line)) (.str (.at (lineStart line)) text false) ⟨.at (lineStart line), "format"⟩
    (.at (lineStart line)) (args.zipIdx.map fun x => .str (.at (lineStart (line + 1 + x.2))) x.1 false)

/-- `message('@00@'.format('a'), '@0@1@'.format('a', 'b'), '@9223372036854775808@'.format())`. -/
def sampleFormats : Setting :=
  sampleProject (.call (.at .zero) ⟨.at .zero, "message"⟩ (.at .zero)
    [sampleFormat 1 "@00@" ["a"], sampleFormat 3 "@0@1@" ["a", "b"], sampleFormat 6 "@9223372036854775808@" []])

/-- A placeholder has the value of the first argument, which is called unused; none has that of an argument that is not;
and a call with a placeholder is called pointless. -/
theorem format_checks_disagree :
    ["@00@", "@0@1@", "@9223372036854775808@"].map Text.placeholderValues = [[0], [0], [9223372036854775808]] ∧
      ∃ o, sampleFormats.analyze = .ok o ∧ o.diagnostics =
        [⟨.warning, "meson.build", lineStart 2, "unused parameter in format() call"⟩,
          ⟨.warning, "meson.build", lineStart 6, "pointless str.format() call"⟩] :=
  ⟨by decide +kernel, _, rfl, by decide +kernel⟩

end Setting

end MesonCheck
