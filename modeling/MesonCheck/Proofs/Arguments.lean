import MesonCheck.Proofs.Catalogue.Normal
import MesonCheck.Proofs.ReadOnly
import MesonCheck.Proofs.Walk.Reports

/-! When the arguments of a call are accepted. Five passes over the arguments look at their order, their number, the
names of keywords, the required keywords and the types, each with its own counters; together they find an error exactly
where a signature does not fit. -/
namespace MesonCheck

namespace Argument

def named? (a : Argument) : Option String :=
  a.key?.filter (· ≠ "")

def names (args : List Argument) : List String :=
  args.filterMap named?

theorem isPositional_eq (a : Argument) : a.isPositional = a.key?.isNone := by
  obtain ⟨node, types⟩ := a
  cases node <;> rfl

theorem named?_eq_some {a : Argument} {k : String} : a.named? = some k ↔ a.key? = some k ∧ k ≠ "" := by
  simp [named?, Option.filter_eq_some_iff]

theorem mem_names {args : List Argument} {k : String} : k ∈ names args ↔ ∃ a ∈ args, a.key? = some k ∧ k ≠ "" := by
  simp [names, named?_eq_some]

theorem names_of_key {a : Argument} {k : String} (key : a.key? = some k) (named : k ≠ "") (as : List Argument) :
    names (a :: as) = k :: names as := by
  simp [names, named?_eq_some.mpr ⟨key, named⟩]

def repetition? (before : List Argument) (a : Argument) : Option Finding :=
  a.named?.bind fun k => if k ∈ names before then some (a.finding (.duplicateKeyword k)) else none

def repetitions (args : List Argument) : List Finding :=
  args.zipIdx.filterMap fun x => x.1.repetition? (args.take x.2)

end Argument

def Issue.isRepetition : Issue → Bool
  | .duplicateKeyword _ => true
  | _ => false

namespace Callable

structure Takes (f : Callable) (args : List Argument) : Prop where
  order : args.Pairwise fun a b => a.isPositional = false → b.isPositional = false
  enough : f.minPositional ≤ args.countP (·.isPositional)
  limit : ∀ n ∈ f.maxPositional, args.countP (·.isPositional) ≤ n
  declared : ∀ k ∈ Argument.names args, k = "kwargs" ∨ (f.keyword? k).isSome
  required : "kwargs" ∈ Argument.names args ∨ ∀ k ∈ f.requiredKeywords, k ∈ Argument.names args
  positional : ∀ i a, (args.filter (·.isPositional))[i]? = some a →
    ∃ p, f.param? i = some p ∧ a.types.fits p.types = true
  keywords : ∀ a ∈ args, ∀ k ∈ a.key?, ∀ w ∈ f.keyword? k, a.types.fits w.types = true

/-! What each pass finds. -/

theorem orderFindings_eq_nil_iff (seen : Bool) (args : List Argument) : orderFindings seen args = [] ↔
    (seen = true → ∀ a ∈ args, a.isPositional = false) ∧
      args.Pairwise fun a b => a.isPositional = false → b.isPositional = false := by
  induction args generalizing seen with
  | nil => simp [orderFindings]
  | cons a as ih =>
    cases positional : a.isPositional with
    | false => simp [orderFindings, positional, ih]; tauto
    | true => cases seen <;> simp [orderFindings, positional, ih]

theorem countFindings_eq_nil_iff (f : Callable) (site : Site) (args : List Argument) :
    f.countFindings site args = [] ↔ f.minPositional ≤ args.countP (·.isPositional) ∧
      ∀ n ∈ f.maxPositional, args.countP (·.isPositional) ≤ n := by
  cases limit : f.maxPositional <;> simp [countFindings, limit]

theorem keywordFindings_errors_iff (f : Callable) (used : List String) (args : List Argument) :
    (∀ x ∈ f.keywordFindings used args, x.issue.severity ≠ .error) ↔
      ∀ k ∈ Argument.names args, k ∈ used ∨ k = "kwargs" ∨ (f.keyword? k).isSome := by
  fun_induction keywordFindings f used args with
  | case1 => simp [Argument.names]
  | case2 used a as positional ih => simp [ih, Argument.names, Argument.named?, positional]
  | case3 used a as key ih => simp [ih, Argument.names, Argument.named?, key]
  | case4 used a as key found named known ih =>
    have repeated : key ∈ used := by simpa using known
    have warns : (a.finding (.duplicateKeyword key)).issue.severity ≠ .error := by
      simp [Argument.finding, Issue.severity]
    rw [List.forall_mem_cons, ih, Argument.names_of_key found named, List.forall_mem_cons]
    simp [warns, repeated]
  | case5 used a as key found named new unknown ih =>
    have fresh : key ∉ used := by simpa using new
    have fails : (a.finding (.unknownKeyword key)).issue.severity = .error := rfl
    rw [List.forall_mem_cons, Argument.names_of_key found named, List.forall_mem_cons]
    simp [fails, fresh, unknown]
  | case6 used a as key found named new known ih =>
    -- a name that is noted is a declared one
    have allowed : key = "kwargs" ∨ (f.keyword? key).isSome := by
      by_contra other
      simp_all
    rw [ih, Argument.names_of_key found named, List.forall_mem_cons]
    constructor
    · intro rest
      refine ⟨.inr allowed, ?_⟩
      intro k member
      rcases rest k member with noted | declared
      · rcases List.mem_cons.mp noted with rfl | before
        · exact .inr allowed
        · exact .inl before
      · exact .inr declared
    · intro rest k member
      exact (rest.2 k member).imp_left (List.mem_cons_of_mem key)

theorem keywordFindings_repetitions (f : Callable) (used : List String) (before args : List Argument)
    (noted : ∀ k, k ∈ used ↔ k ∈ Argument.names before) :
    (f.keywordFindings used args).filter (·.issue.isRepetition) =
      (args.zipIdx before.length).filterMap fun x => x.1.repetition? ((before ++ args).take x.2) := by
  induction args generalizing used before with
  | nil => rfl
  | cons a as ih =>
    have later (used' : List String) (noted' : ∀ k, k ∈ used' ↔ k ∈ Argument.names (before ++ [a])) :
        (f.keywordFindings used' as).filter (·.issue.isRepetition) =
          (as.zipIdx (before.length + 1)).filterMap fun x => x.1.repetition? ((before ++ a :: as).take x.2) := by
      simpa using ih used' (before ++ [a]) noted'
    have here : (before ++ a :: as).take before.length = before := by simp
    have behind (k : String) : k ∈ Argument.names (before ++ [a]) ↔ k ∈ used ∨ a.named? = some k := by
      simp [Argument.names, noted k, List.filterMap_append]
    simp only [List.zipIdx_cons, List.filterMap_cons, here]
    cases named : a.named? with
    | none =>
      have same : f.keywordFindings used (a :: as) = f.keywordFindings used as := by
        cases key : a.key? with
        | none => simp [keywordFindings, key]
        | some k =>
          have empty : k = "" := by simpa [Argument.named?, key] using named
          simp [keywordFindings, key, empty]
      have now : a.repetition? before = none := by simp [Argument.repetition?, named]
      simp only [same, now]
      exact later used (by simp [behind, named])
    | some key =>
      obtain ⟨found, nonempty⟩ := Argument.named?_eq_some.mp named
      have now : a.repetition? before = if key ∈ used then some (a.finding (.duplicateKeyword key)) else none := by
        simp [Argument.repetition?, named, noted]
      have again : (a.finding (.duplicateKeyword key)).issue.isRepetition = true := rfl
      have other : (a.finding (.unknownKeyword key)).issue.isRepetition = false := rfl
      simp only [keywordFindings, found, if_neg nonempty, now, List.contains_eq_mem, decide_eq_true_eq]
      by_cases known : key ∈ used
      · have rest := later used (by grind)
        simp only [if_pos known, List.filter_cons, again, rest, if_true]
      · have rest := later (key :: used) (by grind)
        rw [if_neg known, if_neg known]
        split
        · rw [List.filter_cons_of_neg (by simp [other]), rest]
        · exact rest

theorem requiredFindings_eq_nil_iff (f : Callable) (site : Site) (args : List Argument) :
    f.requiredFindings site args = [] ↔
      "kwargs" ∈ Argument.names args ∨ ∀ k ∈ f.requiredKeywords, k ∈ Argument.names args := by
  have given (k : String) : k ∈ Argument.names args ↔ k ≠ "" ∧ k ∈ args.filterMap Argument.key? := by
    rw [Argument.mem_names]
    simp
    tauto
  unfold requiredFindings
  simp only [given]
  generalize args.filterMap Argument.key? = keys
  by_cases spread : "kwargs" ∈ keys <;> simp [spread]

theorem typeFinding_eq_nil_iff (a : Argument) (expected : TypeSet) :
    typeFinding a expected = [] ↔ a.types.fits expected = true := by
  simp [typeFinding]

theorem typeFindings_eq_nil_iff (f : Callable) (i : Nat) (args : List Argument) : f.typeFindings i args = [] ↔
    (∀ j a, (args.filter (·.isPositional))[j]? = some a → ∀ p ∈ f.param? (i + j), a.types.fits p.types = true) ∧
      ∀ a ∈ args, ∀ k ∈ a.key?, ∀ w ∈ f.keyword? k, a.types.fits w.types = true := by
  induction args generalizing i with
  | nil => simp [typeFindings]
  | cons a as ih =>
    cases key : a.key? with
    | some k =>
      have keyword : a.isPositional = false := by simp [Argument.isPositional_eq, key]
      cases declared : f.keyword? k with
      | none => simp [typeFindings, key, declared, keyword, ih]
      | some w => simp [typeFindings, key, declared, keyword, ih, typeFinding_eq_nil_iff]; tauto
    | none =>
      have positional : a.isPositional = true := by simp [Argument.isPositional_eq, key]
      have numbers (P : Nat → Argument → Prop) :
          (∀ j b, (a :: as.filter (·.isPositional))[j]? = some b → P j b) ↔
            P 0 a ∧ ∀ j b, (as.filter (·.isPositional))[j]? = some b → P (j + 1) b := by
        constructor
        · intro all
          exact ⟨all 0 a rfl, fun j b => all (j + 1) b⟩
        · rintro ⟨first, rest⟩ (_ | j) b found
          · cases found
            exact first
          · exact rest j b found
      rw [List.filter_cons_of_pos positional, numbers]
      cases param : f.param? i with
      | none => simp [typeFindings, key, param, ih, Nat.add_right_comm i, Nat.add_assoc]
      | some q =>
        simp [typeFindings, key, param, ih, typeFinding_eq_nil_iff, Nat.add_assoc, Nat.add_comm 1, and_assoc]

/-! All passes but the one over the keywords find errors only. -/

theorem errorFree_iff_eq_nil {xs : List Finding} (errors : ∀ x ∈ xs, x.issue.severity = .error) :
    (∀ x ∈ xs, x.issue.severity ≠ .error) ↔ xs = [] := by
  rw [List.eq_nil_iff_forall_not_mem]
  constructor
  · intro free x member
    exact free x member (errors x member)
  · intro none x member
    exact absurd member (none x)

theorem noRepetition_of_errors {xs : List Finding} (errors : ∀ x ∈ xs, x.issue.severity = .error) :
    xs.filter (·.issue.isRepetition) = [] := by
  rw [List.filter_eq_nil_iff]
  intro x member again
  obtain ⟨_, _, issue⟩ := x
  cases issue with
  | duplicateKeyword k => cases errors _ member
  | _ => cases again

/-! Every positional argument has a parameter. -/

def VariadicLast (f : Callable) : Prop :=
  ∀ p ∈ f.params.dropLast, p.variadic = false

instance (f : Callable) : Decidable f.VariadicLast :=
  inferInstanceAs (Decidable (∀ p ∈ f.params.dropLast, p.variadic = false))

theorem param?_isSome {f : Callable} (last : f.VariadicLast) {n : Nat} (limit : ∀ m ∈ f.maxPositional, n ≤ m) {i : Nat}
    (lt : i < n) : (f.param? i).isSome = true := by
  by_cases inside : i < f.params.length
  · simp [param?, inside]
  · have open' : f.params.any (·.variadic) = true := by
      by_contra closed
      have few := limit f.params.length (by simp [maxPositional, closed])
      omega
    obtain ⟨p, member, variadic⟩ := List.any_eq_true.mp open'
    have nonempty : f.params ≠ [] := List.ne_nil_of_mem member
    rw [← List.dropLast_concat_getLast nonempty, List.mem_append, List.mem_singleton] at member
    rcases member with before | rfl
    · rw [last p before] at variadic
      cases variadic
    · simp [param?, inside, List.getLast?_eq_some_getLast nonempty, variadic]

theorem findings_errorFree_iff {f : Callable} (last : f.VariadicLast) (site : Site) (args : List Argument) :
    (∀ x ∈ f.findings site args, x.issue.severity ≠ .error) ↔ f.Takes args := by
  unfold findings
  simp only [List.forall_mem_append, errorFree_iff_eq_nil (orderFindings_all _ fun _ _ => rfl),
    errorFree_iff_eq_nil (countFindings_all _ fun _ _ => rfl),
    errorFree_iff_eq_nil (requiredFindings_all _ fun _ => rfl),
    errorFree_iff_eq_nil (typeFindings_all _ _ fun _ _ _ => rfl), orderFindings_eq_nil_iff, countFindings_eq_nil_iff,
    keywordFindings_errors_iff, requiredFindings_eq_nil_iff, typeFindings_eq_nil_iff, Nat.zero_add]
  constructor
  · rintro ⟨⟨⟨⟨⟨_, order⟩, enough, limit⟩, declared⟩, required⟩, positional, keywords⟩
    refine ⟨order, enough, limit, by simpa using declared, required, ?_, keywords⟩
    intro i a found
    have within : i < args.countP (·.isPositional) := by
      rw [List.countP_eq_length_filter]
      exact (List.getElem?_eq_some_iff.mp found).1
    obtain ⟨p, param⟩ := Option.isSome_iff_exists.mp (param?_isSome last limit within)
    exact ⟨p, param, positional i a found p param⟩
  · rintro ⟨order, enough, limit, declared, required, positional, keywords⟩
    refine ⟨⟨⟨⟨⟨by simp, order⟩, enough, limit⟩, ?_⟩, required⟩, ?_, keywords⟩
    · exact fun k member => .inr (declared k member)
    · intro i a found p param
      obtain ⟨q, same, fits⟩ := positional i a found
      cases same.symm.trans param
      exact fits

theorem findings_repetitions (f : Callable) (site : Site) (args : List Argument) :
    (f.findings site args).filter (·.issue.isRepetition) = Argument.repetitions args := by
  have keywords := f.keywordFindings_repetitions [] [] args (by simp [Argument.names])
  simp only [findings, List.filter_append, noRepetition_of_errors (orderFindings_all _ fun _ _ => rfl),
    noRepetition_of_errors (countFindings_all _ fun _ _ => rfl),
    noRepetition_of_errors (requiredFindings_all _ fun _ => rfl),
    noRepetition_of_errors (typeFindings_all _ _ fun _ _ _ => rfl), List.nil_append, List.append_nil]
  exact keywords

end Callable

namespace Catalogue

def Has (c : Catalogue) (f : Callable) : Prop :=
  f ∈ c.functions ∨ ∃ table ∈ c.methods, f ∈ table.2

theorem buildParam_variadic {c : Catalogue} {id arg : String} {i : Nat} {p : Param}
    (ok : c.buildParam id i false arg = .ok p) : p.variadic = false := by
  cases dots : Text.before? "..." arg with
  | some s =>
    simp only [buildParam, dots] at ok
    cases ok
  | none =>
    cases mark : Text.before? "?" arg <;>
    · simp only [buildParam, dots, mark] at ok
      obtain ⟨types, _, ok⟩ := bind_eq_ok ok
      cases ok
      rfl

theorem buildParams_variadic {c : Catalogue} {id : String} {i : Nat} {args : List String} {ps : List Param}
    (ok : c.buildParams id i args = .ok ps) :
    ps.length = args.length ∧ ∀ p ∈ ps.dropLast, p.variadic = false := by
  induction args generalizing i ps with
  | nil =>
    cases ok
    simp
  | cons a as ih =>
    obtain ⟨p, param, ok⟩ := bind_eq_ok ok
    obtain ⟨qs, params, ok⟩ := bind_eq_ok ok
    cases ok
    obtain ⟨length, rest⟩ := ih params
    refine ⟨by simp [length], ?_⟩
    cases qs with
    | nil => simp
    | cons q qs =>
      cases as with
      | nil => cases length
      | cons b as => simpa using ⟨buildParam_variadic param, by simpa using rest⟩

theorem buildCallable_variadicLast {c : Catalogue} {receiver : Option String} {e : CallableEntry} {f : Callable}
    (ok : c.buildCallable receiver e = .ok f) : f.VariadicLast := by
  obtain ⟨params, built, ok⟩ := bind_eq_ok ok
  obtain ⟨keywords, _, ok⟩ := bind_eq_ok ok
  obtain ⟨returns, _, ok⟩ := bind_eq_ok ok
  cases ok
  exact (buildParams_variadic built).2

theorem Assembled.variadicLast {d : Document} {base c : Catalogue} (assembled : Assembled d base c) {f : Callable}
    (member : c.Has f) : f.VariadicLast := by
  rcases member with function | ⟨table, tables, method⟩
  · exact buildTable_all (fun _ _ => buildCallable_variadicLast) (by simp) assembled.functions f function
  · obtain ⟨e, _, built⟩ := mem_of_mapM_eq_ok assembled.methods tables
    unfold buildMethods at built
    split at built
    · cases built
    · obtain ⟨fs, read, built⟩ := bind_eq_ok built
      cases built
      exact buildTable_all (fun _ _ => buildCallable_variadicLast) (by simp) read f method

theorem builtin_variadicLast {f : Callable} (member : builtin.Has f) : f.VariadicLast := by
  have functions : ∀ f ∈ builtin.functions, f.VariadicLast := by decide
  have methods : ∀ table ∈ builtin.methods, ∀ f ∈ table.2, f.VariadicLast := by decide
  rcases member with function | ⟨table, tables, method⟩
  · exact functions f function
  · exact methods table tables f method

theorem Loaded.variadicLast {c : Catalogue} (loaded : c.Loaded) {f : Callable} (member : c.Has f) : f.VariadicLast := by
  rcases loaded with rfl | ⟨text, ok⟩
  · exact builtin_variadicLast member
  · obtain ⟨d, base, assembled⟩ := load_assembled ok
    exact assembled.variadicLast member

end Catalogue

namespace Argument

theorem repetition?_severity {before : List Argument} {a : Argument} {x : Finding}
    (found : a.repetition? before = some x) : x.issue.severity = .warning := by
  obtain ⟨k, _, found⟩ := Option.bind_eq_some_iff.mp found
  split at found
  · cases found
    rfl
  · cases found

end Argument

namespace Place

/-- The check of a call is exact: it finds no error exactly if the signature takes the arguments, every positional
argument within the limit has a parameter, and one warning is given for every repetition of a keyword. -/
theorem checkCall_exact {c : Catalogue} (loaded : c.Loaded) {f : Callable} (member : c.Has f) (p : Place) (site : Site)
    (callee : Ident) (args : List Argument) (r : Run) :
    ((∀ x ∈ r.reported (p.checkCall site callee f args r), x.issue.severity ≠ .error) ↔ f.Takes args) ∧
      ((∀ n ∈ f.maxPositional, args.countP (·.isPositional) ≤ n) →
        ∀ i < args.countP (·.isPositional), (f.param? i).isSome = true) ∧
      (r.reported (p.checkCall site callee f args r)).filter (·.issue.isRepetition) = Argument.repetitions args ∧
      ∀ x ∈ Argument.repetitions args, x.issue.severity = .warning := by
  have last := loaded.variadicLast member
  obtain ⟨xs, reported, deprecated⟩ := p.checkCall_reported site callee f args r
  rw [reported]
  refine ⟨?_, ?_, ?_, ?_⟩
  · have warnings : ∀ x ∈ xs, x.issue.severity ≠ .error := by
      intro x later
      obtain ⟨id, alternatives, issue⟩ := deprecated x later
      simp [issue, Issue.severity]
    rw [List.forall_mem_append, f.findings_errorFree_iff last]
    exact and_iff_left warnings
  · intro limit i lt
    exact Callable.param?_isSome last limit lt
  · have others : xs.filter (·.issue.isRepetition) = [] := by
      rw [List.filter_eq_nil_iff]
      intro x later
      obtain ⟨id, alternatives, issue⟩ := deprecated x later
      simp [issue, Issue.isRepetition]
    rw [List.filter_append, f.findings_repetitions, others, List.append_nil]
  · intro x again
    obtain ⟨_, _, found⟩ := List.mem_filterMap.mp again
    exact Argument.repetition?_severity found

def sampleLanguage : Argument :=
  ⟨.keyword (.at .zero) ⟨.at .zero, "language"⟩ (.array (.at .zero) [.str (.at .zero) "c" false]), [.list [.str]]⟩

def sampleFlags : List Argument :=
  [⟨.str (.at .zero) "-a" false, [.str]⟩, ⟨.str (.at .zero) "-b" false, [.str]⟩, sampleLanguage, sampleLanguage]

/-- A signature with one parameter takes both texts and the required keyword; the second keyword gives a warning. -/
theorem checkCall_exact_sample :
    ∃ f, Catalogue.builtin.function? "add_project_arguments" = some f ∧ Catalogue.builtin.Has f ∧ f.Takes sampleFlags ∧
      ¬f.Takes (sampleFlags.take 2) ∧
      (sample.cx.start.reported (sample.checkCall (.at .zero) ⟨.at .zero, f.name⟩ f sampleFlags sample.cx.start)).filter
        (·.issue.isRepetition) = [sampleLanguage.finding (.duplicateKeyword "language")] := by
  obtain ⟨f, found⟩ : ∃ f, Catalogue.builtin.function? "add_project_arguments" = some f := ⟨_, rfl⟩
  have member : Catalogue.builtin.Has f := .inl (List.mem_of_find?_eq_some found)
  cases found
  have flags := checkCall_exact (.inl rfl) member sample (.at .zero) ⟨.at .zero, "add_project_arguments"⟩ sampleFlags
    sample.cx.start
  have few := checkCall_exact (.inl rfl) member sample (.at .zero) ⟨.at .zero, "add_project_arguments"⟩
    (sampleFlags.take 2) sample.cx.start
  refine ⟨_, rfl, member, flags.1.mp (by decide), ?_, flags.2.2.1.trans rfl⟩
  intro takes
  have free := few.1.mpr takes
  revert free
  decide

end Place

/-- `message('m', : 1)`, with a keyword argument that has no name. -/
def Setting.sampleNameless : Setting :=
  sampleProject (.call (.at .zero) ⟨.at .zero, "message"⟩ (.at .zero)
    [.str (.at .zero) "m" false, .keyword (.at .zero) ⟨.at .zero, ""⟩ (.int (.at .zero) 1)])

/-- A keyword argument without a name is not declared, and nothing is reported. -/
theorem Setting.nameless_keyword_accepted :
    (∃ f, Setting.sampleNameless.catalogue.function? "message" = some f ∧ f.keyword? "" = none) ∧
      ∃ o, sampleNameless.analyze = .ok o ∧ o.diagnostics = [] :=
  ⟨⟨_, rfl, rfl⟩, _, rfl, rfl⟩

end MesonCheck
