import MesonCheck.Proofs.Subprojects.Determinism
import MesonCheck.Proofs.Tree.Outline
import MesonCheck.Proofs.Walk.Simulation

/-! What the analysis of a subproject is given of the others. It is everything that the levels before have come to, and
so it holds whatever a registered file of the subproject asks for by a literal. A root file that another file of the
same path has replaced is not registered, and what it alone asks for may be missed. -/
namespace MesonCheck

/-! Literal calls. -/

def SourceFile.Asks (f : SourceFile) (name : String) : Prop :=
  ∃ site callee argSite text isFormat rest, callee.name = "subproject" ∧
    f.outline.Has (Node.outline (.call site callee argSite (.str text name isFormat :: rest)))

theorem Outline.mem_literalArgumentsAll {function name : String} {child : Outline} {os : List Outline}
    (member : child ∈ os) (inside : name ∈ child.literalArguments function) :
    name ∈ literalArgumentsAll function os := by
  induction os with
  | nil => contradiction
  | cons o os ih =>
    rw [literalArgumentsAll]
    rcases List.mem_cons.mp member with rfl | later
    · exact List.mem_append_left _ inside
    · exact List.mem_append_right _ (ih later)

theorem Outline.Has.literalArguments {function name : String} {o c : Outline} (has : o.Has c)
    (inside : name ∈ c.literalArguments function) : name ∈ o.literalArguments function := by
  induction has with
  | self => exact inside
  | deeper member _ ih =>
    rw [Outline.literalArguments]
    exact List.mem_append_right _ (mem_literalArgumentsAll member (ih inside))

theorem SourceFile.Asks.mem {f : SourceFile} {name : String} (asks : f.Asks name) :
    name ∈ f.outline.literalArguments "subproject" := by
  obtain ⟨site, callee, argSite, text, isFormat, rest, called, has⟩ := asks
  refine has.literalArguments ?_
  rw [Node.outline, Outline.literalArguments]
  refine List.mem_append_left _ ?_
  cases isFormat <;> simp [Node.outlines, Node.outline, Outline.literalArgument?, called]

theorem Subproject.mem_references {s : Subproject} {f : SourceFile} {name : String} (source : f ∈ s.sources)
    (asks : f.Asks name) : name ∈ s.references :=
  (Text.mem_sortedUnique _ _).mpr (List.mem_flatMap.mpr ⟨f, source, asks.mem⟩)

/-! Levels. -/

namespace Graph

theorem At.unique {levels : List (List String)} (distinct : levels.flatten.Nodup) {j k : Nat} {a : String}
    (first : At levels j a) (second : At levels k a) : j = k := by
  obtain ⟨level, found, member⟩ := first
  obtain ⟨level', found', member'⟩ := second
  obtain ⟨hj, rfl⟩ := List.getElem?_eq_some_iff.mp found
  obtain ⟨hk, rfl⟩ := List.getElem?_eq_some_iff.mp found'
  have apart := List.pairwise_iff_getElem.mp (List.nodup_flatten.mp distinct).2
  rcases Nat.lt_trichotomy j k with less | same | more
  · exact absurd member' (apart j k hj hk less member)
  · exact same
  · exact absurd member (apart k j hk hj more member')

theorem earlier_of_uses {ss : List Subproject} {k : Nat} {a b : String} (placed : At (ofValid ss).levels k a)
    (uses : (ofValid ss).Uses a b) (member : b ∈ (ofValid ss).levels.flatten) :
    ∃ j < k, At (ofValid ss).levels j b := by
  refine (levels_earlier placed uses).resolve_left fun cyclic => ?_
  have distinct := (ofValid_parts ss).nodup_iff.mpr (Subproject.valid_distinct ss)
  exact absurd rfl ((List.nodup_append.mp distinct).2.2 b member b cyclic)

end Graph

namespace Resolution

theorem analysed_levels (analyze : Analyzer) (valid : List Subproject) (levels : List (List String)) (st : Resolution) :
    ∃ later, (levels.foldl (level analyze {} valid) st).analysed = st.analysed ++ later ∧
      (later.map (·.subproject.name)).Sublist levels.flatten := by
  induction levels generalizing st with
  | nil => exact ⟨[], by simp⟩
  | cons names levels ih =>
    obtain ⟨later, same, inside⟩ := ih (st.level analyze {} valid names)
    let fates := (Subproject.named valid names).map (·.fate analyze false st.known)
    have ended : fates.map Fate.name = (Subproject.named valid names).map (·.name) := by
      rw [List.map_map]
      exact List.map_congr_left fun s _ => (s.fate_isOf analyze false st.known).name_eq
    refine ⟨fates.filterMap Fate.analysed? ++ later, ?_, ?_⟩
    · rw [List.foldl_cons, same, level_eq, analysed_enter, List.append_assoc]
    · rw [List.map_append, List.flatten_cons]
      have here := (Fate.names_analysed fates).trans (ended ▸ Subproject.names_named_sublist valid names)
      exact here.append inside

theorem mem_levels_of_analysed {analyze : Analyzer} {ss : List Subproject} {a : Analysed}
    (ended : a ∈ (resolve analyze {} ss).analysed) : a.subproject.name ∈ (Graph.ofValid ss).levels.flatten := by
  obtain ⟨all, same, inside⟩ := analysed_levels analyze (Subproject.valid ss) (Graph.ofValid ss).levels (.refused ss)
  rw [resolve_eq, same] at ended
  refine inside.subset (List.mem_map_of_mem ?_)
  simpa [refused] using ended

end Resolution

namespace Progress

variable {analyze : Analyzer} {ss : List Subproject} {p : Progress} {before : List (List String)}
  {now : Option (List String)} {done : List Subproject}

theorem Tracks.at_now (tracks : Tracks analyze ss p before now done) {w : Worker} (runs : w ∈ p.running) :
    w.subproject ∈ Subproject.valid ss ∧ Graph.At (Graph.ofValid ss).levels before.length w.subproject.name := by
  have member : w.subproject ∈ Subproject.named (Subproject.valid ss) (now.getD []) := by
    refine tracks.parts.mem_iff.mp (List.mem_append_left _ (List.mem_append_right _ ?_))
    exact List.mem_map_of_mem runs
  obtain ⟨valid, name⟩ := Subproject.mem_named member
  refine ⟨valid, ?_⟩
  cases now with
  | none => contradiction
  | some names =>
    refine ⟨names, ?_, name⟩
    simp [tracks.levels]

theorem Tracks.mem_before_iff (tracks : Tracks analyze ss p before now done) {name : String} :
    name ∈ before.flatten ↔ ∃ i < before.length, Graph.At (Graph.ofValid ss).levels i name := by
  rw [tracks.levels, List.append_assoc]
  constructor
  · intro member
    obtain ⟨i, level, found, inside⟩ := Graph.exists_at member
    exact ⟨i, (List.getElem?_eq_some_iff.mp found).1, Graph.at_append_left ⟨level, found, inside⟩⟩
  · rintro ⟨i, early, level, found, inside⟩
    rw [List.getElem?_append_left early] at found
    exact Graph.At.mem_flatten ⟨level, found, inside⟩

theorem Tracks.mem_known_iff (tracks : Tracks analyze ss p before now done) {b : Analysed}
    (final : b ∈ (resolve analyze {} ss).analysed) :
    ⟨b.subproject.name, some b.outcome.scope⟩ ∈ p.known ↔ b.subproject.name ∈ before.flatten := by
  obtain ⟨earlier, first, inside⟩ := Resolution.analysed_levels analyze (Subproject.valid ss) before (.refused ss)
  let coming := now.toList ++ p.levels
  have levels : (Graph.ofValid ss).levels = before ++ coming := by
    rw [tracks.levels, List.append_assoc]
  rw [tracks.known]
  constructor
  · intro known
    obtain ⟨a, sorted, same⟩ := List.mem_map.mp known
    have among : a ∈ (Resolution.after analyze ss before).analysed := Text.mem_sortedOn.mp sorted
    rw [Resolution.after, first] at among
    have name : a.subproject.name = b.subproject.name := congrArg KnownSubproject.name same
    refine name ▸ inside.subset (List.mem_map_of_mem ?_)
    simpa [Resolution.refused] using among
  · intro early
    obtain ⟨later, all, outside⟩ :=
      Resolution.analysed_levels analyze (Subproject.valid ss) coming (.after analyze ss before)
    rw [resolve_eq, levels, List.foldl_append] at final
    rcases List.mem_append.mp (all ▸ final) with here | there
    · exact List.mem_map.mpr ⟨b, Text.mem_sortedOn.mpr here, rfl⟩
    · -- a later level has none of the names of these
      have distinct := Graph.levels_distinct ss
      rw [levels, List.flatten_append] at distinct
      exact absurd rfl ((List.nodup_append.mp distinct).2.2 _ early _ (outside.subset (List.mem_map_of_mem there)))

theorem Tracks.known_distinct (tracks : Tracks analyze ss p before now done) : (p.known.map (·.name)).Nodup := by
  obtain ⟨earlier, first, inside⟩ := Resolution.analysed_levels analyze (Subproject.valid ss) before (.refused ss)
  have distinct := Graph.levels_distinct ss
  rw [tracks.levels, List.append_assoc, List.flatten_append] at distinct
  have sorted : ((Resolution.after analyze ss before).sorted.map (·.subproject.name)).Perm
      (earlier.map (·.subproject.name)) := by
    refine ((Text.sortedOn_perm _).map _).trans (.of_eq ?_)
    rw [Resolution.after, first]
    rfl
  rw [tracks.known, Resolution.known, List.map_map]
  exact sorted.nodup_iff.mpr (distinct.of_append_left.sublist inside)

theorem Tracks.known_iff_earlier (tracks : Tracks analyze ss p before now done) {w : Worker} (runs : w ∈ p.running)
    {b : Analysed} (final : b ∈ (resolve analyze {} ss).analysed) :
    ⟨b.subproject.name, some b.outcome.scope⟩ ∈ p.known ↔
      ∃ i j, i < j ∧ Graph.At (Graph.ofValid ss).levels i b.subproject.name ∧
        Graph.At (Graph.ofValid ss).levels j w.subproject.name := by
  have placed := (tracks.at_now runs).2
  rw [tracks.mem_known_iff final, tracks.mem_before_iff]
  constructor
  · rintro ⟨i, less, there⟩
    exact ⟨i, before.length, less, there, placed⟩
  · rintro ⟨i, j, less, there, here⟩
    rw [here.unique (Graph.levels_distinct ss) placed] at less
    exact ⟨i, less, there⟩

/-- What a registered file asks for is an edge of the graph, and so it is on a level before. -/
theorem Tracks.known_of_asks (tracks : Tracks analyze ss p before now done) {w : Worker} (runs : w ∈ p.running)
    {b : Analysed} (final : b ∈ (resolve analyze {} ss).analysed) {f : SourceFile}
    (source : f ∈ w.subproject.sources) (asks : f.Asks b.subproject.name) :
    ⟨b.subproject.name, some b.outcome.scope⟩ ∈ p.known := by
  obtain ⟨valid, placed⟩ := tracks.at_now runs
  have member := Resolution.mem_levels_of_analysed final
  have declared := (Graph.ofValid_parts ss).mem_iff.mp (List.mem_append_left _ member)
  have uses : (Graph.ofValid ss).Uses w.subproject.name b.subproject.name :=
    Graph.ofSubprojects_uses.mpr ⟨⟨w.subproject, valid, rfl, Subproject.mem_references source asks⟩, declared⟩
  obtain ⟨i, less, there⟩ := Graph.earlier_of_uses placed uses member
  exact (tracks.known_iff_earlier runs final).mpr ⟨i, before.length, less, there, placed⟩

end Progress

/-! Subprojects that are missed. -/

def Event.Candid (cx : Setting) : Event → Prop
  | .found ⟨_, _, .missingSubprojects names⟩ => ∀ n ∈ names, cx.Lacks n
  | _ => True

theorem Event.candid_of_isOpen (cx : Setting) {e : Event} (calm : e.isOpen = false) : e.Candid cx := by
  cases e with
  | found f =>
    obtain ⟨_, _, issue⟩ := f
    cases issue with
    | missingSubprojects => cases calm
    | _ => trivial
  | _ => trivial

namespace Setting

def candid (cx : Setting) : Comparison :=
  .ofRecords (fun a b => a = b ∧ ∀ e ∈ a.1, e.Candid cx)
    (fun calm both => ⟨by rw [both.1], List.forall_mem_cons.mpr ⟨Event.candid_of_isOpen cx calm, both.2⟩⟩)
    (fun _ both => ⟨by rw [both.1], both.2⟩)

theorem candid_reports {cx : Setting} {issue : Issue}
    (candid : ∀ first last, (Event.found ⟨first, last, issue⟩).Candid cx) : cx.candid.Reports issue := by
  rintro a _ ⟨rfl, earlier⟩ first last
  exact ⟨rfl, List.forall_mem_cons.mpr ⟨candid first last, earlier⟩⟩

theorem candid_tolerates (cx : Setting) : cx.candid.Tolerates cx cx.switches where
  name m := Comparison.Reports.checkName cx (candid_reports fun _ _ => trivial) m
  result m := Comparison.Reports.checkResult cx (fun _ => candid_reports fun _ _ => trivial) m
  callable m := Comparison.Reports.checkDeprecated cx (fun _ _ => candid_reports fun _ _ => trivial) m
  keyword m := Comparison.Reports.checkKeyword cx (fun _ _ => candid_reports fun _ _ => trivial) m
  missing _ lacks := candid_reports fun _ _ => lacks

theorem candid_of_matches {cx : Setting} {r r' : Run} (m : cx.candid.Matches r r') : ∀ e ∈ r.log, e.Candid cx := by
  obtain ⟨_, both⟩ := m
  exact both.2

theorem finish_candid (cx : Setting) : ∀ e ∈ cx.finish.log, e.Candid cx := by
  have start : cx.candid.Matches cx.start cx.start := .mk rfl ⟨rfl, by simp [Setting.start, Run.records]⟩
  unfold finish
  split
  · have recursion (path : String) : cx.candid.Reports (.recursiveInclusion path) := candid_reports fun _ _ => trivial
    refine candid_of_matches (walk_switched rfl cx.candid_tolerates recursion ?_ _ _ start)
    rintro a _ ⟨rfl, earlier⟩
    exact ⟨rfl, earlier⟩
  · exact candid_of_matches start

end Setting

theorem Subproject.lacks_of_missing {c : Catalogue} {lints : LintOptions} {s : Subproject}
    {known : List KnownSubproject} {o : Outcome} (analysed : Subproject.analyze c lints s known = .ok o)
    {first last : Site} {names : List String}
    (found : .found ⟨first, last, .missingSubprojects names⟩ ∈ o.events) {name : String} (listed : name ∈ names) :
    Setting.Lacks ⟨c, s.tree.getD .empty, s.options, lints, some known, s.provides, s.slots⟩ name := by
  unfold Subproject.analyze Setting.analyze at analysed
  split at analysed
  · rename_i done result
    split at result
    · contradiction
    · cases analysed
      cases result
      exact Setting.finish_candid _ _ (List.mem_reverse.mp found) name listed
  · contradiction

/-! Calls. -/

theorem SourceFile.guess_literal (f : SourceFile) (site : Site) (text : String) (isFormat : Bool) :
    f.guess (.str site text isFormat) = some [text] := by
  cases fuel : Guess.fuelFor f.statements with
  | zero =>
    unfold Guess.fuelFor at fuel
    omega
  | succ fuel' =>
    rw [SourceFile.guess, fuel]
    rfl

namespace Place

variable {p : Place} {known : List KnownSubproject}

theorem subprojectTypes_literal (given : p.cx.subprojects = some known) {k : KnownSubproject} (member : k ∈ known)
    (site text : Site) (isFormat : Bool) (types : TypeSet) (rest : List Argument) (r : Run) :
    p.subprojectTypes site (⟨.str text k.name isFormat, types⟩ :: rest) r = ([.handle [k.name]], r) := by
  have guess : p.guess (.str text k.name isFormat) r = ([k.name], r) := by
    rw [Place.guess, p.file.guess_literal]
  have missing : ([k.name].filter fun n => !known.any (·.name == n)) = [] := by
    simpa using ⟨k, member, rfl⟩
  simp only [subprojectTypes, guess, given, missing]
  rfl

theorem foreignTypes_handle (given : p.cx.subprojects = some known) (distinct : (known.map (·.name)).Nodup)
    {k : KnownSubproject} (member : k ∈ known) (site : Site) (args : List Argument) (r : Run) :
    p.foreignTypes site (.handle [k.name]) args r =
      Place.foreignTypes { p with cx := { p.cx with subprojects := some [k] } } site (.handle [k.name]) args r := by
  have names : (Ty.handle [k.name]).subprojectNames = [k.name] := rfl
  have only {ks : List KnownSubproject} (distinct : (ks.map (·.name)).Nodup) (member : k ∈ ks) :
      (ks.filter fun l => [k.name].contains l.name) = [k] := by
    rw [← Text.filter_key_eq distinct member]
    exact List.filter_congr fun l _ => Bool.eq_iff_iff.mpr (by simp)
  unfold foreignTypes
  rw [given]
  cases args with
  | nil => rfl
  | cons a rest =>
    dsimp only
    rw [names, only distinct member, only (by simp) List.mem_cons_self]
    rfl

end Place

namespace Progress

/-- The analysis of a subproject that nobody gives up is given another one, as it is in the end, exactly if that one
stands in a level before. So it is given whatever a registered file of the subproject asks for by a literal. It never
misses what it is given, and a handle to it shows its variables and no others. -/
theorem literal_subprojects_known {analyze : Analyzer} {limit : Int} {ss : List Subproject} {ms ms' : List Move}
    {p q : Progress} {w : Worker} {b : Analysed}
    (made : moves analyze limit (Subproject.valid ss) ms (start ss) = some p) (runs : w ∈ p.running)
    (rest : moves analyze limit (Subproject.valid ss) ms' p = some q) (finished : q.isOver = true)
    (goesOn : q.isCancelled = false) (final : b ∈ q.resolution.sorted) :
    let levels := (Graph.ofValid ss).levels
    let k : KnownSubproject := ⟨b.subproject.name, some b.outcome.scope⟩
    (k ∈ p.known ↔ ∃ i j, i < j ∧ Graph.At levels i k.name ∧ Graph.At levels j w.subproject.name) ∧
    (∀ f ∈ w.subproject.sources, f.Asks k.name → k ∈ p.known) ∧
    (k ∈ p.known →
      (∀ c lints o, Subproject.analyze c lints w.subproject p.known = .ok o → ∀ first last names,
        .found ⟨first, last, .missingSubprojects names⟩ ∈ o.events → k.name ∉ names) ∧
      ∀ here : Place, here.cx.subprojects = some p.known → ∀ site text isFormat types args r,
        here.subprojectTypes site (⟨.str text k.name isFormat, types⟩ :: args) r = ([.handle [k.name]], r) ∧
        here.foreignTypes site (.handle [k.name]) args r =
          Place.foreignTypes { here with cx := { here.cx with subprojects := some [k] } } site (.handle [k.name])
            args r) := by
  intro levels k
  have whole : moves analyze limit (Subproject.valid ss) (ms ++ ms') (start ss) = some q := by
    rw [moves_append, made]
    exact rest
  obtain ⟨before, now, done, tracks⟩ := tracks_of_moves made (went_on_of_moves rest goesOn)
  have ended : b ∈ (resolve analyze {} ss).analysed := by
    rw [sorted_resolve whole finished goesOn] at final
    exact Text.mem_sortedOn.mp final
  refine ⟨tracks.known_iff_earlier runs ended, ?_, ?_⟩
  · intro f source asks
    exact tracks.known_of_asks runs ended source asks
  · intro known
    refine ⟨?_, ?_⟩
    · intro c lints o analysed file range names found listed
      obtain ⟨given, same, lacks⟩ := Subproject.lacks_of_missing analysed found listed
      cases same
      exact lacks k known rfl
    · intro here given site text isFormat types args r
      have literal := Place.subprojectTypes_literal given known site text isFormat types args r
      exact ⟨literal, Place.foreignTypes_handle given tracks.known_distinct known site args r⟩

def samplePair : List Subproject :=
  [Graph.sampleUser "e" ["d"], Graph.sampleUser "d" []]

theorem literal_subprojects_known_sample :
    ∃ p q b, moves (sampleAnalyzer []) 1 (Subproject.valid samplePair)
        [.nextLevel, .launch, .look 0, .finish 0, .nextLevel, .launch] (start samplePair) = some p ∧
      p.running = [⟨Graph.sampleUser "e" ["d"], none⟩] ∧
      moves (sampleAnalyzer []) 1 (Subproject.valid samplePair) [.look 0, .finish 0] p = some q ∧ q.isOver = true ∧
      q.isCancelled = false ∧ b ∈ q.resolution.sorted ∧ b.subproject.name = "d" ∧
      (∃ f ∈ (Graph.sampleUser "e" ["d"]).sources, f.Asks "d") ∧ ⟨"d", some b.outcome.scope⟩ ∈ p.known := by
  have run : ∃ p q b, moves (sampleAnalyzer []) 1 (Subproject.valid samplePair)
        [.nextLevel, .launch, .look 0, .finish 0, .nextLevel, .launch] (start samplePair) = some p ∧
      p.running = [⟨Graph.sampleUser "e" ["d"], none⟩] ∧
      moves (sampleAnalyzer []) 1 (Subproject.valid samplePair) [.look 0, .finish 0] p = some q ∧ q.isOver = true ∧
      q.isCancelled = false ∧ b ∈ q.resolution.sorted ∧ b.subproject.name = "d" :=
    ⟨_, _, _, rfl, rfl, rfl, rfl, rfl, List.mem_cons_self, rfl⟩
  have asks : ∃ f ∈ (Graph.sampleUser "e" ["d"]).sources, f.Asks "d" :=
    ⟨_, List.mem_cons_self, _, _, _, _, _, _, rfl,
      .deeper List.mem_cons_self (.deeper List.mem_cons_self (.self _))⟩
  obtain ⟨p, q, b, made, running, rest, finished, goesOn, final, name⟩ := run
  obtain ⟨f, source, asked⟩ := asks
  have runs : ⟨Graph.sampleUser "e" ["d"], none⟩ ∈ p.running := running ▸ List.mem_cons_self
  have known := (literal_subprojects_known made runs rest finished goesOn final).2.1 f source (name ▸ asked)
  exact ⟨p, q, b, made, running, rest, finished, goesOn, final, name, ⟨f, source, asked⟩, name ▸ known⟩

end Progress

/-- The root file of `a` asks for `d`, and another file of the same path has replaced it. -/
def sampleReplaced : List Subproject :=
  [{ Graph.sampleUser "a" [] with
      tree := some (.ofFiles [⟨0, .at .zero, "meson.build", some ⟨.at .zero,
        [.call (.at .zero) ⟨.at .zero, "subproject"⟩ (.at .zero) [.str (.at .zero) "d" false]]⟩⟩,
        ⟨0, .at .zero, "./meson.build", some ⟨.at .zero, []⟩⟩]) },
    Graph.sampleUser "d" []]

def sampleSubprojects : Catalogue :=
  ⟨[], [], [⟨"subproject", none, [⟨[.str], false, false⟩], [], []⟩], [], [], [], fun _ => []⟩

/-- Where the root file has been replaced, its analysis can miss a subproject that is there. -/
theorem replaced_root_misses :
    let missed (a : Analysed) := a.outcome.diagnostics.any (·.message == "unable to find subprojects [d]")
    let st := resolve (Subproject.analyze sampleSubprojects {}) {} sampleReplaced
    (∃ s ∈ sampleReplaced, s.name = "a" ∧ ∃ f, s.tree.bind (·.root) = some f ∧ f.Asks "d") ∧
    st.sorted.map (fun a => (a.subproject.name, missed a)) = [("a", true), ("d", false)] := by
  refine ⟨⟨_, List.mem_cons_self, rfl, _, rfl, ?_⟩, by decide +kernel⟩
  exact ⟨_, _, _, _, _, _, rfl, .deeper List.mem_cons_self (.deeper List.mem_cons_self (.self _))⟩

end MesonCheck
