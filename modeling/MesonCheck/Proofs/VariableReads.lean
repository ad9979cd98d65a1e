import MesonCheck.Catalogue.Builtin
import MesonCheck.Proofs.IncludeStack
import MesonCheck.Proofs.Walk.Branches
import MesonCheck.Proofs.Walk.Opening

/-! Two ways to read a variable. A call of `get_variable` takes what the variable is bound to. An expression takes in
addition what the open selections have saved of it, which the events since the beginning of each selection tell. -/
namespace MesonCheck

structure LeadsBy (es : List Event) (r r' : Run) : Prop where
  log : r'.log = es.reverse ++ r.log
  lookup : ∀ x, r'.scope.lookup x = (lastBound x es).or (r.scope.lookup x)
  levels : ∀ x ts l, Event.bound x ts l ∈ es → r.selections.length ≤ l
  frames : FramesNoted r.scope es r.selections r'.selections

def Leads (r r' : Run) : Prop :=
  ∃ es, LeadsBy es r r'

theorem LeadsBy.trans {a b c : Run} {es fs : List Event} (first : LeadsBy es a b) (second : LeadsBy fs b c) :
    LeadsBy (es ++ fs) a c where
  log := by rw [second.log, first.log, List.reverse_append, List.append_assoc]
  lookup x := by rw [second.lookup, first.lookup, lastBound_append, Option.or_assoc]
  levels x ts l member := by
    rcases List.mem_append.mp member with earlier | later
    · exact first.levels x ts l earlier
    · exact first.frames.length_eq ▸ second.levels x ts l later
  frames := first.frames.trans second.frames first.lookup

namespace Leads

variable {r r' : Run}

theorem walks {old : Leftovers} (walks : Walks old r r') : Leads r r' := by
  obtain ⟨es, trace, _⟩ := walks.trace
  exact ⟨es, trace.log, trace.lookup, trace.levels, trace.frames⟩

theorem same (log : r'.log = r.log) (lookup : ∀ x, r'.scope.lookup x = r.scope.lookup x)
    (selections : r'.selections = r.selections) : Leads r r' := by
  refine ⟨[], log, lookup, by simp, ?_⟩
  rw [selections]
  exact .of_elsewhere _ (by simp)

theorem refl (r : Run) : Leads r r :=
  same rfl (fun _ => rfl) rfl

theorem trans {a b c : Run} (first : Leads a b) (second : Leads b c) : Leads a c := by
  obtain ⟨es, first⟩ := first
  obtain ⟨fs, second⟩ := second
  exact ⟨es ++ fs, first.trans second⟩

end Leads

/-! What open selections have saved. -/

/-- Whether a selection that began in one state has saved what the events until another state say: what each name stood
for when the branches first bound it outside of nested selections. -/
structure Began (start r : Run) (s : OpenSelection) : Prop where
  log : r.log = (start.eventsSince r).reverse ++ start.log
  lookup : ∀ x, r.scope.lookup x = (lastBound x (start.eventsSince r)).or (start.scope.lookup x)
  saved : ∀ x, s.overridden[x]? =
    shadowed x (start.selections.length + 1) (start.scope.lookup x) (start.eventsSince r)

inductive AllBegan (r : Run) : List Run → List OpenSelection → Prop where
  | nil : AllBegan r [] []
  | cons {start : Run} {starts : List Run} {s : OpenSelection} {outer : List OpenSelection} :
      Began start r s → start.selections.length = outer.length → AllBegan r starts outer →
      AllBegan r (start :: starts) (s :: outer)

theorem Began.openSelection (r : Run) : Began r (Place.openSelection r) ⟨∅, ∅⟩ := by
  have none : r.eventsSince (Place.openSelection r) = [] := Run.eventsSince_of_log rfl
  refine ⟨?_, ?_, ?_⟩ <;> rw [none]
  · rfl
  · exact fun _ => rfl
  · intro x
    rw [Std.ExtTreeMap.getElem?_empty, shadowed]

section

variable {r r' start : Run} {es : List Event} (led : LeadsBy es r r')
include led

theorem Began.leads {s s' : OpenSelection} (began : Began start r s)
    (noted : Noted r.scope (start.selections.length + 1) es s s') : Began start r' s' := by
  have log : r'.log = (start.eventsSince r ++ es).reverse ++ start.log := by
    rw [led.log, List.reverse_append, List.append_assoc, ← began.log]
  have since : start.eventsSince r' = start.eventsSince r ++ es := Run.eventsSince_of_log log
  refine ⟨since ▸ log, fun x => ?_, fun x => ?_⟩
  · rw [led.lookup, began.lookup, since, lastBound_append, Option.or_assoc]
  · rw [noted.overridden, began.saved, since, shadowed_append, began.lookup]

theorem AllBegan.outer {starts : List Run} {outer : List OpenSelection} (began : AllBegan r starts outer)
    (inside : outer.length < r.selections.length) : AllBegan r' starts outer := by
  induction began with
  | nil => exact .nil
  | @cons start starts s outer head level rest ih =>
    -- what is bound is bound in the innermost selection or further inside
    have elsewhere (x : String) (ts : TypeSet) : Event.bound x ts (start.selections.length + 1) ∉ es := by
      intro member
      have above := led.levels x ts _ member
      rw [List.length_cons] at inside
      omega
    exact .cons (head.leads led (.of_elsewhere elsewhere s)) level (ih (Nat.lt_of_succ_lt inside))

theorem AllBegan.leadsBy {starts : List Run} (began : AllBegan r starts r.selections) :
    AllBegan r' starts r'.selections := by
  have frames := led.frames
  generalize opened : r.selections = sel at began frames
  cases began with
  | nil =>
    rw [show r'.selections = [] from frames]
    exact .nil
  | @cons start starts s outer head level rest =>
    obtain ⟨s', after, noted⟩ := frames
    have inside : outer.length < r.selections.length := by
      rw [opened]
      exact Nat.lt_succ_self _
    rw [after]
    exact .cons (head.leads led (level ▸ noted)) level (rest.outer led inside)

end

theorem AllBegan.leads {r r' : Run} {starts : List Run} (began : AllBegan r starts r.selections) (led : Leads r r') :
    AllBegan r' starts r'.selections := by
  obtain ⟨es, led⟩ := led
  exact began.leadsBy led

theorem AllBegan.openSelection {r : Run} {starts : List Run} (began : AllBegan r starts r.selections) :
    AllBegan (Place.openSelection r) (r :: starts) (Place.openSelection r).selections := by
  refine .cons (.openSelection r) rfl ?_
  generalize r.selections = sel at began
  induction began with
  | nil => exact .nil
  | cons head level _ ih => exact .cons ⟨head.log, head.lookup, head.saved⟩ level ih

/-! Visits inside selections. -/

def Visit.begins (v : Visit) : List Run :=
  match v.task with
  | .node (.select ..) => [v.before]
  | _ => []

namespace Place

/-- A part of a visit begins in a selection of its own or with the same selections open. -/
def Continues (v w : Visit) : Prop :=
  v.begins = [v.before] ∧ w.before = openSelection v.before ∨ v.begins = [] ∧ Leads v.before w.before

variable {p : Place} (enters : p.EntersInSteps)
include enters

theorem nodeParts_continue (inLoop : Bool) (n : Node) (r : Run) :
    ∀ w ∈ p.nodeParts inLoop n r, Continues ⟨inLoop, .node n, r⟩ w := by
  have turns (ns : List Node) : ∀ w ∈ p.inTurn inLoop ns r, Leads r w.before :=
    fun w member => .walks (inTurn_walks enters inLoop ns r w member)
  cases n with
  | int | bool | str | ident | breakLoop | continueLoop | error => simp [nodeParts]
  | array | call | method | keyword | index | unary | binary | ternary | assign =>
    exact fun w member => .inr ⟨rfl, turns _ w member⟩
  | dict s es => exact List.forall_mem_singleton.mpr (.inr ⟨rfl, .refl r⟩)
  | select s bs => exact List.forall_mem_singleton.mpr (.inl ⟨rfl, rfl⟩)
  | loop s ids subject body =>
    have looped := visit_walks p enters true subject r
    refine List.forall_mem_cons.mpr ⟨.inr ⟨rfl, .refl r⟩, List.forall_mem_singleton.mpr (.inr ⟨rfl, ?_⟩)⟩
    exact .walks (looped.trans (p.bindLoop_acts ..).walks)

theorem parts_continue (v : Visit) : ∀ w ∈ p.parts v, Continues v w := by
  obtain ⟨inLoop, task, r⟩ := v
  have walked {a b : Run} (walks : Walks p.cx.earlier a b) : Leads a b := .walks walks
  have opened (r : Run) : Leads r r.openDebts := .same rfl (fun _ => rfl) rfl
  cases task with
  | node n => exact nodeParts_continue enters inLoop n r
  | file =>
    dsimp only [parts]
    split
    · simp
    · rename_i b _
      have file : Leads r (r.openFile p.file.id).openDebts := .same rfl (fun _ => rfl) rfl
      refine List.forall_mem_singleton.mpr (.inr ⟨rfl, file.trans (walked ?_)⟩)
      exact .ite (p.checkProject_still b _).walks (.refl _)
  | entries seen es =>
    cases es with
    | nil => simp [parts]
    | cons e es =>
      obtain ⟨s, k, v⟩ := e
      have keyed := visit_walks p enters inLoop k r
      have valued := visit_walks p enters inLoop v (p.visit inLoop k r).2
      refine List.forall_mem_append.mpr ⟨fun w member => ?_, List.forall_mem_singleton.mpr (.inr ⟨rfl, walked ?_⟩)⟩
      · exact .inr ⟨rfl, walked (inTurn_walks enters inLoop [k, v] r w member)⟩
      · exact keyed.trans (valued.trans (.trans (.quiet (.annotate ..)) (p.noteKey_still ..).walks))
  | statements block ns =>
    cases ns with
    | nil => simp [parts]
    | cons n ns =>
      refine List.forall_mem_cons.mpr ⟨.inr ⟨rfl, .refl r⟩, List.forall_mem_singleton.mpr (.inr ⟨rfl, walked ?_⟩)⟩
      exact (visit_walks p enters inLoop n r).trans (.reportIf ..)
  | branches bs =>
    cases bs with
    | nil => simp [parts]
    | cons b bs =>
      cases b with
      | guarded c body =>
        let cond := p.visit inLoop c r
        let names := (askedName? c).toList
        let start := (cond.2.ignore names).checkBool c.site cond.1
        have visited : Walks p.cx.earlier r cond.2 := visit_walks p enters inLoop c r
        have ignored : Leads cond.2 (cond.2.ignore names) := .same rfl (fun _ => rfl) rfl
        have checked : Walks p.cx.earlier (cond.2.ignore names) start := (Run.checkBool_still ..).walks
        have block := visitStatements_walks p enters inLoop body body start.openDebts
        refine List.forall_mem_cons.mpr ⟨.inr ⟨rfl, .refl r⟩, List.forall_mem_cons.mpr ⟨.inr ⟨rfl, ?_⟩, ?_⟩⟩
        · exact (((walked visited).trans ignored).trans (walked checked)).trans (opened start)
        · refine List.forall_mem_singleton.mpr (.inr ⟨rfl, walked ?_⟩)
          exact visited.trans (.guarded names (checked.trans (.block block)))
      | otherwise body =>
        have block := visitStatements_walks p enters inLoop body body r.openDebts
        refine List.forall_mem_cons.mpr ⟨.inr ⟨rfl, opened r⟩, List.forall_mem_singleton.mpr (.inr ⟨rfl, walked ?_⟩)⟩
        exact .block block

end Place

namespace Setting

/-- The visits of an analysis with the states in which the selections around them began, innermost first. A selection
that includes a file is around everything in that file. -/
inductive Around (cx : Setting) : Nat → SourceFile → List Run → Visit → Prop where
  | root {f : SourceFile} : cx.tree.root = some f → Around cx cx.tree.files.length f [] ⟨false, .file, cx.start⟩
  | part {fuel : Nat} {f : SourceFile} {starts : List Run} {v w : Visit} :
      Around cx fuel f starts v → w ∈ (cx.place fuel f).parts v → Around cx fuel f (v.begins ++ starts) w
  | included {fuel : Nat} {f g : SourceFile} {starts : List Run} {v : Visit} {r : Run} :
      Around cx (fuel + 1) f starts v → (g, r) ∈ (cx.place (fuel + 1) f).entered v →
      Around cx fuel g starts ⟨false, .file, { r with scope := r.scope.push }⟩

inductive Stands (cx : Setting) : List Run → Run → Prop where
  | start : Stands cx [] cx.start
  | before {fuel : Nat} {f : SourceFile} {starts : List Run} {v : Visit} :
      Around cx fuel f starts v → Stands cx starts v.before
  | after {fuel : Nat} {f : SourceFile} {starts : List Run} {v : Visit} :
      Around cx fuel f starts v → Stands cx starts ((cx.place fuel f).after v)

variable {cx : Setting} {fuel : Nat} {f : SourceFile} {starts : List Run} {v : Visit}

theorem exists_around_iff : (∃ starts, cx.Around fuel f starts v) ↔ cx.Makes fuel f v := by
  constructor
  · rintro ⟨starts, around⟩
    induction around with
    | root found => exact .root found
    | part _ member ih => exact .part ih member
    | included _ member ih => exact .included ih member
  · intro makes
    induction makes with
    | root found => exact ⟨[], .root found⟩
    | part _ member ih =>
      obtain ⟨starts, around⟩ := ih
      exact ⟨_, .part around member⟩
    | included _ member ih =>
      obtain ⟨starts, around⟩ := ih
      exact ⟨_, .included around member⟩

theorem exists_stands_iff {r : Run} : (∃ starts, cx.Stands starts r) ↔ cx.Passes r := by
  constructor
  · rintro ⟨starts, stands⟩
    cases stands with
    | start => exact .start
    | before around => exact .before (exists_around_iff.mp ⟨starts, around⟩)
    | after around => exact .after (exists_around_iff.mp ⟨starts, around⟩)
  · intro passes
    cases passes with
    | start => exact ⟨[], .start⟩
    | before makes =>
      obtain ⟨starts, around⟩ := exists_around_iff.mpr makes
      exact ⟨starts, .before around⟩
    | after makes =>
      obtain ⟨starts, around⟩ := exists_around_iff.mpr makes
      exact ⟨starts, .after around⟩

theorem Around.began (around : cx.Around fuel f starts v) : AllBegan v.before starts v.before.selections := by
  induction around with
  | root => exact .nil
  | @part fuel f starts v w _ member ih =>
    rcases Place.parts_continue (cx.place_enters fuel f) v w member with ⟨begins, opened⟩ | ⟨begins, led⟩
    · rw [begins, opened]
      exact ih.openSelection
    · rw [begins]
      exact ih.leads led
  | @included fuel f g starts v r _ member ih =>
    obtain ⟨i, resolved, _, rfl, rfl⟩ := (Place.mem_entered_iff _).mp member
    have walks := (Place.inclusions_isInclusion (cx.place_enters _ _) v i resolved).walks
    have pushed : Leads i.before { i.before with scope := i.before.scope.push } :=
      .same rfl (Scope.lookup_push _) rfl
    exact ih.leads (.trans (.walks walks) pushed)

theorem Stands.began {r : Run} (stands : cx.Stands starts r) : AllBegan r starts r.selections := by
  cases stands with
  | start => exact .nil
  | before around => exact around.began
  | after around =>
    obtain ⟨outer, nests⟩ := exists_nests_iff.mpr (exists_around_iff.mp ⟨_, around⟩)
    exact around.began.leads (.walks nests.walks)

end Setting

/-! Reading. -/

/-- What a selection that began in a state has saved of a name until another state. -/
def Run.savedSince (start r : Run) (x : String) : TypeSet :=
  (shadowed x (start.selections.length + 1) (start.scope.lookup x) (start.eventsSince r)).getD []

theorem AllBegan.saved_eq {r : Run} {starts : List Run} {sel : List OpenSelection} (began : AllBegan r starts sel)
    (x : String) : sel.map (·.overridden.getD x []) = starts.map (·.savedSince r x) := by
  induction began with
  | nil => rfl
  | cons head _ _ ih =>
    rw [List.map_cons, List.map_cons, ih, Std.ExtTreeMap.getD_eq_getD_getElem?, head.saved]
    rfl

theorem Run.allows_reading {r : Run} {starts : List Run} (began : AllBegan r starts r.selections) (x : String)
    (t : Trait) : TypeSet.Allows (r.reading x) t ↔
      (∃ start ∈ starts, TypeSet.Allows (start.savedSince r x) t) ∨
        TypeSet.Allows ((r.scope.lookup x).getD []) t := by
  rw [reading, TypeSet.allows_union, hidden_eq, began.saved_eq, TypeSet.allows_unionAll]
  simp

theorem Run.scope_checkPlaceholders (s : Site) (value : String) (r : Run) :
    (r.checkPlaceholders s value).scope = r.scope := by
  unfold checkPlaceholders
  induction Text.placeholderNames value generalizing r with
  | nil => rfl
  | cons name names ih =>
    rw [List.foldl_cons, ih]
    unfold reportIf
    split <;> rfl

namespace Place

variable (p : Place) (inLoop : Bool) (r : Run)

theorem visit_str_scope (s : Site) (t : String) (isFormat : Bool) :
    (p.visit inLoop (.str s t isFormat) r).2.scope = r.scope := by
  rw [visit]
  cases isFormat with
  | false => rfl
  | true => exact Run.scope_checkPlaceholders ..

theorem visit_ident_types (id : Ident) : (p.visit inLoop (.ident id) r).1 = r.reading id.name := by
  rw [visit]
  rfl

theorem visit_get_variable {callee : Ident} {g : Callable} (declared : p.cx.catalogue.function? callee.name = some g)
    (named : callee.name = "get_variable") {x : String} {P : TypeSet} (known : r.scope.lookup x = some P)
    (site argSite s : Site) (isFormat : Bool) :
    (p.visit inLoop (.call site callee argSite [.str s x isFormat]) r).1 = P.normal := by
  have own : g.name = "get_variable" := by
    have same : g.name = callee.name := by simpa using List.find?_some declared
    exact same.trans named
  have kept := p.visit_str_scope inLoop r s x isFormat
  rw [visit, visitAll_cons]
  dsimp only [visitAll]
  generalize p.visit inLoop (.str s x isFormat) r = literal at kept ⊢
  rw [callFunction, declared]
  dsimp only [applyFunction]
  rw [own]
  simp [variableTypes, Node.text?, kept, known]

end Place

namespace Setting

/-- At every point of an analysis, a call of `get_variable` receives what the variable is bound to, and an expression
receives what the open selections have saved of it as well. So the first never has more than the second, and both have
the same exactly if everything that has been saved is part of what the variable is bound to. -/
theorem variable_reads_agree_iff (cx : Setting) (r : Run) (passes : cx.Passes r) :
    (∃ starts, cx.Stands starts r) ∧
    ∀ (starts : List Run), cx.Stands starts r →
      ∀ (fuel : Nat) (f : SourceFile) (inLoop isFormat : Bool) (site argSite s : Site) (callee id : Ident)
        (g : Callable) (P : TypeSet), cx.catalogue.function? callee.name = some g → callee.name = "get_variable" →
        r.scope.lookup id.name = some P →
        let got := ((cx.place fuel f).visit inLoop (.call site callee argSite [.str s id.name isFormat]) r).1
        let read := ((cx.place fuel f).visit inLoop (.ident id) r).1
        got = P.normal ∧ read.equal (.unionAll (P :: starts.map (·.savedSince r id.name))) = true ∧ got.Within read ∧
          (got.equal read = true ↔ ∀ start ∈ starts, (start.savedSince r id.name).Within P) := by
  refine ⟨exists_stands_iff.mpr passes, ?_⟩
  intro starts stands fuel f inLoop isFormat site argSite s callee id g P declared named known
  have called := (cx.place fuel f).visit_get_variable inLoop r declared named known site argSite s isFormat
  have seen := Run.allows_reading stands.began id.name
  simp only [known, Option.getD_some] at seen
  dsimp only
  rw [called, (cx.place fuel f).visit_ident_types inLoop r id]
  refine ⟨rfl, ?_, ?_, ?_⟩
  · rw [TypeSet.equal_iff]
    intro t
    rw [seen, TypeSet.allows_unionAll]
    simp [or_comm]
  · rw [TypeSet.within_iff]
    intro t allowed
    exact (seen t).mpr (.inr ((TypeSet.allows_normal P t).mp allowed))
  · simp only [TypeSet.equal_iff, TypeSet.within_iff, TypeSet.allows_normal, seen]
    constructor
    · intro alike start member t allowed
      exact (alike t).mpr (.inl ⟨start, member, allowed⟩)
    · intro saved t
      refine ⟨.inr, fun allowed => allowed.elim ?_ fun bound => bound⟩
      rintro ⟨start, member, allowed⟩
      exact saved start member t allowed

/-- `x = 1; if true; x = 'a'; else; x; endif`. -/
def sampleSaved : Setting where
  catalogue := .builtin
  tree := .ofFiles [⟨0, .at .zero, "meson.build", some ⟨.at .zero, [Place.sampleAssign (.int (.at .zero) 1),
    .select (.at .zero) [.guarded Place.sampleBool [Place.sampleAssign (.str (.at .zero) "a" false)],
      .otherwise [Place.sampleRead]]]⟩⟩]

/-- In the second branch, the text of the first one stands for `x`, and the number is saved. -/
theorem sampleSaved_stands :
    ∃ start r, sampleSaved.Stands [start] r ∧ start.savedSince r "x" = [.int] ∧
      r.scope.lookup "x" = some [.str] := by
  have root : sampleSaved.Around 1 _ _ _ := .root rfl
  have block := Around.part root (.head _)
  have select := Around.part (.part block (.tail _ (.head _))) (.head _)
  have branches := Around.part (.part select (.head _)) (.tail _ (.tail _ (.head _)))
  have inside := Around.part (.part branches (.head _)) (.head _)
  have begun := Stands.before inside
  refine ⟨_, _, begun, ?_, ?_⟩
  · rfl
  · rfl

theorem variable_reads_agree_iff_sample :
    ∃ start r, sampleSaved.Stands [start] r ∧ r.scope.lookup "x" = some [.str] ∧
      let p := sampleSaved.place 0 ⟨0, .at .zero, "meson.build", none⟩
      let got := (p.visit false (.call (.at .zero) ⟨.at .zero, "get_variable"⟩ (.at .zero)
        [.str (.at .zero) "x" false]) r).1
      let read := (p.visit false Place.sampleRead r).1
      got = [.str] ∧ read.equal [.int, .str] = true ∧ ¬got.equal read = true := by
  obtain ⟨start, r, stands, saved, known⟩ := sampleSaved_stands
  have declared : ∃ g, sampleSaved.catalogue.function? "get_variable" = some g := ⟨_, rfl⟩
  obtain ⟨g, declared⟩ := declared
  have passes := exists_stands_iff.mp ⟨_, stands⟩
  obtain ⟨got, read, _, agree⟩ := (variable_reads_agree_iff sampleSaved r passes).2 [start] stands 0
    ⟨0, .at .zero, "meson.build", none⟩ false false (.at .zero) (.at .zero) (.at .zero) ⟨.at .zero, "get_variable"⟩
    ⟨.at .zero, "x"⟩ g [.str] declared rfl known
  simp only [List.map_cons, List.map_nil, List.forall_mem_singleton, saved] at read agree
  exact ⟨start, r, stands, known, got, read, fun same => absurd (agree.mp same) (by decide)⟩

/-- `x = 1; if true; x = 'a'; else; y = x; z = get_variable('x'); endif`. -/
def sampleTwoReads : Setting where
  catalogue := .builtin
  tree := .ofFiles [⟨0, .at .zero, "meson.build", some ⟨.at .zero, [Place.sampleAssign (.int (.at .zero) 1),
    .select (.at .zero) [.guarded Place.sampleBool [Place.sampleAssign (.str (.at .zero) "a" false)],
      .otherwise [.assign (.at .zero) .assign (.ident ⟨.at .zero, "y"⟩) Place.sampleRead,
        .assign (.at .zero) .assign (.ident ⟨.at .zero, "z"⟩) (.call (.at .zero) ⟨.at .zero, "get_variable"⟩
          (.at .zero) [.str (.at .zero) "x" false])]]]⟩⟩]

/-- What has been saved does not reach the call. -/
theorem saved_types_not_got :
    ∃ o, sampleTwoReads.analyze = .ok o ∧ o.scope["y"]? = some [.int, .str] ∧ o.scope["z"]? = some [.str] :=
  ⟨_, rfl, rfl, rfl⟩

end Setting

end MesonCheck
