import MesonCheck.Proofs.Rerun
import MesonCheck.Proofs.Walk.Normal
import MesonCheck.Proofs.Walk.Reach
import MesonCheck.Proofs.Walk.Scope

/-! Every annotation is normal. All types in any state of an analysis are in normal form, and so are the types that it
leaves at the nodes of the tree and the bindings that it returns. -/
namespace MesonCheck

/-! Visits. -/

def NormalResults (x : List TypeSet × Run) : Prop :=
  (∀ ts ∈ x.1, TypeSet.IsNormal ts) ∧ x.2.IsNormal

namespace Place

theorem zipWith_isNormal (ns : List Node) {ts : List TypeSet} (normal : ∀ t ∈ ts, TypeSet.IsNormal t) :
    ∀ a ∈ ns.zipWith Argument.mk ts, TypeSet.IsNormal a.types := by
  intro a member
  rw [← List.map_uncurry_zip_eq_zipWith] at member
  obtain ⟨⟨n, t⟩, paired, rfl⟩ := List.mem_map.mp member
  exact normal t (List.of_mem_zip paired).2

mutual
theorem visit_isNormal {p : Place} (normal : p.IsNormal) (inLoop : Bool) :
    ∀ (n : Node) (r : Run), r.IsNormal → NormalResult (p.visit inLoop n r)
  | .int s _, r, h | .bool s _, r, h => by
    rw [visit]
    exact typed_isNormal h s (TypeSet.singleton_isNormal trivial)
  | .str s t isFormat, r, h => by
    rw [visit]
    obtain ⟨types, after⟩ := typed_isNormal h s (TypeSet.singleton_isNormal (t := .str) trivial)
    exact ⟨types, .ite (after.checkPlaceholders ..) after⟩
  | .array s es, r, h => by
    rw [visit]
    have elems := (visitAll_isNormal normal inLoop es r h).2
    exact typed_isNormal elems s (TypeSet.singleton_isNormal (TypeSet.normal_isNormal _))
  | .dict s es, r, h => by
    rw [visit]
    have values := (visitEntries_isNormal normal inLoop [] es r h).2
    exact typed_isNormal values s (TypeSet.singleton_isNormal (TypeSet.normal_isNormal _))
  | .ident id, r, h => by
    rw [visit]
    exact readVariable_isNormal h id
  | .call s callee _ as, r, h => by
    rw [visit]
    obtain ⟨types, after⟩ := visitAll_isNormal normal inLoop as r h
    exact callFunction_isNormal normal after s callee (zipWith_isNormal as types)
  | .method s receiver callee _ as, r, h => by
    rw [visit_method]
    -- what the receiver and the arguments are does not matter: the result is normalised
    have recv := (visit_isNormal normal inLoop receiver r h).2
    exact callMethod_isNormal normal (visitAll_isNormal normal inLoop as _ recv).2 ..
  | .keyword s key v, r, h => by
    rw [visit]
    obtain ⟨types, after⟩ := visit_isNormal normal inLoop v r h
    exact ⟨types, (after.annotate s types).checkKeyword ..⟩
  | .index s outer inner, r, h => by
    rw [visit_index]
    have first := (visit_isNormal normal inLoop outer r h).2
    exact readIndex_isNormal (visit_isNormal normal inLoop inner _ first).2 s _
  | .unary s op x, r, h => by
    rw [visit]
    have after := (visit_isNormal normal inLoop x r h).2
    refine typed_isNormal after s (TypeSet.singleton_isNormal ?_)
    split <;> trivial
  | .binary s op a b, r, h => by
    rw [visit_binary]
    have left := (visit_isNormal normal inLoop a r h).2
    exact applyOperator_isNormal (visit_isNormal normal inLoop b _ left).2 ..
  | .ternary s c y z, r, h => by
    rw [visit_ternary]
    have cond := (visit_isNormal normal inLoop c r h).2
    have yes := (visit_isNormal normal inLoop y _ cond).2
    have no := (visit_isNormal normal inLoop z _ yes).2
    have types := TypeSet.union_isNormal
    exact ⟨types .., (no.annotate s (types ..)).reportIf ..⟩
  | .assign s op t v, r, h => by
    rw [visit_assign]
    have target : Run.IsNormal (if op = .assign ∧ t.isIdent then (([] : TypeSet), r) else visit p inLoop t r).2 := by
      by_cases plain : op = .assign ∧ t.isIdent
      · rw [if_pos plain]
        exact h
      · rw [if_neg plain]
        exact (visit_isNormal normal inLoop t r h).2
    obtain ⟨types, after⟩ := visit_isNormal normal inLoop v _ target
    exact ⟨trivial, assignTo_isNormal after s op t v _ types⟩
  | .select s bs, r, h => by
    rw [visit]
    have inside := visitBranches_isNormal normal inLoop bs _ h.openSelection
    exact ⟨trivial, (inside.carry _).closeSelection ..⟩
  | .loop s ids subject body, r, h => by
    rw [visit_loop]
    obtain ⟨types, after⟩ := visit_isNormal normal true subject r h
    exact ⟨trivial, visitStatements_isNormal normal true body body _ (bindLoop_isNormal after ids subject types)⟩
  | .breakLoop s, r, h | .continueLoop s, r, h => by
    rw [visit]
    exact ⟨trivial, h.reportIf ..⟩
  | .error s m, r, h => by
    rw [visit]
    exact ⟨trivial, h.report ..⟩

theorem visitAll_isNormal {p : Place} (normal : p.IsNormal) (inLoop : Bool) :
    ∀ (ns : List Node) (r : Run), r.IsNormal → NormalResults (p.visitAll inLoop ns r)
  | [], r, h => by
    rw [visitAll]
    exact ⟨by simp, h⟩
  | n :: ns, r, h => by
    rw [visitAll_cons]
    obtain ⟨first, after⟩ := visit_isNormal normal inLoop n r h
    obtain ⟨rest, done⟩ := visitAll_isNormal normal inLoop ns _ after
    exact ⟨List.forall_mem_cons.mpr ⟨first, rest⟩, done⟩

theorem visitEntries_isNormal {p : Place} (normal : p.IsNormal) (inLoop : Bool) :
    ∀ (seen : List String) (es : List Entry) (r : Run), r.IsNormal → NormalResults (p.visitEntries inLoop seen es r)
  | _, [], r, h => by
    rw [visitEntries]
    exact ⟨by simp, h⟩
  | seen, .mk s k v :: es, r, h => by
    rw [visitEntries_cons]
    have key := (visit_isNormal normal inLoop k r h).2
    obtain ⟨value, after⟩ := visit_isNormal normal inLoop v _ key
    have noted := noteKey_isNormal (after.annotate s value) seen k
    obtain ⟨rest, done⟩ := visitEntries_isNormal normal inLoop _ es _ noted
    exact ⟨List.forall_mem_cons.mpr ⟨value, rest⟩, done⟩

theorem visitStatements_isNormal {p : Place} (normal : p.IsNormal) (inLoop : Bool) (block : List Node) :
    ∀ (ns : List Node) (r : Run), r.IsNormal → (p.visitStatements inLoop block ns r).IsNormal
  | [], r, h => by
    rw [visitStatements]
    split
    · exact h.report ..
    · exact h
  | n :: ns, r, h => by
    rw [visitStatements]
    have after := (visit_isNormal normal inLoop n r h).2
    exact visitStatements_isNormal normal inLoop block ns _ (after.reportIf ..)

theorem visitBranches_isNormal {p : Place} (normal : p.IsNormal) (inLoop : Bool) :
    ∀ (bs : List Branch) (r : Run), r.IsNormal → (p.visitBranches inLoop bs r).2.IsNormal
  | [], r, h => by
    rw [visitBranches]
    exact h
  | .guarded c body :: bs, r, h => by
    rw [visitBranches_guarded]
    have cond := (visit_isNormal normal inLoop c r h).2
    have start := (cond.ignore (askedName? c).toList).checkBool c.site (p.visit inLoop c r).1
    have done := (visitStatements_isNormal normal inLoop body body _ start.openDebts).closeDebts
    exact visitBranches_isNormal normal inLoop bs _ (done.unignore _)
  | .otherwise body :: bs, r, h => by
    rw [visitBranches_otherwise]
    have done := (visitStatements_isNormal normal inLoop body body _ h.openDebts).closeDebts
    exact visitBranches_isNormal normal inLoop bs _ done
end

/-! Files. -/

variable {p : Place} (normal : p.IsNormal) {r : Run} (h : r.IsNormal)
include h

theorem checkProject_isNormal (b : Body) : (checkProject b r).IsNormal := by
  unfold checkProject
  split
  · exact h.report ..
  · exact .ite (h.of_eq rfl rfl rfl rfl) (h.report ..)
  · exact h.report ..

include normal

theorem walkBody_isNormal (isRoot : Bool) : (p.walkBody isRoot r).IsNormal := by
  unfold walkBody
  split
  · exact visitStatements_isNormal normal false _ _ _ (.ite (checkProject_isNormal h _) h)
  · exact h.reportIf ..

theorem walk_isNormal : (p.walk r).IsNormal := by
  have body := (walkBody_isNormal normal (h.openFile p.file.id).openDebts r.active.isEmpty).closeDebts
  exact .ite (body.closeFile.settle ..) (body.closeFile.carry _)

end Place

namespace Setting

variable {cx : Setting} (normal : cx.IsNormal)
include normal

theorem walk_isNormal (fuel : Nat) (f : SourceFile) {r : Run} (h : r.IsNormal) : (cx.walk fuel f r).IsNormal := by
  induction fuel generalizing f r with
  | zero => exact h
  | succ fuel ih =>
    rw [walk_succ]
    exact Place.walk_isNormal ⟨normal, fun g r h => (ih g h.push).flush⟩ h

theorem place_isNormal (fuel : Nat) (f : SourceFile) : (cx.place fuel f).IsNormal :=
  ⟨normal, fun g _ h => (walk_isNormal normal fuel g h.push).flush⟩

theorem start_isNormal : cx.start.IsNormal where
  scope := by
    intro f member
    cases List.mem_singleton.mp member
    exact .ofList normal.catalogue.globals
  assigned := by simp [start]
  overridden := by simp [start]
  slots := .empty
  history := by simp [start]

end Setting

/-! States. -/

namespace Place

variable {p : Place} (normal : p.IsNormal)
include normal

theorem inTurn_isNormal (inLoop : Bool) (ns : List Node) {r : Run} (h : r.IsNormal) :
    ∀ v ∈ p.inTurn inLoop ns r, v.before.IsNormal := by
  induction ns generalizing r with
  | nil => simp [inTurn]
  | cons n ns ih => exact List.forall_mem_cons.mpr ⟨h, ih (visit_isNormal normal inLoop n r h).2⟩

theorem nodeParts_isNormal (inLoop : Bool) (n : Node) {r : Run} (h : r.IsNormal) :
    ∀ v ∈ p.nodeParts inLoop n r, v.before.IsNormal := by
  have inTurn := fun ns => inTurn_isNormal normal inLoop ns h
  cases n with
  | int | bool | str | ident | breakLoop | continueLoop | error => simp [nodeParts]
  | array | call | method | keyword | unary | index | binary | ternary | assign => exact inTurn _
  | dict s es => simpa [nodeParts] using h
  | select s bs => simpa [nodeParts] using h.openSelection
  | loop s ids subject body =>
    obtain ⟨types, after⟩ := visit_isNormal normal true subject r h
    simpa [nodeParts] using ⟨h, bindLoop_isNormal after ids subject types⟩

theorem parts_isNormal {v : Visit} (h : v.before.IsNormal) : ∀ w ∈ p.parts v, w.before.IsNormal := by
  obtain ⟨inLoop, task, r⟩ := v
  cases task with
  | node n => exact nodeParts_isNormal normal inLoop n h
  | file =>
    dsimp only [parts]
    split
    · simp
    · have opened := (h.openFile p.file.id).openDebts
      simpa using Run.IsNormal.ite (checkProject_isNormal opened _) opened
  | entries seen es =>
    cases es with
    | nil => simp [parts]
    | cons e es =>
      obtain ⟨s, k, v⟩ := e
      have key := (visit_isNormal normal inLoop k r h).2
      obtain ⟨types, value⟩ := visit_isNormal normal inLoop v _ key
      refine List.forall_mem_append.mpr ⟨inTurn_isNormal normal inLoop [k, v] h, ?_⟩
      simpa using noteKey_isNormal (value.annotate s types) seen k
  | statements block ns =>
    cases ns with
    | nil => simp [parts]
    | cons n ns =>
      have done := (visit_isNormal normal inLoop n r h).2
      simpa [parts] using ⟨h, done.reportIf ..⟩
  | branches bs =>
    cases bs with
    | nil => simp [parts]
    | cons b bs =>
      cases b with
      | guarded c body =>
        have cond := (visit_isNormal normal inLoop c r h).2
        have start := ((cond.ignore (askedName? c).toList).checkBool c.site
          (p.visit inLoop c r).1).openDebts
        have done := (visitStatements_isNormal normal inLoop body body _ start).closeDebts
        simpa [parts] using ⟨h, start, done.unignore _⟩
      | otherwise body =>
        have done := (visitStatements_isNormal normal inLoop body body _ h.openDebts).closeDebts
        simpa [parts] using ⟨h.openDebts, done⟩

theorem after_isNormal {v : Visit} (h : v.before.IsNormal) : (p.after v).IsNormal := by
  obtain ⟨inLoop, task, r⟩ := v
  cases task with
  | file => exact walk_isNormal normal h
  | node n => exact (visit_isNormal normal inLoop n r h).2
  | entries seen es => exact (visitEntries_isNormal normal inLoop seen es r h).2
  | statements block ns => exact visitStatements_isNormal normal inLoop block ns r h
  | branches bs => exact visitBranches_isNormal normal inLoop bs r h

theorem enteredBy_isNormal (site : Site) (dirs : List String) {r : Run} (h : r.IsNormal) :
    ∀ e ∈ p.enteredBy site dirs r, e.2.IsNormal := by
  induction dirs generalizing r with
  | nil => simp [enteredBy]
  | cons dir dirs ih =>
    have rest := ih (includeDir_isNormal normal h site id dir fun _ h => h)
    dsimp only [enteredBy]
    split
    · split
      · exact rest
      · exact List.forall_mem_cons.mpr ⟨h, rest⟩
    · exact rest

theorem included_isNormal (site : Site) (args : List Argument) {r : Run} (h : r.IsNormal) :
    ∀ e ∈ p.included site args r, e.2.IsNormal := by
  have noted := h.emit (e := .included site.range) trivial
  cases args with
  | nil => simp [included]
  | cons a args =>
    dsimp only [included]
    split
    · exact enteredBy_isNormal normal site _ noted
    · exact enteredBy_isNormal normal site _ (guess_isNormal noted _)

theorem entered_isNormal {v : Visit} (h : v.before.IsNormal) : ∀ e ∈ p.entered v, e.2.IsNormal := by
  unfold entered
  split
  · rename_i s callee _ as _
    have args := (visitAll_isNormal normal v.inLoop as _ h).2
    dsimp only
    split
    · split
      · exact included_isNormal normal s _ args
      · simp
    · simp
  · simp

end Place

namespace Setting

theorem makes_isNormal {cx : Setting} (normal : cx.IsNormal) {fuel : Nat} {f : SourceFile} {v : Visit}
    (makes : cx.Makes fuel f v) : v.before.IsNormal := by
  induction makes with
  | root => exact start_isNormal normal
  | part _ member ih => exact Place.parts_isNormal (place_isNormal normal ..) ih _ member
  | included _ member ih => exact (Place.entered_isNormal (place_isNormal normal ..) ih _ member).push

theorem passes_isNormal {cx : Setting} (normal : cx.IsNormal) {r : Run} (passes : cx.Passes r) : r.IsNormal := by
  cases passes with
  | start => exact start_isNormal normal
  | before makes => exact makes_isNormal normal makes
  | after makes => exact Place.after_isNormal (place_isNormal normal ..) (makes_isNormal normal makes)

end Setting

/-- The types that analyses can have left at the nodes of a tree before the next one begins, each of them with its own
setting and given up in any state. -/
inductive LeftBehind : Leftovers → Prop where
  | nothing : LeftBehind ∅
  | analysis {cx : Setting} {r : Run} : cx.catalogue.Loaded → LeftBehind cx.earlier → cx.Passes r →
      LeftBehind (cx.earlier ∪ r.slots)

theorem LeftBehind.allNormal {old : Leftovers} (left : LeftBehind old) : AllNormal old := by
  induction left with
  | nothing => exact .empty
  | analysis loaded _ passes earlier =>
    exact earlier.union (Setting.passes_isNormal ⟨loaded.isNormal, earlier⟩ passes).slots

namespace Setting

/-- With a catalogue that can be loaded and a tree that at most other analyses have annotated, every state of the
analysis is normal, whatever the tree, the options and the subprojects are. If it has an outcome, the types of all nodes
and the bindings of the root file are normal, so normalising them again changes nothing. -/
theorem analyze_isNormal (cx : Setting) (loaded : cx.catalogue.Loaded) (left : LeftBehind cx.earlier) :
    (∀ r, cx.Passes r → r.IsNormal) ∧
      ∀ o, cx.analyze = .ok o →
        (∀ s, TypeSet.IsNormal (o.typesAt s) ∧ (o.typesAt s).normal = o.typesAt s) ∧
        ∀ (x : String) (ts : TypeSet), o.scope[x]? = some ts → TypeSet.IsNormal ts ∧ TypeSet.normal ts = ts := by
  have normal : cx.IsNormal := ⟨loaded.isNormal, left.allNormal⟩
  refine ⟨fun r passes => passes_isNormal normal passes, fun o analysed => ?_⟩
  obtain ⟨_, rfl⟩ := (cx.analyze_eq_ok_iff o).mp analysed
  have finish := passes_isNormal normal cx.passes_finish
  have both {ts : TypeSet} (h : TypeSet.IsNormal ts) : TypeSet.IsNormal ts ∧ ts.normal = ts :=
    ⟨h, (TypeSet.isNormal_iff ts).mp h⟩
  constructor
  · exact fun s => both ((normal.earlier.union finish.slots).getD s.slot)
  · intro x ts found
    rw [Run.outcome, Scope.getElem?_flatten] at found
    exact both (finish.lookup found)

/-- `x = ['a', 1]; subdir('sub')`, where the directory has `if true; x = 2; endif`. -/
def sampleAnnotated : Setting where
  catalogue := .builtin
  tree := .ofFiles [⟨0, .at .zero, "meson.build", some ⟨.at .zero,
      [Place.sampleAssign (.array (.at .zero) [.str (.at .zero) "a" false, .int (.at .zero) 1]), sampleSubdir]⟩⟩,
    ⟨0, .at .zero, "sub/meson.build", some ⟨.at .zero, [.select (.at .zero)
      [.guarded Place.sampleBool [Place.sampleAssign (.int (.at .zero) 2)]]]⟩⟩]

def sampleReannotated : Setting :=
  sampleAnnotated.withEarlier (∅ ∪ sampleAnnotated.finish.slots)

/-- The state behind the assignment in the included file: the selection around it has noted the number and saved the
list. -/
theorem sampleReannotated_passes :
    ∃ r, sampleReannotated.Passes r ∧ r.selections.map (fun s => (s.assigned["x"]?, s.overridden["x"]?)) =
      [(some [.int], some [.list [.int, .str]])] := by
  have root : sampleReannotated.Makes 2 _ _ := .root rfl
  have call := Makes.part (.part (.part root (.head _)) (.tail _ (.head _))) (.head _)
  have file := Makes.included call (.head _)
  have branches := Makes.part (.part (.part file (.head _)) (.head _)) (.head _)
  have assignment := Makes.part (.part branches (.tail _ (.head _))) (.head _)
  exact ⟨_, .after assignment, rfl⟩

theorem analyze_isNormal_sample :
    (∃ r, sampleReannotated.Passes r ∧ r.selections.map (fun s => (s.assigned["x"]?, s.overridden["x"]?)) =
      [(some [.int], some [.list [.int, .str]])] ∧ r.IsNormal) ∧
    ∃ o, sampleReannotated.analyze = .ok o ∧ o.scope["x"]? = some [.list [.int, .str], .int] ∧
      TypeSet.normal [.list [.int, .str], .int] = [.list [.int, .str], .int] := by
  have loaded : sampleAnnotated.catalogue.Loaded := .inl rfl
  have left : LeftBehind sampleReannotated.earlier := .analysis loaded .nothing sampleAnnotated.passes_finish
  obtain ⟨states, outcome⟩ := analyze_isNormal sampleReannotated loaded left
  have analysed : sampleReannotated.analyze = .ok (sampleReannotated.finish.outcome sampleReannotated) := rfl
  have bound : sampleReannotated.finish.scope.flatten["x"]? = some [.list [.int, .str], .int] := rfl
  obtain ⟨r, passes, noted⟩ := sampleReannotated_passes
  exact ⟨⟨r, passes, noted, states r passes⟩, _, analysed, bound, ((outcome _ analysed).2 "x" _ bound).2⟩

end Setting

end MesonCheck
