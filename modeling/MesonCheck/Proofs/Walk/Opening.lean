import MesonCheck.Proofs.Walk.Nesting

/-! How visits begin. A visit begins in a state that the visit around it has come to, where selections, blocks, files
and frames may have been opened that are not closed yet. -/
namespace MesonCheck

/-! What walks keep. -/

namespace Run

theorem ignored_bind (x : String) (ts : TypeSet) (r : Run) : (r.bind x ts).ignored = r.ignored := by
  unfold bind note
  cases r.selections <;> rfl

theorem debts_bind (x : String) (ts : TypeSet) (r : Run) : (r.bind x ts).debts = r.debts := by
  unfold bind note
  cases r.selections <;> rfl

end Run

namespace Walks

variable {old : Leftovers} {r r' : Run}

theorem ignored_eq (walks : Walks old r r') : r'.ignored = r.ignored := by
  induction walks with
  | refl r => rfl
  | trans _ _ first second => exact second.trans first
  | quiet step =>
    cases step with
    | owe d r =>
      unfold Run.owe
      split <;> rfl
    | carry ds r =>
      unfold Run.carry
      split <;> rfl
    | _ => rfl
  | bind x ts r => exact r.ignored_bind x ts
  | read id r => rfl
  | block _ ih | included _ ih | file _ _ _ ih => exact ih
  | guarded names _ ih =>
    rw [Run.unignore, ih]
    exact List.drop_left
  | selection isExhaustive _ ih =>
    exact (Run.closeSelection_keeps _ Run.ignored_bind (fun _ _ => rfl) ..).trans ih

theorem length_debts (walks : Walks old r r') : r'.debts.length = r.debts.length := by
  induction walks with
  | refl r => rfl
  | trans _ _ first second => exact second.trans first
  | quiet step =>
    cases step with
    | use x r => exact List.length_map ..
    | owe d r =>
      unfold Run.owe
      split
      · rfl
      · rename_i opened
        rw [opened]
        rfl
    | carry ds r =>
      unfold Run.carry
      split
      · rfl
      · rename_i opened
        rw [opened]
        rfl
    | _ => rfl
  | bind x ts r => rw [r.debts_bind]
  | read id r => rfl
  | block _ ih => rw [Run.closeDebts, List.length_tail, ih]; rfl
  | guarded _ _ ih | included _ ih | file _ _ _ ih => exact ih
  | selection isExhaustive _ ih =>
    exact (Run.closeSelection_keeps (·.debts.length) (fun x ts r => by rw [r.debts_bind]) (fun _ _ => rfl) ..).trans ih

end Walks

/-- How a state comes from another one by steps that open something, with the names whose absence is not reported any
more. -/
inductive Opens (old : Leftovers) : List String → Run → Run → Prop where
  | walks {r r' : Run} : Walks old r r' → Opens old [] r r'
  | trans {a b c : Run} {xs ys : List String} : Opens old xs a b → Opens old ys b c → Opens old (ys ++ xs) a c
  | ignore (names : List String) (r : Run) : Opens old names r (r.ignore names)
  | block (r : Run) : Opens old [] r r.openDebts
  | selection (r : Run) : Opens old [] r (Place.openSelection r)
  | file (id : Nat) (r : Run) : Opens old [] r (r.openFile id)
  | frame (r : Run) : Opens old [] r { r with scope := r.scope.push }

namespace Opens

variable {old : Leftovers} {names : List String} {r r' : Run}

theorem before {start : Run} (walks : Walks old start r) (opens : Opens old names r r') : Opens old names start r' := by
  have both := Opens.trans (.walks walks) opens
  rwa [List.append_nil] at both

theorem ignored_eq (opens : Opens old names r r') : r'.ignored = names ++ r.ignored := by
  induction opens with
  | walks walks => exact walks.ignored_eq
  | trans _ _ first second => rw [second, first, List.append_assoc]
  | ignore | block | selection | file | frame => rfl

theorem debts_ne (opens : Opens old names r r') (opened : r.debts ≠ []) : r'.debts ≠ [] := by
  induction opens with
  | walks walks =>
    intro none
    rw [← List.length_eq_zero_iff, walks.length_debts, List.length_eq_zero_iff] at none
    exact opened none
  | trans _ _ first second => exact second (first opened)
  | block r => exact List.cons_ne_nil _ _
  | ignore | selection | file | frame => exact opened

theorem lookup_eq (opens : Opens old names r r') :
    ∃ es : List Event, r'.log = es.reverse ++ r.log ∧
      ∀ x, r'.scope.lookup x = (lastBound x es).or (r.scope.lookup x) := by
  induction opens with
  | walks walks =>
    obtain ⟨es, trace, _⟩ := walks.trace
    exact ⟨es, trace.log, trace.lookup⟩
  | trans _ _ first second =>
    obtain ⟨es, log, lookup⟩ := first
    obtain ⟨fs, log', lookup'⟩ := second
    refine ⟨es ++ fs, by rw [log', log, List.reverse_append, List.append_assoc], fun x => ?_⟩
    rw [lookup', lookup, lastBound_append, Option.or_assoc]
  | frame r => exact ⟨[], rfl, Scope.lookup_push r.scope⟩
  | ignore | block | selection | file => exact ⟨[], rfl, fun _ => rfl⟩

end Opens

namespace Place

/-- The condition that guards a part of a visit, if the part is the body of a guarded branch. -/
def guard? (v w : Visit) : Option Node :=
  match v.task, w.task with
  | .branches (.guarded c _ :: _), .statements .. => some c
  | _, _ => none

/-- The names whose absence is not reported in a part of a visit, though it is outside. -/
def asked (v w : Visit) : List String :=
  ((guard? v w).bind askedName?).toList

variable {p : Place} (enters : p.EntersInSteps)
include enters

theorem inTurn_walks (inLoop : Bool) (ns : List Node) (r : Run) :
    ∀ w ∈ p.inTurn inLoop ns r, Walks p.cx.earlier r w.before := by
  induction ns generalizing r with
  | nil => simp [inTurn]
  | cons n ns ih =>
    refine List.forall_mem_cons.mpr ⟨.refl r, fun w member => ?_⟩
    exact (visit_walks p enters inLoop n r).trans (ih _ w member)

theorem nodeParts_opens (inLoop : Bool) (n : Node) (r : Run) :
    ∀ w ∈ p.nodeParts inLoop n r, Opens p.cx.earlier [] r w.before := by
  have turns (ns : List Node) : ∀ w ∈ p.inTurn inLoop ns r, Opens p.cx.earlier [] r w.before :=
    fun w member => .walks (inTurn_walks enters inLoop ns r w member)
  cases n with
  | int | bool | str | ident | breakLoop | continueLoop | error => simp [nodeParts]
  | array | call | method | keyword | index | unary | binary | ternary | assign => exact turns _
  | dict s es => exact List.forall_mem_singleton.mpr (.walks (.refl r))
  | select s bs => exact List.forall_mem_singleton.mpr (.selection r)
  | loop s ids subject body =>
    have looped := visit_walks p enters true subject r
    refine List.forall_mem_cons.mpr ⟨.walks (.refl r), List.forall_mem_singleton.mpr (.walks ?_)⟩
    exact looped.trans (p.bindLoop_acts ..).walks

theorem parts_opens (v : Visit) : ∀ w ∈ p.parts v, Opens p.cx.earlier (asked v w) v.before w.before := by
  obtain ⟨inLoop, task, r⟩ := v
  cases task with
  | node n => exact nodeParts_opens enters inLoop n r
  | file =>
    dsimp only [parts]
    split
    · simp
    · rename_i b _
      refine List.forall_mem_singleton.mpr (.trans (.trans (.file p.file.id r) (.block _)) (.walks ?_))
      exact .ite (p.checkProject_still b _).walks (.refl _)
  | entries seen es =>
    cases es with
    | nil => simp [parts]
    | cons e es =>
      obtain ⟨s, k, v⟩ := e
      have keyed := visit_walks p enters inLoop k r
      have valued := visit_walks p enters inLoop v (p.visit inLoop k r).2
      refine List.forall_mem_append.mpr ⟨fun w member => ?_, List.forall_mem_singleton.mpr ?_⟩
      · exact .walks (inTurn_walks enters inLoop [k, v] r w member)
      · exact .walks (keyed.trans (valued.trans (.trans (.quiet (.annotate ..)) (p.noteKey_still ..).walks)))
  | statements block ns =>
    cases ns with
    | nil => simp [parts]
    | cons n ns =>
      refine List.forall_mem_cons.mpr ⟨.walks (.refl r), List.forall_mem_singleton.mpr (.walks ?_)⟩
      exact (visit_walks p enters inLoop n r).trans (.reportIf ..)
  | branches bs =>
    cases bs with
    | nil => simp [parts]
    | cons b bs =>
      cases b with
      | guarded c body =>
        let cond := p.visit inLoop c r
        let names := (askedName? c).toList
        let start := (cond.2.ignore names).checkBool c.site cond.1
        have visited : Walks p.cx.earlier r cond.2 := visit_walks p enters inLoop c r
        have checked : Walks p.cx.earlier (cond.2.ignore names) start := (Run.checkBool_still ..).walks
        have block := visitStatements_walks p enters inLoop body body start.openDebts
        refine List.forall_mem_cons.mpr ⟨.walks (.refl r), List.forall_mem_cons.mpr ⟨?_, ?_⟩⟩
        · have inside : Opens p.cx.earlier names cond.2 start.openDebts :=
            .trans (.trans (.ignore names cond.2) (.walks checked)) (.block start)
          exact inside.before visited
        · exact List.forall_mem_singleton.mpr (.walks (visited.trans (.guarded names (checked.trans (.block block)))))
      | otherwise body =>
        have block := visitStatements_walks p enters inLoop body body r.openDebts
        exact List.forall_mem_cons.mpr ⟨.block r, List.forall_mem_singleton.mpr (.walks (.block block))⟩

omit enters in
theorem parts_file_debts (inLoop : Bool) (r : Run) : ∀ w ∈ p.parts ⟨inLoop, .file, r⟩, w.before.debts ≠ [] := by
  dsimp only [parts]
  split
  · simp
  · rename_i b _
    refine List.forall_mem_singleton.mpr ?_
    split
    · exact (Opens.walks (p.checkProject_still b _).walks).debts_ne (List.cons_ne_nil _ _)
    · exact List.cons_ne_nil _ _

end Place

namespace Setting

/-- The visits of an analysis with the conditions of the branches around them, innermost first. A branch that includes
a file is around everything in that file. -/
inductive Guards (cx : Setting) : Nat → SourceFile → List Node → Visit → Prop where
  | root {f : SourceFile} : cx.tree.root = some f → Guards cx cx.tree.files.length f [] ⟨false, .file, cx.start⟩
  | part {fuel : Nat} {f : SourceFile} {conds : List Node} {v w : Visit} :
      Guards cx fuel f conds v → w ∈ (cx.place fuel f).parts v →
      Guards cx fuel f ((Place.guard? v w).toList ++ conds) w
  | included {fuel : Nat} {f g : SourceFile} {conds : List Node} {v : Visit} {r : Run} :
      Guards cx (fuel + 1) f conds v → (g, r) ∈ (cx.place (fuel + 1) f).entered v →
      Guards cx fuel g conds ⟨false, .file, { r with scope := r.scope.push }⟩

variable {cx : Setting} {fuel : Nat} {f : SourceFile} {v : Visit}

theorem exists_guards_iff : (∃ conds, cx.Guards fuel f conds v) ↔ cx.Makes fuel f v := by
  constructor
  · rintro ⟨conds, guards⟩
    induction guards with
    | root found => exact .root found
    | part _ member ih => exact .part ih member
    | included _ member ih => exact .included ih member
  · intro makes
    induction makes with
    | root found => exact ⟨[], .root found⟩
    | part _ member ih =>
      obtain ⟨conds, guards⟩ := ih
      exact ⟨_, .part guards member⟩
    | included _ member ih =>
      obtain ⟨conds, guards⟩ := ih
      exact ⟨_, .included guards member⟩

theorem Guards.opens {conds : List Node} (guards : cx.Guards fuel f conds v) :
    Opens cx.earlier (conds.filterMap Place.askedName?) cx.start v.before := by
  induction guards with
  | root => exact .walks (.refl _)
  | @part fuel f conds v w _ member ih =>
    have opens := ih.trans (Place.parts_opens (cx.place_enters fuel f) v w member)
    have names : ((Place.guard? v w).toList ++ conds).filterMap Place.askedName? =
        Place.asked v w ++ conds.filterMap Place.askedName? := by
      rw [List.filterMap_append, Place.asked]
      cases Place.guard? v w with
      | none => rfl
      | some c => cases asked : Place.askedName? c <;> simp [asked]
    rw [names]
    exact opens
  | @included fuel f g conds v r _ member ih =>
    obtain ⟨i, resolved, _, rfl, rfl⟩ := (Place.mem_entered_iff _).mp member
    have walks := (Place.inclusions_isInclusion (cx.place_enters _ _) v i resolved).walks
    exact (ih.trans (.walks walks)).trans (.frame _)

theorem Makes.debts_ne (makes : cx.Makes fuel f v) : v.task = .file ∨ v.before.debts ≠ [] := by
  induction makes with
  | root | included => exact .inl rfl
  | @part fuel f v w _ member ih =>
    right
    obtain ⟨inLoop, task, r⟩ := v
    rcases ih with rfl | opened
    · exact Place.parts_file_debts inLoop r w member
    · exact (Place.parts_opens (cx.place_enters fuel f) _ w member).debts_ne opened

end Setting

end MesonCheck
