import MesonCheck.Proofs.Walk.Grounds

/-! A walk is made of grounded steps, and of the walks of the files that are included. -/
namespace MesonCheck

theorem Run.fault_settle (cx : Setting) (ds : List Debt) (r : Run) : (r.settle cx ds).fault = r.fault := by
  induction ds generalizing r with
  | nil => rfl
  | cons d ds ih =>
    rw [settle, List.foldl_cons, ← settle, ih, reportIf]
    split <;> rfl

namespace Place

def ending (p : Place) (r : Run) : Run :=
  p.walkBody r.active.isEmpty (r.openFile p.file.id).openDebts

structure Surveys (p : Place) (V : Visit → Prop) : Prop where
  parts : ∀ {v w : Visit}, V v → w ∈ p.parts v → V w
  inside : ∀ {v : Visit}, V v → v.task.IsIn p.file
  enters : p.EntersInSteps

section

variable {p : Place} {V : Visit → Prop}

theorem Surveys.groundsEntry (surveys : Surveys p V) {v : Visit} (here : V v) {i : Inclusion}
    (member : i ∈ p.inclusions v) : p.GroundsEntry V i := by
  intro fresh
  exact .file (surveys.enters i.file i.before fresh).kept ⟨v, i, here, member, fresh, rfl, rfl⟩

theorem hasSite_of_mem_zipWith {ns : List Node} (inside : ∀ o ∈ Node.outlines ns, p.file.outline.Has o)
    (ts : List TypeSet) : ∀ a ∈ ns.zipWith Argument.mk ts, p.file.HasSite a.node.site := by
  intro a member
  rw [← List.map_uncurry_zip_eq_zipWith, List.mem_map] at member
  obtain ⟨⟨n, t⟩, paired, rfl⟩ := member
  exact Node.hasSite (inside _ (Node.mem_outlines (List.of_mem_zip paired).1))

theorem hasSite_method {s : Site} {receiver : Node} {callee : Ident} {argSite : Site} {as : List Node}
    (inside : p.file.outline.Has (Node.method s receiver callee argSite as).outline) (ts : List TypeSet) :
    p.file.HasSite s ∧ p.file.HasSite receiver.site ∧ p.file.HasSite callee.site ∧
      ∀ a ∈ as.zipWith Argument.mk ts, p.file.HasSite a.node.site := by
  have below := fun o => inside.child (c := o)
  simp only [Node.outline, Outline.children_mk, List.forall_mem_cons] at below
  obtain ⟨before, named, given, -⟩ := below
  exact ⟨Node.hasSite inside, Node.hasSite before, Ident.hasSite named,
    hasSite_of_mem_zipWith (fun o => given.child) ts⟩

mutual
theorem visit_grounded (surveys : Surveys p V) (inLoop : Bool) :
    ∀ (n : Node) (r : Run), V ⟨inLoop, .node n, r⟩ → Grounded (p.grounds V) r (p.visit inLoop n r).2
  | .int s _, r, here | .bool s _, r, here => by
    rw [visit]
    exact .annotate ..
  | .str s t isFormat, r, here => by
    rw [visit]
    have site := Node.hasSite (surveys.inside here)
    exact .trans (.annotate ..) (.ite (Run.checkPlaceholders_grounded _ site t) (.refl _))
  | .array s es, r, here => by
    rw [visit]
    exact .trans (visitAll_grounded surveys inLoop es r fun w => surveys.parts here) (.annotate ..)
  | .dict s es, r, here => by
    rw [visit]
    have entries := surveys.parts here (w := ⟨inLoop, .entries [] es, r⟩) List.mem_cons_self
    exact .trans (visitEntries_grounded surveys inLoop [] es r entries) (.annotate ..)
  | .ident id, r, here => by
    rw [visit]
    exact readVariable_grounded r (Node.hasSite (surveys.inside here))
  | .call s callee argSite as, r, here => by
    rw [visit]
    have inside : p.file.outline.Has (Node.call s callee argSite as).outline := surveys.inside here
    have below := fun o => inside.child (c := o)
    simp only [Node.outline, Outline.children_mk, List.forall_mem_cons] at below
    obtain ⟨named, given, -⟩ := below
    refine .trans (visitAll_grounded surveys inLoop as r fun w => surveys.parts here) ?_
    refine callFunction_grounded (Node.hasSite inside) (Ident.hasSite named)
      (hasSite_of_mem_zipWith (fun o => given.child) _) fun f found called i member => ?_
    exact surveys.groundsEntry here (by simpa [inclusions, found, called, Node.site] using member)
  | .method s receiver callee argSite as, r, here => by
    rw [visit_method]
    obtain ⟨site, before, named, given⟩ := hasSite_method (surveys.inside here) (p.visitAll inLoop as _).1
    obtain ⟨first, rest⟩ := List.forall_mem_cons.mp fun w => surveys.parts here (w := w)
    refine .trans (visit_grounded surveys inLoop receiver r first) ?_
    refine .trans (visitAll_grounded surveys inLoop as _ rest) ?_
    refine callMethod_grounded site before named given fun t called read missing _ same => ?_
    cases same
    exact ⟨⟨_, here, by simp [getters, called, read]⟩, missing⟩
  | .keyword s key v, r, here => by
    rw [visit]
    have inside : p.file.outline.Has (Node.keyword s key v).outline := surveys.inside here
    have named : p.file.outline.Has key.outline := inside.child List.mem_cons_self
    have value := visit_grounded surveys inLoop v r (surveys.parts here List.mem_cons_self)
    exact value.trans (.trans (.annotate ..) (Run.checkKeyword_grounded _ _ (Ident.hasSite named)))
  | .index s outer inner, r, here => by
    rw [visit_index]
    obtain ⟨first, rest⟩ := List.forall_mem_cons.mp fun w => surveys.parts here (w := w)
    refine .trans (visit_grounded surveys inLoop outer r first) ?_
    exact .trans (visit_grounded surveys inLoop inner _ (rest _ List.mem_cons_self)) (readIndex_grounded _ s _)
  | .unary s op x, r, here => by
    rw [visit]
    exact .trans (visit_grounded surveys inLoop x r (surveys.parts here List.mem_cons_self)) (.annotate ..)
  | .binary s op a b, r, here => by
    rw [visit_binary]
    obtain ⟨first, rest⟩ := List.forall_mem_cons.mp fun w => surveys.parts here (w := w)
    have second := rest _ List.mem_cons_self
    refine .trans (visit_grounded surveys inLoop a r first) ?_
    refine .trans (visit_grounded surveys inLoop b _ second) ?_
    exact applyOperator_grounded _ (Node.hasSite (surveys.inside here)) op (Node.hasSite (surveys.inside first))
      (Node.hasSite (surveys.inside second)) _ _
  | .ternary s c y z, r, here => by
    rw [visit_ternary]
    obtain ⟨first, rest⟩ := List.forall_mem_cons.mp fun w => surveys.parts here (w := w)
    obtain ⟨second, rest⟩ := List.forall_mem_cons.mp rest
    refine .trans (visit_grounded surveys inLoop c r first) ?_
    refine .trans (visit_grounded surveys inLoop y _ second) ?_
    refine .trans (visit_grounded surveys inLoop z _ (rest _ List.mem_cons_self)) ?_
    have site := Node.hasSite (surveys.inside here)
    exact .trans (.annotate ..) (Run.checkBool_grounded _ site _)
  | .assign s op t v, r, here => by
    rw [visit_assign]
    have inside : p.file.outline.Has (Node.assign s op t v).outline := surveys.inside here
    have target : p.file.outline.Has t.outline := inside.child List.mem_cons_self
    have parts := fun w => surveys.parts here (w := w)
    dsimp only [Place.parts, nodeParts] at parts
    refine .trans (b := (p.visit inLoop v _).2) ?_
      (assignTo_grounded _ (Node.hasSite inside) op (Node.hasSite target) v _ _)
    by_cases plain : op = .assign ∧ t.isIdent
    · rw [if_pos plain] at parts ⊢
      exact visit_grounded surveys inLoop v r (parts _ List.mem_cons_self)
    · rw [if_neg plain] at parts ⊢
      obtain ⟨first, rest⟩ := List.forall_mem_cons.mp parts
      exact .trans (visit_grounded surveys inLoop t r first)
        (visit_grounded surveys inLoop v _ (rest _ List.mem_cons_self))
  | .select s bs, r, here => by
    rw [visit]
    refine .trans ?_ (.closeSelection ..)
    refine .trans ?_ (.carry ..)
    exact .trans (b := openSelection r) (.silent rfl rfl)
      (visitBranches_grounded surveys inLoop bs _ (surveys.parts here List.mem_cons_self))
  | .loop s ids subject body, r, here => by
    rw [visit_loop]
    have inside : p.file.outline.Has (Node.loop s ids subject body).outline := surveys.inside here
    have named : ∀ id ∈ ids, p.file.HasSite id.site := by
      intro id member
      exact Ident.hasSite (inside.child (List.mem_append_left _ (List.mem_map_of_mem member)))
    obtain ⟨first, rest⟩ := List.forall_mem_cons.mp fun w => surveys.parts here (w := w)
    refine .trans ?_ (visitStatements_grounded surveys true body body _ (rest _ List.mem_cons_self))
    refine .trans (visit_grounded surveys true subject r first) ?_
    exact bindLoop_grounded _ named (Node.hasSite (surveys.inside first)) _
  | .breakLoop s, r, here | .continueLoop s, r, here => by
    rw [visit]
    have site := Node.hasSite (surveys.inside here)
    exact reportIf_grounded site.locates rfl r
  | .error s m, r, here => by
    rw [visit]
    have site := Node.hasSite (surveys.inside here)
    exact report_grounded site.locates rfl r

theorem visitAll_grounded (surveys : Surveys p V) (inLoop : Bool) :
    ∀ (ns : List Node) (r : Run), (∀ w ∈ p.inTurn inLoop ns r, V w) →
      Grounded (p.grounds V) r (p.visitAll inLoop ns r).2
  | [], r, turns => by
    rw [visitAll]
    exact .refl r
  | n :: ns, r, turns => by
    rw [visitAll_cons]
    obtain ⟨first, rest⟩ := List.forall_mem_cons.mp turns
    exact .trans (visit_grounded surveys inLoop n r first) (visitAll_grounded surveys inLoop ns _ rest)

theorem visitEntries_grounded (surveys : Surveys p V) (inLoop : Bool) :
    ∀ (seen : List String) (es : List Entry) (r : Run), V ⟨inLoop, .entries seen es, r⟩ →
      Grounded (p.grounds V) r (p.visitEntries inLoop seen es r).2
  | _, [], r, here => by
    rw [visitEntries]
    exact .refl r
  | seen, .mk s k v :: es, r, here => by
    rw [visitEntries_cons]
    obtain ⟨turns, last⟩ := List.forall_mem_append.mp fun w => surveys.parts here (w := w)
    obtain ⟨first, rest⟩ := List.forall_mem_cons.mp turns
    refine .trans (visit_grounded surveys inLoop k r first) ?_
    refine .trans (visit_grounded surveys inLoop v _ (rest _ List.mem_cons_self)) ?_
    refine .trans ?_ (visitEntries_grounded surveys inLoop _ es _ (last _ List.mem_cons_self))
    exact .trans (.annotate ..) (noteKey_grounded _ seen (Node.hasSite (surveys.inside first)))

theorem visitStatements_grounded (surveys : Surveys p V) (inLoop : Bool) (block : List Node) :
    ∀ (ns : List Node) (r : Run), V ⟨inLoop, .statements block ns, r⟩ →
      Grounded (p.grounds V) r (p.visitStatements inLoop block ns r)
  | [], r, here => by
    rw [visitStatements]
    split
    · rename_i range dead
      exact deadCode_grounded (surveys.inside here).1 dead r
    · exact .refl r
  | n :: ns, r, here => by
    rw [visitStatements]
    obtain ⟨first, rest⟩ := List.forall_mem_cons.mp fun w => surveys.parts here (w := w)
    refine .trans (visit_grounded surveys inLoop n r first) ?_
    refine .trans ?_ (visitStatements_grounded surveys inLoop block ns _ (rest _ List.mem_cons_self))
    have site := Node.hasSite (surveys.inside first)
    exact reportIf_grounded site.locates rfl _

theorem visitBranches_grounded (surveys : Surveys p V) (inLoop : Bool) :
    ∀ (bs : List Branch) (r : Run), V ⟨inLoop, .branches bs, r⟩ →
      Grounded (p.grounds V) r (p.visitBranches inLoop bs r).2
  | [], r, here => by
    rw [visitBranches]
    exact .refl r
  | .guarded c body :: bs, r, here => by
    rw [visitBranches_guarded]
    obtain ⟨first, rest⟩ := List.forall_mem_cons.mp fun w => surveys.parts here (w := w)
    obtain ⟨second, rest⟩ := List.forall_mem_cons.mp rest
    have site := Node.hasSite (surveys.inside first)
    refine .trans ?_ (visitBranches_grounded surveys inLoop bs _ (rest _ List.mem_cons_self))
    refine .trans ?_ (.trans (.closeDebts _) (.unignore ..))
    refine .trans ?_ (.trans (.openDebts _) (visitStatements_grounded surveys inLoop body body _ second))
    refine .trans (visit_grounded surveys inLoop c r first) ?_
    exact .trans (.ignore ..) (Run.checkBool_grounded _ site _)
  | .otherwise body :: bs, r, here => by
    rw [visitBranches_otherwise]
    obtain ⟨first, rest⟩ := List.forall_mem_cons.mp fun w => surveys.parts here (w := w)
    refine .trans ?_ (visitBranches_grounded surveys inLoop bs _ (rest _ List.mem_cons_self))
    refine .trans ?_ (.closeDebts _)
    exact .trans (.openDebts _) (visitStatements_grounded surveys inLoop body body _ first)
end

theorem ending_grounded (surveys : Surveys p V) {r : Run} (here : V ⟨false, .file, r⟩) :
    Grounded (p.grounds V) (r.openFile p.file.id).openDebts (p.ending r) := by
  have parts := fun w => surveys.parts here (w := w)
  dsimp only [Place.parts] at parts
  unfold ending walkBody
  cases parsed : p.file.body with
  | none => exact reportIf_grounded (SourceFile.HasSite.locates ⟨_, .self _, rfl⟩) rfl _
  | some b =>
    rw [parsed] at parts
    refine .trans ?_ (visitStatements_grounded surveys false _ _ _ (parts _ List.mem_cons_self))
    exact .ite (checkProject_grounded parsed _) (.refl _)

/-! When a file is left, what is still unused is carried on or, behind the root, reported. -/

variable (p : Place) (r : Run)

theorem log_walk_of_active (inner : r.active.isEmpty = false) : (p.walk r).log = (p.ending r).log := by
  unfold walk
  dsimp only
  rw [if_neg (by simp [inner]), Run.carry_log]
  rfl

theorem fault_walk : (p.walk r).fault = (p.ending r).fault := by
  dsimp only [walk]
  split
  · exact Run.fault_settle ..
  · unfold Run.carry
    split <;> rfl

theorem log_ending_suffix : (p.ending r).log <:+ (p.walk r).log := by
  dsimp only [walk]
  split
  · rw [Run.log_settle]
    exact List.suffix_append ..
  · rw [Run.carry_log]
    exact List.suffix_rfl

end

end Place

namespace Setting.Nests

variable {cx : Setting} {fuel : Nat} {f : SourceFile} {outer : List SourceFile} {r : Run}

theorem ending_grounded (nests : cx.Nests fuel f outer ⟨false, .file, r⟩) :
    Grounded ((cx.place fuel f).grounds (cx.Nests fuel f outer)) (r.openFile f.id).openDebts
      ((cx.place fuel f).ending r) :=
  Place.ending_grounded ⟨.part, isIn, cx.place_enters fuel f⟩ nests

theorem exists_included {v : Visit} (nests : cx.Nests fuel f outer v) {g : SourceFile}
    (member : (g, r) ∈ (cx.place fuel f).entered v) :
    ∃ k, fuel = k + 1 ∧ cx.Nests k g (f :: outer) ⟨false, .file, { r with scope := r.scope.push }⟩ := by
  obtain ⟨k, rfl⟩ := Nat.exists_eq_add_one.mpr (nests.fuel_pos member)
  exact ⟨k, rfl, .included nests member⟩

end Setting.Nests

end MesonCheck
