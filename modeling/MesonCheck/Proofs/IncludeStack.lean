import MesonCheck.Proofs.Framing
import MesonCheck.Proofs.Walk.Inside

/-! The stack of files that are being walked. It never holds a file twice, so it is never deeper than the tree has files
and every walk comes to an end, unless a guess does not. A recursive inclusion is reported exactly where a call of
`subdir` resolves to a file on the stack. -/
namespace MesonCheck

namespace Setting

/-! Where reports and faults come from. -/

/-- What an analysis records has its cause in a visit: every recursive inclusion is one of a file that is being walked,
and an endless guess is one of a node that is asked for. -/
structure Explains (cx : Setting) (a : Records) : Prop where
  recursion : ∀ e ∈ a.1, e.isRecursion = true → ∃ fuel f outer v, cx.Nests fuel f outer v ∧
    ∃ i ∈ (cx.place fuel f).inclusions v, i.before.active.contains i.file.id = true ∧
      e = .found (.about i.site (.recursiveInclusion i.file.path))
  endless : a.2 = some .endlessGuess → ∃ fuel f outer v, cx.Nests fuel f outer v ∧
    ∃ n ∈ (cx.place fuel f).guessed v, f.guess n = none

theorem Explains.emit {cx : Setting} {a : Records} (explains : cx.Explains a) {e : Event}
    (calm : e.isRecursion = false) : cx.Explains (a.emit e) := by
  refine ⟨fun d member isRecursion => ?_, explains.endless⟩
  rcases List.mem_cons.mp member with rfl | earlier
  · simp [calm] at isRecursion
  · exact explains.recursion d earlier isRecursion

theorem Explains.fail {cx : Setting} {a : Records} (explains : cx.Explains a) {f : Fault} (known : f ≠ .endlessGuess) :
    cx.Explains (a.fail f) := by
  refine ⟨explains.recursion, fun failed => explains.endless ?_⟩
  -- the first fault is the one that is kept
  cases before : a.2 with
  | none => exact absurd (by simpa [Records.fail, before] using failed) known
  | some g => simpa [Records.fail, before] using failed

def explained (cx : Setting) : Comparison :=
  .ofRecords (fun a b => a = b ∧ cx.Explains a)
    (fun calm both => ⟨by rw [both.1], both.2.emit (Event.isRecursion_of_isOpen calm)⟩)
    (fun known both => ⟨by rw [both.1], both.2.fail known⟩)

theorem explained_matches_iff {cx : Setting} {r r' : Run} :
    cx.explained.Matches r r' ↔ r' = r ∧ cx.Explains r.records := by
  constructor
  · rintro ⟨scope, same, explains⟩
    cases scope
    cases same
    exact ⟨rfl, explains⟩
  · rintro ⟨rfl, explains⟩
    exact .mk rfl ⟨rfl, explains⟩

theorem explained_follows {cx : Setting} {fuel : Nat} {f : SourceFile} {outer : List SourceFile}
    (enters : ∀ v g r, cx.Nests fuel f outer v → (g, r) ∈ (cx.place fuel f).entered v → cx.Explains r.records →
      cx.Explains ((cx.place fuel f).enter g r).records) :
    Place.Follows cx.explained (cx.Nests fuel f outer) (cx.place fuel f) cx.switches (cx.place fuel f).enter := by
  refine ⟨.of_reports fun calm _ _ both _ _ => ⟨by rw [both.1], both.2.emit calm⟩, .part, ?_, ?_⟩
  · rintro v nests n asked endless a _ ⟨rfl, explains⟩
    exact ⟨rfl, explains.recursion, fun _ => ⟨fuel, f, outer, v, nests, n, asked, endless⟩⟩
  · intro v nests i resolved
    refine ⟨?_, ?_⟩
    · rintro active a _ ⟨rfl, explains⟩
      refine ⟨rfl, fun d member isRecursion => ?_, explains.endless⟩
      rcases List.mem_cons.mp member with rfl | earlier
      · exact ⟨fuel, f, outer, v, nests, i, resolved, active, rfl⟩
      · exact explains.recursion d earlier isRecursion
    · intro fresh r' m
      obtain ⟨rfl, explains⟩ := explained_matches_iff.mp m
      have member := (Place.mem_entered_iff _).mpr ⟨i, resolved, fresh, rfl, rfl⟩
      exact explained_matches_iff.mpr ⟨rfl, enters v i.file i.before nests member explains⟩

theorem walk_explains {cx : Setting} {fuel : Nat} {f : SourceFile} {outer : List SourceFile} {r : Run}
    (nests : cx.Nests fuel f outer ⟨false, .file, r⟩) (explains : cx.Explains r.records) :
    cx.Explains (cx.walk (fuel + 1) f r).records := by
  have start := explained_matches_iff.mpr ⟨rfl, explains⟩
  induction fuel generalizing f outer r with
  | zero =>
    refine (explained_matches_iff.mp (Place.walk_matches (explained_follows ?_) nests start)).2
    intro v g r nests member
    exact absurd (nests.fuel_pos member) (Nat.lt_irrefl 0)
  | succ fuel ih =>
    refine (explained_matches_iff.mp (Place.walk_matches (explained_follows ?_) nests start)).2
    intro v g r nests member explains
    have pushed : cx.Explains (Run.records { r with scope := r.scope.push }) := explains
    exact ih (.included nests member) pushed (explained_matches_iff.mpr ⟨rfl, pushed⟩)

theorem finish_explains (cx : Setting) : cx.Explains cx.finish.records := by
  have start : cx.Explains cx.start.records := by
    constructor <;> simp [Run.records, Setting.start]
  unfold finish
  split
  · exact walk_explains (.root ‹_›) start
  · exact start

theorem Nests.kept {cx : Setting} {fuel : Nat} {f : SourceFile} {outer : List SourceFile} {v : Visit}
    (nests : cx.Nests fuel f outer v) : ((cx.place fuel f).after v).Kept cx.finish := by
  induction nests with
  | root found =>
    rw [finish, found]
    exact .refl _
  | part _ member ih => exact (Place.parts_isPart (cx.place_enters _ _) _ _ member).kept.trans ih
  | included nests member ih =>
    -- what the file leaves behind is what the call goes on with
    obtain ⟨i, resolved, fresh, rfl, rfl⟩ := (Place.mem_entered_iff _).mp member
    have inclusion := (Place.inclusions_isInclusion (cx.place_enters _ _) _ i resolved).kept
    rw [Place.includeFile, if_neg (by simpa using fresh)] at inclusion
    have kept := inclusion.trans ih
    exact ⟨kept.log, kept.fault⟩

theorem Nests.log_suffix {cx : Setting} {fuel : Nat} {f : SourceFile} {outer : List SourceFile} {v : Visit}
    (nests : cx.Nests fuel f outer v) : ((cx.place fuel f).after v).log <:+ cx.finish.log :=
  nests.kept.log

theorem Nests.contains_iff {cx : Setting} (identified : cx.tree.Identified) {fuel : Nat} {f : SourceFile}
    {outer : List SourceFile} {v : Visit} (nests : cx.Nests fuel f outer v) {i : Inclusion}
    (resolved : i ∈ (cx.place fuel f).inclusions v) :
    i.before.active.contains i.file.id = true ↔ i.file ∈ f :: outer := by
  obtain ⟨_, active, _, registered⟩ := Place.inclusions_isInclusion (cx.place_enters _ _) _ i resolved
  rw [active, nests.within_eq, List.contains_iff_mem]
  constructor
  · intro member
    obtain ⟨g, around, same⟩ := List.mem_map.mp member
    rw [← identified g (nests.isStack.known g around) i.file (List.mem_append_right _ registered) same]
    exact around
  · exact List.mem_map_of_mem

/-! States. -/

theorem Nests.walks {cx : Setting} {fuel : Nat} {f : SourceFile} {outer : List SourceFile} {v : Visit}
    (nests : cx.Nests fuel f outer v) : Walks cx.earlier v.before ((cx.place fuel f).after v) := by
  have enters := cx.place_enters fuel f
  obtain ⟨inLoop, task, r⟩ := v
  cases task with
  | file =>
    have distinct := nests.isStack.distinct
    rw [← nests.within_eq] at distinct
    have fresh : (cx.place fuel f).file.id ∉ r.active := (List.nodup_cons.mp distinct).1
    exact (cx.place fuel f).walk_walks enters r (by simpa using fresh)
  | node n => exact Place.visit_walks _ enters inLoop n r
  | entries seen es => exact Place.visitEntries_walks _ enters inLoop seen es r
  | statements block ns => exact Place.visitStatements_walks _ enters inLoop block ns r
  | branches bs => exact Place.visitBranches_walks _ enters inLoop bs r

theorem Nests.active_before {cx : Setting} {fuel : Nat} {f : SourceFile} {outer : List SourceFile} {v : Visit}
    (nests : cx.Nests fuel f outer v) : ∃ stack, cx.tree.IsStack stack ∧ v.before.active = stack.map (·.id) := by
  have stack := nests.isStack
  have within := nests.within_eq
  obtain ⟨inLoop, task, r⟩ := v
  cases task with
  | file => exact ⟨outer, stack.tail, List.tail_eq_of_cons_eq within⟩
  | node | entries | statements | branches => exact ⟨f :: outer, stack, within⟩

theorem Passes.active {cx : Setting} {r : Run} (passes : cx.Passes r) :
    ∃ stack, cx.tree.IsStack stack ∧ r.active = stack.map (·.id) := by
  cases passes with
  | start => exact ⟨[], ⟨List.nodup_nil, by simp⟩, rfl⟩
  | before makes =>
    obtain ⟨outer, nests⟩ := exists_nests_iff.mpr makes
    exact nests.active_before
  | after makes =>
    obtain ⟨outer, nests⟩ := exists_nests_iff.mpr makes
    rw [nests.walks.active_eq]
    exact nests.active_before

/-! Results. -/

theorem exists_endless {cx : Setting} (endless : cx.analyze = .error .endlessGuess) :
    ∃ fuel f outer v, cx.Nests fuel f outer v ∧ ∃ n ∈ (cx.place fuel f).guessed v, f.guess n = none := by
  refine cx.finish_explains.endless ?_
  unfold analyze at endless
  split at endless
  · rename_i fault failed
    cases endless
    exact failed
  · contradiction

theorem Nests.includeFile {cx : Setting} (identified : cx.tree.Identified) {fuel : Nat} {f : SourceFile}
    {outer : List SourceFile} {v : Visit} (nests : cx.Nests fuel f outer v) {i : Inclusion}
    (resolved : i ∈ (cx.place fuel f).inclusions v) :
    (i.file ∈ f :: outer → (cx.place fuel f).includeFile i.site i.file i.before =
      i.before.report (.about i.site (.recursiveInclusion i.file.path))) ∧
    (i.file ∉ f :: outer →
      (cx.place fuel f).includeFile i.site i.file i.before = (cx.place fuel f).enter i.file i.before ∧
      ∃ rest, fuel = rest + 1 ∧
        cx.Nests rest i.file (f :: outer) ⟨false, .file, { i.before with scope := i.before.scope.push }⟩) := by
  have onStack := nests.contains_iff identified resolved
  refine ⟨fun around => if_pos (onStack.mpr around), fun elsewhere => ?_⟩
  have fresh : ¬i.before.active.contains i.file.id = true := fun active => elsewhere (onStack.mp active)
  have member := (Place.mem_entered_iff _).mpr ⟨i, resolved, by simpa using fresh, rfl, rfl⟩
  obtain ⟨rest, rfl⟩ := Nat.exists_eq_succ_of_ne_zero (Nat.ne_of_gt (nests.fuel_pos member))
  exact ⟨if_neg fresh, rest, rfl, .included nests member⟩

theorem found_recursiveInclusion_iff {cx : Setting} (identified : cx.tree.Identified) (first last : Site)
    (path : String) :
    .found ⟨first, last, .recursiveInclusion path⟩ ∈ cx.finish.log ↔
      ∃ fuel f outer v, cx.Nests fuel f outer v ∧ ∃ i ∈ (cx.place fuel f).inclusions v, i.file ∈ f :: outer ∧
        f.HasSite i.site ∧ (∀ fs, cx.tree = .ofFiles fs → cx.tree.StandsIn i.site f) ∧
        i.site = first ∧ i.site = last ∧ i.file.path = path := by
  constructor
  · intro member
    obtain ⟨fuel, f, outer, v, nests, i, resolved, active, same⟩ := cx.finish_explains.recursion _ member rfl
    cases same
    have around := (nests.contains_iff identified resolved).mp active
    have inside := nests.hasSite resolved
    exact ⟨fuel, f, outer, v, nests, i, resolved, around, inside, fun _ => nests.standsIn inside, rfl, rfl, rfl⟩
  · rintro ⟨fuel, f, outer, v, nests, i, resolved, around, -, -, rfl, rfl, rfl⟩
    have inclusion := (Place.inclusions_isInclusion (cx.place_enters _ _) _ i resolved).kept.log
    rw [(nests.includeFile identified resolved).1 around] at inclusion
    exact (inclusion.trans nests.log_suffix).mem List.mem_cons_self

/-- For every tree, with any cycles among its files: the files that are being walked in any state of an analysis are
distinct files of the tree, so they are at most as many as the registered files and one more. Nothing depends on what
would be done with files nested deeper than that, so the walk comes to an end unless a visit asks for a guess that does
not. Where a call of `subdir` resolves to a file, the inclusion is reported as recursive if that file is on the stack,
the file is entered if it is not, and no other report of this kind is ever made. -/
theorem include_stack (cx : Setting) (identified : cx.tree.Identified) :
    (∀ r, cx.Passes r → ∃ stack : List SourceFile, r.active = stack.map (·.id) ∧ (∀ f ∈ stack, f ∈ cx.tree.all) ∧
      stack.Nodup ∧ stack.length ≤ cx.tree.files.length + 1) ∧
    (∀ deep extra, cx.finishBy .own deep (cx.tree.files.length + 1 + extra) = cx.finish) ∧
    (cx.analyze = .error .endlessGuess → ∃ fuel f outer v, cx.Nests fuel f outer v ∧
      ∃ n ∈ (cx.place fuel f).guessed v, f.guess n = none) ∧
    (∀ fuel f outer v, cx.Nests fuel f outer v → ∀ i ∈ (cx.place fuel f).inclusions v,
      i.before.active = (f :: outer).map (·.id) ∧
      (i.file ∈ f :: outer → (cx.place fuel f).includeFile i.site i.file i.before =
        i.before.report (.about i.site (.recursiveInclusion i.file.path))) ∧
      (i.file ∉ f :: outer →
        (cx.place fuel f).includeFile i.site i.file i.before = (cx.place fuel f).enter i.file i.before ∧
        ∃ rest, fuel = rest + 1 ∧
          cx.Nests rest i.file (f :: outer) ⟨false, .file, { i.before with scope := i.before.scope.push }⟩)) ∧
    ∀ first last path, .found ⟨first, last, .recursiveInclusion path⟩ ∈ cx.finish.log ↔
      ∃ fuel f outer v, cx.Nests fuel f outer v ∧ ∃ i ∈ (cx.place fuel f).inclusions v, i.file ∈ f :: outer ∧
        f.HasSite i.site ∧ (∀ fs, cx.tree = .ofFiles fs → cx.tree.StandsIn i.site f) ∧
        i.site = first ∧ i.site = last ∧ i.file.path = path := by
  refine ⟨fun r passes => ?_, fun deep extra => cx.finishBy_eq .own deep extra, exists_endless, ?_,
    found_recursiveInclusion_iff identified⟩
  · obtain ⟨stack, isStack, active⟩ := passes.active
    exact ⟨stack, active, isStack.known, isStack.distinct.of_map, isStack.length_le⟩
  · intro fuel f outer v nests i resolved
    have active := (Place.inclusions_isInclusion (cx.place_enters _ _) _ i resolved).active
    exact ⟨active.trans nests.within_eq, nests.includeFile identified resolved⟩

/-- A tree whose root includes a directory that includes the root again. -/
def sampleAround : Setting where
  catalogue := ⟨[], [], [⟨"subdir", none, [⟨[.str], false, false⟩], [], []⟩], [], [], [], fun _ => []⟩
  tree :=
    let including (dir : String) : Node :=
      .call (.at .zero) ⟨.at .zero, "subdir"⟩ (.at .zero) [.str (.at .zero) dir false]
    .ofFiles [⟨0, .at .zero, "meson.build", some ⟨.at .zero, [including "sub"]⟩⟩,
      ⟨0, .at .zero, "sub/meson.build", some ⟨.at .zero, [including ".."]⟩⟩]

theorem include_stack_sample :
    sampleAround.tree.Identified ∧ ∃ fuel f outer v, sampleAround.Nests fuel f outer v ∧
      ∃ i ∈ (sampleAround.place fuel f).inclusions v, i.file ∈ f :: outer ∧
        f.path = "sub/meson.build" ∧ f.HasSite i.site ∧ i.site = ⟨.zero, 8⟩ ∧ i.file.path = "meson.build" := by
  have identified : sampleAround.tree.Identified := SourceTree.identified_ofFiles _
  have reported : ∃ later earlier, sampleAround.finish.log =
      later ++ .found (.about ⟨.zero, 8⟩ (.recursiveInclusion "meson.build")) :: earlier := ⟨[_, _], _, rfl⟩
  obtain ⟨later, earlier, log⟩ := reported
  obtain ⟨fuel, f, outer, v, nests, i, resolved, around, inside, stands, site, -, path⟩ :=
    ((include_stack sampleAround identified).2.2.2.2 ⟨.zero, 8⟩ ⟨.zero, 8⟩ "meson.build").mp
      (log ▸ List.mem_append_right _ List.mem_cons_self)
  have file := (stands _ rfl).pathOf
  rw [site] at file
  exact ⟨identified, fuel, f, outer, v, nests, i, resolved, around, file.symm, inside, site, path⟩

end Setting

end MesonCheck
