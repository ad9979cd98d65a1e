import Mathlib.Logic.Relation
import MesonCheck.Analysis.Guess

/-! Guesses and their end. Nothing stops a guess that follows loops from variable to variable, so it comes to an end for
every expression exactly when no variable leads back to itself on the way through such loops. -/
namespace MesonCheck

namespace Guess

def Leads (statements : List Node) (x y : String) : Prop :=
  ∃ s id other body, Node.loop s [id] (.ident other) body ∈ spotsAll statements ∧ id.name = x ∧ other.name = y ∧ y ≠ x

/-! One result compared with another. -/

/-- A relation between results that holds of the whole when it holds of the parts. -/
structure Respected (Q : Option (List String) → Option (List String) → Prop) : Prop where
  pure : ∀ vs, Q (some vs) (some vs)
  bind : ∀ {a b : Option (List String)} {f g : List String → Option (List String)}, Q a b →
    (∀ vs, Q (f vs) (g vs)) → Q (a.bind f) (b.bind g)

def Extends (a b : Option (List String)) : Prop :=
  ∀ vs, a = some vs → b = some vs

theorem extends_respected : Respected Extends where
  pure _ _ h := h
  bind := by
    intro a b f g ab fg vs h
    obtain ⟨us, ha, hf⟩ := Option.bind_eq_some_iff.mp h
    rw [ab us ha]
    exact fg us vs hf

theorem isSome_respected : Respected fun _ b => b.isSome = true where
  pure _ := rfl
  bind := by
    intro a b f g some all
    obtain ⟨us, rfl⟩ := Option.isSome_iff_exists.mp some
    exact all us

namespace Respected

variable {Q : Option (List String) → Option (List String) → Prop} (respected : Respected Q)
include respected

theorem map {a b : Option (List String)} (f : List String → List String) (h : Q a b) : Q (a.map f) (b.map f) := by
  rw [Option.map_eq_bind, Option.map_eq_bind]
  exact respected.bind h fun vs => respected.pure (f vs)

/-! Expressions. -/

variable {part part' : Node → Option (List String)}

theorem concat {α : Type} {value value' : α → Option (List String)} (as : List α)
    (parts : ∀ a ∈ as, Q (value a) (value' a)) : Q (concat value as) (concat value' as) := by
  induction as with
  | nil => exact respected.pure []
  | cons a as ih =>
    have rest := ih fun a member => parts a (List.mem_cons_of_mem _ member)
    exact respected.bind (parts a List.mem_cons_self) fun vs => respected.map (vs ++ ·) rest

theorem joined (sep : String) (sofar : Option (List String)) (ns : List Node) (parts : ∀ n, Q (part n) (part' n)) :
    Q (joined part sep sofar ns) (joined part' sep sofar ns) := by
  induction ns generalizing sofar with
  | nil => exact respected.pure _
  | cons n ns ih =>
    refine respected.bind (parts n) fun vs => ?_
    split
    · exact respected.pure []
    · exact ih _

theorem formatted (i : Nat) (ns : List Node) (texts : List String) (parts : ∀ n, Q (part n) (part' n)) :
    Q (formatted part i ns texts) (formatted part' i ns texts) := by
  induction ns generalizing i texts with
  | nil => exact respected.pure texts
  | cons n ns ih => exact respected.bind (parts n) fun vs => ih (i + 1) (fill i vs texts)

theorem methodValues (name : String) (args : List Node) (texts : List String) (parts : ∀ n, Q (part n) (part' n)) :
    Q (methodValues part name args texts) (methodValues part' name args texts) := by
  unfold Guess.methodValues
  split
  · exact respected.pure _
  · exact respected.pure _
  · exact respected.pure _
  · exact respected.pure _
  · split
    · exact respected.map capped (respected.concat texts fun sep _ => respected.joined sep none _ parts)
    · exact respected.pure []
  · exact respected.formatted 0 args texts parts
  · exact respected.pure []

theorem evaluate {named named' : String → Option (List String)} (n : Node) (parts : ∀ n, Q (part n) (part' n))
    (others : ∀ x, Q (named x) (named' x)) : Q (evaluate part named n) (evaluate part' named' n) := by
  unfold Guess.evaluate
  split
  · exact respected.pure _
  · exact respected.map capped (respected.concat _ fun n _ => parts n)
  · exact respected.bind (parts _) fun ys => respected.map (fun zs => capped (ys ++ zs)) (parts _)
  · exact respected.bind (parts _) fun ls => respected.map (product "" ls) (parts _)
  · exact respected.bind (parts _) fun ls => respected.map (product "/" ls) (parts _)
  · exact others _
  · split
    · exact respected.joined "/" none _ parts
    · exact respected.pure []
  · exact respected.bind (parts _) fun texts => respected.methodValues _ _ texts parts
  · exact respected.pure []

/-! Scans. -/

variable {source source' : Node → Option (List String)}

theorem unlessFull {go go' : List String → Option (List String)} (more : ∀ found, Q (go found) (go' found))
    (found : List String) : Q (unlessFull go found) (unlessFull go' found) := by
  unfold Guess.unlessFull
  split
  · exact more found
  · exact respected.pure found

mutual
theorem gather : ∀ (n : Node) (found : List String), (∀ m ∈ spots n, Q (source m) (source' m)) →
    Q (gather source n found) (gather source' n found)
  | .array _ es, found, h | .call _ _ _ es, found, h => by
    rw [Guess.gather, Guess.gather]
    exact respected.unlessFull (fun found => gatherAll es found h) found
  | .dict _ es, found, h => by
    rw [Guess.gather, Guess.gather]
    exact respected.unlessFull (fun found => gatherEntries es found h) found
  | .method _ recv _ _ as, found, h => by
    rw [Guess.gather, Guess.gather]
    rw [spots, List.forall_mem_append] at h
    refine respected.unlessFull (fun found => ?_) found
    refine respected.bind (gather recv found h.1) fun found => ?_
    exact respected.unlessFull (fun found => gatherAll as found h.2) found
  | .keyword _ _ v, found, h | .unary _ _ v, found, h => by
    rw [Guess.gather, Guess.gather]
    exact respected.unlessFull (fun found => gather v found h) found
  | .index _ a b, found, h | .binary _ _ a b, found, h => by
    rw [Guess.gather, Guess.gather]
    rw [spots, List.forall_mem_append] at h
    refine respected.unlessFull (fun found => ?_) found
    exact respected.bind (gather a found h.1) fun found => gather b found h.2
  | .ternary _ c y z, found, h => by
    rw [Guess.gather, Guess.gather]
    rw [spots, List.forall_mem_append, List.forall_mem_append] at h
    refine respected.unlessFull (fun found => ?_) found
    refine respected.bind (respected.bind (gather c found h.1.1) fun found => ?_) fun found => gather z found h.2
    exact gather y found h.1.2
  | .assign s op t v, found, h => by
    rw [Guess.gather, Guess.gather]
    rw [spots, List.forall_mem_cons, List.forall_mem_append] at h
    refine respected.bind h.1 fun vs => respected.unlessFull (fun found => ?_) (found ++ vs)
    exact respected.bind (gather t found h.2.1) fun found => gather v found h.2.2
  | .select _ bs, found, h => by
    rw [Guess.gather, Guess.gather]
    exact respected.unlessFull (fun found => gatherBranches bs found h) found
  | .loop s ids subject body, found, h => by
    rw [Guess.gather, Guess.gather]
    rw [spots, List.forall_mem_cons, List.forall_mem_append] at h
    refine respected.bind h.1 fun vs => respected.unlessFull (fun found => ?_) (found ++ vs)
    exact respected.bind (gather subject found h.2.1) fun found => gatherAll body found h.2.2
  | .int .., found, _ | .str .., found, _ | .bool .., found, _ | .ident _, found, _ | .breakLoop _, found, _
  | .continueLoop _, found, _ | .error .., found, _ => respected.pure found

theorem gatherAll : ∀ (ns : List Node) (found : List String), (∀ m ∈ spotsAll ns, Q (source m) (source' m)) →
    Q (gatherAll source ns found) (gatherAll source' ns found)
  | [], found, _ => respected.pure found
  | n :: ns, found, h => by
    rw [Guess.gatherAll, Guess.gatherAll]
    rw [spotsAll, List.forall_mem_append] at h
    exact respected.bind (gather n found h.1) fun found => gatherAll ns found h.2

theorem gatherEntries : ∀ (es : List Entry) (found : List String),
    (∀ m ∈ spotsEntries es, Q (source m) (source' m)) →
      Q (gatherEntries source es found) (gatherEntries source' es found)
  | [], found, _ => respected.pure found
  | .mk _ k v :: es, found, h => by
    rw [Guess.gatherEntries, Guess.gatherEntries]
    rw [spotsEntries, List.forall_mem_append, List.forall_mem_append] at h
    refine respected.bind (respected.unlessFull (fun found => ?_) found) fun found => gatherEntries es found h.2
    exact respected.bind (gather k found h.1.1) fun found => gather v found h.1.2

theorem gatherBranches : ∀ (bs : List Branch) (found : List String),
    (∀ m ∈ spotsBranches bs, Q (source m) (source' m)) →
      Q (gatherBranches source bs found) (gatherBranches source' bs found)
  | [], found, _ => respected.pure found
  | .guarded c body :: bs, found, h => by
    rw [Guess.gatherBranches, Guess.gatherBranches]
    rw [spotsBranches, List.forall_mem_append, List.forall_mem_append] at h
    have first := gather c found h.1.1
    refine respected.bind (respected.bind first fun found => ?_) fun found => gatherBranches bs found h.2
    exact gatherAll body found h.1.2
  | .otherwise body :: bs, found, h => by
    rw [Guess.gatherBranches, Guess.gatherBranches]
    rw [spotsBranches, List.forall_mem_append] at h
    exact respected.bind (gatherAll body found h.1) fun found => gatherBranches bs found h.2
end

variable {named named' : String → Option (List String)}

theorem subjectValues (name : String) (isLone isFirst : Bool) (subject : Node) (parts : ∀ n, Q (part n) (part' n))
    (others : ∀ other, subject = .ident other → isLone = true → other.name ≠ name →
      Q (named other.name) (named' other.name)) :
    Q (subjectValues part named name isLone isFirst subject)
      (subjectValues part' named' name isLone isFirst subject) := by
  unfold Guess.subjectValues
  split
  · split
    · exact parts _
    · exact respected.pure []
  · exact respected.concat _ fun n _ => parts n
  · split
    · rename_i other taken
      exact others other rfl taken.1 taken.2
    · exact respected.pure []
  · exact respected.pure []

theorem loopValues {here here' : Bool → Option (List String)} (name : String) (isFirst : Bool) (ids : List Ident)
    (subject : ∀ id ∈ ids, id.name = name → ∀ isFirst, Q (here isFirst) (here' isFirst)) :
    Q (loopValues here name isFirst ids) (loopValues here' name isFirst ids) := by
  induction ids generalizing isFirst with
  | nil => exact respected.pure []
  | cons id ids ih =>
    have rest := ih false fun id member => subject id (List.mem_cons_of_mem _ member)
    refine respected.bind ?_ fun vs => respected.map (vs ++ ·) rest
    split
    · rename_i same
      exact subject id List.mem_cons_self same isFirst
    · exact respected.pure []

theorem sourceValues (name : String) (m : Node) (parts : ∀ n, Q (part n) (part' n))
    (others : ∀ s id other body, m = .loop s [id] (.ident other) body → id.name = name → other.name ≠ name →
      Q (named other.name) (named' other.name)) :
    Q (sourceValues part named name m) (sourceValues part' named' name m) := by
  unfold Guess.sourceValues
  split
  · split
    · exact parts _
    · exact respected.pure []
  · rename_i s ids subject body
    refine respected.loopValues name true ids fun id member same isFirst => ?_
    refine respected.subjectValues name _ isFirst subject parts ?_
    rintro other rfl lone differs
    obtain ⟨only, rfl⟩ := List.length_eq_one_iff.mp (of_decide_eq_true lone)
    cases List.mem_singleton.mp member
    exact others s id other body rfl same differs
  · exact respected.pure []

/-- A scan depends on other variables only where loops lead to them. -/
theorem scan (statements : List Node) (name : String) (parts : ∀ n, Q (part n) (part' n))
    (others : ∀ y, Leads statements name y → Q (named y) (named' y)) :
    Q (scan part named statements name) (scan part' named' statements name) := by
  refine respected.map capped (respected.gatherAll statements [] fun m member => ?_)
  refine respected.sourceValues name m parts ?_
  rintro s id other body rfl same differs
  exact others other.name ⟨s, id, other, body, member, same, rfl, differs⟩

end Respected

/-! Fuel. -/

variable (statements : List Node)

theorem extends_succ (fuel : Nat) :
    (∀ n d, Extends (values statements fuel n d) (values statements (fuel + 1) n d)) ∧
      ∀ x d, Extends (variableValues statements fuel x d) (variableValues statements (fuel + 1) x d) := by
  induction fuel with
  | zero => exact ⟨fun n d vs h => by simp [values] at h, fun x d vs h => by simp [variableValues] at h⟩
  | succ fuel ih =>
    constructor
    · intro n d
      rw [values, values]
      split
      · exact extends_respected.pure []
      · exact extends_respected.evaluate n (fun m => ih.1 m (d + 1)) fun x => ih.2 x d
    · intro x d
      rw [variableValues, variableValues]
      exact extends_respected.scan statements x (fun m => ih.1 m (d + 1)) fun y _ => ih.2 y (d + 1)

theorem extends_of_le {fuel fuel' : Nat} (le : fuel ≤ fuel') (n : Node) (d : Nat) :
    Extends (values statements fuel n d) (values statements fuel' n d) := by
  induction le with
  | refl => exact fun _ h => h
  | step _ ih => exact fun vs h => (extends_succ statements _).1 n d vs (ih vs h)

theorem values_beyond {fuel : Nat} (some : 1 ≤ fuel) (n : Node) {d : Nat} (beyond : depthLimit < d) :
    values statements fuel n d = Option.some [] := by
  obtain ⟨fuel, rfl⟩ := Nat.exists_eq_add_of_le' some
  rw [values, if_pos beyond]

section

/-! A relation that holds of all variables from the depth limit on, once there is fuel for the names of loops. -/

variable {Q : Option (List String) → Option (List String) → Prop} (respected : Respected Q) {extra : Nat}
  (deep : ∀ fuel x d, (loopNames statements).length + 2 ≤ fuel → depthLimit ≤ d →
    Q (variableValues statements (extra + fuel) x d) (variableValues statements fuel x d))
include respected deep

/-- The levels above the limit need fuel for a name and an expression each. -/
theorem related_above (levels : Nat) : ∀ fuel d, (loopNames statements).length + 2 + 2 * levels ≤ fuel →
    depthLimit ≤ d + levels →
      (∀ x, Q (variableValues statements (extra + fuel) x d) (variableValues statements fuel x d)) ∧
        ∀ n, Q (values statements (extra + (fuel + 1)) n d) (values statements (fuel + 1) n d) := by
  induction levels with
  | zero =>
    intro fuel d enough limit
    refine ⟨fun x => deep fuel x d enough limit, fun n => ?_⟩
    rw [← Nat.add_assoc, values, values]
    split
    · exact respected.pure []
    · refine respected.evaluate n (fun m => ?_) fun x => deep fuel x d enough limit
      rw [values_beyond statements (by omega) m (by omega), values_beyond statements (by omega) m (by omega)]
      exact respected.pure []
  | succ levels ih =>
    intro fuel d enough limit
    obtain ⟨fuel, rfl⟩ := Nat.exists_eq_add_of_le' (show 2 ≤ fuel by omega)
    have names : ∀ x, Q (variableValues statements (extra + (fuel + 2)) x d)
        (variableValues statements (fuel + 2) x d) := by
      intro x
      have next := ih (fuel + 1) (d + 1) (by omega) (by omega)
      have part := ih fuel (d + 1) (by omega) (by omega)
      rw [← Nat.add_assoc, variableValues, variableValues]
      exact respected.scan statements x part.2 fun y _ => next.1 y
    refine ⟨names, fun n => ?_⟩
    rw [← Nat.add_assoc, values, values]
    split
    · exact respected.pure []
    · exact respected.evaluate n (ih (fuel + 1) (d + 1) (by omega) (by omega)).2 names

theorem related {fuel : Nat} (enough : fuelFor statements ≤ fuel) (n : Node) :
    Q (values statements (extra + fuel) n 0) (values statements fuel n 0) := by
  unfold fuelFor at enough
  obtain ⟨fuel, rfl⟩ := Nat.exists_eq_add_of_le' (show 1 ≤ fuel by omega)
  exact (related_above statements respected deep depthLimit fuel 0 (by omega) (by omega)).2 n

end

/-! Variables without a circle. -/

/-- Whether following loops from a variable can go round in a circle. -/
def Circles (x : String) : Prop :=
  ∃ z, Relation.ReflTransGen (Leads statements) x z ∧ Relation.TransGen (Leads statements) z z

variable {statements}

theorem Circles.of_leads {x y : String} (leads : Leads statements x y) (circles : Circles statements y) :
    Circles statements x := by
  obtain ⟨z, reach, circle⟩ := circles
  exact ⟨z, .head leads reach, circle⟩

theorem Circles.next {x : String} (circles : Circles statements x) :
    ∃ y, Leads statements x y ∧ Circles statements y := by
  obtain ⟨z, reach, circle⟩ := circles
  rcases Relation.ReflTransGen.cases_head reach with rfl | ⟨y, leads, rest⟩
  · obtain ⟨y, leads, back⟩ := Relation.TransGen.head'_iff.mp circle
    exact ⟨y, leads, x, back, circle⟩
  · exact ⟨y, leads, z, rest, circle⟩

theorem mem_loopNames {x y : String} (leads : Leads statements x y) : x ∈ loopNames statements := by
  obtain ⟨s, id, other, body, member, rfl, _⟩ := leads
  exact List.mem_filterMap.mpr ⟨_, member, rfl⟩

theorem scan_isSome {part : Node → Option (List String)} {named : String → Option (List String)} {x : String}
    (parts : ∀ n, (part n).isSome = true) (others : ∀ y, Leads statements x y → (named y).isSome = true) :
    (scan part named statements x).isSome = true :=
  @Respected.scan _ isSome_respected part part named named statements x parts others

/-- Below the depth limit a variable has an answer after as many steps as there are variables ahead of it. -/
theorem variableValues_isSome {ahead : List String} {fuel : Nat} {x : String} {d : Nat}
    (enough : ahead.length + 2 ≤ fuel) (limit : depthLimit ≤ d)
    (covers : ∀ z y, Relation.ReflTransGen (Leads statements) x z → Leads statements z y → z ∈ ahead)
    (straight : ¬ Circles statements x) : (variableValues statements fuel x d).isSome = true := by
  induction fuel generalizing ahead x d with
  | zero => omega
  | succ fuel ih =>
    rw [variableValues]
    refine scan_isSome (fun m => ?_) fun y leads => ?_
    · rw [values_beyond statements (by omega) m (by omega)]
      rfl
    · have shorter : (ahead.filter (· ≠ x)).length < ahead.length :=
        List.length_filter_lt_length_iff_exists.mpr ⟨x, covers x y .refl leads, by simp⟩
      have rest : (ahead.filter (· ≠ x)).length + 2 ≤ fuel := by omega
      refine ih rest (by omega) (fun z w reach further => ?_) fun circles => straight (circles.of_leads leads)
      refine List.mem_filter.mpr ⟨covers z w (.head leads reach) further, ?_⟩
      have other : z ≠ x := by
        rintro rfl
        exact straight ⟨z, .refl, .head' leads reach⟩
      simpa using other

/-! Variables in a circle. Below the depth limit expressions have no values any more, so nothing cuts a scan short. -/

def Hollow (a : Option (List String)) : Prop :=
  ∀ vs, a = some vs → vs = []

theorem hollow_nil : Hollow (some []) := fun _ h => (Option.some.inj h).symm

namespace Hollow

theorem append {a b : Option (List String)} (ha : Hollow a) (hb : Hollow b) :
    Hollow (a.bind fun vs => b.map (vs ++ ·)) := by
  intro ws h
  obtain ⟨us, rfl, h⟩ := Option.bind_eq_some_iff.mp h
  obtain ⟨vs, rfl, rfl⟩ := Option.map_eq_some_iff.mp h
  rw [ha us rfl, hb vs rfl]
  rfl

theorem concat {α : Type} {value : α → Option (List String)} (parts : ∀ a, Hollow (value a)) (as : List α) :
    Hollow (concat value as) := by
  induction as with
  | nil => exact hollow_nil
  | cons a as ih => exact (parts a).append ih

theorem subjectValues {part : Node → Option (List String)} {named : String → Option (List String)}
    (parts : ∀ n, Hollow (part n)) (others : ∀ y, Hollow (named y)) (name : String) (isLone isFirst : Bool)
    (subject : Node) : Hollow (subjectValues part named name isLone isFirst subject) := by
  unfold Guess.subjectValues
  split
  · split
    · exact parts _
    · exact hollow_nil
  · exact concat parts _
  · split
    · exact others _
    · exact hollow_nil
  · exact hollow_nil

theorem loopValues {here : Bool → Option (List String)} (subject : ∀ isFirst, Hollow (here isFirst)) (name : String)
    (isFirst : Bool) (ids : List Ident) : Hollow (loopValues here name isFirst ids) := by
  induction ids generalizing isFirst with
  | nil => exact hollow_nil
  | cons id ids ih =>
    refine append ?_ (ih false)
    split
    · exact subject isFirst
    · exact hollow_nil

theorem sourceValues {part : Node → Option (List String)} {named : String → Option (List String)}
    (parts : ∀ n, Hollow (part n)) (others : ∀ y, Hollow (named y)) (name : String) (m : Node) :
    Hollow (sourceValues part named name m) := by
  unfold Guess.sourceValues
  split
  · split
    · exact parts _
    · exact hollow_nil
  · exact loopValues (fun isFirst => subjectValues parts others name _ isFirst _) name true _
  · exact hollow_nil

end Hollow

def answered (source : Node → Option (List String)) (ms : List Node) (found : List String) : Option (List String) :=
  if ms.all fun m => (source m).isSome then some found else none

theorem answered_bind {source : Node → Option (List String)} {ms ms' : List Node} {found : List String}
    {go : List String → Option (List String)} (rest : go found = answered source ms' found) :
    (answered source ms found).bind go = answered source (ms ++ ms') found := by
  simp only [answered, List.all_append] at *
  cases ms.all fun m => (source m).isSome <;> simp [rest]

theorem answered_cons {source : Node → Option (List String)} {m : Node} {ms : List Node} {found : List String}
    {go : List String → Option (List String)} (hollow : Hollow (source m))
    (rest : go found = answered source ms found) :
    ((source m).bind fun vs => go (found ++ vs)) = answered source (m :: ms) found := by
  cases h : source m with
  | none => simp [answered, h]
  | some vs =>
    rw [hollow vs h, Option.bind_some, List.append_nil, rest]
    simp [answered, h]

theorem unlessFull_eq {go : List String → Option (List String)} {found : List String}
    (room : found.length < valueLimit) : unlessFull go found = go found :=
  if_pos room

mutual
theorem gather_eq {source : Node → Option (List String)} : ∀ (n : Node) {found : List String},
    found.length < valueLimit → (∀ m ∈ spots n, Hollow (source m)) →
      gather source n found = answered source (spots n) found
  | .array _ es, found, room, h | .call _ _ _ es, found, room, h => by
    rw [gather, unlessFull_eq room]
    exact gatherAll_eq es room h
  | .dict _ es, found, room, h => by
    rw [gather, unlessFull_eq room]
    exact gatherEntries_eq es room h
  | .method _ recv _ _ as, found, room, h => by
    rw [spots, List.forall_mem_append] at h
    rw [gather, unlessFull_eq room, gather_eq recv room h.1]
    refine answered_bind ?_
    rw [unlessFull_eq room]
    exact gatherAll_eq as room h.2
  | .keyword _ _ v, found, room, h | .unary _ _ v, found, room, h => by
    rw [gather, unlessFull_eq room]
    exact gather_eq v room h
  | .index _ a b, found, room, h | .binary _ _ a b, found, room, h => by
    rw [spots, List.forall_mem_append] at h
    rw [gather, unlessFull_eq room, gather_eq a room h.1]
    exact answered_bind (gather_eq b room h.2)
  | .ternary _ c y z, found, room, h => by
    rw [spots, List.forall_mem_append, List.forall_mem_append] at h
    rw [gather, unlessFull_eq room, gather_eq c room h.1.1, answered_bind (gather_eq y room h.1.2)]
    exact answered_bind (gather_eq z room h.2)
  | .assign s op t v, found, room, h => by
    rw [spots, List.forall_mem_cons, List.forall_mem_append] at h
    rw [gather]
    refine answered_cons h.1 ?_
    rw [unlessFull_eq room, gather_eq t room h.2.1]
    exact answered_bind (gather_eq v room h.2.2)
  | .select _ bs, found, room, h => by
    rw [gather, unlessFull_eq room]
    exact gatherBranches_eq bs room h
  | .loop s ids subject body, found, room, h => by
    rw [spots, List.forall_mem_cons, List.forall_mem_append] at h
    rw [gather]
    refine answered_cons h.1 ?_
    rw [unlessFull_eq room, gather_eq subject room h.2.1]
    exact answered_bind (gatherAll_eq body room h.2.2)
  | .int .., _, _, _ | .str .., _, _, _ | .bool .., _, _, _ | .ident _, _, _, _ | .breakLoop _, _, _, _
  | .continueLoop _, _, _, _ | .error .., _, _, _ => rfl

theorem gatherAll_eq {source : Node → Option (List String)} : ∀ (ns : List Node) {found : List String},
    found.length < valueLimit → (∀ m ∈ spotsAll ns, Hollow (source m)) →
      gatherAll source ns found = answered source (spotsAll ns) found
  | [], _, _, _ => rfl
  | n :: ns, found, room, h => by
    rw [spotsAll, List.forall_mem_append] at h
    rw [gatherAll, gather_eq n room h.1]
    exact answered_bind (gatherAll_eq ns room h.2)

theorem gatherEntries_eq {source : Node → Option (List String)} : ∀ (es : List Entry) {found : List String},
    found.length < valueLimit → (∀ m ∈ spotsEntries es, Hollow (source m)) →
      gatherEntries source es found = answered source (spotsEntries es) found
  | [], _, _, _ => rfl
  | .mk _ k v :: es, found, room, h => by
    rw [spotsEntries, List.forall_mem_append, List.forall_mem_append] at h
    rw [gatherEntries, unlessFull_eq room, gather_eq k room h.1.1, answered_bind (gather_eq v room h.1.2)]
    exact answered_bind (gatherEntries_eq es room h.2)

theorem gatherBranches_eq {source : Node → Option (List String)} : ∀ (bs : List Branch) {found : List String},
    found.length < valueLimit → (∀ m ∈ spotsBranches bs, Hollow (source m)) →
      gatherBranches source bs found = answered source (spotsBranches bs) found
  | [], _, _, _ => rfl
  | .guarded c body :: bs, found, room, h => by
    rw [spotsBranches, List.forall_mem_append, List.forall_mem_append] at h
    rw [gatherBranches, gather_eq c room h.1.1, answered_bind (gatherAll_eq body room h.1.2)]
    exact answered_bind (gatherBranches_eq bs room h.2)
  | .otherwise body :: bs, found, room, h => by
    rw [spotsBranches, List.forall_mem_append] at h
    rw [gatherBranches, gatherAll_eq body room h.1]
    exact answered_bind (gatherBranches_eq bs room h.2)
end

theorem scan_eq {part : Node → Option (List String)} {named : String → Option (List String)}
    (parts : ∀ n, Hollow (part n)) (others : ∀ y, Hollow (named y)) (x : String) :
    scan part named statements x = answered (sourceValues part named x) (spotsAll statements) [] := by
  rw [scan, gatherAll_eq statements (by decide) fun m _ => .sourceValues parts others x m, answered]
  split <;> rfl

theorem values_hollow {fuel d : Nat} (beyond : depthLimit < d) (n : Node) : Hollow (values statements fuel n d) := by
  cases fuel with
  | zero => exact fun vs h => by simp [values] at h
  | succ fuel =>
    rw [values_beyond statements (by omega) n beyond]
    exact hollow_nil

theorem variableValues_hollow {fuel d : Nat} (limit : depthLimit ≤ d) (x : String) :
    Hollow (variableValues statements fuel x d) := by
  induction fuel generalizing x d with
  | zero => exact fun vs h => by simp [variableValues] at h
  | succ fuel ih =>
    rw [variableValues, scan_eq (values_hollow (by omega)) (ih (by omega)), answered]
    split
    · exact hollow_nil
    · exact fun vs h => by simp at h

theorem variableValues_eq_none {fuel d : Nat} (limit : depthLimit ≤ d) {x : String} (circles : Circles statements x) :
    variableValues statements fuel x d = none := by
  induction fuel generalizing x d with
  | zero => rfl
  | succ fuel ih =>
    obtain ⟨y, ⟨s, id, other, body, member, rfl, rfl, differs⟩, ahead⟩ := circles.next
    rw [variableValues, scan_eq (values_hollow (by omega)) (variableValues_hollow (by omega)), answered, if_neg]
    intro all
    have answer := List.all_eq_true.mp all _ member
    simp [sourceValues, loopValues, subjectValues, differs, ih (show depthLimit ≤ d + 1 by omega) ahead] at answer

/-! All expressions. -/

/-- Whether an expression has an answer with some amount of fuel: whether its evaluation comes to an end. -/
def Ends (statements : List Node) (n : Node) : Prop :=
  ∃ fuel, (values statements fuel n 0).isSome = true

theorem variableValues_isSome_of_straight {fuel d : Nat} (enough : (loopNames statements).length + 2 ≤ fuel)
    (limit : depthLimit ≤ d) {x : String} (straight : ¬ Circles statements x) :
    (variableValues statements fuel x d).isSome = true :=
  variableValues_isSome enough limit (fun _ _ _ leads => mem_loopNames leads) straight

theorem values_stable {fuel : Nat} (enough : fuelFor statements ≤ fuel) (n : Node) :
    Extends (values statements (fuel + 1) n 0) (values statements fuel n 0) := by
  rw [Nat.add_comm fuel 1]
  refine related statements extends_respected ?_ enough n
  intro fuel x d enough limit vs more
  by_cases circles : Circles statements x
  · rw [variableValues_eq_none limit circles] at more
    cases more
  · obtain ⟨us, answer⟩ := Option.isSome_iff_exists.mp (variableValues_isSome_of_straight enough limit circles)
    have same := (extends_succ statements fuel).2 x d us answer
    rw [Nat.add_comm 1 fuel, same] at more
    rw [answer, more]

theorem extends_fuelFor (fuel : Nat) (n : Node) :
    Extends (values statements fuel n 0) (values statements (fuelFor statements) n 0) := by
  rcases Nat.le_total fuel (fuelFor statements) with le | ge
  · exact extends_of_le statements le n 0
  · induction ge with
    | refl => exact fun _ h => h
    | step enough ih => exact fun vs h => ih vs (values_stable enough n vs h)

theorem isSome_of_straight (straight : ∀ x, ¬ Circles statements x) (n : Node) :
    (values statements (fuelFor statements) n 0).isSome = true := by
  refine @related statements _ isSome_respected 0 ?_ _ (Nat.le_refl _) n
  exact fun fuel x d enough limit => variableValues_isSome_of_straight enough limit (straight x)

def nested (x : String) : Nat → Node
  | 0 => .ident ⟨.at .zero, x⟩
  | k + 1 => .array (.at .zero) [nested x k]

theorem values_nested_eq_none {x : String} (circles : Circles statements x) (k : Nat) {fuel d : Nat}
    (limit : d + k = depthLimit) : values statements fuel (nested x k) d = none := by
  induction k generalizing fuel d with
  | zero =>
    cases fuel with
    | zero => rfl
    | succ fuel =>
      rw [values, if_neg (by omega), nested, evaluate]
      exact variableValues_eq_none (by omega) circles
  | succ k ih =>
    cases fuel with
    | zero => rfl
    | succ fuel =>
      rw [values, if_neg (by omega), nested, evaluate, concat, ih (by omega)]
      rfl

end Guess

/-- A guess has an answer exactly if its evaluation ends, and all evaluations end exactly if no variable leads back to
itself through loops. -/
theorem SourceFile.guess_ends_iff (f : SourceFile) :
    (∀ n, (f.guess n).isSome = true ↔ Guess.Ends f.statements n) ∧
      ((∀ n, Guess.Ends f.statements n) ↔ ∀ x, ¬ Relation.TransGen (Guess.Leads f.statements) x x) := by
  refine ⟨fun n => ?_, ?_, ?_⟩
  · rw [SourceFile.guess, Option.isSome_map]
    refine ⟨fun answer => ⟨_, answer⟩, fun ⟨fuel, answer⟩ => ?_⟩
    obtain ⟨vs, h⟩ := Option.isSome_iff_exists.mp answer
    rw [Guess.extends_fuelFor fuel n vs h]
    rfl
  · intro all x circle
    obtain ⟨fuel, answer⟩ := all (Guess.nested x Guess.depthLimit)
    rw [Guess.values_nested_eq_none ⟨x, .refl, circle⟩ Guess.depthLimit (Nat.zero_add _)] at answer
    cases answer
  · intro straight n
    exact ⟨_, Guess.isSome_of_straight (fun x ⟨z, _, circle⟩ => straight z circle) n⟩

namespace Guess

/-- `foreach a : b; endforeach; foreach b : a; endforeach`. -/
def sampleCircle : List Node :=
  [.loop (.at .zero) [⟨.at .zero, "a"⟩] (.ident ⟨.at .zero, "b"⟩) [],
    .loop (.at .zero) [⟨.at .zero, "b"⟩] (.ident ⟨.at .zero, "a"⟩) []]

theorem scan_sampleCircle {part : Node → Option (List String)} {named : String → Option (List String)}
    (a : named "a" = none) (b : named "b" = none) :
    scan part named sampleCircle "a" = none ∧ scan part named sampleCircle "b" = none := by
  simp [scan, sampleCircle, gatherAll, gather, unlessFull, valueLimit, sourceValues, loopValues, subjectValues, a, b]

/-- The two variables take their values from each other, and no depth stops that. -/
theorem circle_never_ends : ¬ Ends sampleCircle (.ident ⟨.at .zero, "a"⟩) := by
  have endless : ∀ fuel d,
      variableValues sampleCircle fuel "a" d = none ∧ variableValues sampleCircle fuel "b" d = none := by
    intro fuel
    induction fuel with
    | zero => exact fun d => ⟨rfl, rfl⟩
    | succ fuel ih =>
      intro d
      rw [variableValues, variableValues]
      exact scan_sampleCircle (ih (d + 1)).1 (ih (d + 1)).2
  rintro ⟨fuel, answer⟩
  cases fuel with
  | zero => cases answer
  | succ fuel =>
    rw [values, if_neg (by decide), evaluate, (endless fuel 0).1] at answer
    cases answer

end Guess

end MesonCheck
