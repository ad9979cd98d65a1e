import Mathlib.Data.List.Perm.Basic
import MesonCheck.Proofs.Catalogue.Grammar
import MesonCheck.Proofs.Types.Merge

/-! Types that are printed and read again. The text of a set lists its members in the order of their texts, its normal
form in the order of their ranks, and so at every depth. A text derives some order of the members, and normalising puts
them back. -/
namespace MesonCheck

/-! The names that a catalogue declares. -/

namespace Catalogue

theorem type?_eq (c : Catalogue) (n : String) : c.type? n = (empty.type? n).or (c.types.lookup n) := by
  unfold type?
  split <;> simp [empty]

/-- Types are declared once, as objects of their own names, and no primitive type is declared again. -/
structure DeclaresObjects (types : List (String × Ty)) : Prop where
  objects : ∀ e ∈ types, e.2.kind = .object ∧ e.2.name = e.1
  distinct : (types.map (·.1)).Nodup
  fresh : ∀ e ∈ types, empty.type? e.1 = none

theorem DeclaresObjects.perm {a b : List (String × Ty)} (perm : a.Perm b) (declared : DeclaresObjects a) :
    DeclaresObjects b where
  objects e member := declared.objects e (perm.mem_iff.mpr member)
  distinct := (perm.map _).nodup_iff.mp declared.distinct
  fresh e member := declared.fresh e (perm.mem_iff.mpr member)

theorem DeclaresObjects.type? {c : Catalogue} (declared : DeclaresObjects c.types) {n : String} {t : Ty}
    (member : (n, t) ∈ c.types) : c.type? n = some t := by
  have found : c.types.lookup n = some t := by
    obtain ⟨before, after, types⟩ := List.append_of_mem member
    have distinct := declared.distinct
    rw [types, List.map_append, List.map_cons, List.nodup_middle, List.nodup_cons, List.mem_append] at distinct
    rw [List.lookup_eq_some_iff]
    refine ⟨before, after, types, ?_⟩
    intro e earlier
    have other : n ≠ e.1 := by
      rintro rfl
      exact distinct.1 (.inl (List.mem_map.mpr ⟨e, earlier, rfl⟩))
    simpa using other
  rw [type?_eq, declared.fresh _ member, found]
  rfl

theorem addTypes_declaresObjects {es : List TypeEntry} {c c' : Catalogue} (declared : DeclaresObjects c.types)
    (ok : c.addTypes es = .ok c') : DeclaresObjects c'.types := by
  induction es generalizing c with
  | nil =>
    cases ok
    exact declared
  | cons e es ih =>
    dsimp only [addTypes] at ok
    split at ok
    · cases ok
    · rename_i unknown
      have free : c.type? e.name = none := by simpa using unknown
      rw [type?_eq, Option.or_eq_none_iff, List.lookup_eq_none_iff] at free
      have added (parent : Option Ty) : DeclaresObjects (c.types ++ [(e.name, .object e.name parent)]) := by
        constructor
        · intro d member
          rcases List.mem_append.mp member with old | new
          · exact declared.objects d old
          · cases List.mem_singleton.mp new
            exact ⟨rfl, rfl⟩
        · rw [List.map_append, List.nodup_append]
          refine ⟨declared.distinct, by simp, ?_⟩
          intro n old m new
          obtain ⟨d, member, rfl⟩ := List.mem_map.mp old
          cases List.mem_singleton.mp new
          have other := free.2 d member
          intro same
          simp [same] at other
        · intro d member
          rcases List.mem_append.mp member with old | new
          · exact declared.fresh d old
          · cases List.mem_singleton.mp new
            exact free.1
      split at ok
      · exact ih (added none) ok
      · split at ok
        · exact ih (added _) ok
        · cases ok

theorem Loaded.declaresObjects {c : Catalogue} (loaded : c.Loaded) : DeclaresObjects c.types := by
  rcases loaded with rfl | ⟨text, ok⟩
  · constructor
    · decide +kernel
    · decide +kernel
    · decide +kernel
  · obtain ⟨d, base, assembled⟩ := load_assembled ok
    rw [assembled.types]
    apply DeclaresObjects.perm (Text.sortedOn_perm _).symm
    exact addTypes_declaresObjects ⟨by simp [empty], by simp [empty], by simp [empty]⟩ assembled.declared

end Catalogue

mutual
/-- Types that can be written with the names of a catalogue: all but handles, with objects that are declared. -/
def Ty.BuiltFrom (c : Catalogue) : Ty → Prop
  | .list es => TypeSet.BuiltFrom c es
  | .dict vs => TypeSet.BuiltFrom c vs
  | .object n parent => (n, .object n parent) ∈ c.types
  | .subproject _ => False
  | _ => True

def TypeSet.BuiltFrom (c : Catalogue) : List Ty → Prop
  | [] => True
  | t :: ts => t.BuiltFrom c ∧ TypeSet.BuiltFrom c ts
end

namespace TypeExpr

instance (c : Char) : Decidable (NameChar c) :=
  inferInstanceAs (Decidable (_ ∨ _))

def IsName (n : String) : Prop :=
  n ≠ "" ∧ ∀ c ∈ n.toList, NameChar c

instance (n : String) : Decidable (IsName n) :=
  decidable_of_iff (n ≠ "" ∧ n.toList.all (decide <| NameChar ·) = true) (by simp [IsName])

variable {lookup : String → Option Ty}

/-! Texts of members. -/

theorem texts_eq_map (ts : List Ty) : Ty.texts ts = ts.map Ty.text := by
  induction ts with
  | nil => rfl
  | cons t ts ih => simp [Ty.texts, ih]

theorem joinWith_cons_cons (m n : String) (ns : List String) :
    (Text.joinWith "|" (m :: n :: ns)).toList = m.toList ++ '|' :: (Text.joinWith "|" (n :: ns)).toList := by
  simp [Text.joinWith]

theorem union_joined {ns : List String} {ts : List Ty} (nonempty : ns ≠ [])
    (terms : List.Forall₂ (fun n t => Term lookup n.toList t) ns ts) :
    Union lookup (Text.joinWith "|" ns).toList ts := by
  induction terms with
  | nil => contradiction
  | @cons n t ns ts term rest ih =>
    cases rest with
    | nil => exact .single term
    | @cons m u ms us next others =>
      rw [joinWith_cons_cons]
      exact .more term (ih (by simp))

/-- Members that derive from their texts do so in the order of their texts. -/
theorem sorted_terms {ts : List Ty} (terms : ∀ t ∈ ts, Term lookup t.text.toList t) :
    ∃ us, us.Perm ts ∧ List.Forall₂ (fun n t => Term lookup n.toList t) (Text.sorted (ts.map Ty.text)) us := by
  have sorted : (Text.sorted (ts.map Ty.text)).Perm (ts.map Ty.text) := by
    rw [Text.sorted_eq]
    exact Text.sortedOn_perm _
  have each : List.Forall₂ (fun n t => Term lookup n.toList t) (ts.map Ty.text) ts := by
    rw [List.forall₂_map_left_iff, List.forall₂_same]
    exact terms
  obtain ⟨us, derived, perm⟩ := List.perm_comp_forall₂ sorted each
  exact ⟨us, perm, derived⟩

theorem term_of_name {n : String} {t : Ty} (name : IsName n) (known : lookup n = some t) : Term lookup n.toList t := by
  apply Term.name
  · simpa using name.1
  · exact name.2
  · simpa using known

theorem term_holding (k : Container) {es : TypeSet} (normal : TypeSet.IsNormal es)
    (terms : ∀ t ∈ es, Term lookup t.text.toList t) : Term lookup (k.holding es).text.toList (k.holding es) := by
  obtain ⟨us, perm, derived⟩ := sorted_terms terms
  have inner : Params lookup (Text.joinWith "|" (Text.sorted (es.map Ty.text))).toList us := by
    by_cases empty : Text.sorted (es.map Ty.text) = []
    · rw [empty] at derived ⊢
      cases derived
      exact .none
    · exact .union (union_joined empty derived)
  have whole := Term.container k inner
  rw [TypeSet.normal_eq_of_perm perm normal] at whole
  cases k <;> simpa [Container.holding, Container.word, Ty.text, texts_eq_map] using whole

end TypeExpr

open TypeExpr in
mutual
theorem Ty.term_text {c : Catalogue} (declared : Catalogue.DeclaresObjects c.types)
    (names : ∀ e ∈ c.types, IsName e.1) : ∀ t : Ty, t.IsNormal → t.BuiltFrom c → Term c.type? t.text.toList t
  | .list es, normal, built => term_holding .list normal (TypeSet.terms_text declared names es normal built)
  | .dict vs, normal, built => term_holding .dict normal (TypeSet.terms_text declared names vs normal built)
  | .object n _, _, built => term_of_name (n := n) (names _ built) (declared.type? built)
  | .any, _, _ => term_of_name (n := "any") (by decide) rfl
  | .bool, _, _ => term_of_name (n := "bool") (by decide) rfl
  | .int, _, _ => term_of_name (n := "int") (by decide) rfl
  | .str, _, _ => term_of_name (n := "str") (by decide) rfl
  | .disabler, _, _ => term_of_name (n := "disabler") (by decide) rfl
  | .customIndex, _, _ => term_of_name (n := "custom_idx") (by decide) rfl
  | .subproject _, _, built => built.elim

theorem TypeSet.terms_text {c : Catalogue} (declared : Catalogue.DeclaresObjects c.types)
    (names : ∀ e ∈ c.types, IsName e.1) :
    ∀ ts : List Ty, TypeSet.IsNormal ts → TypeSet.BuiltFrom c ts → ∀ t ∈ ts, Term c.type? t.text.toList t
  | [], _, _ => by simp
  | t :: ts, normal, built => by
    rw [List.forall_mem_cons]
    exact ⟨Ty.term_text declared names t normal.1 built.1, TypeSet.terms_text declared names ts normal.2.2 built.2⟩
end

/-! Whole texts. -/

theorem Text.trimBlank_eq_self {text : String} (first : ∀ c ∈ text.toList.head?, isBlank c = false)
    (last : ∀ c ∈ text.toList.getLast?, isBlank c = false) : trimBlank text = text := by
  have kept {cs : List Char} (start : ∀ c ∈ cs.head?, isBlank c = false) : cs.dropWhile isBlank = cs := by
    cases cs with
    | nil => rfl
    | cons c cs => simp [start c rfl]
  rw [trimBlank, trimChars, kept first, kept (by simpa using last)]
  simp

namespace TypeExpr

theorem not_blank {c : Char} (char : NameChar c ∨ c = ')') : Text.isBlank c = false := by
  have code : c.toNat = 41 ∨ 48 ≤ c.toNat ∧ c.toNat ≤ 122 := by
    rcases char with (h | h | h | rfl) | rfl
    · exact .inr ⟨Nat.le_trans (by decide) h.1, Nat.le_trans h.2 (by decide)⟩
    · exact .inr ⟨Nat.le_trans (by decide) h.1, Nat.le_trans h.2 (by decide)⟩
    · exact .inr ⟨Nat.le_trans (by decide) h.1, Nat.le_trans h.2 (by decide)⟩
    · decide
    · decide
  simp only [Text.isBlank, Bool.or_eq_false_iff, decide_eq_false_iff_not, beq_eq_false_iff_ne]
  omega

theorem Term.last {lookup : String → Option Ty} {cs : List Char} {t : Ty} (derived : Term lookup cs t) :
    ∃ c ∈ cs.getLast?, NameChar c ∨ c = ')' := by
  cases derived with
  | name nonempty chars _ =>
    exact ⟨_, List.getLast?_eq_getLast_of_ne_nil nonempty, .inl (chars _ (List.getLast_mem nonempty))⟩
  | container k _ => exact ⟨')', List.getLast?_concat, .inr rfl⟩

theorem Union.last {lookup : String → Option Ty} : ∀ {cs : List Char} {ts : List Ty}, Union lookup cs ts →
    ∃ c ∈ cs.getLast?, NameChar c ∨ c = ')'
  | _, _, .single term => term.last
  | _, _, .more term rest => by
    obtain ⟨c, last, char⟩ := rest.last
    exact ⟨c, by simp_all [List.getLast?_append, List.getLast?_cons], char⟩

theorem parse_of_union {lookup : String → Option Ty} {text : String} {ts : List Ty}
    (derived : Union lookup text.toList ts) (value : text ≠ "void") : parse lookup text = .ok (TypeSet.normal ts) := by
  have trimmed : Text.trimBlank text = text := by
    apply Text.trimBlank_eq_self
    · obtain ⟨c, cs, chars, char⟩ := derived.head
      simpa [chars] using not_blank (.inl char)
    · obtain ⟨c, last, char⟩ := derived.last
      simpa [Option.mem_def.mp last] using not_blank char
  have nonempty : text ≠ "" := by
    rintro rfl
    obtain ⟨c, cs, chars, _⟩ := derived.head
    simp at chars
  dsimp only [parse]
  rw [trimmed, if_neg (by simp [nonempty, value]), union_eq_ok_iff.mpr derived]
  rfl

theorem text_ne_void {c : Catalogue} (names : ∀ e ∈ c.types, e.1 ≠ "void") {t : Ty} (built : t.BuiltFrom c) :
    t.text ≠ "void" := by
  cases t with
  | object n parent => exact names _ built
  | subproject ns => exact built.elim
  | list es | dict vs =>
    intro same
    have chars := congrArg String.toList same
    simp [Ty.text] at chars
  | _ => decide

theorem join_ne_void {c : Catalogue} (names : ∀ e ∈ c.types, e.1 ≠ "void") {s : TypeSet}
    (built : TypeSet.BuiltFrom c s) : s.join ≠ "void" := by
  match s, built with
  | [], _ => decide
  | [t], built => exact text_ne_void names built.1
  | t :: u :: ts, _ =>
    have bar : '|' ∈ (TypeSet.join (t :: u :: ts)).toList := by
      have two : 2 ≤ (Text.sorted ((t :: u :: ts).map Ty.text)).length := by
        rw [Text.sorted_eq, (Text.sortedOn_perm _).length_eq]
        simp
      rw [TypeSet.join]
      match Text.sorted ((t :: u :: ts).map Ty.text), two with
      | m :: n :: ns, _ => simp [joinWith_cons_cons]
    intro same
    rw [same] at bar
    revert bar
    decide

/-- A normal set without handles is read again from its own text, however deep its lists and dicts are. -/
theorem parse_join {c : Catalogue} (loaded : c.Loaded) (names : ∀ e ∈ c.types, IsName e.1 ∧ e.1 ≠ "void")
    {s : TypeSet} (normal : TypeSet.IsNormal s) (built : TypeSet.BuiltFrom c s) :
    parse c.type? s.join = .ok s := by
  have terms := TypeSet.terms_text loaded.declaresObjects (fun e member => (names e member).1) s normal built
  obtain ⟨us, perm, derived⟩ := sorted_terms terms
  by_cases empty : Text.sorted (s.map Ty.text) = []
  · rw [empty] at derived
    cases derived
    cases perm.nil_eq
    rfl
  · have union := union_joined empty derived
    have read := parse_of_union union (join_ne_void (fun e member => (names e member).2) built)
    rwa [TypeSet.normal_eq_of_perm perm normal] at read

/-- The list stands before the text and the target, but its text between theirs. -/
theorem parse_join_nested :
    TypeSet.join [.list [.list [], .dict [.int, Builtin.executable], .any], .str, Builtin.customTarget] =
        "custom_tgt|list(any|dict(exe|int)|list())|str" ∧
      parse Catalogue.builtin.type? "custom_tgt|list(any|dict(exe|int)|list())|str" =
        .ok [.list [.list [], .dict [.int, Builtin.executable], .any], .str, Builtin.customTarget] := by
  have text : TypeSet.join [.list [.list [], .dict [.int, Builtin.executable], .any], .str, Builtin.customTarget] =
      "custom_tgt|list(any|dict(exe|int)|list())|str" := by decide +kernel
  refine ⟨text, ?_⟩
  rw [← text]
  apply parse_join (.inl rfl)
  · decide +kernel
  · decide +kernel
  · simp [TypeSet.BuiltFrom, Ty.BuiltFrom, Catalogue.builtin, Builtin.types, Builtin.executable, Builtin.customTarget]

end TypeExpr

end MesonCheck
