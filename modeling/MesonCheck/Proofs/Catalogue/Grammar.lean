import Mathlib.Data.List.TakeWhile
import MesonCheck.Proofs.Catalogue.Normal

/-! The grammar of type expressions. What a text derives is stated without a reader: a text is put together from the
texts of its parts, and its members from theirs. The reader accepts exactly the texts that have a derivation. -/
namespace MesonCheck

structure Text.Trimmed (text core : String) : Prop where
  around : ∃ left right, text.toList = left ++ core.toList ++ right ∧ ∀ c ∈ left ++ right, isBlank c = true
  first : ∀ c ∈ core.toList.head?, isBlank c = false
  last : ∀ c ∈ core.toList.getLast?, isBlank c = false

namespace Text

theorem not_of_mem_head?_dropWhile {p : Char → Bool} {cs : List Char} {c : Char}
    (first : c ∈ (cs.dropWhile p).head?) : p c = false := by
  have stop := List.head?_dropWhile_not p cs
  rw [Option.mem_def.mp first] at stop
  exact stop

theorem trimBlank_trimmed (text : String) : Trimmed text (trimBlank text) := by
  let tail := text.toList.dropWhile isBlank
  let right := (tail.reverse.takeWhile isBlank).reverse
  have core : (trimBlank text).toList = (tail.reverse.dropWhile isBlank).reverse := by
    simp [trimBlank, trimChars, tail]
  have ends : tail = (trimBlank text).toList ++ right := by
    rw [core, ← List.reverse_append, List.takeWhile_append_dropWhile, List.reverse_reverse]
  constructor
  · refine ⟨text.toList.takeWhile isBlank, right, ?_, ?_⟩
    · rw [List.append_assoc, ← ends, List.takeWhile_append_dropWhile]
    · intro c member
      rcases List.mem_append.mp member with before | behind
      · exact List.mem_takeWhile_imp before
      · exact List.mem_takeWhile_imp (List.mem_reverse.mp behind)
  · intro c first
    have start : c ∈ tail.head? := by
      rw [ends]
      simpa [List.head?_append] using .inl first
    exact not_of_mem_head?_dropWhile start
  · intro c last
    rw [core, List.getLast?_reverse] at last
    exact not_of_mem_head?_dropWhile last

end Text

namespace TypeExpr

def NameChar (c : Char) : Prop :=
  ('A' ≤ c ∧ c ≤ 'Z') ∨ ('a' ≤ c ∧ c ≤ 'z') ∨ ('0' ≤ c ∧ c ≤ '9') ∨ c = '_'

inductive Container where
  | list
  | dict

namespace Container

def word : Container → List Char
  | list => ['l', 'i', 's', 't']
  | dict => ['d', 'i', 'c', 't']

def holding : Container → TypeSet → Ty
  | list => .list
  | dict => .dict

end Container

mutual
/-- The texts of single types. A name has to be known; parameters are normalised. -/
inductive Term (lookup : String → Option Ty) : List Char → Ty → Prop
  | name {cs : List Char} {t : Ty} (nonempty : cs ≠ []) (chars : ∀ c ∈ cs, NameChar c)
      (known : lookup (String.ofList cs) = some t) : Term lookup cs t
  | container (k : Container) {cs : List Char} {ts : List Ty} (inner : Params lookup cs ts) :
      Term lookup (k.word ++ '(' :: cs ++ [')']) (k.holding (TypeSet.normal ts))

inductive Params (lookup : String → Option Ty) : List Char → List Ty → Prop
  | none : Params lookup [] []
  | union {cs : List Char} {ts : List Ty} (inner : Union lookup cs ts) : Params lookup cs ts

inductive Union (lookup : String → Option Ty) : List Char → List Ty → Prop
  | single {cs : List Char} {t : Ty} (term : Term lookup cs t) : Union lookup cs [t]
  | more {cs ds : List Char} {t : Ty} {ts : List Ty} (term : Term lookup cs t) (rest : Union lookup ds ts) :
      Union lookup (cs ++ '|' :: ds) (t :: ts)
end

variable {lookup : String → Option Ty} {size : Nat} {read : List Char → Except Fault (List Ty × List Char)}

theorem isNameChar_iff (c : Char) : isNameChar c = true ↔ NameChar c := by
  delta isNameChar NameChar Char.isAlphanum Char.isAlpha Char.isUpper Char.isLower Char.isDigit
  simp only [Char.le_def, Bool.or_eq_true, Bool.and_eq_true, decide_eq_true_eq, ge_iff_le]
  tauto

/-! One step of the reader: all it can accept, and that it accepts it. -/

theorem params_cases {cs rest : List Char} {ts : List Ty} (ok : params read cs = .ok (ts, rest)) :
    ts = [] ∧ cs = rest ∨ read cs = .ok (ts, rest) := by
  unfold params at ok
  split at ok
  · cases ok
    exact .inl ⟨rfl, rfl⟩
  · cases ok
    exact .inl ⟨rfl, rfl⟩
  · exact .inr ok

theorem word_of_name {name : List Char} (allowed : ¬ (String.ofList name ≠ "list" ∧ String.ofList name ≠ "dict"))
    (ts : List Ty) : ∃ k : Container, name = k.word ∧
      (if String.ofList name = "list" then Ty.listOf ts else Ty.dictOf ts) = k.holding (TypeSet.normal ts) := by
  by_cases list : String.ofList name = "list"
  · refine ⟨.list, ?_, by rw [if_pos list]; rfl⟩
    simpa [Container.word] using congrArg String.toList list
  · have dict : String.ofList name = "dict" := by
      by_contra other
      exact allowed ⟨list, other⟩
    refine ⟨.dict, ?_, by rw [if_neg list]; rfl⟩
    simpa [Container.word] using congrArg String.toList dict

theorem term_cases {cs rest : List Char} {t : Ty} (ok : term lookup size read cs = .ok (t, rest)) :
    (∃ name, cs = name ++ rest ∧ name ≠ [] ∧ (∀ c ∈ name, NameChar c) ∧ lookup (String.ofList name) = some t) ∨
    ∃ (k : Container) (inner : List Char) (ts : List Ty), cs = k.word ++ '(' :: inner ∧
      params read inner = .ok (ts, ')' :: rest) ∧ t = k.holding (TypeSet.normal ts) := by
  have parts := (List.takeWhile_append_dropWhile (p := isNameChar) (l := cs)).symm
  have chars : ∀ c ∈ cs.takeWhile isNameChar, NameChar c := by
    intro c member
    exact (isNameChar_iff c).mp (List.mem_takeWhile_imp member)
  dsimp only [term] at ok
  split at ok
  · cases ok
  · rename_i named
    split at ok
    · rename_i inner after
      split at ok
      · cases ok
      · rename_i allowed
        obtain ⟨⟨ts, behind⟩, inside, ok⟩ := bind_eq_ok ok
        dsimp only at ok
        split at ok
        · obtain ⟨k, word, type⟩ := word_of_name allowed ts
          rw [type] at ok
          cases ok
          rw [word, after] at parts
          exact .inr ⟨k, inner, ts, parts, inside, rfl⟩
        · cases ok
    · split at ok
      · rename_i known
        cases ok
        apply Or.inl
        refine ⟨_, parts, ?_, chars, known⟩
        intro empty
        simp [empty] at named
      · cases ok

/-! What the reader accepts has a derivation. -/

def Derives (lookup : String → Option Ty) (read : List Char → Except Fault (List Ty × List Char)) : Prop :=
  ∀ cs ts rest, read cs = .ok (ts, rest) → ∃ used, cs = used ++ rest ∧ Union lookup used ts

theorem params_derives (derives : Derives lookup read) {cs rest : List Char} {ts : List Ty}
    (ok : params read cs = .ok (ts, rest)) : ∃ used, cs = used ++ rest ∧ Params lookup used ts := by
  rcases params_cases ok with ⟨rfl, rfl⟩ | ok
  · exact ⟨[], rfl, .none⟩
  · obtain ⟨used, parts, inner⟩ := derives cs ts rest ok
    exact ⟨used, parts, .union inner⟩

theorem term_derives (derives : Derives lookup read) {cs rest : List Char} {t : Ty}
    (ok : term lookup size read cs = .ok (t, rest)) : ∃ used, cs = used ++ rest ∧ Term lookup used t := by
  rcases term_cases ok with ⟨name, parts, nonempty, chars, known⟩ | ⟨k, inner, ts, parts, inside, rfl⟩
  · exact ⟨name, parts, .name nonempty chars known⟩
  · obtain ⟨used, within, params⟩ := params_derives derives inside
    exact ⟨k.word ++ '(' :: used ++ [')'], by simp [parts, within], .container k params⟩

theorem union_derives (fuel : Nat) : Derives lookup (union lookup size fuel) := by
  induction fuel with
  | zero =>
    intro cs ts rest ok
    cases ok
  | succ fuel ih =>
    intro cs ts rest ok
    rw [union] at ok
    obtain ⟨⟨t, behind⟩, first, ok⟩ := bind_eq_ok ok
    obtain ⟨used, parts, term⟩ := term_derives ih first
    dsimp only at ok
    split at ok
    · obtain ⟨⟨us, last⟩, others, ok⟩ := bind_eq_ok ok
      cases ok
      obtain ⟨later, within, tail⟩ := ih _ _ _ others
      exact ⟨used ++ '|' :: later, by simp [parts, within], .more term tail⟩
    · cases ok
      exact ⟨used, parts, .single term⟩

/-! What has a derivation is accepted, where the text that follows cannot belong to it. -/

def Follows (stops : List Char) (rest : List Char) : Prop :=
  ∀ c ∈ rest.head?, c ∈ stops

theorem follows_nil (stops : List Char) : Follows stops [] := by
  simp [Follows]

theorem follows_cons {stops : List Char} {c : Char} (stop : c ∈ stops) (rest : List Char) :
    Follows stops (c :: rest) := by
  simpa [Follows] using stop

theorem span_name {name rest : List Char} (chars : ∀ c ∈ name, isNameChar c = true)
    (stop : ∀ c ∈ rest.head?, isNameChar c = false) :
    (name ++ rest).takeWhile isNameChar = name ∧ (name ++ rest).dropWhile isNameChar = rest := by
  rw [List.takeWhile_append_of_pos chars, List.dropWhile_append_of_pos chars]
  cases rest with
  | nil => simp
  | cons c cs =>
    have other : isNameChar c = false := stop c rfl
    simp [other]

theorem term_name {name rest : List Char} {t : Ty} (nonempty : name ≠ []) (chars : ∀ c ∈ name, NameChar c)
    (known : lookup (String.ofList name) = some t) (follows : Follows ['|', ')'] rest) :
    term lookup size read (name ++ rest) = .ok (t, rest) := by
  have stop : ∀ c ∈ rest.head?, isNameChar c = false := by
    intro c member
    have either : c = '|' ∨ c = ')' := by simpa using follows c member
    rcases either with rfl | rfl <;> decide
  obtain ⟨word, after⟩ := span_name (fun c member => (isNameChar_iff c).mpr (chars c member)) stop
  have named : String.ofList name ≠ "" := by simpa using nonempty
  dsimp only [term]
  rw [word, after, if_neg named]
  split
  · have bracket := follows '(' rfl
    simp at bracket
  · rw [known]
    rfl

theorem term_container (k : Container) {inner rest : List Char} {ts : List Ty}
    (inside : params read inner = .ok (ts, ')' :: rest)) :
    term lookup size read (k.word ++ '(' :: inner) = .ok (k.holding (TypeSet.normal ts), rest) := by
  have bracket : ∀ c ∈ ('(' :: inner).head?, isNameChar c = false := by
    intro c member
    cases member
    decide
  have chars : k.word.all isNameChar = true := by cases k <;> rfl
  obtain ⟨word, after⟩ := span_name (List.all_eq_true.mp chars) bracket
  have named : String.ofList k.word ≠ "" := by cases k <;> decide
  have allowed : ¬ (String.ofList k.word ≠ "list" ∧ String.ofList k.word ≠ "dict") := by cases k <;> decide
  have type :
      (if String.ofList k.word = "list" then Ty.listOf ts else Ty.dictOf ts) = k.holding (TypeSet.normal ts) := by
    cases k <;> rfl
  dsimp only [term]
  rw [word, after, if_neg named, ← type]
  simp only [if_neg allowed, inside]
  rfl

theorem Term.head {cs : List Char} {t : Ty} (derived : Term lookup cs t) : ∃ c ds, cs = c :: ds ∧ NameChar c := by
  cases derived with
  | name nonempty chars _ =>
    obtain ⟨c, ds, rfl⟩ := List.exists_cons_of_ne_nil nonempty
    exact ⟨c, ds, rfl, chars c List.mem_cons_self⟩
  | container k _ =>
    cases k
    · exact ⟨'l', _, rfl, by simp [NameChar]⟩
    · exact ⟨'d', _, rfl, by simp [NameChar]⟩

theorem Union.head {cs : List Char} {ts : List Ty} (derived : Union lookup cs ts) :
    ∃ c ds, cs = c :: ds ∧ NameChar c := by
  cases derived with
  | single term => exact term.head
  | more term _ =>
    obtain ⟨c, ds, rfl, char⟩ := term.head
    exact ⟨c, _, rfl, char⟩

theorem params_union {c : Char} (char : NameChar c) (cs : List Char) : params read (c :: cs) = read (c :: cs) := by
  unfold params
  split
  · rename_i empty
    cases empty
  · rename_i bracket
    cases bracket
    simp [NameChar] at char
  · rfl

theorem union_last {fuel : Nat} {cs rest : List Char} {t : Ty}
    (first : term lookup size (union lookup size fuel) cs = .ok (t, rest)) (follows : Follows [')'] rest) :
    union lookup size (fuel + 1) cs = .ok ([t], rest) := by
  rw [union, first]
  cases rest with
  | nil => rfl
  | cons c cs =>
    have bracket : c = ')' := by simpa using follows c rfl
    subst bracket
    rfl

theorem union_bar {fuel : Nat} {cs ds rest : List Char} {t : Ty} {ts : List Ty}
    (first : term lookup size (union lookup size fuel) cs = .ok (t, '|' :: ds))
    (others : union lookup size fuel ds = .ok (ts, rest)) :
    union lookup size (fuel + 1) cs = .ok (t :: ts, rest) := by
  rw [union, first]
  change (union lookup size fuel ds >>= _) = _
  rw [others]
  rfl

def Accepts (lookup : String → Option Ty) (read : List Char → Except Fault (List Ty × List Char)) (n : Nat) : Prop :=
  ∀ cs ts rest, Union lookup cs ts → Follows [')'] rest → cs.length < n → read (cs ++ rest) = .ok (ts, rest)

theorem params_accepts {n : Nat} (accepts : Accepts lookup read n) {cs : List Char} {ts : List Ty}
    (derived : Params lookup cs ts) (enough : cs.length < n) (rest : List Char) :
    params read (cs ++ ')' :: rest) = .ok (ts, ')' :: rest) := by
  cases derived with
  | none => rfl
  | union inner =>
    obtain ⟨c, ds, rfl, char⟩ := inner.head
    rw [List.cons_append, params_union char]
    apply accepts _ _ _ inner
    · exact follows_cons (by simp) rest
    · exact enough

theorem term_accepts {n : Nat} (accepts : Accepts lookup read n) {cs rest : List Char} {t : Ty}
    (derived : Term lookup cs t) (follows : Follows ['|', ')'] rest) (enough : cs.length ≤ n) :
    term lookup size read (cs ++ rest) = .ok (t, rest) := by
  cases derived with
  | name nonempty chars known => exact term_name nonempty chars known follows
  | @container k ds ts inner =>
    have inside : params read (ds ++ ')' :: rest) = .ok (ts, ')' :: rest) := by
      apply params_accepts accepts inner
      simp only [List.length_append, List.length_cons, List.length_nil] at enough
      omega
    have whole : term lookup size read (k.word ++ '(' :: (ds ++ ')' :: rest)) = _ := term_container k inside
    simpa using whole

-- The union inside the brackets of a term is shorter than the term, and so is what follows a bar than the union it
-- stands in: one step of fuel for each character is enough.
theorem union_accepts (fuel : Nat) : Accepts lookup (union lookup size fuel) fuel := by
  induction fuel with
  | zero =>
    intro cs ts rest derived follows enough
    omega
  | succ fuel ih =>
    intro cs ts rest derived follows enough
    cases derived with
    | single term =>
      apply union_last _ follows
      apply term_accepts ih term
      · intro c member
        exact List.mem_cons_of_mem _ (follows c member)
      · omega
    | @more ds es t us term tail =>
      have lengths : ds.length + (es.length + 1) < fuel + 1 := by simpa using enough
      have first : TypeExpr.term lookup size (union lookup size fuel) (ds ++ '|' :: (es ++ rest)) =
          .ok (t, '|' :: (es ++ rest)) := by
        apply term_accepts ih term
        · exact follows_cons (by simp) (es ++ rest)
        · omega
      have others : union lookup size fuel (es ++ rest) = .ok (us, rest) := by
        apply ih _ _ _ tail follows
        omega
      simpa using union_bar first others

theorem union_eq_ok_iff {cs : List Char} {ts : List Ty} :
    union lookup size (cs.length + 1) cs = .ok (ts, []) ↔ Union lookup cs ts := by
  constructor
  · intro ok
    obtain ⟨used, whole, derived⟩ := union_derives _ _ _ _ ok
    rw [whole, List.append_nil]
    exact derived
  · intro derived
    have read : union lookup size (cs.length + 1) (cs ++ []) = .ok (ts, []) :=
      union_accepts _ _ _ _ derived (follows_nil _) (Nat.lt_succ_self _)
    rwa [List.append_nil] at read

/-- A text that is empty or `void` but for blanks stands for no type. Every other text is accepted exactly when it
derives from the grammar, and stands for the normal form of what it derives. -/
theorem parse_eq_ok_iff (lookup : String → Option Ty) (text : String) :
    ∃ core, Text.Trimmed text core ∧ ∀ s, parse lookup text = .ok s ↔
      (core = "" ∨ core = "void") ∧ s = [] ∨
      ¬ (core = "" ∨ core = "void") ∧ ∃ ts, Union lookup core.toList ts ∧ s = TypeSet.normal ts := by
  refine ⟨Text.trimBlank text, Text.trimBlank_trimmed text, ?_⟩
  intro s
  dsimp only [parse]
  by_cases void : Text.trimBlank text = "" ∨ Text.trimBlank text = "void"
  · rw [if_pos void]
    constructor
    · intro ok
      cases ok
      exact .inl ⟨void, rfl⟩
    · rintro (⟨_, rfl⟩ | ⟨other, _⟩)
      · rfl
      · exact absurd void other
  · rw [if_neg void]
    constructor
    · intro ok
      obtain ⟨⟨ts, rest⟩, read, ok⟩ := bind_eq_ok ok
      cases rest with
      | nil =>
        cases ok
        exact .inr ⟨void, ts, union_eq_ok_iff.mp read, rfl⟩
      | cons c cs => cases ok
    · rintro (⟨other, _⟩ | ⟨_, ts, derived, rfl⟩)
      · exact absurd other void
      · rw [union_eq_ok_iff.mpr derived]
        rfl

end TypeExpr

end MesonCheck
