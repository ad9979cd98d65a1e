import MesonCheck.Analysis.Guess
import MesonCheck.Proofs.Text.ByteOrder
import MesonCheck.Proofs.Text.Sorted

/-! The size of guesses. Whatever makes lists of values longer is cut off at the limit: lists, alternatives, products,
formats and scans. Methods that change each text keep the number of texts, so no list that an evaluation returns is
longer than the limit, and the guess itself is such a list sorted and without repetitions. -/
namespace MesonCheck

namespace Guess

def Bounded (a : Option (List String)) : Prop :=
  ∀ vs, a = some vs → vs.length ≤ valueLimit

theorem length_capped (vs : List String) : (capped vs).length ≤ valueLimit :=
  List.length_take_le valueLimit vs

theorem length_product (sep : String) (ls rs : List String) : (product sep ls rs).length ≤ valueLimit :=
  length_capped _

theorem length_fill (i : Nat) (values : List String) {texts : List String} (few : texts.length ≤ valueLimit) :
    (fill i values texts).length ≤ valueLimit := by
  unfold fill
  split
  · exact few
  · exact length_capped _

namespace Bounded

theorem answer {vs : List String} (few : vs.length ≤ valueLimit) : Bounded (some vs) := by
  intro us same
  rwa [← Option.some.inj same]

theorem nothing : Bounded (some []) :=
  answer (Nat.zero_le _)

theorem unanswered : Bounded none := by
  intro vs done
  cases done

theorem bind {a : Option (List String)} {f : List String → Option (List String)}
    (next : ∀ vs, a = some vs → Bounded (f vs)) : Bounded (a.bind f) := by
  intro ws done
  obtain ⟨vs, first, rest⟩ := Option.bind_eq_some_iff.mp done
  exact next vs first ws rest

theorem map {a : Option (List String)} {f : List String → List String} (few : ∀ vs, (f vs).length ≤ valueLimit) :
    Bounded (a.map f) := by
  intro ws done
  obtain ⟨vs, -, rfl⟩ := Option.map_eq_some_iff.mp done
  exact few vs

variable {part : Node → Option (List String)} {named : String → Option (List String)}

theorem joined (parts : ∀ n, Bounded (part n)) (sep : String) {sofar : Option (List String)} (few : Bounded sofar)
    (ns : List Node) : Bounded (joined part sep sofar ns) := by
  induction ns generalizing sofar with
  | nil =>
    rw [Guess.joined]
    cases sofar with
    | none => exact nothing
    | some us => exact few
  | cons n ns ih =>
    rw [Guess.joined]
    refine bind fun vs value => ?_
    split
    · exact nothing
    · cases sofar with
      | none => exact ih (answer (parts n vs value))
      | some us => exact ih (answer (length_product sep us vs))

theorem formatted (i : Nat) (ns : List Node) {texts : List String} (few : texts.length ≤ valueLimit) :
    Bounded (formatted part i ns texts) := by
  induction ns generalizing i texts with
  | nil => exact answer few
  | cons n ns ih =>
    rw [Guess.formatted]
    exact bind fun vs _ => ih (i + 1) (length_fill i vs few)

theorem methodValues (name : String) (args : List Node) {texts : List String} (few : texts.length ≤ valueLimit) :
    Bounded (methodValues part name args texts) := by
  have each (f : String → String) : Bounded (some (texts.map f)) := answer (by simpa using few)
  unfold Guess.methodValues
  split
  · exact each _
  · exact each _
  · exact each _
  · exact each _
  · split
    · exact map length_capped
    · exact nothing
  · exact formatted 0 args few
  · exact nothing

theorem evaluate (parts : ∀ n, Bounded (part n)) (others : ∀ x, Bounded (named x)) (n : Node) :
    Bounded (evaluate part named n) := by
  unfold Guess.evaluate
  split
  · exact answer (Nat.le_of_ble_eq_true rfl)
  · exact map length_capped
  · exact bind fun ys _ => map fun zs => length_capped (ys ++ zs)
  · exact bind fun ls _ => map (length_product "" ls)
  · exact bind fun ls _ => map (length_product "/" ls)
  · exact others _
  · split
    · exact joined parts "/" unanswered _
    · exact nothing
  · exact bind fun texts value => methodValues _ _ (parts _ texts value)
  · exact nothing

theorem scan (statements : List Node) (name : String) : Bounded (scan part named statements name) :=
  map length_capped

end Bounded

theorem variableValues_bounded (statements : List Node) (fuel : Nat) (x : String) (depth : Nat) :
    Bounded (variableValues statements fuel x depth) := by
  cases fuel with
  | zero => exact .unanswered
  | succ fuel => exact .scan statements x

theorem values_bounded (statements : List Node) (fuel : Nat) (n : Node) (depth : Nat) :
    Bounded (values statements fuel n depth) := by
  induction fuel generalizing n depth with
  | zero => exact .unanswered
  | succ fuel ih =>
    rw [values]
    split
    · exact .nothing
    · exact .evaluate (fun m => ih m (depth + 1)) (fun x => variableValues_bounded statements fuel x depth) n

end Guess

open Guess in
/-- A guess is strictly increasing by the bytes of the texts, within the limit, and made of just the values of the
expression. All lists on the way to it are within the limit too: the values of expressions and of variables, the results
of methods, and what is joined and multiplied out, at every depth. -/
theorem SourceFile.guess_bounded (f : SourceFile) :
    (∀ n vs, f.guess n = some vs →
      vs.Pairwise (Text.bytes · < Text.bytes ·) ∧ vs.length ≤ valueLimit ∧
        ∃ us, values f.statements (fuelFor f.statements) n 0 = some us ∧ ∀ v, v ∈ vs ↔ v ∈ us) ∧
      ∀ fuel depth,
        let value := fun m => values f.statements fuel m depth
        (∀ n, Bounded (value n)) ∧ (∀ x, Bounded (variableValues f.statements fuel x depth)) ∧
        (∀ receiver name args, Bounded ((value receiver).bind (methodValues value name args))) ∧
        (∀ sep parts, Bounded (joined value sep none parts)) ∧
        ∀ sep ls rs, (product sep ls rs).length ≤ valueLimit := by
  refine ⟨fun n vs answer => ?_, fun fuel depth => ?_⟩
  · obtain ⟨us, evaluated, rfl⟩ := Option.map_eq_some_iff.mp answer
    have sorted := Text.sortedUnique_sorted us
    have members (v : String) := Text.mem_sortedUnique v us
    refine ⟨sorted.imp Text.bytes_lt_bytes_iff.mpr, ?_, us, evaluated, members⟩
    have fewer := (List.subperm_of_subset (Text.nodup_of_sorted sorted) fun v => (members v).mp).length_le
    exact fewer.trans (values_bounded _ _ n 0 us evaluated)
  · have parts (m : Node) := values_bounded f.statements fuel m depth
    refine ⟨parts, fun x => variableValues_bounded _ _ x depth, fun receiver name args => ?_, fun sep ns => ?_, ?_⟩
    · exact .bind fun texts value => .methodValues name args (parts receiver texts value)
    · exact .joined parts sep .unanswered ns
    · exact length_product

namespace Guess

def sampleDigits : SourceFile :=
  ⟨0, .at .zero, "meson.build", some ⟨.at .zero,
    [.loop (.at .zero) [⟨.at .zero, "x"⟩] (.array (.at .zero) ((List.range 9).map fun n =>
      .str (.at .zero) (toString n) false)) []]⟩⟩

def sampleSum : Node :=
  .binary (.at .zero) (some .plus) (.ident ⟨.at .zero, "x"⟩) (.ident ⟨.at .zero, "x"⟩)

end Guess

open Guess in
/-- There are 81 sums of two of the nine values, of which the guess has as many as the limit allows. -/
theorem SourceFile.guess_bounded_sample :
    ∃ vs, sampleDigits.guess sampleSum = some vs ∧ vs.length = valueLimit ∧
      vs.Pairwise (Text.bytes · < Text.bytes ·) := by
  have full : (sampleDigits.guess sampleSum).any (·.length == valueLimit) = true := by decide +kernel
  obtain ⟨vs, answer, length⟩ := (Option.any_eq_true _ _).mp full
  exact ⟨vs, answer, by simpa using length, ((sampleDigits.guess_bounded).1 sampleSum vs answer).1⟩

end MesonCheck
