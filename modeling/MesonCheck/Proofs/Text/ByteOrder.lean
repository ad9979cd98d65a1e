import Mathlib.Data.String.Basic

/-! The order of encoded texts. A text is encoded character by character, and the first byte of a character tells how
many others follow, so comparing the bytes of two texts gives the same as comparing their characters. -/
namespace MesonCheck.Text

def bytes (s : String) : List UInt8 :=
  s.toUTF8.data.toList

theorem bytes_eq_flatMap (s : String) : bytes s = s.toList.flatMap String.utf8EncodeChar := by
  have encoded : s.toByteArray = s.toList.utf8Encode := by
    rw [← String.toByteArray_ofList, String.ofList_toList]
  rw [bytes, String.toUTF8_eq_toByteArray, encoded, List.utf8Encode]
  simp

/-! The bytes of a character. -/

def width (v : Nat) : Nat :=
  if v ≤ 127 then 0 else if v ≤ 2047 then 1 else if v ≤ 65535 then 2 else 3

def lead : Nat → Nat
  | 0 => 0
  | 1 => 192
  | 2 => 224
  | _ => 240

/-- The bytes that follow the first one, each with six bits of the number. -/
def trailing (v : Nat) : Nat → List UInt8
  | 0 => []
  | k + 1 => UInt8.ofNat (v / 64 ^ k % 64 + 128) :: trailing v k

theorem toNat_lt (c : Char) : c.toNat < 1114112 := by
  rcases c.valid with low | high
  · exact Nat.lt_trans low (by decide)
  · exact high.2

theorem encode_eq (c : Char) :
    String.utf8EncodeChar c =
      UInt8.ofNat (c.toNat / 64 ^ width c.toNat + lead (width c.toNat)) :: trailing c.toNat (width c.toNat) := by
  have number : c.val.toNat = c.toNat := rfl
  have bound := toNat_lt c
  by_cases one : c.toNat ≤ 127
  · simp [String.utf8EncodeChar, number, width, one, lead, trailing]
  · by_cases two : c.toNat ≤ 2047
    · have fits : c.toNat / 64 % 32 = c.toNat / 64 := Nat.mod_eq_of_lt (by omega)
      simp [String.utf8EncodeChar, number, width, one, two, fits, lead, trailing]
    · by_cases three : c.toNat ≤ 65535
      · have fits : c.toNat / 4096 % 16 = c.toNat / 4096 := Nat.mod_eq_of_lt (by omega)
        simp [String.utf8EncodeChar, number, width, one, two, three, fits, lead, trailing]
      · have fits : c.toNat / 262144 % 8 = c.toNat / 262144 := Nat.mod_eq_of_lt (by omega)
        simp [String.utf8EncodeChar, number, width, one, two, three, fits, lead, trailing]

theorem ofNat_lt {a b : Nat} (less : a < b) (small : b < 256) : UInt8.ofNat a < UInt8.ofNat b := by
  rw [UInt8.lt_iff_toNat_lt, UInt8.toNat_ofNat_of_lt' (less.trans small), UInt8.toNat_ofNat_of_lt' small]
  exact less

theorem trailing_lt {v w : Nat} (k : Nat) (less : v % 64 ^ k < w % 64 ^ k) (rest rest' : List UInt8) :
    trailing v k ++ rest < trailing w k ++ rest' := by
  induction k with
  | zero => omega
  | succ k ih =>
    have digits (n : Nat) : n % 64 ^ (k + 1) = n % 64 ^ k + 64 ^ k * (n / 64 ^ k % 64) := by
      rw [Nat.pow_succ, Nat.mod_mul]
    have below : w % 64 ^ k < 64 ^ k := Nat.mod_lt _ (Nat.pow_pos (by decide))
    rw [digits, digits] at less
    rw [trailing, trailing, List.cons_append, List.cons_append, List.cons_lt_cons_iff]
    rcases Nat.lt_trichotomy (v / 64 ^ k % 64) (w / 64 ^ k % 64) with smaller | same | larger
    · exact .inl (ofNat_lt (by omega) (by omega))
    · rw [same] at less ⊢
      exact .inr ⟨rfl, ih (by omega)⟩
    · have more : 64 ^ k * (w / 64 ^ k % 64 + 1) ≤ 64 ^ k * (v / 64 ^ k % 64) := Nat.mul_le_mul_left _ larger
      rw [Nat.mul_succ] at more
      omega

/-! The first byte of a character with more bytes is larger. -/

theorem lead_mono : Monotone lead := by
  refine monotone_nat_of_le_succ fun k => ?_
  match k with
  | 0 | 1 | 2 | _ + 3 => simp [lead]

theorem first_lt_lead {v : Nat} (narrow : width v < 3) : v / 64 ^ width v + lead (width v) < lead (width v + 1) := by
  unfold width at *
  split_ifs at * <;> simp only [lead, Nat.reduceAdd] <;> omega

theorem first_lt_first {v w : Nat} (wider : width v < width w) :
    v / 64 ^ width v + lead (width v) < w / 64 ^ width w + lead (width w) := by
  have most : width w ≤ 3 := by
    unfold width
    split_ifs <;> omega
  calc v / 64 ^ width v + lead (width v)
    _ < lead (width v + 1) := first_lt_lead (by omega)
    _ ≤ lead (width w) := lead_mono wider
    _ ≤ w / 64 ^ width w + lead (width w) := Nat.le_add_left _ _

theorem width_mono {v w : Nat} (le : v ≤ w) : width v ≤ width w := by
  unfold width
  split_ifs <;> omega

theorem first_lt_256 (c : Char) : c.toNat / 64 ^ width c.toNat + lead (width c.toNat) < 256 := by
  have bound := toNat_lt c
  unfold width
  split_ifs <;> simp only [lead] <;> omega

theorem encode_lt {c d : Char} (less : c < d) (rest rest' : List UInt8) :
    String.utf8EncodeChar c ++ rest < String.utf8EncodeChar d ++ rest' := by
  have less : c.toNat < d.toNat := less
  rw [encode_eq, encode_eq, List.cons_append, List.cons_append, List.cons_lt_cons_iff]
  rcases (width_mono less.le).lt_or_eq with wider | same
  · exact .inl (ofNat_lt (first_lt_first wider) (first_lt_256 d))
  · rw [same]
    rcases (Nat.div_le_div_right less.le : c.toNat / 64 ^ width d.toNat ≤ _).lt_or_eq with smaller | equal
    · exact .inl (ofNat_lt (Nat.add_lt_add_right smaller _) (first_lt_256 d))
    · rw [equal]
      refine .inr ⟨rfl, trailing_lt _ ?_ rest rest'⟩
      have left := Nat.div_add_mod c.toNat (64 ^ width d.toNat)
      have right := Nat.div_add_mod d.toNat (64 ^ width d.toNat)
      rw [equal] at left
      omega

/-! Texts. -/

theorem flatMap_encode_lt {cs ds : List Char} (less : cs < ds) :
    cs.flatMap String.utf8EncodeChar < ds.flatMap String.utf8EncodeChar := by
  induction less with
  | nil =>
    rw [List.flatMap_cons, encode_eq]
    exact .nil
  | rel less => exact encode_lt less _ _
  | cons _ ih => exact List.append_left_lt ih

theorem bytes_lt_bytes_iff {s t : String} : bytes s < bytes t ↔ s < t := by
  have up {s t : String} (less : s < t) : bytes s < bytes t := by
    rw [bytes_eq_flatMap, bytes_eq_flatMap]
    exact flatMap_encode_lt (String.lt_iff_toList_lt.mp less)
  refine ⟨fun less => ?_, up⟩
  rcases lt_trichotomy s t with before | rfl | behind
  · exact before
  · exact absurd less (List.lt_irrefl _)
  · exact absurd less (List.lt_asymm (up behind))

end MesonCheck.Text
