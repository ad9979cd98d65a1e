/-! The text of a floating-point number: the fewest decimal digits that read back as the same number, without
exponent. -/
namespace MesonCheck.Text

structure Binary where
  mantissa : Nat
  exponent : Int
  /-- The next number below is only half as far away as the next one above. -/
  narrowBelow : Bool

def Binary.ofBits (bits : UInt64) : Binary :=
  let e := ((bits >>> 52) &&& 0x7FF).toNat
  let f := (bits &&& 0xFFFFFFFFFFFFF).toNat
  if e = 0 then ⟨f, -1074, false⟩ else ⟨4503599627370496 + f, (e : Int) - 1075, f == 0 && e > 1⟩

def compareScaled (a : Nat) (i : Int) (b : Nat) (j : Int) : Ordering :=
  compare (a * Nat.pow 10 i.toNat * Nat.pow 2 (-j).toNat) (b * Nat.pow 2 j.toNat * Nat.pow 10 (-i).toNat)

namespace Binary

/-- Whether `digits * 10 ^ exp` is rounded to this number: it lies nearer to it than to its neighbours, or in the middle
when the mantissa is even. -/
def readsBack (x : Binary) (digits : Nat) (exp : Int) : Bool :=
  let low := compareScaled digits exp (4 * x.mantissa - (if x.narrowBelow then 1 else 2)) (x.exponent - 2)
  let high := compareScaled digits exp (4 * x.mantissa + 2) (x.exponent - 2)
  let even := x.mantissa % 2 == 0
  (low == .gt || even && low == .eq) && (high == .lt || even && high == .eq)

def floor (x : Binary) (exp : Int) : Nat :=
  x.mantissa * Nat.pow 2 x.exponent.toNat * Nat.pow 10 (-exp).toNat /
    (Nat.pow 10 exp.toNat * Nat.pow 2 (-x.exponent).toNat)

/-- The multiple of `10 ^ exp` that stands for the number, if there is one: the nearer one when both neighbours do, the
even one when they are equally near. -/
def onGrid? (x : Binary) (exp : Int) : Option Nat :=
  let n := x.floor exp
  match x.readsBack n exp, x.readsBack (n + 1) exp with
  | false, false => none
  | true, false => some n
  | false, true => some (n + 1)
  | true, true =>
    match compareScaled (2 * n + 1) exp (2 * x.mantissa) x.exponent with
    | .lt => some (n + 1)
    | .gt => some n
    | .eq => some (if n % 2 = 0 then n else n + 1)

def search (x : Binary) : Nat → Int → Option (Nat × Int)
  | 0, _ => none
  | fuel + 1, exp =>
    match x.onGrid? exp with
    | some n => some (n, exp)
    | none => search x fuel (exp - 1)

def exact (x : Binary) : Nat × Int :=
  if 0 ≤ x.exponent then (x.mantissa * Nat.pow 2 x.exponent.toNat, 0)
  else (x.mantissa * Nat.pow 5 (-x.exponent).toNat, x.exponent)

/-- Digits and power of ten. The search starts above the first digit, and seventeen digits are always enough. -/
def shortest (x : Binary) : Nat × Int :=
  let top := (Nat.log2 x.mantissa + 1 + x.exponent) * 30103 / 100000 + 1
  (x.search 24 top).getD x.exact

end Binary

def positional (digits : Nat) (exp : Int) : String :=
  let ds := Nat.toDigits 10 digits
  if 0 ≤ exp then String.ofList (ds ++ List.replicate exp.toNat '0')
  else
    let places := exp.natAbs
    let ds := List.replicate (places + 1 - ds.length) '0' ++ ds
    String.ofList (ds.take (ds.length - places) ++ '.' :: ds.drop (ds.length - places))

def floatText (x : Float) : String :=
  let bits := x.toBits
  let sign := if bits >>> 63 = 0 then "" else "-"
  if x.isNaN then "NaN"
  else if x.isInf then (if sign = "" then "+" else sign) ++ "Inf"
  else if x == 0.0 then sign ++ "0"
  else
    let d := (Binary.ofBits bits).shortest
    sign ++ positional d.1 d.2

end MesonCheck.Text
