import MesonCheck.Text.Digits
import MesonCheck.Word

/-! Lengths of time, to the nanosecond, and their texts: numbers with units, such as `1h30m` or `250ms`. -/
namespace MesonCheck

structure Duration where
  nanos : Int
deriving DecidableEq

namespace Duration

def second : Nat := 1000000000

def millisecond : Nat := 1000000

def microsecond : Nat := 1000

def unit? (name : String) : Option Nat :=
  match name with
  | "ns" => some 1
  | "us" | "µs" | "μs" => some microsecond
  | "ms" => some millisecond
  | "s" => some second
  | "m" => some (60 * second)
  | "h" => some (3600 * second)
  | _ => none

/-- Digits behind the point: the number they make and its scale. Digits that no longer fit are left out. -/
def fraction : Nat → Float → List Char → Nat × Float
  | n, scale, [] => (n, scale)
  | n, scale, c :: cs =>
    let m := 10 * n + (c.toNat - '0'.toNat)
    if m ≤ signedLimit then fraction m (scale * 10) cs else (n, scale)

/-- Nanoseconds of a number with a unit. Fractions are computed with floating-point numbers. -/
def measure? (whole behind : List Char) (unit : Nat) : Option Nat :=
  let n := Text.digitsNat whole
  if signedLimit / unit < n then none
  else
    let (f, scale) := fraction 0 1.0 behind
    let more := if f = 0 then 0 else (f.toFloat * (unit.toFloat / scale)).toUInt64.toNat
    if n * unit + more ≤ signedLimit then some (n * unit + more) else none

/-- Adds up numbers with units, each of which takes at least one character. The sum is kept in 64 bits. -/
def total? : Nat → Nat → List Char → Option Nat
  | _, sum, [] => some sum
  | 0, _, _ :: _ => none
  | fuel + 1, sum, cs => do
    let whole := cs.takeWhile Char.isDigit
    let (behind, rest) := match cs.dropWhile Char.isDigit with
      | '.' :: rest => (rest.takeWhile Char.isDigit, rest.dropWhile Char.isDigit)
      | rest => ([], rest)
    if whole.isEmpty && behind.isEmpty then none
    let inUnit (c : Char) := c ≠ '.' && !c.isDigit
    let unit ← unit? (String.ofList (rest.takeWhile inUnit))
    let n ← measure? whole behind unit
    let sum := (sum + n) % wordLimit
    if signedLimit < sum then none
    total? fuel sum (rest.dropWhile inUnit)

def parse? (s : String) : Option Duration := do
  let (negative, cs) := match s.toList with
    | '-' :: rest => (true, rest)
    | '+' :: rest => (false, rest)
    | cs => (false, cs)
  if cs = ['0'] then return ⟨0⟩
  if cs.isEmpty then none
  let n ← total? cs.length 0 cs
  if negative then return ⟨-n⟩
  if n < signedLimit then return ⟨n⟩ else none

def inUnits (n places : Nat) : String :=
  let behind := n % Nat.pow 10 places
  let ds := Nat.toDigits 10 behind
  let ds := List.replicate (places - ds.length) '0' ++ ds
  let kept := (ds.reverse.dropWhile (· = '0')).reverse
  toString (n / Nat.pow 10 places) ++ (if behind = 0 then "" else "." ++ String.ofList kept)

def text (d : Duration) : String :=
  let n := d.nanos.natAbs
  let sign := if d.nanos < 0 then "-" else ""
  if n = 0 then "0s"
  else if n < microsecond then sign ++ inUnits n 0 ++ "ns"
  else if n < millisecond then sign ++ inUnits n 3 ++ "µs"
  else if n < second then sign ++ inUnits n 6 ++ "ms"
  else
    let minutes := n / (60 * second)
    let seconds := inUnits (n % (60 * second)) 9 ++ "s"
    sign ++
      (if minutes = 0 then seconds
      else if minutes < 60 then toString minutes ++ "m" ++ seconds
      else toString (minutes / 60) ++ "h" ++ toString (minutes % 60) ++ "m" ++ seconds)

def milliseconds (d : Duration) : Int :=
  d.nanos.tdiv millisecond

def ofMilliseconds (n : Int) : Duration :=
  ⟨n * millisecond⟩

def seconds (d : Duration) : Float :=
  Float.ofInt (d.nanos.tdiv second) + Float.ofInt (d.nanos.tmod second) / 1e9

/-- The nearest multiple of a microsecond; the middle goes away from zero. -/
def toMicroseconds (d : Duration) : Duration :=
  let n := (d.nanos.natAbs + microsecond / 2) / microsecond * microsecond
  ⟨if d.nanos < 0 then -n else n⟩

end Duration

end MesonCheck
