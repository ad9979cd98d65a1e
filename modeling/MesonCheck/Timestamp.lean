import MesonCheck.Text.Digits

/-! Points in time, each with the zone it was given in. -/
namespace MesonCheck

structure Timestamp where
  /-- Nanoseconds since the start of 1970. -/
  nanos : Int
  /-- Minutes by which clocks of the zone are ahead. -/
  zone : Int
deriving DecidableEq

namespace Timestamp

def second : Int := 1000000000

/-- Days from the start of 1970 to a date. Years start in March, so that leap days come last. -/
def dayNumber (year : Int) (month day : Nat) : Int :=
  let y := if month ≤ 2 then year - 1 else year
  let m := (month + 9) % 12
  let dayOfYear : Int := (153 * m + 2) / 5 + day - 1
  y * 365 + y.fdiv 4 - y.fdiv 100 + y.fdiv 400 + dayOfYear - 719468

def date (days : Int) : Int × Nat × Nat :=
  let z := days + 719468
  let era := z.fdiv 146097
  let dayOfEra := (z - era * 146097).toNat
  let yearOfEra := (dayOfEra - dayOfEra / 1460 + dayOfEra / 36524 - dayOfEra / 146096) / 365
  let dayOfYear := dayOfEra - (365 * yearOfEra + yearOfEra / 4 - yearOfEra / 100)
  let m := (5 * dayOfYear + 2) / 153
  let month := if m < 10 then m + 3 else m - 9
  (era * 400 + yearOfEra + (if month ≤ 2 then 1 else 0), month, dayOfYear - (153 * m + 2) / 5 + 1)

def padded (width n : Nat) : String :=
  let ds := Nat.toDigits 10 n
  String.ofList (List.replicate (width - ds.length) '0' ++ ds)

def clock (t : Timestamp) (zone : Int) (between : String) : String :=
  let shifted := t.nanos + zone * 60 * second
  let seconds := shifted.fdiv second
  let fraction := (shifted - seconds * second).toNat
  let (year, month, day) := date (seconds.fdiv 86400)
  let time := (seconds.fmod 86400).toNat
  let sign := if year < 0 then "-" else ""
  let behind := ((padded 9 fraction).toList.reverse.dropWhile (· = '0')).reverse
  sign ++ padded 4 year.natAbs ++ "-" ++ padded 2 month ++ "-" ++ padded 2 day ++ between ++
    padded 2 (time / 3600) ++ ":" ++ padded 2 (time / 60 % 60) ++ ":" ++ padded 2 (time % 60) ++
    (if fraction = 0 then "" else "." ++ String.ofList behind)

def stored (t : Timestamp) : String :=
  let zone := t.zone.natAbs
  t.clock t.zone " " ++ (if t.zone < 0 then "-" else "+") ++ padded 2 (zone / 60) ++ ":" ++ padded 2 (zone % 60)

def universal (t : Timestamp) : String :=
  t.clock 0 "T" ++ "Z"

def short (t : Timestamp) : String :=
  { t with nanos := t.nanos.fdiv second * second }.clock 0 " "

def zone? : List Char → Option Int
  | ['Z'] => some 0
  | [sign, h, i, ':', m, n] => do
    if [h, i, m, n].any (!·.isDigit) then none
    let minutes : Int := 60 * Text.digitsNat [h, i] + Text.digitsNat [m, n]
    if sign = '+' then some minutes else if sign = '-' then some (-minutes) else none
  | _ => none

def parse? (s : String) : Option Timestamp :=
  match s.toList with
  | y₁ :: y₂ :: y₃ :: y₄ :: '-' :: m₁ :: m₂ :: '-' :: d₁ :: d₂ :: between :: h₁ :: h₂ :: ':' :: n₁ :: n₂ :: ':' ::
      s₁ :: s₂ :: rest => do
    if between ≠ 'T' ∧ between ≠ ' ' then none
    if [y₁, y₂, y₃, y₄, m₁, m₂, d₁, d₂, h₁, h₂, n₁, n₂, s₁, s₂].any (!·.isDigit) then none
    let (behind, rest) := match rest with
      | '.' :: rest => (rest.takeWhile Char.isDigit, rest.dropWhile Char.isDigit)
      | rest => ([], rest)
    let zone ← zone? rest
    let day := dayNumber (Text.digitsNat [y₁, y₂, y₃, y₄]) (Text.digitsNat [m₁, m₂]) (Text.digitsNat [d₁, d₂])
    let time := 3600 * Text.digitsNat [h₁, h₂] + 60 * Text.digitsNat [n₁, n₂] + Text.digitsNat [s₁, s₂]
    let fraction := Text.digitsNat ((behind ++ List.replicate 9 '0').take 9)
    some ⟨(day * 86400 + time - zone * 60) * second + fraction, zone⟩
  | _ => none

def zero : Timestamp :=
  ⟨dayNumber 1 1 1 * 86400 * second, 0⟩

end Timestamp

end MesonCheck
