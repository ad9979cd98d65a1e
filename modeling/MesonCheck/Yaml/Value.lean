import MesonCheck.Text.Base64
import MesonCheck.Text.Digits
import MesonCheck.Word
import MesonCheck.Yaml.Node

/-! What a scalar means. Only plain scalars can be anything but texts, unless a tag says so. -/
namespace MesonCheck.Yaml

inductive Value where
  | null
  | bool (b : Bool)
  | int (n : Int)
  | float (x : Float)
  | text (t : String)

def digitValue? (c : Char) : Option Nat :=
  if c.isDigit then some (c.toNat - '0'.toNat)
  else if c.isLower then some (c.toNat - 'a'.toNat + 10)
  else if c.isUpper then some (c.toNat - 'A'.toNat + 10)
  else none

def digits? (base : Nat) (cs : List Char) : Option Nat :=
  cs.foldlM (fun n c => (digitValue? c).bind fun d => if d < base then some (base * n + d) else none) 0

/-- A number without sign: `0x`, `0o` and `0b` choose a base, and a zero in front makes it octal. -/
def natural? (cs : List Char) : Option Nat :=
  match cs with
  | [] => none
  | '0' :: b :: d :: rest =>
    match b.toLower with
    | 'x' => digits? 16 (d :: rest)
    | 'o' => digits? 8 (d :: rest)
    | 'b' => digits? 2 (d :: rest)
    | _ => digits? 8 (b :: d :: rest)
  | '0' :: rest => digits? 8 rest
  | cs => digits? 10 cs

def integer? (cs : List Char) : Option Int :=
  match cs with
  | '-' :: rest => (natural? rest).bind fun n => if n ≤ signedLimit then some (-(n : Int)) else none
  | '+' :: rest => (natural? rest).bind fun n => if n < signedLimit then some (n : Int) else none
  | cs => (natural? cs).bind fun n => if n < wordLimit then some (n : Int) else none

/-- A number whose sign stands behind the choice of base two or eight. -/
def signedInside? (cs : List Char) : Option Int :=
  match cs with
  | '0' :: b :: sign :: d :: rest =>
    if (b = 'b' ∨ b = 'o') ∧ (sign = '-' ∨ sign = '+') then
      (digits? (if b = 'b' then 2 else 8) (d :: rest)).bind fun n =>
        if sign = '-' then if n ≤ signedLimit then some (-(n : Int)) else none
        else if n < signedLimit then some (n : Int) else none
    else none
  | _ => none

structure Decimal where
  negative : Bool
  mantissa : Nat
  exponent : Int

def exponent? (cs : List Char) : Option Int :=
  match cs with
  | [] => some 0
  | e :: rest =>
    if e.toLower = 'e' then
      match rest with
      | '-' :: d :: ds => (digits? 10 (d :: ds)).map fun n => -(n : Int)
      | '+' :: d :: ds => (digits? 10 (d :: ds)).map fun n => (n : Int)
      | d :: ds => (digits? 10 (d :: ds)).map fun n => (n : Int)
      | [] => none
    else none

def decimal? (cs : List Char) : Option Decimal :=
  let (negative, cs) := match cs with
    | '-' :: rest => (true, rest)
    | '+' :: rest => (false, rest)
    | cs => (false, cs)
  let whole := cs.takeWhile Char.isDigit
  let (fraction, hasPoint, cs) := match cs.dropWhile Char.isDigit with
    | '.' :: rest => (rest.takeWhile Char.isDigit, true, rest.dropWhile Char.isDigit)
    | rest => ([], false, rest)
  if whole.isEmpty && (fraction.isEmpty || !hasPoint) then none
  else do
    let m ← digits? 10 (whole ++ fraction)
    let e ← exponent? cs
    pure ⟨negative, m, e - fraction.length⟩

def Decimal.float? (d : Decimal) : Option Float :=
  let digits := (Nat.toDigits 10 d.mantissa).length
  if d.mantissa = 0 then some (if d.negative then -0.0 else 0.0)
  else if 400 < d.exponent + digits then none
  else if d.exponent + digits < -400 then some (if d.negative then -0.0 else 0.0)
  else
    let x := if d.exponent < 0 then Float.ofScientific d.mantissa true d.exponent.natAbs
      else Float.ofScientific d.mantissa false d.exponent.toNat
    if x.isInf then none else some (if d.negative then -x else x)

def infinity : Float := 1.0 / 0.0

def notANumber : Float := 0.0 / 0.0

def word? : String → Option Value
  | "" | "~" | "null" | "Null" | "NULL" => some .null
  | "true" | "True" | "TRUE" => some (.bool true)
  | "false" | "False" | "FALSE" => some (.bool false)
  | ".nan" | ".NaN" | ".NAN" => some (.float notANumber)
  | ".inf" | ".Inf" | ".INF" | "+.inf" | "+.Inf" | "+.INF" => some (.float infinity)
  | "-.inf" | "-.Inf" | "-.INF" => some (.float (-infinity))
  | _ => none

def numberOr (v : Value) (cs : List Char) : Value :=
  match integer? cs with
  | some n => .int n
  | none =>
    match (decimal? cs).bind Decimal.float? with
    | some x => .float x
    | none => ((signedInside? cs).map .int).getD v

/-- The meaning of a plain text: a fixed word, a number, or the text itself. Numbers may have underscores, except
behind a leading point. -/
def plainValue (text : String) : Value :=
  match word? text with
  | some v => v
  | none =>
    match text.toList with
    | [] => .null
    | c :: cs =>
      if c = '.' then
        match (decimal? (c :: cs)).bind Decimal.float? with
        | some x => .float x
        | none => .text text
      else if c.isDigit || c == '+' || c == '-' then numberOr (.text text) ((c :: cs).filter (· ≠ '_'))
      else .text text

def shortNumber? : List Char → Option (Nat × List Char)
  | c :: d :: rest =>
    if !c.isDigit then none
    else if d.isDigit then some (Text.digitsNat [c, d], rest)
    else some (Text.digitsNat [c], d :: rest)
  | [c] => if c.isDigit then some (Text.digitsNat [c], []) else none
  | [] => none

def daysOfMonth (year month : Nat) : Nat :=
  if month = 2 then if year % 4 = 0 ∧ (year % 100 ≠ 0 ∨ year % 400 = 0) then 29 else 28
  else if [4, 6, 9, 11].contains month then 30
  else 31

def afterDate? : List Char → Option (List Char)
  | a :: b :: c :: d :: '-' :: rest => do
    if [a, b, c, d].any (!·.isDigit) then none
    let (month, rest) ← shortNumber? rest
    if month = 0 ∨ 12 < month then none
    match rest with
    | '-' :: rest =>
      let (day, rest) ← shortNumber? rest
      if day = 0 ∨ daysOfMonth (Text.digitsNat [a, b, c, d]) month < day then none
      some rest
    | _ => none
  | _ => none

def afterTime? (cs : List Char) : Option (List Char) := do
  let (hour, cs) ← shortNumber? cs
  let (minute, cs) ← match cs with
    | ':' :: cs => shortNumber? cs
    | _ => none
  let (second, cs) ← match cs with
    | ':' :: cs => shortNumber? cs
    | _ => none
  if 24 ≤ hour ∨ 60 ≤ minute ∨ 60 ≤ second then none
  match cs with
  | point :: d :: rest =>
    some (if (point = '.' ∨ point = ',') ∧ d.isDigit then (d :: rest).dropWhile Char.isDigit else point :: d :: rest)
  | cs => some cs

def isZone : List Char → Bool
  | ['Z'] => true
  | [sign, h, i, ':', m, n] =>
    (sign == '+' || sign == '-') && [h, i, m, n].all Char.isDigit && Text.digitsNat [h, i] ≤ 24 &&
      Text.digitsNat [m, n] ≤ 60
  | _ => false

/-- A date, which may be followed by a time: behind a `T` with a zone, behind blanks without one. -/
def isTimestamp (text : String) : Bool :=
  match afterDate? text.toList with
  | none => false
  | some [] => true
  | some (c :: rest) =>
    if c = 'T' ∨ c = 't' then (afterTime? rest).any isZone
    else c = ' ' && (afterTime? (rest.dropWhile (· = ' '))).any List.isEmpty

/-- The meaning of a scalar. A tag of the format that contradicts the text is a fault; other tags make it a text. -/
def Scalar.value (s : Scalar) : Except Fault Value :=
  match s.tag with
  | none => .ok (if s.isPlain then plainValue s.text else .text s.text)
  | some "!!binary" => ((Text.fromBase64? s.text).map Value.text).elim (.error .unsuitable) .ok
  | some "!!timestamp" => if isTimestamp s.text then .ok (.text s.text) else .error .unsuitable
  | some "!!null" =>
    match plainValue s.text with
    | .null => .ok .null
    | _ => .error .unsuitable
  | some "!!bool" =>
    match plainValue s.text with
    | .bool b => .ok (.bool b)
    | _ => .error .unsuitable
  | some "!!int" =>
    match plainValue s.text with
    | .int n => .ok (.int n)
    | _ => .error .unsuitable
  | some "!!float" =>
    match plainValue s.text with
    | .int n => if n < signedLimit then .ok (.float (Float.ofInt n)) else .error .unsuitable
    | .float x => .ok (.float x)
    | _ => .error .unsuitable
  | some _ => .ok (.text s.text)

end MesonCheck.Yaml
