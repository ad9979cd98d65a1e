/-! Bytes written with sixty-four characters, and the texts that bytes encode. -/
namespace MesonCheck.Text

def sextet? (c : Char) : Option Nat :=
  if c.isUpper then some (c.toNat - 'A'.toNat)
  else if c.isLower then some (c.toNat - 'a'.toNat + 26)
  else if c.isDigit then some (c.toNat - '0'.toNat + 52)
  else if c = '+' then some 62
  else if c = '/' then some 63
  else none

/-- The bytes of groups of four characters. The last group may be filled up to four. -/
def base64Bytes? : List Char → Option (List UInt8)
  | [] => some []
  | [a, b, '=', '='] => do
    let bits := 64 * (← sextet? a) + (← sextet? b)
    some [UInt8.ofNat (bits / 16)]
  | [a, b, c, '='] => do
    let bits := 4096 * (← sextet? a) + 64 * (← sextet? b) + (← sextet? c)
    some [UInt8.ofNat (bits / 1024), UInt8.ofNat (bits / 4 % 256)]
  | a :: b :: c :: d :: rest => do
    let bits := 262144 * (← sextet? a) + 4096 * (← sextet? b) + 64 * (← sextet? c) + (← sextet? d)
    let more ← base64Bytes? rest
    some (UInt8.ofNat (bits / 65536) :: UInt8.ofNat (bits / 256 % 256) :: UInt8.ofNat (bits % 256) :: more)
  | _ => none

/-- The characters from a byte on. A byte that is no part of one becomes the replacement character; as there is at least
a byte to each character, the size is fuel enough. -/
def charsFrom (bytes : ByteArray) : Nat → Nat → List Char
  | 0, _ => []
  | fuel + 1, i =>
    if bytes.size ≤ i then []
    else
      match bytes.utf8DecodeChar? i with
      | some c => c :: charsFrom bytes fuel (i + c.utf8Size)
      | none => '�' :: charsFrom bytes fuel (i + 1)

def fromBase64? (s : String) : Option String := do
  let bytes ← base64Bytes? (s.toList.filter fun c => c ≠ '\n' ∧ c ≠ '\r')
  some (String.ofList (charsFrom ⟨bytes.toArray⟩ bytes.length 0))

end MesonCheck.Text
