/-! Numbers written with decimal digits. -/
namespace MesonCheck.Text

def digitsNat (cs : List Char) : Nat :=
  cs.foldl (fun n c => 10 * n + (c.toNat - '0'.toNat)) 0

end MesonCheck.Text
