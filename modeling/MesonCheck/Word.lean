/-! The ranges of whole numbers that fit a machine word. -/
namespace MesonCheck

def wordLimit : Nat := 18446744073709551616

def signedLimit : Nat := 9223372036854775808

end MesonCheck
