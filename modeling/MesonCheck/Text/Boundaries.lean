/-! Membership in sets of numbers that are given by where their runs begin and end. -/
namespace MesonCheck.Text

/-- Whether an odd number of boundaries is at most `n`, which says that `n` lies in a run. The boundaries increase. -/
def oddBoundaries : List Nat → Nat → Bool
  | [], _ => false
  | b :: bs, n => if n < b then false else !oddBoundaries bs n

end MesonCheck.Text
