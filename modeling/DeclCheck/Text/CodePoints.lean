/-!
# Classes of characters

A class is given by ranges of code points, in increasing order.
-/

namespace DeclCheck.Text

/-- Whether the code point of a character lies in one of the ranges, ends
included.  A code point below the first range is in none. -/
def inRanges : List (Nat × Nat) → Char → Bool
  | [], _ => false
  | (first, last) :: rest, c =>
      first ≤ c.toNat && (c.toNat ≤ last || inRanges rest c)

end DeclCheck.Text
