/-!
# Ascending ranges of code points

A property of characters is kept as the list of its maximal ranges, in ascending order. A look-up
stops at the first range that ends at or behind the character.
-/

namespace Mqtt.Text

/-- Whether a code point lies in one of the given ascending ranges (both ends belong to a
range). -/
def inRanges : List (Nat × Nat) → Nat → Bool
  | [], _ => false
  | (lo, hi) :: rest, n => if hi < n then inRanges rest n else lo ≤ n

end Mqtt.Text
