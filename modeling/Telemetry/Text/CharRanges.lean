/-!
# Sets of characters given as ranges

The character classes of this library are listed as ranges of code points, both ends included.
This file gives the one question asked of such a list.
-/

namespace Telemetry.Text

/-- A set of code points as closed ranges. -/
abbrev CharRanges := List (Nat × Nat)

/-- Whether some range of the list holds the code point of `c`. -/
def CharRanges.holds (ranges : CharRanges) (c : Char) : Bool :=
  ranges.any fun range => decide (range.1 ≤ c.toNat) && decide (c.toNat ≤ range.2)

end Telemetry.Text
