import Telemetry.Number.Binary64

/-!
# The nearest double-precision number

`Binary64.ofDecimal?` rounds `digits · 10 ^ power` to the nearest word, a tie going to the even
significand, in exact arithmetic of whole numbers.  A magnitude that rounds beyond the largest
finite number has no word; one that rounds below the smallest gives a zero with the sign kept.
Decimals far outside the range are settled by their size alone, so that a huge power costs nothing.
-/

namespace Telemetry

/-- The quotient rounded to the nearest whole number, a tie going to the even one. -/
def roundedQuotient (num den : Nat) : Nat :=
  let quotient := num / den
  let twice := 2 * (num % den)
  if twice < den || (twice == den && quotient % 2 == 0) then quotient else quotient + 1

namespace Binary64

/-- The word nearest to the ratio of two positive whole numbers. -/
def ofRatio? (negative : Bool) (num den : Nat) : Option Binary64 :=
  let scale : Int := (Nat.log2 num : Int) - Nat.log2 den
  -- The ratio lies between `2 ^ (scale - 1)` and `2 ^ (scale + 1)`; `top` is its leading power.
  let reaches := decide (den * Nat.pow 2 scale.toNat ≤ num * Nat.pow 2 (-scale).toNat)
  let top := if reaches then scale else scale - 1
  let power := max (top - fractionWidth) leastPower
  ofSignificand? negative
    (roundedQuotient (num * Nat.pow 2 (-power).toNat) (den * Nat.pow 2 power.toNat)) power

/-- The word nearest to `digits · 10 ^ power`. -/
def ofDecimal? (negative : Bool) (digits : Nat) (power : Int) : Option Binary64 :=
  -- With `size` digits the value lies between `10 ^ (size - 1 + power)` and `10 ^ (size + power)`.
  let size : Int := (Nat.toDigits 10 digits).length
  if digits = 0 ∨ size + power < -330 then ofSignificand? negative 0 leastPower
  else if 310 < size - 1 + power then none
  else ofRatio? negative (digits * Nat.pow 10 power.toNat) (Nat.pow 10 (-power).toNat)

end Binary64

end Telemetry
