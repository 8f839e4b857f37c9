/-!
# Double-precision numbers as words

A number of a schema text that is not a whole number in the 64-bit ranges is kept as the word of a
double-precision number.  This file gives the word and its fields:

* `Binary64` is the word, so that equality of numbers is equality of words;
* `significand` and `power` are the exact value of a finite word, `significand · 2 ^ power` with
  the sign `isNegative`;
* `ofSignificand` builds the word of `significand · 2 ^ power` for a significand and a power in
  range.
-/

namespace Telemetry

/-- The word of a double-precision number. -/
structure Binary64 where
  bits : UInt64
  deriving DecidableEq, Repr, Inhabited

namespace Binary64

/-- The number of bits of the stored fraction. -/
def fractionWidth : Nat := 52

/-- The power of two that the last bit of the smallest numbers stands for. -/
def leastPower : Int := -1074

/-- Whether the sign bit is set. -/
def isNegative (x : Binary64) : Bool :=
  decide (Nat.pow 2 63 ≤ x.bits.toNat)

/-- The eleven exponent bits. -/
def exponentField (x : Binary64) : Nat :=
  x.bits.toNat / Nat.pow 2 fractionWidth % Nat.pow 2 11

/-- The fraction bits. -/
def fraction (x : Binary64) : Nat :=
  x.bits.toNat % Nat.pow 2 fractionWidth

/-- The whole number that the value is a multiple of a power of two by.  Words with exponent bits
all zero lack the hidden bit. -/
def significand (x : Binary64) : Nat :=
  if x.exponentField = 0 then x.fraction else Nat.pow 2 fractionWidth + x.fraction

/-- The power of two that the significand is scaled by. -/
def power (x : Binary64) : Int :=
  leastPower + (x.exponentField - 1 : Nat)

/-- The least word that no finite magnitude has. -/
def infinityWord : Nat := 2047 * Nat.pow 2 fractionWidth

/-- The word of `significand · 2 ^ power`, where the power is at least `leastPower` and a
significand below `2 ^ 52` comes with `leastPower` only.  A significand of `2 ^ 53`, which rounding
up can give, carries into the exponent.  There is no word if the magnitude is too large. -/
def ofSignificand? (negative : Bool) (significand : Nat) (power : Int) : Option Binary64 :=
  let word := (power - leastPower).toNat * Nat.pow 2 fractionWidth + significand
  if word < infinityWord then
    some ⟨.ofNat (if negative then Nat.pow 2 63 + word else word)⟩
  else none

end Binary64

end Telemetry
