import Telemetry.Number.Binary64

/-!
# The shortest decimal that reads back

A finite double-precision number is shown by the fewest decimal digits that round to it again, and
by the nearest such decimal where there are several.  With `n` digits the decimals around a value
form a grid; only the two neighbours of the value on the grid have to be tried, and the grids are
tried from one digit to seventeen, which always suffice.

* `Binary64.decimalAround` tries one grid, in exact arithmetic of whole numbers;
* `Binary64.shortest` gives the digits and the power of ten;
* `Binary64.text` writes them: plainly while the leading digit stands for a power of ten from
  `-5` to `15`, and with an exponent outside.
-/

namespace Telemetry.Binary64

/-- A positive number as a ratio of whole numbers together with its rounding interval: the number
is `4 · significand · unitNum / unitDen`, and everything between `low` and `high` units rounds to
it, the ends included if `closed`. -/
structure Interval where
  value : Nat
  low : Nat
  high : Nat
  closed : Bool

/-- The rounding interval of a finite word, in quarters of the unit of its last bit.  Just above a
power of two the numbers below are twice as dense. -/
def interval (x : Binary64) : Interval where
  value := 4 * x.significand
  low := if x.fraction = 0 ∧ 1 < x.exponentField then 4 * x.significand - 1
    else 4 * x.significand - 2
  high := 4 * x.significand + 2
  closed := x.significand % 2 == 0

/-- Whether the scaled decimal `d` lies in the interval whose ends are scaled by `unit`. -/
def Interval.admits (i : Interval) (unit d : Nat) : Bool :=
  if i.closed then decide (i.low * unit ≤ d) && decide (d ≤ i.high * unit)
  else decide (i.low * unit < d) && decide (d < i.high * unit)

/-- The decimal on the grid `10 ^ grid` that rounds to `x` and is nearest to it, if one of the two
neighbours of `x` does; a tie goes to the even digit. -/
def decimalAround (x : Binary64) (grid : Int) : Option Nat :=
  let quarter := x.power - 2
  -- `d · 10 ^ grid` compares with `v · 2 ^ quarter` as `d · step` does with `v · unit`.
  let unit := Nat.pow 2 quarter.toNat * Nat.pow 10 (-grid).toNat
  let step := Nat.pow 10 grid.toNat * Nat.pow 2 (-quarter).toNat
  let i := x.interval
  let below := i.value * unit / step
  let toBelow := i.value * unit - below * step
  let toAbove := (below + 1) * step - i.value * unit
  match i.admits unit (below * step), i.admits unit ((below + 1) * step) with
  | true, true =>
    if toBelow < toAbove || (toBelow == toAbove && below % 2 == 0) then some below
    else some (below + 1)
  | true, false => some below
  | false, true => some (below + 1)
  | false, false => none

/-- The power of ten of the leading digit of a positive number: an estimate from the power of two,
corrected by one where the next power of ten is still within the number. -/
def leadingPower (x : Binary64) : Int :=
  let estimate := ((Nat.log2 x.significand : Int) + x.power) * 30103 / 100000
  let next := estimate + 1
  let decimal := Nat.pow 10 next.toNat * Nat.pow 2 (-x.power).toNat
  let binary := x.significand * Nat.pow 2 x.power.toNat * Nat.pow 10 (-next).toNat
  if decimal ≤ binary then next else estimate

/-- Drops the zeros that a decimal ends with; `fuel` is at least their number. -/
def dropZeros : (fuel : Nat) → Nat → Int → Nat × Int
  | 0, digits, power => (digits, power)
  | fuel + 1, digits, power =>
    if digits % 10 = 0 then dropZeros fuel (digits / 10) (power + 1) else (digits, power)

/-- The shortest decimal `digits · 10 ^ power` that rounds to the magnitude of `x`. -/
def shortest (x : Binary64) : Nat × Int :=
  if x.significand = 0 then (0, 0)
  else
    let top := x.leadingPower
    let grids := (List.range 17).map fun (n : Nat) => top - n
    match grids.findSome? fun grid => (x.decimalAround grid).map fun digits => (digits, grid) with
    | some (digits, grid) => dropZeros 20 digits grid
    | none => (x.significand, 0)

/-- The text of a finite number. -/
def text (x : Binary64) : String :=
  let (digits, power) := x.shortest
  let shown := Nat.toDigits 10 digits
  let lead := power + (shown.length - 1 : Nat)
  let body :=
    if -5 ≤ lead ∧ lead ≤ 15 then
      if 0 ≤ power then shown ++ List.replicate power.toNat '0' ++ ['.', '0']
      else if 0 ≤ lead then
        shown.take (lead.toNat + 1) ++ '.' :: shown.drop (lead.toNat + 1)
      else '0' :: '.' :: (List.replicate (-lead - 1).toNat '0' ++ shown)
    else
      let fraction := shown.drop 1
      let mark := if lead < 0 then '-' else '+'
      shown.take 1 ++ (if fraction.isEmpty then [] else '.' :: fraction) ++
        'e' :: mark :: Nat.toDigits 10 lead.natAbs
  .ofList (if x.isNegative then '-' :: body else body)

end Telemetry.Binary64
