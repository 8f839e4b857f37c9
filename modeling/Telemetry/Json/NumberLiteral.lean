import Telemetry.Json.Value
import Telemetry.Number.Nearest

/-!
# Number literals

A number literal is an optional minus sign, a whole part without superfluous zeros, an optional
fraction and an optional exponent.

* `NumberLiteral.read?` takes a run of characters apart, and fails unless all of it is a literal;
* `NumberLiteral.value?` is what it denotes: a literal with neither fraction nor exponent is exact
  if it fits one of the 64-bit ranges, and every other literal is the nearest double-precision
  number, which has to be finite.
-/

namespace Telemetry.Json

/-- The parts of a number literal; every part holds digits only. -/
structure NumberLiteral where
  negative : Bool
  whole : List Char
  fraction : Option (List Char)
  exponent : Option (Bool × List Char)
  deriving DecidableEq, Repr

namespace NumberLiteral

/-- The whole part and what follows it: a single zero, or digits that do not start with one. -/
def readWhole? : List Char → Option (List Char × List Char)
  | [] => none
  | c :: rest =>
    if c = '0' then some (['0'], rest)
    else if c.isDigit then some ((c :: rest).span Char.isDigit)
    else none

/-- One or more digits and what follows them. -/
def readDigits? (cs : List Char) : Option (List Char × List Char) :=
  match cs.span Char.isDigit with
  | ([], _) => none
  | (digits, rest) => some (digits, rest)

/-- The fraction, if a point comes next, and what follows it. -/
def readFraction? : List Char → Option (Option (List Char) × List Char)
  | '.' :: rest => (readDigits? rest).map fun (digits, rest) => (some digits, rest)
  | rest => some (none, rest)

/-- The sign of an exponent, which may be left out, and what follows it. -/
def readSign : List Char → Bool × List Char
  | '-' :: rest => (true, rest)
  | '+' :: rest => (false, rest)
  | rest => (false, rest)

/-- The exponent, if its letter comes next, and what follows it. -/
def readExponent? : List Char → Option (Option (Bool × List Char) × List Char)
  | [] => some (none, [])
  | c :: rest =>
    if c = 'e' ∨ c = 'E' then
      let (negative, rest) := readSign rest
      (readDigits? rest).map fun (digits, rest) => (some (negative, digits), rest)
    else some (none, c :: rest)

/-- Takes a literal apart. -/
def read? (cs : List Char) : Option NumberLiteral := do
  let (negative, rest) := match cs with
    | '-' :: rest => (true, rest)
    | rest => (false, rest)
  let (whole, rest) ← readWhole? rest
  let (fraction, rest) ← readFraction? rest
  let (exponent, rest) ← readExponent? rest
  if rest.isEmpty then some ⟨negative, whole, fraction, exponent⟩ else none

/-- The number that decimal digits denote. -/
def digitsValue (digits : List Char) : Nat :=
  digits.foldl (fun n c => 10 * n + (c.toNat - '0'.toNat)) 0

/-- The whole number that the literal denotes if it has neither fraction nor exponent. -/
def wholeValue (l : NumberLiteral) : Int :=
  if l.negative then -(digitsValue l.whole : Int) else digitsValue l.whole

/-- The power of ten that the exponent denotes. -/
def exponentValue (l : NumberLiteral) : Int :=
  match l.exponent with
  | none => 0
  | some (negative, digits) =>
    if negative then -(digitsValue digits : Int) else digitsValue digits

/-- The nearest double-precision number, if it is finite. -/
def double? (l : NumberLiteral) : Option Binary64 :=
  let fraction := l.fraction.getD []
  Binary64.ofDecimal? l.negative (digitsValue (l.whole ++ fraction))
    (l.exponentValue - fraction.length)

/-- What the literal denotes. -/
def value? (l : NumberLiteral) : Option Number :=
  if l.fraction = none ∧ l.exponent = none ∧
      -Int.pow 2 63 ≤ l.wholeValue ∧ l.wholeValue < Int.pow 2 64 then
    some (.integer l.wholeValue)
  else l.double?.map .double

end NumberLiteral

/-- The number that a run of characters denotes, if it is a number literal with a finite value. -/
def Number.ofLiteral? (cs : List Char) : Option Number :=
  (NumberLiteral.read? cs).bind NumberLiteral.value?

end Telemetry.Json
