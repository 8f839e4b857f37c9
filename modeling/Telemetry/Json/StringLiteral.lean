import Telemetry.Json.Defect

/-!
# String literals

Behind its opening quote a string literal goes on to the next quote that no backslash stands
before.  A raw line feed or carriage return ends it too, as does the end of the text, and then it is
reported as unterminated at its opening quote.

* `Escape.read` reads what follows a backslash, and says how many characters that takes;
* `StringLiteral.read` reads the whole literal: the characters it denotes, its defects in order of
  place, and the number of characters it takes up behind the opening quote.

Characters that belong to an escape are passed over one by one, so that the place is moved by every
character of the text exactly once.
-/

namespace Telemetry.Json

/-- The value of a hexadecimal digit in either letter case. -/
def hexValue? (c : Char) : Option Nat :=
  if c.isDigit then some (c.toNat - '0'.toNat)
  else if 'a' ≤ c ∧ c ≤ 'f' then some (c.toNat - 'a'.toNat + 10)
  else if 'A' ≤ c ∧ c ≤ 'F' then some (c.toNat - 'A'.toNat + 10)
  else none

/-- The hexadecimal digits at the front, four at most, as their values. -/
def hexRun (cs : List Char) : List Nat :=
  ((cs.take 4).map hexValue?).takeWhile Option.isSome |>.filterMap id

/-- The number that four hexadecimal digits denote. -/
def hexNumber (digits : List Nat) : Nat :=
  digits.foldl (fun n digit => 16 * n + digit) 0

/-- What an escape denotes, or what is wrong with it, and the number of characters that it takes up
behind its first one. -/
structure Escape where
  denoted : Except Defect.Cause Char
  taken : Nat
  deriving Repr

namespace Escape

/-- Whether a code unit is the first half of a surrogate pair. -/
def isHighSurrogate (unit : Nat) : Bool :=
  decide (0xD800 ≤ unit) && decide (unit < 0xDC00)

/-- Whether a code unit is the second half of a surrogate pair. -/
def isLowSurrogate (unit : Nat) : Bool :=
  decide (0xDC00 ≤ unit) && decide (unit < 0xE000)

/-- The character of a surrogate pair. -/
def joined (high low : Nat) : Char :=
  .ofNat (0x10000 + (high - 0xD800) * 0x400 + (low - 0xDC00))

/-- The second half of a pair, where the first half takes up four characters: it has to be an
escape of its own. -/
def readLow (high : Nat) : List Char → Escape
  | '\\' :: 'u' :: rest =>
    let digits := hexRun rest
    let low := hexNumber digits
    if digits.length = 4 ∧ isLowSurrogate low then ⟨.ok (joined high low), 10⟩
    else ⟨.error .invalidUnicodeEscape, 6 + digits.length⟩
  | _ => ⟨.error .invalidUnicodeEscape, 4⟩

/-- A code unit of four hexadecimal digits, or a pair of them.  Digits are read as far as they go,
also where the escape then turns out to be broken. -/
def readUnicode (rest : List Char) : Escape :=
  let digits := hexRun rest
  let unit := hexNumber digits
  if digits.length < 4 then ⟨.error .invalidUnicodeEscape, digits.length⟩
  else if isHighSurrogate unit then readLow unit (rest.drop 4)
  else if isLowSurrogate unit then ⟨.error .invalidUnicodeEscape, 4⟩
  else ⟨.ok (.ofNat unit), 4⟩

/-- Reads an escape from its first character, the one behind the backslash, and what follows. -/
def read (c : Char) (rest : List Char) : Escape :=
  match c with
  | '"' => ⟨.ok '"', 0⟩
  | '\\' => ⟨.ok '\\', 0⟩
  | '/' => ⟨.ok '/', 0⟩
  | 'b' => ⟨.ok '\x08', 0⟩
  | 'f' => ⟨.ok '\x0c', 0⟩
  | 'n' => ⟨.ok '\n', 0⟩
  | 'r' => ⟨.ok '\r', 0⟩
  | 't' => ⟨.ok '\t', 0⟩
  | 'u' => readUnicode rest
  | other => ⟨.error (.invalidEscape other), 0⟩

end Escape

/-- What reading a string literal gives. -/
structure StringLiteral where
  /-- The characters denoted; those of broken escapes are missing. -/
  content : List Char
  defects : List Defect
  /-- The number of characters taken up behind the opening quote. -/
  taken : Nat
  deriving Repr

namespace StringLiteral

/-- The rest of a literal behind a character that adds nothing to it. -/
def passed (l : StringLiteral) : StringLiteral :=
  { l with taken := l.taken + 1 }

/-- The rest of a literal behind a character that denotes `c`. -/
def withChar (c : Char) (l : StringLiteral) : StringLiteral :=
  { l.passed with content := c :: l.content }

/-- The rest of a literal behind a character that is wrong. -/
def withDefect (d : Defect) (l : StringLiteral) : StringLiteral :=
  { l.passed with defects := d :: l.defects }

/-- Reads the characters behind the opening quote.  The first `skip` of them belong to an escape
that has been read already; `opened` is the place of the quote and `place` that of the next
character. -/
def read (opened : Place) : (skip : Nat) → (place : Place) → List Char → StringLiteral
  | _, _, [] => ⟨[], [⟨opened, .unterminatedString⟩], 0⟩
  | skip + 1, place, c :: rest => (read opened skip (place.after c) rest).passed
  | 0, place, c :: rest =>
    if c = '"' then ⟨[], [], 1⟩
    else if c = '\n' ∨ c = '\r' then ⟨[], [⟨opened, .unterminatedString⟩], 0⟩
    else if c = '\\' then
      match rest with
      | [] => ⟨[], [⟨opened, .unterminatedString⟩], 1⟩
      | e :: more =>
        let escape := Escape.read e more
        let l := read opened (escape.taken + 1) (place.after c) (e :: more)
        match escape.denoted with
        | .ok denoted => l.withChar denoted
        | .error cause => l.withDefect ⟨place, cause⟩
    else if c.toNat < 0x20 then
      (read opened 0 (place.after c) rest).withDefect ⟨place, .controlInString⟩
    else (read opened 0 (place.after c) rest).withChar c

end StringLiteral

end Telemetry.Json
