import Mathlib.Computability.RegularExpressions
import Mathlib.Data.Nat.Digits.Defs
import Telemetry.Proofs.Json.Literals
import Telemetry.Proofs.Text.Ascii

/-!
# The regular language of number literals

Which characters are a number literal, and which of the literals are integers, said without the
parts that a literal is taken apart into.

* `Pattern.number` is the regular expression `-?(0|[1-9][0-9]*)(\.[0-9]+)?([eE][+-]?[0-9]+)?`, and
  `exists_numberText_iff` says that its words are the literals of the grammar;
* `Integral` says that characters have neither a point nor the letter of an exponent, and
  `signedValue` is the whole number that decimal digits denote behind a sign;
* `readNumber_exact`: literals are the words of the language, and a literal gives an integer
  exactly if it is integral and its value is in one of the two 64-bit ranges; then it gives that
  value.
-/

namespace Telemetry.Json

open Grammar

/-! ### Patterns -/

namespace Pattern

variable {p q : RegularExpression Char} {w : List Char}

/-- One of some characters. -/
def oneOf (cs : List Char) : RegularExpression Char :=
  (cs.map .char).sum

/-- What a pattern says, or nothing. -/
def optional (p : RegularExpression Char) : RegularExpression Char :=
  1 + p

/-- What a pattern says, once or several times. -/
def repeated (p : RegularExpression Char) : RegularExpression Char :=
  p * .star p

/-- The digits that a whole part of several digits may begin with. -/
def leadingDigits : List Char :=
  ['1', '2', '3', '4', '5', '6', '7', '8', '9']

/-- A decimal digit. -/
def digit : RegularExpression Char :=
  oneOf ('0' :: leadingDigits)

/-- A sign in front of a number. -/
def sign : RegularExpression Char :=
  optional (.char '-')

/-- A whole part without superfluous zeros. -/
def whole : RegularExpression Char :=
  .char '0' + oneOf leadingDigits * .star digit

/-- A fraction, or nothing. -/
def fraction : RegularExpression Char :=
  optional (.char '.' * repeated digit)

/-- An exponent, or nothing. -/
def exponent : RegularExpression Char :=
  optional (oneOf ['e', 'E'] * (optional (oneOf ['+', '-']) * repeated digit))

/-- The pattern of number literals. -/
def number : RegularExpression Char :=
  sign * (whole * (fraction * exponent))

theorem mem_char {c : Char} : w ∈ (RegularExpression.char c).matches' ↔ w = [c] :=
  Iff.rfl

theorem mem_mul : w ∈ (p * q).matches' ↔ ∃ a ∈ p.matches', ∃ b ∈ q.matches', a ++ b = w :=
  Language.mem_mul

theorem mem_add : w ∈ (p + q).matches' ↔ w ∈ p.matches' ∨ w ∈ q.matches' :=
  Iff.rfl

theorem mem_optional : w ∈ (optional p).matches' ↔ w = [] ∨ w ∈ p.matches' :=
  Iff.rfl

theorem mem_oneOf {cs : List Char} : w ∈ (oneOf cs).matches' ↔ ∃ c ∈ cs, w = [c] := by
  induction cs with
  | nil =>
    constructor
    · intro h
      cases h
    · rintro ⟨c, there, -⟩
      cases there
  | cons c cs ih =>
    have split : oneOf (c :: cs) = .char c + oneOf cs := List.sum_cons
    rw [split, mem_add, mem_char, ih, List.exists_mem_cons_iff]

/-- The digits that a pattern may list are the characters that are digits. -/
theorem mem_digits_iff {c : Char} : c ∈ '0' :: leadingDigits ↔ c.isDigit = true := by
  constructor
  · intro listed
    have all : ('0' :: leadingDigits).all Char.isDigit = true := by decide
    exact List.all_eq_true.1 all c listed
  · intro isDigit
    have ascii : c.toNat < 128 := Text.toNat_lt_of_isAlphanum (by
      rw [Text.isAlphanum_eq_or, isDigit, Bool.or_true])
    exact Text.of_ascii (p := fun c => c.isDigit = true → c ∈ '0' :: leadingDigits) (by decide)
      ascii isDigit

theorem mem_star_digit : w ∈ (RegularExpression.star digit).matches' ↔
    ∀ c ∈ w, c.isDigit = true := by
  rw [RegularExpression.matches'_star, Language.mem_kstar]
  constructor
  · rintro ⟨pieces, rfl, isPiece⟩ c there
    obtain ⟨piece, hp, hc⟩ := List.mem_flatten.1 there
    obtain ⟨d, listed, rfl⟩ := mem_oneOf.1 (isPiece piece hp)
    rw [List.mem_singleton.1 hc]
    exact mem_digits_iff.1 listed
  · intro digits
    refine ⟨w.map ([·]), ?_, List.forall_mem_map.2 fun c hc => ?_⟩
    · rw [← List.flatMap_def, List.flatMap_singleton']
    · exact mem_oneOf.2 ⟨c, mem_digits_iff.2 (digits c hc), rfl⟩

theorem mem_repeated_digit : w ∈ (repeated digit).matches' ↔ Digits w := by
  rw [repeated, mem_mul]
  constructor
  · rintro ⟨first, isFirst, others, areOthers, rfl⟩
    obtain ⟨d, listed, rfl⟩ := mem_oneOf.1 isFirst
    refine ⟨List.cons_ne_nil _ _, List.forall_mem_cons.2 ⟨mem_digits_iff.1 listed, ?_⟩⟩
    exact mem_star_digit.1 areOthers
  · rintro ⟨ne, digits⟩
    obtain ⟨d, ds, rfl⟩ := List.exists_cons_of_ne_nil ne
    obtain ⟨first, others⟩ := List.forall_mem_cons.1 digits
    exact ⟨[d], mem_oneOf.2 ⟨d, mem_digits_iff.2 first, rfl⟩, ds, mem_star_digit.2 others, rfl⟩

/-! ### The parts of a literal -/

theorem mem_sign : w ∈ sign.matches' ↔ ∃ negative, Sign w negative := by
  rw [sign, mem_optional, mem_char]
  constructor
  · rintro (rfl | rfl)
    · exact ⟨false, .absent⟩
    · exact ⟨true, .minus⟩
  · rintro ⟨negative, absent | minus⟩
    · exact .inl rfl
    · exact .inr rfl

theorem mem_whole : w ∈ whole.matches' ↔ Whole w := by
  rw [whole, mem_add, mem_char, mem_mul]
  constructor
  · rintro (rfl | ⟨first, isFirst, others, areOthers, rfl⟩)
    · exact ⟨⟨List.cons_ne_nil _ _, List.forall_mem_singleton.2 rfl⟩, fun _ => rfl⟩
    · obtain ⟨d, listed, rfl⟩ := mem_oneOf.1 isFirst
      have isDigit : d.isDigit = true :=
        mem_digits_iff.1 (List.mem_cons_of_mem _ listed)
      refine ⟨⟨List.cons_ne_nil _ _, ?_⟩, fun zero => ?_⟩
      · exact List.forall_mem_cons.2 ⟨isDigit, mem_star_digit.1 areOthers⟩
      · cases zero
        exact absurd listed (by decide)
  · rintro ⟨⟨ne, digits⟩, zero⟩
    obtain ⟨d, ds, rfl⟩ := List.exists_cons_of_ne_nil ne
    obtain ⟨first, others⟩ := List.forall_mem_cons.1 digits
    -- a zero in front is the whole part, any other digit may have more behind it
    by_cases isZero : d = '0'
    · exact .inl (zero (congrArg some isZero))
    · have listed := (List.mem_cons.1 (mem_digits_iff.2 first)).resolve_left isZero
      exact .inr ⟨[d], mem_oneOf.2 ⟨d, listed, rfl⟩, ds, mem_star_digit.2 others, rfl⟩

theorem mem_fraction : w ∈ fraction.matches' ↔ ∃ f, Fraction w f := by
  rw [fraction, mem_optional, mem_mul]
  constructor
  · rintro (rfl | ⟨point, isPoint, ds, areDigits, rfl⟩)
    · exact ⟨none, .absent⟩
    · cases mem_char.1 isPoint
      exact ⟨some ds, .present (mem_repeated_digit.1 areDigits)⟩
  · rintro ⟨f, absent | ⟨digits⟩⟩
    · exact .inl rfl
    · exact .inr ⟨['.'], rfl, _, mem_repeated_digit.2 digits, rfl⟩

theorem mem_exponentSign :
    w ∈ (optional (oneOf ['+', '-'])).matches' ↔ ∃ negative, ExponentSign w negative := by
  rw [mem_optional, mem_oneOf]
  constructor
  · rintro (rfl | ⟨c, listed, rfl⟩)
    · exact ⟨false, .absent⟩
    · rcases List.mem_pair.1 listed with rfl | rfl
      · exact ⟨false, .plus⟩
      · exact ⟨true, .minus⟩
  · rintro ⟨negative, absent | plus | minus⟩
    · exact .inl rfl
    · exact .inr ⟨'+', by decide, rfl⟩
    · exact .inr ⟨'-', by decide, rfl⟩

theorem mem_exponent : w ∈ exponent.matches' ↔ ∃ e, Exponent w e := by
  rw [exponent, mem_optional, mem_mul]
  constructor
  · rintro (rfl | ⟨letter, isLetter, rest, isRest, rfl⟩)
    · exact ⟨none, .absent⟩
    · obtain ⟨c, listed, rfl⟩ := mem_oneOf.1 isLetter
      obtain ⟨signed, isSigned, ds, areDigits, rfl⟩ := mem_mul.1 isRest
      obtain ⟨negative, isSign⟩ := mem_exponentSign.1 isSigned
      exact ⟨some (negative, ds),
        .present (List.mem_pair.1 listed) isSign (mem_repeated_digit.1 areDigits)⟩
  · rintro ⟨e, absent | ⟨isLetter, isSign, digits⟩⟩
    · exact .inl rfl
    · refine .inr ⟨_, mem_oneOf.2 ⟨_, List.mem_pair.2 isLetter, rfl⟩, _, ?_, rfl⟩
      exact mem_mul.2
        ⟨_, mem_exponentSign.2 ⟨_, isSign⟩, _, mem_repeated_digit.2 digits, rfl⟩

/-- The words of the pattern are the literals of the grammar. -/
theorem mem_number : w ∈ number.matches' ↔ ∃ l, NumberText w l := by
  rw [number, mem_mul]
  constructor
  · rintro ⟨signed, isSigned, unsigned, isUnsigned, rfl⟩
    obtain ⟨digits, areDigits, behind, isBehind, rfl⟩ := mem_mul.1 isUnsigned
    obtain ⟨point, isPoint, power, isPower, rfl⟩ := mem_mul.1 isBehind
    obtain ⟨negative, isSign⟩ := mem_sign.1 isSigned
    obtain ⟨f, isFraction⟩ := mem_fraction.1 isPoint
    obtain ⟨e, isExponent⟩ := mem_exponent.1 isPower
    exact ⟨_, .mk isSign (mem_whole.1 areDigits) isFraction isExponent⟩
  · rintro ⟨l, ⟨isSign, isWhole, isFraction, isExponent⟩⟩
    refine ⟨_, mem_sign.2 ⟨_, isSign⟩, _, ?_, rfl⟩
    refine mem_mul.2 ⟨_, mem_whole.2 isWhole, _, ?_, rfl⟩
    exact mem_mul.2 ⟨_, mem_fraction.2 ⟨_, isFraction⟩, _, mem_exponent.2 ⟨_, isExponent⟩, rfl⟩

end Pattern

/-! ### Integers -/

/-- Whether some characters have neither a point nor the letter of an exponent. -/
def Integral (cs : List Char) : Prop :=
  '.' ∉ cs ∧ 'e' ∉ cs ∧ 'E' ∉ cs

/-- The number that decimal digits denote, the last of them being the units. -/
def decimalValue (ds : List Char) : Nat :=
  Nat.ofDigits 10 (ds.reverse.map fun c => c.toNat - '0'.toNat)

/-- The whole number that decimal digits denote behind a minus sign or without one. -/
def signedValue : List Char → Int
  | '-' :: ds => -(decimalValue ds : Int)
  | ds => decimalValue ds

theorem digitsValue_eq (ds : List Char) : NumberLiteral.digitsValue ds = decimalValue ds := by
  rw [decimalValue, Nat.ofDigits_eq_foldr, List.foldr_map, List.foldr_reverse,
    NumberLiteral.digitsValue]
  refine congrArg (fun step => List.foldl step 0 ds) ?_
  funext n c
  exact Nat.add_comm _ _

/-- Digits have no sign in front. -/
theorem signedValue_of_digits {ds : List Char} (h : Digits ds) :
    signedValue ds = decimalValue ds := by
  obtain ⟨ne, digits⟩ := h
  rw [signedValue]
  rintro rest rfl
  exact absurd (digits '-' List.mem_cons_self) (by decide)

/-- Neither a point nor a letter is a digit. -/
theorem Grammar.Digits.integral {ds : List Char} (h : Digits ds) : Integral ds := by
  refine ⟨fun there => ?_, fun there => ?_, fun there => ?_⟩
  · exact absurd (h.2 _ there) (by decide)
  · exact absurd (h.2 _ there) (by decide)
  · exact absurd (h.2 _ there) (by decide)

theorem integral_append {cs ds : List Char} : Integral (cs ++ ds) ↔ Integral cs ∧ Integral ds := by
  simp only [Integral, List.mem_append, not_or]
  constructor
  · rintro ⟨⟨a, a'⟩, ⟨b, b'⟩, ⟨c, c'⟩⟩
    exact ⟨⟨a, b, c⟩, a', b', c'⟩
  · rintro ⟨⟨a, b, c⟩, a', b', c'⟩
    exact ⟨⟨a, a'⟩, ⟨b, b'⟩, c, c'⟩

namespace Grammar

variable {cs : List Char} {l : NumberLiteral}

/-- A literal is integral exactly if it has neither a fraction nor an exponent. -/
theorem NumberText.integral_iff (h : NumberText cs l) :
    Integral cs ↔ l.fraction = none ∧ l.exponent = none := by
  obtain ⟨isSign, isWhole, isFraction, isExponent⟩ := h
  have empty : Integral [] := ⟨List.not_mem_nil, List.not_mem_nil, List.not_mem_nil⟩
  rw [integral_append, integral_append, integral_append]
  constructor
  · rintro ⟨-, -, noPoint, noLetter⟩
    constructor
    · cases isFraction with
      | absent => rfl
      | present => exact absurd List.mem_cons_self noPoint.1
    · cases isExponent with
      | absent => rfl
      | present isLetter =>
        rcases isLetter with rfl | rfl
        · exact absurd List.mem_cons_self noLetter.2.1
        · exact absurd List.mem_cons_self noLetter.2.2
  · rintro ⟨rfl, rfl⟩
    cases isFraction
    cases isExponent
    refine ⟨?_, isWhole.1.integral, empty, empty⟩
    cases isSign with
    | absent => exact empty
    | minus => exact ⟨by decide, by decide, by decide⟩

/-- The value of an integral literal is the number that its characters denote. -/
theorem NumberText.wholeValue_eq (h : NumberText cs l) (integral : Integral cs) :
    l.wholeValue = signedValue cs := by
  obtain ⟨noFraction, noExponent⟩ := h.integral_iff.1 integral
  obtain ⟨isSign, isWhole, isFraction, isExponent⟩ := h
  cases noFraction
  cases noExponent
  cases isFraction
  cases isExponent
  rw [List.append_nil, List.append_nil, NumberLiteral.wholeValue, digitsValue_eq]
  cases isSign with
  | absent => exact (signedValue_of_digits isWhole.1).symm
  | minus => rfl

end Grammar

/-- Literals are the words of a regular language.  A literal gives an integer exactly if it has
neither a point nor the letter of an exponent and denotes a number in the range of the 64-bit
integers with or without sign, and then it gives that number. -/
theorem readNumber_exact (cs : List Char) :
    ((NumberLiteral.read? cs).isSome = true ↔ cs ∈ Pattern.number.matches') ∧
    ∀ n, Number.ofLiteral? cs = some (.integer n) ↔
      (cs ∈ Pattern.number.matches' ∧ Integral cs) ∧ signedValue cs = n ∧
        -2 ^ 63 ≤ n ∧ n < 2 ^ 64 := by
  refine ⟨?_, fun n => ?_⟩
  · rw [Option.isSome_iff_exists, Pattern.mem_number]
    exact exists_congr fun l => NumberLiteral.read?_eq_some_iff
  · rw [ofLiteral?_eq_some_iff, Pattern.mem_number]
    constructor
    · rintro ⟨l, isText, denotes⟩
      cases denotes with
      | integer exact =>
        obtain ⟨noFraction, noExponent, lower, upper⟩ := exact
        have integral := isText.integral_iff.2 ⟨noFraction, noExponent⟩
        exact ⟨⟨⟨l, isText⟩, integral⟩, (isText.wholeValue_eq integral).symm, lower, upper⟩
    · rintro ⟨⟨⟨l, isText⟩, integral⟩, rfl, lower, upper⟩
      obtain ⟨noFraction, noExponent⟩ := isText.integral_iff.1 integral
      have value := isText.wholeValue_eq integral
      rw [← value] at lower upper ⊢
      exact ⟨l, isText, .integer ⟨noFraction, noExponent, lower, upper⟩⟩

-- The ends of the ranges, and the negative zero.
example :
    Number.ofLiteral? "-9223372036854775808".toList = some (.integer (-9223372036854775808)) ∧
    Number.ofLiteral? "18446744073709551615".toList = some (.integer 18446744073709551615) ∧
    Number.ofLiteral? "-0".toList = some (.integer 0) := by
  decide +kernel

end Telemetry.Json
