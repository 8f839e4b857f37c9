import Telemetry.Json.Scan
import Telemetry.Proofs.Text.Runs

/-!
# The language of schema texts

A grammar for JSON with comments and trailing commas, which says what a text denotes without saying
how it is read.  It has three layers:

* `NumberText` and `StringText` relate the characters of a literal to what the literal denotes;
* `Piece` relates the characters of one item of a text to the lexeme that it leaves, if it leaves
  one, and `Tokens` cuts a whole text into items, each reaching as far as it can;
* `IsValue` relates a list of lexemes to the value that it spells, inside a number of containers
  that are open already.

`Spells` puts the layers together: the characters of a text spell a value.
-/

namespace Telemetry.Json.Grammar

open Text (Ends)

/-! ### Numbers -/

/-- One or more decimal digits. -/
def Digits (ds : List Char) : Prop :=
  ds ≠ [] ∧ ∀ c ∈ ds, c.isDigit = true

/-- Digits that begin with a zero only if the zero is all there is. -/
def Whole (ds : List Char) : Prop :=
  Digits ds ∧ (ds.head? = some '0' → ds = ['0'])

/-- A fraction, or nothing. -/
inductive Fraction : List Char → Option (List Char) → Prop
  | absent : Fraction [] none
  | present {ds : List Char} : Digits ds → Fraction ('.' :: ds) (some ds)

/-- The sign of an exponent; it is positive unless a minus sign says otherwise. -/
inductive ExponentSign : List Char → Bool → Prop
  | absent : ExponentSign [] false
  | plus : ExponentSign ['+'] false
  | minus : ExponentSign ['-'] true

/-- An exponent, or nothing. -/
inductive Exponent : List Char → Option (Bool × List Char) → Prop
  | absent : Exponent [] none
  | present {e : Char} {sign ds : List Char} {negative : Bool} : e = 'e' ∨ e = 'E' →
      ExponentSign sign negative → Digits ds → Exponent (e :: (sign ++ ds)) (some (negative, ds))

/-- The sign in front of a number. -/
inductive Sign : List Char → Bool → Prop
  | absent : Sign [] false
  | minus : Sign ['-'] true

/-- The characters of a number literal with the given parts. -/
inductive NumberText : List Char → NumberLiteral → Prop
  | mk {sign whole fraction exponent : List Char} {negative : Bool} {f : Option (List Char)}
      {e : Option (Bool × List Char)} : Sign sign negative → Whole whole → Fraction fraction f →
      Exponent exponent e →
      NumberText (sign ++ (whole ++ (fraction ++ exponent))) ⟨negative, whole, f, e⟩

/-- Whether a literal is a whole number that a 64-bit integer can hold, with or without sign. -/
def Exact (l : NumberLiteral) : Prop :=
  l.fraction = none ∧ l.exponent = none ∧
    -Int.pow 2 63 ≤ l.wholeValue ∧ l.wholeValue < Int.pow 2 64

/-- The number that a literal denotes: exactly that integer, or the nearest double-precision number
if it is finite. -/
inductive Denotes (l : NumberLiteral) : Number → Prop
  | integer : Exact l → Denotes l (.integer l.wholeValue)
  | double {word : Binary64} : ¬ Exact l → l.double? = some word → Denotes l (.double word)

/-! ### Strings -/

/-- The letters that stand for a character behind a backslash, with that character. -/
def shortEscapes : List (Char × Char) :=
  [('"', '"'), ('\\', '\\'), ('/', '/'), ('b', '\x08'), ('f', '\x0c'), ('n', '\n'), ('r', '\r'),
   ('t', '\t')]

/-- A hexadecimal digit in either letter case, with its value. -/
def HexDigit (c : Char) (n : Nat) : Prop :=
  (n < 10 ∧ c.toNat = '0'.toNat + n) ∨
    (10 ≤ n ∧ n < 16 ∧ (c.toNat + 10 = 'a'.toNat + n ∨ c.toNat + 10 = 'A'.toNat + n))

/-- Four hexadecimal digits, with the code unit that they denote. -/
inductive CodeUnit : List Char → Nat → Prop
  | mk {a b c d : Char} {i j k l : Nat} : HexDigit a i → HexDigit b j → HexDigit c k →
      HexDigit d l → CodeUnit [a, b, c, d] (16 * (16 * (16 * i + j) + k) + l)

/-- Whether two code units are the halves of a surrogate pair, and of which character. -/
def Paired (high low : Nat) (c : Char) : Prop :=
  (0xD800 ≤ high ∧ high < 0xDC00) ∧ (0xDC00 ≤ low ∧ low < 0xE000) ∧
    c.toNat = 0x10000 + (high - 0xD800) * 0x400 + (low - 0xDC00)

/-- What may stand between two quotes, with the characters that it denotes.  A code unit that is
half of a surrogate pair is no character, so it stands only beside the other half. -/
inductive StringText : List Char → List Char → Prop
  | nil : StringText [] []
  | raw {c : Char} {w s : List Char} : c ≠ '"' → c ≠ '\\' → 0x20 ≤ c.toNat → StringText w s →
      StringText (c :: w) (c :: s)
  | short {e c : Char} {w s : List Char} : (e, c) ∈ shortEscapes → StringText w s →
      StringText ('\\' :: e :: w) (c :: s)
  | unit {c : Char} {digits w s : List Char} : CodeUnit digits c.toNat → StringText w s →
      StringText ('\\' :: 'u' :: (digits ++ w)) (c :: s)
  | pair {c : Char} {first second w s : List Char} {high low : Nat} : CodeUnit first high →
      CodeUnit second low → Paired high low c → StringText w s →
      StringText ('\\' :: 'u' :: (first ++ '\\' :: 'u' :: (second ++ w))) (c :: s)

/-! ### Items of a text -/

/-- The three words. -/
def words : List (List Char × Lexeme) :=
  [(['t', 'r', 'u', 'e'], .bool true), (['f', 'a', 'l', 's', 'e'], .bool false),
   (['n', 'u', 'l', 'l'], .null)]

/-- The characters of an item of a text, what it leaves, and the characters behind it.  A line
comment goes to the end of its line, and a number or a word as far as its characters do; a block
comment ends at the first end mark. -/
inductive Piece : List Char → Option Lexeme → List Char → Prop
  | blank {c : Char} {rest : List Char} : Text.isBlank c = true → Piece [c] none rest
  | lineComment {body rest : List Char} : '\n' ∉ body → Ends (· != '\n') rest →
      Piece ('/' :: '/' :: body) none rest
  | blockComment {body rest : List Char} : ¬ ['*', '/'] <:+: body →
      Piece ('/' :: '*' :: (body ++ ['*', '/'])) none rest
  | mark {c : Char} {m : Mark} {rest : List Char} : Mark.ofChar? c = some m →
      Piece [c] (some (.mark m)) rest
  | text {w s rest : List Char} : StringText w s →
      Piece ('"' :: (w ++ ['"'])) (some (.text (.ofList s))) rest
  | number {cs rest : List Char} {l : NumberLiteral} {n : Number} : NumberText cs l → Denotes l n →
      Ends isNumberChar rest → Piece cs (some (.number n)) rest
  | word {cs rest : List Char} {lexeme : Lexeme} : (cs, lexeme) ∈ words → Ends isWordChar rest →
      Piece cs (some lexeme) rest

/-- A text cut into items, with the lexemes that these leave. -/
inductive Tokens : List Char → List Lexeme → Prop
  | nil : Tokens [] []
  | cons {cs rest : List Char} {left : Option Lexeme} {lexemes : List Lexeme} :
      Piece cs left rest → Tokens rest lexemes → Tokens (cs ++ rest) (left.toList ++ lexemes)

/-! ### Values -/

/-- What may stand behind the last entry of a container that is not empty. -/
inductive Trailing : List Lexeme → Prop
  | none : Trailing []
  | comma : Trailing [.mark .comma]

mutual

/-- The lexemes of a value inside `depth` containers.  No more than `maxDepth` containers may be
open at one place.  The keys of an object are distinct, and its value holds the members in ascending
order of their keys. -/
inductive IsValue : (depth : Nat) → List Lexeme → Value → Prop
  | null {depth : Nat} : IsValue depth [.null] .null
  | bool {depth : Nat} {b : Bool} : IsValue depth [.bool b] (.bool b)
  | number {depth : Nat} {n : Number} : IsValue depth [.number n] (.number n)
  | text {depth : Nat} {s : String} : IsValue depth [.text s] (.text s)
  | object {depth : Nat} {lexemes : List Lexeme} {written members : Members} :
      depth < maxDepth → AreMembers (depth + 1) lexemes written → written.keys.Nodup →
      members.Perm written → members.Pairwise (fun m n => m.1 < n.1) →
      IsValue depth (.mark .openBrace :: (lexemes ++ [.mark .closeBrace])) (.object members)
  | list {depth : Nat} {lexemes : List Lexeme} {items : List Value} :
      depth < maxDepth → AreItems (depth + 1) lexemes items →
      IsValue depth (.mark .openBracket :: (lexemes ++ [.mark .closeBracket])) (.list items)

/-- The lexemes between two braces, with the members in the order written. -/
inductive AreMembers : (depth : Nat) → List Lexeme → Members → Prop
  | none {depth : Nat} : AreMembers depth [] []
  | one {depth : Nat} {key : String} {lexemes trailing : List Lexeme} {value : Value} :
      IsValue depth lexemes value → Trailing trailing →
      AreMembers depth (.text key :: .mark .colon :: (lexemes ++ trailing)) [(key, value)]
  | more {depth : Nat} {key : String} {lexemes rest : List Lexeme} {value : Value}
      {others : Members} :
      IsValue depth lexemes value → AreMembers depth rest others → others ≠ [] →
      AreMembers depth (.text key :: .mark .colon :: (lexemes ++ .mark .comma :: rest))
        ((key, value) :: others)

/-- The lexemes between two brackets, with the items. -/
inductive AreItems : (depth : Nat) → List Lexeme → List Value → Prop
  | none {depth : Nat} : AreItems depth [] []
  | one {depth : Nat} {lexemes trailing : List Lexeme} {value : Value} :
      IsValue depth lexemes value → Trailing trailing →
      AreItems depth (lexemes ++ trailing) [value]
  | more {depth : Nat} {lexemes rest : List Lexeme} {value : Value} {others : List Value} :
      IsValue depth lexemes value → AreItems depth rest others → others ≠ [] →
      AreItems depth (lexemes ++ .mark .comma :: rest) (value :: others)

end

/-- The characters of a text spell a value. -/
def Spells (cs : List Char) (v : Value) : Prop :=
  ∃ lexemes, Tokens cs lexemes ∧ IsValue 0 lexemes v

end Telemetry.Json.Grammar
