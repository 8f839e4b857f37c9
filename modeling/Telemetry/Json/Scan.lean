import Telemetry.Json.NumberLiteral
import Telemetry.Json.StringLiteral
import Telemetry.Json.Token
import Telemetry.Text.Blank
import Telemetry.Text.Letter

/-!
# From text to tokens

The scanner cuts a text into items, each as long as possible: blanks, comments, marks, strings,
numbers and words.  Blanks and comments leave nothing behind; everything else leaves one token,
also when it is broken.

* `Item.read` looks at the characters from the start of an item on and says what it leaves and how
  far it reaches;
* `scan` passes over the text one character at a time, reading an item wherever the one before has
  ended, and gives the tokens, the defects of the scanner in the order found, and the place of the
  end.
-/

namespace Telemetry.Json

/-- What one item of a text leaves, and the number of characters it has behind its first one. -/
structure Item where
  lexeme : Option Lexeme
  defects : List Defect
  more : Nat
  deriving Repr

/-- Whether a number literal may go on with `c`. -/
def isNumberChar (c : Char) : Bool :=
  c.isAlphanum || c == '+' || c == '-' || c == '.'

/-- Whether a word may begin and go on with `c`. -/
def isWordChar (c : Char) : Bool :=
  Text.isLetterOrDigit c || c == '_'

/-- The length of a block comment behind its opening two characters, if it is closed; `passed`
characters have been seen already. -/
def blockCommentLength (passed : Nat) : List Char → Option Nat
  | [] => none
  | '*' :: '/' :: _ => some (passed + 2)
  | _ :: rest => blockCommentLength (passed + 1) rest

/-- The lexeme of a word, which is broken unless it is one of three. -/
def Lexeme.ofWord (word : String) : Lexeme :=
  if word = "true" then .bool true
  else if word = "false" then .bool false
  else if word = "null" then .null
  else .broken

namespace Item

/-- An item that leaves nothing. -/
def blank (more : Nat) : Item := ⟨none, [], more⟩

/-- An item that leaves a sound token. -/
def sound (lexeme : Lexeme) (more : Nat) : Item := ⟨some lexeme, [], more⟩

/-- An item that leaves a broken token and a defect at its start. -/
def broken (place : Place) (cause : Defect.Cause) (more : Nat) : Item :=
  ⟨some .broken, [⟨place, cause⟩], more⟩

/-- The comment that a slash begins, if it does. -/
def comment? (place : Place) : List Char → Option Item
  | '/' :: rest => some (blank (1 + (rest.takeWhile (· != '\n')).length))
  | '*' :: rest =>
    match blockCommentLength 1 rest with
    | some more => some (blank more)
    | none => some ⟨none, [⟨place, .unterminatedComment⟩], 1 + rest.length⟩
  | _ => none

/-- The number that begins here. -/
def number (place : Place) (c : Char) (rest : List Char) : Item :=
  let tail := rest.takeWhile isNumberChar
  match Number.ofLiteral? (c :: tail) with
  | some value => sound (.number value) tail.length
  | none => broken place (.invalidNumber (.ofList (c :: tail))) tail.length

/-- The word that begins here. -/
def word (place : Place) (c : Char) (rest : List Char) : Item :=
  let tail := rest.takeWhile isWordChar
  let written := String.ofList (c :: tail)
  match Lexeme.ofWord written with
  | .broken => broken place (.invalidSymbol written) tail.length
  | lexeme => sound lexeme tail.length

/-- The string whose opening quote stands here. -/
def string (place : Place) (rest : List Char) : Item :=
  let literal := StringLiteral.read place 0 (place.after '"') rest
  ⟨some (.text (.ofList literal.content)), literal.defects, literal.taken⟩

/-- The item that is no comment. -/
def readPlain (place : Place) (c : Char) (rest : List Char) : Item :=
  match Mark.ofChar? c with
  | some m => sound (.mark m) 0
  | none =>
    if c = '"' then string place rest
    else if c = '-' ∨ c.isDigit then number place c rest
    else if isWordChar c then word place c rest
    else broken place (.invalidSymbol (.singleton c)) 0

/-- Reads the item that begins with `c` at `place`. -/
def read (place : Place) (c : Char) (rest : List Char) : Item :=
  if Text.isBlank c then blank 0
  else if c = '/' then (comment? place rest).getD (readPlain place c rest)
  else readPlain place c rest

end Item

/-- The tokens and defects found, and the place reached. -/
structure Scan where
  tokens : List Token
  defects : List Defect
  stop : Place
  deriving Repr

namespace Scan

/-- Adds what an item at the place reached leaves, the latest first. -/
def add (s : Scan) (item : Item) : Scan :=
  { s with
    tokens := match item.lexeme with
      | some lexeme => ⟨lexeme, s.stop⟩ :: s.tokens
      | none => s.tokens
    defects := item.defects.reverse ++ s.defects }

/-- Moves over one character. -/
def move (s : Scan) (c : Char) : Scan :=
  { s with stop := s.stop.after c }

/-- Scans on.  The first `skip` characters belong to an item that has been read already. -/
def run (s : Scan) : (skip : Nat) → List Char → Scan
  | _, [] => s
  | skip + 1, c :: rest => run (s.move c) skip rest
  | 0, c :: rest =>
    let item := Item.read s.stop c rest
    run ((s.add item).move c) item.more rest

end Scan

/-- Scans a text. -/
def scan (cs : List Char) : Scan :=
  let s := Scan.run ⟨[], [], .start⟩ 0 cs
  { s with tokens := s.tokens.reverse, defects := s.defects.reverse }

end Telemetry.Json
