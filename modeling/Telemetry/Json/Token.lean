import Telemetry.Json.Defect
import Telemetry.Json.Value

/-!
# Tokens

A token is a mark, a string, a number, one of the three words `true`, `false` and `null`, or
something broken, which the scanner has reported already and the reader takes for a value.
-/

namespace Telemetry.Json

/-- The six marks of the language. -/
inductive Mark where
  | openBrace
  | closeBrace
  | openBracket
  | closeBracket
  | colon
  | comma
  deriving DecidableEq, Repr

/-- The mark that a character stands for. -/
def Mark.ofChar? : Char → Option Mark
  | '{' => some .openBrace
  | '}' => some .closeBrace
  | '[' => some .openBracket
  | ']' => some .closeBracket
  | ':' => some .colon
  | ',' => some .comma
  | _ => none

/-- What a token says. -/
inductive Lexeme where
  | mark (m : Mark)
  | text (content : String)
  | number (value : Number)
  | bool (value : Bool)
  | null
  | broken
  deriving DecidableEq, Repr

/-- A lexeme at the place of its first character. -/
structure Token where
  lexeme : Lexeme
  place : Place
  deriving DecidableEq, Repr

namespace Token

/-- Whether the token is the mark `m`. -/
def isMark (t : Token) (m : Mark) : Bool :=
  t.lexeme == .mark m

/-- Whether the token opens a container. -/
def opens (t : Token) : Bool :=
  t.isMark .openBrace || t.isMark .openBracket

/-- Whether the token closes a container. -/
def closes (t : Token) : Bool :=
  t.isMark .closeBrace || t.isMark .closeBracket

/-- Whether the token can be a key. -/
def isText (t : Token) : Bool :=
  match t.lexeme with
  | .text _ => true
  | _ => false

/-- Whether a value can begin with the token. -/
def startsValue (t : Token) : Bool :=
  match t.lexeme with
  | .mark m => m == .openBrace || m == .openBracket
  | _ => true

end Token

end Telemetry.Json
