/-!
# Places and defects

A schema text is read to its end whatever is wrong with it, and every defect is reported with its
place.  A place is a line and a column, both counted from one; a column is one character.

* `Place.after` moves a place over a character, `Place.past` over a list of them;
* `Defect.Cause` lists what can be wrong with a text, `Defect.Cause.message` words it;
* `Defect.inOrder` sorts a report by place; defects at one place keep their order.
-/

namespace Telemetry.Json

/-- A line and a column of a text. -/
structure Place where
  line : Nat
  column : Nat
  deriving DecidableEq, Repr, Inhabited

namespace Place

/-- The place of the first character. -/
def start : Place := ⟨1, 1⟩

/-- The place behind the character `c` that stands at `p`. -/
def after (p : Place) (c : Char) : Place :=
  if c = '\n' then ⟨p.line + 1, 1⟩ else ⟨p.line, p.column + 1⟩

/-- The place behind the characters that begin at `p`. -/
def past (p : Place) (cs : List Char) : Place :=
  cs.foldl after p

/-- Whether `p` is `q` or stands before it. -/
def notAfter (p q : Place) : Bool :=
  decide (p.line < q.line) || (p.line == q.line && decide (p.column ≤ q.column))

@[simp] theorem past_nil (p : Place) : p.past [] = p := rfl

@[simp] theorem past_cons (p : Place) (c : Char) (cs : List Char) :
    p.past (c :: cs) = (p.after c).past cs := rfl

theorem past_append (p : Place) (cs ds : List Char) :
    p.past (cs ++ ds) = (p.past cs).past ds := by
  simp [past, List.foldl_append]

end Place

/-- The number of containers that may be open at one place. -/
def maxDepth : Nat := 64

/-- What can be wrong with a text. -/
inductive Defect.Cause where
  | unterminatedComment
  | unterminatedString
  | invalidUnicodeEscape
  | invalidEscape (c : Char)
  | controlInString
  | invalidNumber (written : String)
  | invalidSymbol (written : String)
  | valueExpected
  | endExpected
  | tooDeep
  | propertyNameExpected
  | colonExpected
  | commaExpected
  | closingBraceExpected
  | closingBracketExpected
  | duplicateKey (key : String)
  deriving DecidableEq, Repr

/-- The wording of a cause. -/
def Defect.Cause.message : Defect.Cause → String
  | .unterminatedComment => "unterminated block comment"
  | .unterminatedString => "unterminated string"
  | .invalidUnicodeEscape => "invalid unicode escape sequence"
  | .invalidEscape c => "invalid escape character '\\" ++ String.singleton c ++ "'"
  | .controlInString => "invalid control character in string"
  | .invalidNumber written => "invalid number '" ++ written ++ "'"
  | .invalidSymbol written => "invalid symbol '" ++ written ++ "'"
  | .valueExpected => "value expected"
  | .endExpected => "end of file expected"
  | .tooDeep => "maximum nesting depth exceeded (" ++ toString maxDepth ++ ")"
  | .propertyNameExpected => "property name expected"
  | .colonExpected => "colon expected"
  | .commaExpected => "comma expected"
  | .closingBraceExpected => "closing brace expected"
  | .closingBracketExpected => "closing bracket expected"
  | .duplicateKey key => "duplicate key '" ++ key ++ "'"

/-- Something wrong at a place. -/
structure Defect where
  place : Place
  cause : Defect.Cause
  deriving DecidableEq, Repr

namespace Defect

/-- The place and the wording. -/
def message (d : Defect) : String :=
  toString d.place.line ++ ":" ++ toString d.place.column ++ ": " ++ d.cause.message

/-- The defects sorted by place, those of one place in the order in which they were found. -/
def inOrder (ds : List Defect) : List Defect :=
  ds.mergeSort fun d e => d.place.notAfter e.place

end Defect

end Telemetry.Json
