import Telemetry.Text.Upper

/-!
# Identifiers derived from names

* `pascalCase` turns a name in snake case into a type name: the first character of every segment
  goes to upper case and the underscores go;
* `recordingFunction` and `constantName` are the names of a metric's recording function and of its
  member in the enumeration of events;
* `asciiIdentifier` keeps what an identifier can hold of any text: ASCII letters, digits and
  underscores, behind an underscore if nothing or a digit would come first.
-/

namespace Telemetry

/-- A segment with its first character in upper case. -/
def capitalized : List Char → List Char
  | [] => []
  | c :: rest => Text.upper c ++ rest

/-- The name without underscores, each segment capitalized. -/
def pascalCase (name : String) : String :=
  .ofList ((name.toList.splitOn '_').flatMap capitalized)

/-- The name of the function that records a metric. -/
def recordingFunction (metric : String) : String :=
  "record" ++ pascalCase metric

/-- The name of a metric's member in the enumeration of events; only ASCII letters change. -/
def constantName (metric : String) : String :=
  metric.toUpper

/-- Whether an identifier can hold `c`. -/
def isIdentifierChar (c : Char) : Bool :=
  c.isAlphanum || c == '_'

/-- The identifier made of a text. -/
def asciiIdentifier (text : String) : String :=
  match text.toList.filter isIdentifierChar with
  | [] => "_"
  | c :: rest => .ofList (if c.isDigit then '_' :: c :: rest else c :: rest)

end Telemetry
