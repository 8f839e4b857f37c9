import Telemetry.Text.Blank
import Telemetry.Text.Printable

/-!
# Generated text, line by line

An artifact is put together as a list of lines and only then joined to a text, in which every line
ends with a line feed.  `enclosed` sets an indented body between an opening and a closing line.

`commentLine` makes a line of a description fit for a comment: control characters and the Unicode
line and paragraph separators, any of which a reader of the artifact might take for the end of the
line, become spaces.
-/

namespace Telemetry.Artifact

/-- One level of indentation. -/
def indentation : String := "    "

/-- Indents lines by one level. -/
def indented (lines : List String) : List String :=
  lines.map fun line => indentation ++ line

/-- An indented body between two lines. -/
def enclosed (opening : String) (body : List String) (closing : String) : List String :=
  opening :: (indented body ++ [closing])

/-- The text of a list of lines. -/
def joinLines (lines : List String) : String :=
  String.join (lines.map fun line => line ++ "\n")

/-- A line of a description without characters that could end the line. -/
def commentLine (line : String) : String :=
  .ofList (line.toList.map fun c => if Text.isLineBreaking c then ' ' else c)

theorem indented_append (a b : List String) : indented (a ++ b) = indented a ++ indented b := by
  simp [indented]

end Telemetry.Artifact
