import Telemetry.Text.CharRanges

/-!
# Blanks

Blanks are the twenty-five characters with the Unicode property `White_Space`.  They separate the
tokens of a schema text and are trimmed from names, units, kinds and descriptions.

* `trim` drops blanks at both ends, `trimEnd` at the end only;
* `trimmedLines` cuts a text at line feeds and trims the end of every line, so that a carriage
  return before a line feed leaves nothing behind.
-/

namespace Telemetry.Text

/-- The code points with the property `White_Space`. -/
def blanks : CharRanges :=
  [(0x09, 0x0D), (0x20, 0x20), (0x85, 0x85), (0xA0, 0xA0), (0x1680, 0x1680), (0x2000, 0x200A),
   (0x2028, 0x2029), (0x202F, 0x202F), (0x205F, 0x205F), (0x3000, 0x3000)]

/-- Whether `c` is a blank. -/
def isBlank (c : Char) : Bool :=
  blanks.holds c

/-- The list without the blanks it ends with. -/
def dropBlanksAtEnd (cs : List Char) : List Char :=
  (cs.reverse.dropWhile isBlank).reverse

/-- The text without the blanks it ends with. -/
def trimEnd (s : String) : String :=
  .ofList (dropBlanksAtEnd s.toList)

/-- The text without the blanks around it. -/
def trim (s : String) : String :=
  .ofList (dropBlanksAtEnd (s.toList.dropWhile isBlank))

/-- The lines of a text with their ends trimmed.  A line feed at the very end of the text opens no
further line, and the empty text has no lines. -/
def trimmedLines (s : String) : List String :=
  let lines := s.toList.splitOn '\n'
  let lines := if lines.getLast? = some [] then lines.dropLast else lines
  lines.map fun line => .ofList (dropBlanksAtEnd line)

/-- The trimmed text, if anything is left of it. -/
def trimmed? (s : String) : Option String :=
  let inner := trim s
  if inner.isEmpty then none else some inner

end Telemetry.Text
