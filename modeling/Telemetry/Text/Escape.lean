import Telemetry.Text.Printable

/-!
# Backslash escapes

A text between quotes is written with backslash escapes: two-character escapes for the backslash,
the quotes of the style and a few control characters, and the braced hexadecimal form for what has
no visible form of its own.  Styles differ in the quotes they escape and in what they do with a
character that would attach to the one before it.

* `EscapeStyle.literal` is the style of string literals in generated Rust code: the opening quote
  of the literal is the only thing a combining character could attach to, so it is escaped in
  first position only;
* `EscapeStyle.message` is the style in which messages show a text.
-/

namespace Telemetry.Text

/-- A way of writing a text between quotes. -/
structure EscapeStyle where
  /-- The quotes that get a backslash. -/
  quotes : List Char
  /-- Whether combining characters are escaped behind the first position too. -/
  extendingAnywhere : Bool

/-- String literals escape both quotes, and combining characters only where they come first. -/
def EscapeStyle.literal : EscapeStyle := ⟨['"', '\''], false⟩

/-- Messages escape the double quote, and combining characters everywhere. -/
def EscapeStyle.message : EscapeStyle := ⟨['"'], true⟩

/-- The hexadecimal digits of a code point in braces, after a backslash and the letter `u`. -/
def bracedCode (c : Char) : List Char :=
  '\\' :: 'u' :: '\x7b' :: (Nat.toDigits 16 c.toNat ++ ['\x7d'])

/-- What stands for `c` in the written text; `extending` says whether a combining character has to
be escaped here. -/
def EscapeStyle.char (style : EscapeStyle) (extending : Bool) (c : Char) : List Char :=
  if c = '\x00' then ['\\', '0']
  else if c = '\t' then ['\\', 't']
  else if c = '\r' then ['\\', 'r']
  else if c = '\n' then ['\\', 'n']
  else if c = '\\' || style.quotes.contains c then ['\\', c]
  else if (extending && isExtending c) || !isPrintable c then bracedCode c
  else [c]

/-- The text between the quotes. -/
def EscapeStyle.body (style : EscapeStyle) : List Char → List Char
  | [] => []
  | c :: rest => style.char true c ++ rest.flatMap (style.char style.extendingAnywhere)

/-- The text written in the style, with double quotes around it. -/
def EscapeStyle.quoted (style : EscapeStyle) (s : String) : String :=
  .ofList ('"' :: (style.body s.toList ++ ['"']))

end Telemetry.Text
