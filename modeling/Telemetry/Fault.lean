import Telemetry.Schema.Load

/-!
# Faults

Everything that can end a run: defects of the text, faults of the document, broken rules of the
schema, identifiers that collide, files that cannot be read or written, and an artifact that is out
of date.  `Fault.message` words a fault; names and texts stand in it as they are.
-/

namespace Telemetry

/-- Why a file operation failed. -/
inductive FileFault where
  | missing
  | alreadyThere
  | notDirectory
  | isDirectory
  | busy
  | nameTooLong
  | notText
  | nulInPath
  /-- Another cause, worded by the system. -/
  | other (message : String)
  deriving DecidableEq, Repr

/-- The wording of a file fault. -/
def FileFault.message : FileFault → String
  | .missing => "No such file or directory (os error 2)"
  | .alreadyThere => "File exists (os error 17)"
  | .notDirectory => "Not a directory (os error 20)"
  | .isDirectory => "Is a directory (os error 21)"
  | .busy => "Device or resource busy (os error 16)"
  | .nameTooLong => "File name too long (os error 36)"
  | .notText => "stream did not contain valid UTF-8"
  | .nulInPath => "file name contained an unexpected NUL byte"
  | .other message => message

/-- Why a run ended. -/
inductive Fault where
  /-- The text is not JSON with comments. -/
  | malformed (defects : List Json.Defect)
  /-- The document has the wrong shape. -/
  | schema (cause : SchemaFault)
  /-- Two definitions of the pool share a name. -/
  | duplicateName (name : String)
  /-- A reference lacks its sigil. -/
  | malformedReference (metric token : String)
  /-- A reference names nothing in the pool. -/
  | unknownReference (metric reference : String)
  | unsupportedKind (metadata kind : String)
  | unsupportedUnit (metric unit : String)
  | invalidMetricName (name : String)
  /-- Two sources claim one identifier. -/
  | duplicateIdentifier (identifier first second : String)
  /-- Two metrics next to each other are out of order. -/
  | orderingViolation (previous next : String)
  | read (path : String) (cause : FileFault)
  | write (path : String) (cause : FileFault)
  /-- The artifact differs from what its schema generates. -/
  | outOfDate (path : String)
  deriving Repr

/-- What a step of a run gives. -/
abbrev Checked (α : Type) := Except Fault α

/-- The wording of a fault. -/
def Fault.message : Fault → String
  | .malformed defects =>
    "schema parse error: " ++ toString defects.length ++ " defect(s)"
      ++ String.join (defects.map fun d => "\n  " ++ d.message)
  | .schema cause => "schema error: " ++ cause.message
  | .duplicateName name => "duplicate metadata name '" ++ name ++ "' in metadata pool"
  | .malformedReference metric token =>
    "malformed metadata reference '" ++ token ++ "' in metric '" ++ metric
      ++ "': references must start with '$'"
  | .unknownReference metric reference =>
    "metric '" ++ metric ++ "' references unknown metadata '" ++ reference ++ "'"
  | .unsupportedKind metadata kind =>
    "metadata '" ++ metadata ++ "' has unsupported kind '" ++ kind ++ "'"
  | .unsupportedUnit metric unit =>
    "metric '" ++ metric ++ "' has unsupported unit '" ++ unit ++ "'"
  | .invalidMetricName name => "metric name '" ++ name ++ "' is not snake_case"
  | .duplicateIdentifier identifier first second =>
    "generated identifier '" ++ identifier ++ "' is produced by both '" ++ first ++ "' and '"
      ++ second ++ "'"
  | .orderingViolation previous next =>
    "metrics are not in alphabetical order: '" ++ previous ++ "' must come after '" ++ next ++ "'"
  | .read path cause => "failed to read '" ++ path ++ "': " ++ cause.message
  | .write path cause => "failed to write '" ++ path ++ "': " ++ cause.message
  | .outOfDate path => "'" ++ path ++ "' is out of date; regenerate it from the schema"

/-- Loads a document from a text. -/
def Document.load (text : String) : Checked Document :=
  match Json.parse text with
  | .error defects => .error (.malformed defects)
  | .ok value => (Document.ofValue value).mapError .schema

end Telemetry
