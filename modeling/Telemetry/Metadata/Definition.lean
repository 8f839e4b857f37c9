import Telemetry.Fault
import Telemetry.Text.Blank

/-!
# Metadata definitions

A definition is an entry whose name and description are trimmed, whose kind is known and whose
allowed values are free of repetitions.  A blank description is none, and an empty list of allowed
values leaves the definition unconstrained.

`MetadataDefinition.valueType` is the type of the values: the allowed ones if there are any,
whatever the kind, and the primitive type of the kind otherwise.
-/

namespace Telemetry

/-- The primitive kinds of metadata. -/
inductive MetadataKind where
  | text
  | integer
  | double
  | boolean
  deriving DecidableEq, Repr

/-- The kind that a word stands for.  Blanks around it and the case of its letters do not matter. -/
def MetadataKind.ofWord? (word : String) : Option MetadataKind :=
  match (Text.trim word).toLower with
  | "string" => some .text
  | "int" => some .integer
  | "integer" => some .integer
  | "double" => some .double
  | "number" => some .double
  | "bool" => some .boolean
  | "boolean" => some .boolean
  | _ => none

/-- The kind that the definition `metadata` declares, if it declares one. -/
def declaredKind (metadata : String) : Option String → Checked (Option MetadataKind)
  | none => .ok none
  | some word =>
    match MetadataKind.ofWord? word with
    | some kind => .ok (some kind)
    | none => .error (.unsupportedKind metadata word)

/-- A checked metadata definition. -/
structure MetadataDefinition where
  name : String
  kind : Option MetadataKind
  /-- The allowed values in the order written; none of them means that every value is allowed. -/
  allowedValues : List String
  required : Bool
  description : Option String
  deriving DecidableEq, Repr, Inhabited

/-- The type of the values of a definition. -/
inductive ValueType where
  | oneOf (values : List String)
  | primitive (kind : MetadataKind)
  deriving DecidableEq, Repr

namespace MetadataDefinition

/-- Whether the values are restricted to a list. -/
def isConstrained (d : MetadataDefinition) : Bool :=
  !d.allowedValues.isEmpty

/-- The type of the values; without a kind they are texts. -/
def valueType (d : MetadataDefinition) : ValueType :=
  if d.isConstrained then .oneOf d.allowedValues else .primitive (d.kind.getD .text)

/-- Checks an entry. -/
def ofEntry (entry : MetadataEntry) : Checked MetadataDefinition := do
  let name := Text.trim entry.name
  if name.isEmpty then throw (.schema .blankName)
  let kind ← declaredKind name entry.kind
  return {
    name
    kind
    allowedValues := (entry.allowedValues.getD []).eraseDups
    required := entry.required
    description := entry.description.bind Text.trimmed? }

end MetadataDefinition

end Telemetry
