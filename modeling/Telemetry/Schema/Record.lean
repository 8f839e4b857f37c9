import Telemetry.Json.Value
import Telemetry.Number.Shortest
import Telemetry.Text.Escape

/-!
# Records as JSON values

A record is read from an object, whose members may come in any order, or from a list that holds its
fields in the order of their declaration.  Members are taken in ascending order of their keys, and
the first failure ends the reading: an unknown key, a field that comes twice, under two of its
spellings, or a value that does not fit.  Fields that must be there are looked for afterwards.

* `ShapeFault` lists what can be wrong with the shape of a value, `ShapeFault.message` words it;
* `RecordShape` describes a record, `RecordShape.decode` reads one;
* `decodeText`, `decodeBool`, `decodeOptional` and `decodeList` read the values of fields.
-/

namespace Telemetry

open Json (Value Members)

/-- What was wanted where something else stands. -/
inductive Expected where
  | text
  | boolean
  | sequence
  | record (title : String)
  deriving DecidableEq, Repr

/-- The wording of what was wanted. -/
def Expected.message : Expected → String
  | .text => "a string"
  | .boolean => "a boolean"
  | .sequence => "a sequence"
  | .record title => "struct " ++ title

/-- What is wrong with the shape of a value. -/
inductive ShapeFault where
  /-- An object has a member that its record has no field for. -/
  | unknownField (key : String) (known : List String)
  /-- A field comes twice. -/
  | duplicateField (name : String)
  /-- A field that must be there is not. -/
  | missingField (name : String)
  /-- A value is of another kind than wanted. -/
  | invalidType (found : Value) (expected : Expected)
  /-- A list ends before a field that must be there. -/
  | tooShort (length : Nat) (title : String) (fields : Nat)
  /-- A list goes on behind the last field. -/
  | tooLong (length : Nat)
  /-- An element of a metric's metadata is neither a token nor a definition. -/
  | noVariant
  deriving Repr

/-- The words for a value of the wrong kind. -/
def foundMessage : Value → String
  | .null => "null"
  | .bool value => "boolean `" ++ toString value ++ "`"
  | .number (.integer value) => "integer `" ++ toString value ++ "`"
  | .number (.double word) => "floating point `" ++ word.text ++ "`"
  | .text value => "string " ++ Text.EscapeStyle.message.quoted value
  | .list _ => "sequence"
  | .object _ => "map"

/-- The wording of a fault. -/
def ShapeFault.message : ShapeFault → String
  | .unknownField key known =>
    "unknown field `" ++ key ++ "`, expected one of "
      ++ ", ".intercalate (known.map fun name => "`" ++ name ++ "`")
  | .duplicateField name => "duplicate field `" ++ name ++ "`"
  | .missingField name => "missing field `" ++ name ++ "`"
  | .invalidType found expected =>
    "invalid type: " ++ foundMessage found ++ ", expected " ++ expected.message
  | .tooShort length title fields =>
    "invalid length " ++ toString length ++ ", expected struct " ++ title ++ " with "
      ++ toString fields ++ " elements"
  | .tooLong length =>
    "invalid length " ++ toString length ++ ", expected fewer elements in array"
  | .noVariant => "data did not match any variant of untagged enum MetadataRefSpec"

/-- What reading a value gives. -/
abbrev Decoded (α : Type) := Except ShapeFault α

/-- Reads a text. -/
def decodeText : Value → Decoded String
  | .text value => .ok value
  | other => .error (.invalidType other .text)

/-- Reads a truth value. -/
def decodeBool : Value → Decoded Bool
  | .bool value => .ok value
  | other => .error (.invalidType other .boolean)

/-- Reads a list, each item with `item`. -/
def decodeList {α : Type} (item : Value → Decoded α) : Value → Decoded (List α)
  | .list items => items.mapM item
  | other => .error (.invalidType other .sequence)

/-- Reads `null` as nothing and anything else with `item`. -/
def decodeOptional {α : Type} (item : Value → Decoded α) : Value → Decoded (Option α)
  | .null => .ok none
  | other => some <$> item other

/-- A record `ρ` with the fields `φ`. -/
structure RecordShape (φ ρ : Type) where
  /-- The name that messages call the record by. -/
  title : String
  /-- The fields in the order of their declaration. -/
  fields : List φ
  /-- The name of a field. -/
  name : φ → String
  /-- The keys that a field may stand under, its name among them, in ascending order. -/
  spellings : φ → List String
  /-- Whether the field must be there. -/
  required : φ → Bool
  /-- The record whose fields are all left out. -/
  empty : ρ
  /-- Reads the value of a field into a record. -/
  put : φ → Value → ρ → Decoded ρ

namespace RecordShape

variable {φ ρ : Type} [DecidableEq φ]

/-- The field that a key spells. -/
def fieldOf? (shape : RecordShape φ ρ) (key : String) : Option φ :=
  shape.fields.find? fun field => (shape.spellings field).contains key

/-- Reads members one after the other; `seen` are the fields read already. -/
def readMembers (shape : RecordShape φ ρ) : (seen : List φ) → ρ → Members → Decoded (List φ × ρ)
  | seen, record, [] => .ok (seen, record)
  | seen, record, (key, value) :: rest =>
    match shape.fieldOf? key with
    | none => .error (.unknownField key (shape.fields.flatMap shape.spellings))
    | some field =>
      if field ∈ seen then .error (.duplicateField (shape.name field))
      else do readMembers shape (field :: seen) (← shape.put field value record) rest

/-- Reads values into the fields that they stand for. -/
def readItems (shape : RecordShape φ ρ) : ρ → List (φ × Value) → Decoded ρ
  | record, [] => .ok record
  | record, (field, value) :: rest => do
    readItems shape (← shape.put field value record) rest

/-- Reads a record from an object. -/
def ofMembers (shape : RecordShape φ ρ) (members : Members) : Decoded ρ := do
  let (seen, record) ← shape.readMembers [] shape.empty members
  match shape.fields.find? fun field => shape.required field && !decide (field ∈ seen) with
  | some field => .error (.missingField (shape.name field))
  | none => .ok record

/-- Reads a record from a list of its fields.  Fields that may be left out can be left off the
end. -/
def ofItems (shape : RecordShape φ ρ) (items : List Value) : Decoded ρ := do
  let record ← shape.readItems shape.empty (shape.fields.zip items)
  match (shape.fields.drop items.length).findIdx? shape.required with
  | some index =>
    .error (.tooShort (items.length + index) shape.title shape.fields.length)
  | none =>
    if shape.fields.length < items.length then .error (.tooLong items.length) else .ok record

/-- Reads a record. -/
def decode (shape : RecordShape φ ρ) : Value → Decoded ρ
  | .object members => shape.ofMembers members
  | .list items => shape.ofItems items
  | other => .error (.invalidType other (.record shape.title))

end RecordShape

end Telemetry
