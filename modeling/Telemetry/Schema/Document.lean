import Telemetry.Json.Value

/-!
# Schema documents as written

A document lists reusable metadata definitions, the pool, and metrics.  A metric lists its metadata:
each element is a definition of its own or a token that refers to the pool.  Nothing here has been
checked beyond its shape; texts stand as they were written.

`Document.toValue` writes a document as a JSON value under the main field names, leaving out what
is absent.
-/

namespace Telemetry

open Json (Value)

/-- A metadata definition as written. -/
structure MetadataEntry where
  name : String
  kind : Option String := none
  allowedValues : Option (List String) := none
  required : Bool := false
  description : Option String := none
  deriving DecidableEq, Repr, Inhabited

/-- An element of a metric's metadata as written. -/
inductive MetadataElement where
  | reference (token : String)
  | inline (entry : MetadataEntry)
  deriving DecidableEq, Repr

/-- A metric as written. -/
structure MetricEntry where
  name : String
  unit : String
  description : Option String := none
  metadata : List MetadataElement := []
  deriving DecidableEq, Repr, Inhabited

/-- A schema document as written. -/
structure Document where
  metadata : List MetadataEntry := []
  metrics : List MetricEntry := []
  deriving DecidableEq, Repr, Inhabited

/-- A member that is left out when its value is absent. -/
def memberIfSome {α : Type} (key : String) (toValue : α → Value) :
    Option α → List (String × Value)
  | some a => [(key, toValue a)]
  | none => []

/-- The JSON value of a list of texts. -/
def textsToValue (texts : List String) : Value :=
  .list (texts.map .text)

/-- The JSON value of a metadata definition. -/
def MetadataEntry.toValue (entry : MetadataEntry) : Value :=
  .object <| memberIfSome "allowedValues" textsToValue entry.allowedValues
    ++ memberIfSome "description" .text entry.description
    ++ memberIfSome "kind" .text entry.kind
    ++ [("name", .text entry.name), ("required", .bool entry.required)]

/-- The JSON value of an element of a metric's metadata. -/
def MetadataElement.toValue : MetadataElement → Value
  | .reference token => .text token
  | .inline entry => entry.toValue

/-- The JSON value of a metric. -/
def MetricEntry.toValue (entry : MetricEntry) : Value :=
  .object <| memberIfSome "description" .text entry.description
    ++ [("metadata", .list (entry.metadata.map MetadataElement.toValue)),
        ("name", .text entry.name), ("unit", .text entry.unit)]

/-- The JSON value of a document. -/
def Document.toValue (document : Document) : Value :=
  .object [("metadata", .list (document.metadata.map MetadataEntry.toValue)),
    ("metrics", .list (document.metrics.map MetricEntry.toValue))]

end Telemetry
