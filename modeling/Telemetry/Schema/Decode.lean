import Telemetry.Schema.Document
import Telemetry.Schema.Record

/-!
# Reading documents from JSON values

The three records of a schema document, with the keys their fields may stand under:

* a metadata definition: `name`, `kind` (or `type`), `allowedValues`, `required`, `description`;
* a metric: `name`, `unit` (or `type`), `description`, `metadata`;
* the document: `metadata` (or `metadataTypes`), `metrics`.

An element of a metric's metadata is a token if it is a text, and otherwise has to be a definition.
-/

namespace Telemetry

open Json (Value)

/-- The fields of a metadata definition. -/
inductive MetadataField where
  | name
  | kind
  | allowedValues
  | required
  | description
  deriving DecidableEq, Repr

/-- A metadata definition as a record. -/
def MetadataEntry.shape : RecordShape MetadataField MetadataEntry where
  title := "MetadataSpec"
  fields := [.name, .kind, .allowedValues, .required, .description]
  name
    | .name => "name"
    | .kind => "kind"
    | .allowedValues => "allowedValues"
    | .required => "required"
    | .description => "description"
  spellings
    | .name => ["name"]
    | .kind => ["kind", "type"]
    | .allowedValues => ["allowedValues"]
    | .required => ["required"]
    | .description => ["description"]
  required field := field == .name
  empty := { name := "" }
  put
    | .name, value, entry => do return { entry with name := ← decodeText value }
    | .kind, value, entry => do return { entry with kind := ← decodeOptional decodeText value }
    | .allowedValues, value, entry => do
      return { entry with allowedValues := ← decodeOptional (decodeList decodeText) value }
    | .required, value, entry => do return { entry with required := ← decodeBool value }
    | .description, value, entry => do
      return { entry with description := ← decodeOptional decodeText value }

/-- Reads a metadata definition. -/
def MetadataEntry.decode (value : Value) : Decoded MetadataEntry :=
  MetadataEntry.shape.decode value

/-- Reads an element of a metric's metadata.  What is wrong inside a definition is not told. -/
def MetadataElement.decode : Value → Decoded MetadataElement
  | .text token => .ok (.reference token)
  | other =>
    match MetadataEntry.decode other with
    | .ok entry => .ok (.inline entry)
    | .error _ => .error .noVariant

/-- The fields of a metric. -/
inductive MetricField where
  | name
  | unit
  | description
  | metadata
  deriving DecidableEq, Repr

/-- A metric as a record. -/
def MetricEntry.shape : RecordShape MetricField MetricEntry where
  title := "MetricSpec"
  fields := [.name, .unit, .description, .metadata]
  name
    | .name => "name"
    | .unit => "unit"
    | .description => "description"
    | .metadata => "metadata"
  spellings
    | .name => ["name"]
    | .unit => ["type", "unit"]
    | .description => ["description"]
    | .metadata => ["metadata"]
  required field := field == .name || field == .unit
  empty := { name := "", unit := "" }
  put
    | .name, value, entry => do return { entry with name := ← decodeText value }
    | .unit, value, entry => do return { entry with unit := ← decodeText value }
    | .description, value, entry => do
      return { entry with description := ← decodeOptional decodeText value }
    | .metadata, value, entry => do
      return { entry with metadata := ← decodeList MetadataElement.decode value }

/-- Reads a metric. -/
def MetricEntry.decode (value : Value) : Decoded MetricEntry :=
  MetricEntry.shape.decode value

/-- The fields of a document. -/
inductive DocumentField where
  | metadata
  | metrics
  deriving DecidableEq, Repr

/-- A document as a record. -/
def Document.shape : RecordShape DocumentField Document where
  title := "SchemaDocument"
  fields := [.metadata, .metrics]
  name
    | .metadata => "metadata"
    | .metrics => "metrics"
  spellings
    | .metadata => ["metadata", "metadataTypes"]
    | .metrics => ["metrics"]
  required _ := false
  empty := {}
  put
    | .metadata, value, document => do
      return { document with metadata := ← decodeList MetadataEntry.decode value }
    | .metrics, value, document => do
      return { document with metrics := ← decodeList MetricEntry.decode value }

/-- Reads a document. -/
def Document.decode (value : Value) : Decoded Document :=
  Document.shape.decode value

end Telemetry
