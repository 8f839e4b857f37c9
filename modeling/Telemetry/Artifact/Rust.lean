import Telemetry.Artifact.Lines
import Telemetry.Artifact.RustNames
import Telemetry.Text.Escape

/-!
# Rust artifacts

A Rust artifact stands alone: it declares the units, the datum that is recorded and the trait of
the sink, then an enumeration of the events, an enumeration for every constrained type, and for
every metric a structure of its arguments and a function that hands a datum to a sink.

`render` is the text of a plan.
-/

namespace Telemetry.Artifact.Rust

/-- A text in double quotes. -/
def literal (s : String) : String :=
  Text.EscapeStyle.literal.quoted s

/-- The attribute of an enumeration without data. -/
def enumAttribute : String := "#[derive(Debug, Clone, Copy, PartialEq, Eq, Hash)]"

/-- The documentation lines of a description. -/
def commentLines (description : String) : List String :=
  (Text.trimmedLines description).map fun line => "/// " ++ commentLine line

/-- The lines that begin every artifact. -/
def header : List String :=
  ["// Generated by telemetry-gen from the telemetry definitions schema.",
   "// WARNING: This file is generated. Do not edit manually.",
   "",
   "use std::fmt;",
   "use std::time::SystemTime;"]

/-- The method that gives the text of each variant of an enumeration. -/
def asStrLines (name : String) (variants : List (String × String)) : List String :=
  enclosed ("impl " ++ name ++ " \x7b")
    (enclosed "pub fn as_str(self) -> &'static str \x7b"
      (enclosed "match self \x7b"
        (variants.map fun (variant, shown) =>
          name ++ "::" ++ variant ++ " => " ++ literal shown ++ ",")
        "\x7d")
      "\x7d")
    "\x7d"

/-- An enumeration with its attribute. -/
def enumLines (name : String) (variants : List (String × String)) : List String :=
  enumAttribute :: enclosed ("pub enum " ++ name ++ " \x7b")
    (variants.map fun (variant, _) => variant ++ ",") "\x7d"

/-- The types that every artifact declares. -/
def supportLines : List String :=
  let units := MetricUnit.all.map fun unit => (unit.sinkName, unit.sinkName)
  ["/// Units understood by the telemetry sink."]
    ++ enumLines "Unit" units ++ [""] ++ asStrLines "Unit" units ++ [""]
    ++ ["/// One metadata key/value pair attached to a datum.",
        "#[derive(Debug, Clone, PartialEq, Eq)]"]
    ++ enclosed "pub struct MetadataEntry \x7b"
      ["pub key: &'static str,",
       "pub value: String,"]
      "\x7d" ++ [""]
    ++ ["/// A single recorded metric event.",
        "#[derive(Debug, Clone, PartialEq)]"]
    ++ enclosed "pub struct MetricDatum \x7b"
      ["pub create_time: SystemTime,",
       "pub metric_name: TelemetryType,",
       "pub value: f64,",
       "pub unit: Unit,",
       "pub metadata: Vec<MetadataEntry>,"]
      "\x7d" ++ [""]
    ++ ["/// Destination of recorded metric events."]
    ++ enclosed "pub trait TelemetrySink \x7b"
      ["fn record(&self, datum: MetricDatum);"]
      "\x7d"

/-- An enumeration whose variants have texts, with what makes it printable. -/
def textEnumLines (name : String) (variants : List (String × String)) : List String :=
  enumLines name variants ++ [""] ++ asStrLines name variants ++ [""]
    ++ enclosed ("impl fmt::Display for " ++ name ++ " \x7b")
      (enclosed "fn fmt(&self, f: &mut fmt::Formatter<'_>) -> fmt::Result \x7b"
        ["f.write_str(self.as_str())"]
        "\x7d")
      "\x7d"

/-- The enumeration of events. -/
def eventLines (plan : Plan) : List String :=
  ["/// Names of every metric in the schema."]
    ++ textEnumLines "TelemetryType"
      (plan.metrics.map fun metric => (metricType metric, metric.name))

/-- The enumeration of a constrained type. -/
def constrainedLines (type : ConstrainedType) : List String :=
  ["/// Allowed values of the `" ++ commentLine type.source ++ "` metadata field."]
    ++ textEnumLines (enumName type) (type.values.map fun value => (variantName value, value))

/-- The type of a field that is there; `types` is the table of constrained types. -/
def fieldType (types : List ConstrainedType) : FieldType → String
  | .constrained index => (types[index]?.map enumName).getD ""
  | .primitive .text => "String"
  | .primitive .integer => "i64"
  | .primitive .double => "f64"
  | .primitive .boolean => "bool"
  | .timestamp => "SystemTime"

/-- A field of a structure behind its description. -/
def fieldLines (types : List ConstrainedType) (field : ArgumentField) : List String :=
  let type := fieldType types field.type
  (field.description.map commentLines).getD []
    ++ ["pub " ++ fieldName field.identifier ++ ": "
      ++ (if field.required then type else "Option<" ++ type ++ ">") ++ ","]

/-- The name of the function that records a metric. -/
def functionName (metric : PlannedMetric) : String :=
  "record_" ++ metric.name

/-- The structure of a metric's arguments. -/
def structLines (types : List ConstrainedType) (metric : PlannedMetric) : List String :=
  ["/// Arguments for [`" ++ functionName metric ++ "`].",
   if metric.argsOptional then "#[derive(Debug, Clone, Default, PartialEq)]"
   else "#[derive(Debug, Clone, PartialEq)]"]
    ++ enclosed ("pub struct " ++ metricType metric ++ " \x7b")
      (metric.fields.flatMap (fieldLines types)) "\x7d"

/-- The name of the field of an implicit field. -/
def implicitName (metric : PlannedMetric) (implicit : ImplicitField) : String :=
  match metric.fields.find? fun field => field.implicit == some implicit with
  | some field => fieldName field.identifier
  | none => implicit.identifier

/-- The entry that passes a field to the sink. -/
def metadataEntry (field : ArgumentField) : String :=
  let name := fieldName field.identifier
  let value :=
    if field.required then "args." ++ name ++ ".to_string()"
    else "args." ++ name ++ ".as_ref().map(ToString::to_string).unwrap_or_default()"
  "MetadataEntry \x7b key: " ++ literal field.key ++ ", value: " ++ value ++ " \x7d,"

/-- The entries that pass the metadata of a metric to the sink. -/
def metadataLines (metric : PlannedMetric) : List String :=
  match metric.metadataFields with
  | [] => ["metadata: Vec::new(),"]
  | fields => enclosed "metadata: vec![" (fields.map metadataEntry) "],"

/-- The comment above a recording function. -/
def functionComment (metric : PlannedMetric) : List String :=
  match metric.description with
  | some description => commentLines description
  | none => ["/// Records the `" ++ metric.name ++ "` metric."]

/-- The recording function of a metric. -/
def functionLines (metric : PlannedMetric) : List String :=
  let type := metricType metric
  let args := if metric.argsOptional then "Option<" ++ type ++ ">" else type
  let unwrap := if metric.argsOptional then ["let args = args.unwrap_or_default();"] else []
  functionComment metric
    ++ enclosed
      ("pub fn " ++ functionName metric ++ "(sink: &dyn TelemetrySink, args: " ++ args ++ ") \x7b")
      (unwrap
        ++ enclosed "sink.record(MetricDatum \x7b"
          (["create_time: args." ++ implicitName metric .createTime
              ++ ".unwrap_or_else(SystemTime::now),",
            "metric_name: TelemetryType::" ++ type ++ ",",
            "value: args." ++ implicitName metric .value ++ ".unwrap_or(1.0),",
            "unit: Unit::" ++ metric.unit.sinkName ++ ","]
            ++ metadataLines metric)
          "\x7d);")
      "\x7d"

/-- The lines of a plan. -/
def lines (plan : Plan) : List String :=
  header ++ [""] ++ supportLines ++ [""] ++ eventLines plan
    ++ plan.constrainedTypes.flatMap (fun type => [""] ++ constrainedLines type)
    ++ plan.metrics.flatMap fun metric =>
      [""] ++ structLines plan.constrainedTypes metric ++ [""] ++ functionLines metric

/-- The text of a plan, if no two names of a kind coincide. -/
def render (plan : Plan) : Checked String := do
  checkNames plan
  return joinLines (lines plan)

end Telemetry.Artifact.Rust
