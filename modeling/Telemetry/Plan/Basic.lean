import Telemetry.Metric.Definition

/-!
# Plans

A plan fixes what all targets share: the order of metrics and fields, the identifiers derived from
names, and the table of constrained types, each of which stands there once however many fields use
it.  The arguments of a metric are a field per metadata definition, followed by two fields that
every metric has: the time of the event and its value.
-/

namespace Telemetry

/-- A closed list of values that fields can share. -/
structure ConstrainedType where
  /-- The name of the definition that the type was first met in. -/
  source : String
  identifier : String
  values : List String
  deriving DecidableEq, Repr, Inhabited

/-- The type of a field. -/
inductive FieldType where
  /-- An entry of the table of constrained types. -/
  | constrained (index : Nat)
  | primitive (kind : MetadataKind)
  | timestamp
  deriving DecidableEq, Repr

/-- The fields that every metric has beside its metadata. -/
inductive ImplicitField where
  /-- The time of the event; the time of the call if left out. -/
  | createTime
  /-- The value; one if left out. -/
  | value
  deriving DecidableEq, Repr

/-- A field of the arguments of a metric. -/
structure ArgumentField where
  /-- The name under which the sink gets the field. -/
  key : String
  identifier : String
  type : FieldType
  required : Bool
  description : Option String
  implicit : Option ImplicitField
  deriving DecidableEq, Repr

/-- A metric with everything derived that targets need. -/
structure PlannedMetric where
  name : String
  typeName : String
  functionName : String
  constantName : String
  unit : MetricUnit
  description : Option String
  /-- The metadata in the order of the schema, then the implicit fields. -/
  fields : List ArgumentField
  deriving DecidableEq, Repr

/-- Everything that a target needs. -/
structure Plan where
  metrics : List PlannedMetric
  constrainedTypes : List ConstrainedType
  deriving DecidableEq, Repr

namespace ImplicitField

/-- The implicit fields in their order. -/
def all : List ImplicitField := [.createTime, .value]

/-- The key and identifier of an implicit field. -/
def identifier : ImplicitField → String
  | .createTime => "createTime"
  | .value => "value"

/-- The source that claims the identifier of an implicit field. -/
def source (f : ImplicitField) : String :=
  "implicit field '" ++ f.identifier ++ "'"

/-- The argument that an implicit field stands for. -/
def toField (f : ImplicitField) : ArgumentField where
  key := f.identifier
  identifier := f.identifier
  type := match f with
    | .createTime => .timestamp
    | .value => .primitive .double
  required := false
  description := some <| match f with
    | .createTime => "The time that the event took place"
    | .value => "Value based on unit and call type"
  implicit := some f

end ImplicitField

namespace PlannedMetric

/-- The fields that go to the sink as metadata. -/
def metadataFields (metric : PlannedMetric) : List ArgumentField :=
  metric.fields.filter fun field => field.implicit.isNone

/-- Whether the arguments can be left out altogether. -/
def argsOptional (metric : PlannedMetric) : Bool :=
  metric.metadataFields.all fun field => !field.required

end PlannedMetric

end Telemetry
