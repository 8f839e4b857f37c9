import Telemetry.Identifier.Derived
import Telemetry.Identifier.Scope
import Telemetry.Plan.Basic

/-!
# Making a plan

Metrics are planned one after the other.  A draft holds what the metrics so far have come to: the
plan itself, the type names claimed, and the field identifiers claimed in the whole document.

* Two metrics collide if their type names differ at most in the case of letters.
* An identifier of a field belongs to one metadata name in the whole document, and a metric has
  each of its fields once; the identifiers of the implicit fields are taken from the start.
* A field with allowed values gets the entry of the table that has its identifier, whose values
  have to be the same; the first such field makes the entry.

`Plan.ofMetrics` plans a list of metrics and stops at the first collision.
-/

namespace Telemetry

/-- The entry of the table for a field of `metric`: the entry with the identifier, if it has the
same values, or a new one at the end. -/
def internType (types : List ConstrainedType) (metric : String) (definition : MetadataDefinition)
    (identifier : String) (values : List String) : Checked (Nat × List ConstrainedType) :=
  match types.zipIdx.find? fun (type, _) => type.identifier == identifier with
  | some (type, index) =>
    if type.values = values then .ok (index, types)
    else .error (.duplicateIdentifier identifier type.source
      (definition.name ++ " (redefined in metric '" ++ metric ++ "')"))
  | none => .ok (types.length, types ++ [⟨definition.name, identifier, values⟩])

/-- What the metadata of one metric has come to so far. -/
structure FieldDraft where
  /-- The identifiers claimed in the document. -/
  identifiers : IdentifierScope
  /-- The identifiers claimed in the metric. -/
  own : IdentifierScope
  types : List ConstrainedType
  fields : List ArgumentField

/-- Plans the next definition of `metric`. -/
def FieldDraft.add (metric : String) (draft : FieldDraft) (definition : MetadataDefinition) :
    Checked FieldDraft := do
  let identifier := asciiIdentifier definition.name
  let identifiers ← draft.identifiers.claim identifier definition.name
  let own ← draft.own.claim identifier definition.name
  if draft.fields.any fun field => field.identifier == identifier then
    throw (.duplicateIdentifier identifier definition.name
      (definition.name ++ " (repeated in metric '" ++ metric ++ "')"))
  let (type, types) ← match definition.valueType with
    | .primitive kind => pure (FieldType.primitive kind, draft.types)
    | .oneOf values => do
      let (index, types) ← internType draft.types metric definition identifier values
      pure (FieldType.constrained index, types)
  let field : ArgumentField := {
    key := definition.name
    identifier
    type
    required := definition.required
    description := definition.description
    implicit := none }
  return { identifiers, own, types, fields := draft.fields ++ [field] }

/-- What the metrics so far have come to. -/
structure Draft where
  /-- The type names of metrics; letter case does not tell them apart. -/
  typeNames : IdentifierScope := { foldCase := true }
  identifiers : IdentifierScope := {}
  plan : Plan := ⟨[], []⟩

/-- The scope of a metric's fields, in which the implicit fields have claimed their identifiers. -/
def implicitScope : IdentifierScope where
  claims := (ImplicitField.all.map fun f => ⟨f.identifier, f.source⟩).reverse

/-- Plans the next metric. -/
def Draft.add (draft : Draft) (metric : Metric MetadataDefinition) : Checked Draft := do
  let typeName := pascalCase metric.name
  if draft.plan.metrics.any fun planned => planned.name == metric.name then
    throw (.duplicateIdentifier typeName metric.name (metric.name ++ " (defined twice)"))
  let typeNames ← draft.typeNames.claim typeName metric.name
  let fields ← metric.metadata.foldlM (FieldDraft.add metric.name)
    ⟨draft.identifiers, implicitScope, draft.plan.constrainedTypes, []⟩
  let planned : PlannedMetric := {
    name := metric.name
    typeName
    functionName := recordingFunction metric.name
    constantName := constantName metric.name
    unit := metric.unit
    description := metric.description
    fields := fields.fields ++ ImplicitField.all.map ImplicitField.toField }
  return {
    typeNames
    identifiers := fields.identifiers
    plan := ⟨draft.plan.metrics ++ [planned], fields.types⟩ }

/-- The plan of a list of metrics. -/
def Plan.ofMetrics (metrics : List (Metric MetadataDefinition)) : Checked Plan :=
  Draft.plan <$> metrics.foldlM Draft.add {}

end Telemetry
