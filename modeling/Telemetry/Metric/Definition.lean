import Telemetry.Metadata.Definition
import Telemetry.Metric.Unit

/-!
# Metrics

A metric has a name, a unit, a description and a list of metadata.  What stands in that list depends
on the stage: first definitions and references as written, later definitions only.

Names of metrics are in snake case: segments of lower-case ASCII letters and digits, joined by
underscores, the first segment beginning with a letter.
-/

namespace Telemetry

/-- A metric whose metadata elements are of type `α`. -/
structure Metric (α : Type) where
  name : String
  unit : MetricUnit
  description : Option String
  metadata : List α
  deriving DecidableEq, Repr, Inhabited

/-- A metadata element of a metric whose references have not been looked up. -/
inductive MetadataSource where
  | inline (definition : MetadataDefinition)
  /-- A reference as written, with its sigil if it has one. -/
  | reference (token : String)
  deriving DecidableEq, Repr

/-- Whether `c` may stand in a segment of a metric's name. -/
def isSegmentChar (c : Char) : Bool :=
  c.isLower || c.isDigit

/-- Whether a metric may have the name. -/
def isSnakeCase (name : String) : Bool :=
  name.toList.head?.any Char.isLower &&
    (name.toList.splitOn '_').all fun segment => !segment.isEmpty && segment.all isSegmentChar

/-- Checks an element of a metric's metadata; references are looked up later. -/
def MetadataSource.ofElement : MetadataElement → Checked MetadataSource
  | .reference token => .ok (.reference token)
  | .inline entry => do return .inline (← MetadataDefinition.ofEntry entry)

/-- Checks a metric as written: its name, its unit, then its definitions. -/
def Metric.ofEntry (entry : MetricEntry) : Checked (Metric MetadataSource) := do
  if !isSnakeCase entry.name then throw (.invalidMetricName entry.name)
  match MetricUnit.ofWord? entry.unit with
  | none => throw (.unsupportedUnit entry.name entry.unit)
  | some unit =>
    return {
      name := entry.name
      unit
      metadata := ← entry.metadata.mapM MetadataSource.ofElement
      description := entry.description.bind Text.trimmed? }

end Telemetry
