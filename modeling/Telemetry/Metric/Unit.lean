import Telemetry.Text.Blank

/-!
# Units

The units that a metric can be measured in, with the spelling of a schema and the spelling of the
sink that receives the metric.
-/

namespace Telemetry

/-- A unit of a metric. -/
inductive MetricUnit where
  | none
  | count
  | milliseconds
  | bytes
  | percent
  deriving DecidableEq, Repr, Inhabited

namespace MetricUnit

/-- All units in order. -/
def all : List MetricUnit := [.none, .count, .milliseconds, .bytes, .percent]

/-- The spelling in a schema. -/
def name : MetricUnit → String
  | .none => "none"
  | .count => "count"
  | .milliseconds => "milliseconds"
  | .bytes => "bytes"
  | .percent => "percent"

/-- The spelling of the sink. -/
def sinkName : MetricUnit → String
  | .none => "None"
  | .count => "Count"
  | .milliseconds => "Milliseconds"
  | .bytes => "Bytes"
  | .percent => "Percent"

/-- The unit that a word stands for.  Blanks around it and the case of its letters do not matter. -/
def ofWord? (word : String) : Option MetricUnit :=
  all.find? fun unit => unit.name == (Text.trim word).toLower

end MetricUnit

end Telemetry
