import Telemetry.Metadata.Pool
import Telemetry.Metric.Definition

/-!
# References to the pool

A reference is a token that begins with the sigil `$`; the rest of the token, as it is, names a
definition of the pool.

* `Metric.resolve` replaces the references of a metric by the definitions they name, and
  `resolveAll` does so for a list of metrics; both stop at the first reference that fails.
* `Document.checkSigils`, `Document.checkOrder` and `Document.checkConventions` check how a document
  is written before anything is looked up.
-/

namespace Telemetry

/-- The first character of a reference. -/
def sigil : Char := '$'

/-- The name that a token refers to, if it begins with the sigil. -/
def referenceName? (token : String) : Option String :=
  match token.toList with
  | [] => none
  | c :: name => if c = sigil then some (.ofList name) else none

/-- The definition that an element of the metadata of `metric` stands for. -/
def MetadataSource.resolve (pool : MetadataPool) (metric : String) :
    MetadataSource → Checked MetadataDefinition
  | .inline definition => .ok definition
  | .reference token =>
    match referenceName? token with
    | none => .error (.malformedReference metric token)
    | some name =>
      match pool.get? name with
      | none => .error (.unknownReference metric name)
      | some definition => .ok definition

/-- The metric with its references replaced, in the order of its metadata. -/
def Metric.resolve (pool : MetadataPool) (metric : Metric MetadataSource) :
    Checked (Metric MetadataDefinition) := do
  let metadata ← metric.metadata.mapM (MetadataSource.resolve pool metric.name)
  return { metric with metadata }

/-- The metrics with their references replaced. -/
def resolveAll (pool : MetadataPool) (metrics : List (Metric MetadataSource)) :
    Checked (List (Metric MetadataDefinition)) :=
  metrics.mapM (Metric.resolve pool)

/-- Checks that an element of the metadata of `metric` begins with the sigil if it is a token. -/
def MetadataElement.checkSigil (metric : String) : MetadataElement → Checked Unit
  | .inline _ => .ok ()
  | .reference token =>
    if (referenceName? token).isSome then .ok () else .error (.malformedReference metric token)

/-- Checks that every token of the metrics begins with the sigil. -/
def Document.checkSigils (document : Document) : Checked Unit :=
  document.metrics.forM fun metric => metric.metadata.forM (MetadataElement.checkSigil metric.name)

/-- Checks that every name is smaller than the next one, by the order of code points. -/
def checkAscending : List String → Checked Unit
  | previous :: next :: rest =>
    if previous < next then checkAscending (next :: rest)
    else .error (.orderingViolation previous next)
  | _ => .ok ()

/-- Checks that the metrics are listed in strictly ascending order of their names. -/
def Document.checkOrder (document : Document) : Checked Unit :=
  checkAscending (document.metrics.map MetricEntry.name)

/-- Checks the sigils and, if asked for, the order. -/
def Document.checkConventions (document : Document) (sorted : Bool) : Checked Unit := do
  document.checkSigils
  if sorted then document.checkOrder

end Telemetry
