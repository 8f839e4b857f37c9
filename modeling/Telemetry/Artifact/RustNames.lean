import Telemetry.Identifier.Derived
import Telemetry.Identifier.Scope
import Telemetry.Plan.Basic

/-!
# Names in Rust artifacts

* `typeName` names a structure or an enumeration: a type name with a suffix where it is a keyword or
  a name that the artifact uses for something else.
* `variantName` names a variant after an allowed value: its identifier with segments capitalized.
* `fieldName` names a field: the words of its identifier in lower case, joined by underscores.  A
  word ends at a character that is no letter or digit, before an upper-case letter that follows a
  lower-case one, and before the last of several upper-case letters if a lower-case one follows.
* `checkNames` rejects a plan in which two types, two fields of a structure or two variants of an
  enumeration would get one name.
-/

namespace Telemetry.Artifact.Rust

/-- The words that cannot be names. -/
def keywords : List String :=
  ["as", "break", "const", "continue", "crate", "else", "enum", "extern", "false", "fn", "for",
   "if", "impl", "in", "let", "loop", "match", "mod", "move", "mut", "pub", "ref", "return",
   "self", "Self", "static", "struct", "super", "trait", "true", "type", "unsafe", "use", "where",
   "while", "async", "await", "dyn", "abstract", "become", "box", "do", "final", "macro",
   "override", "priv", "try", "typeof", "unsized", "virtual", "yield"]

/-- The names of the standard library that the artifact uses as they are. -/
def reservedTypes : List String :=
  ["Option", "Some", "None", "String", "Vec", "Default", "ToString", "SystemTime", "fmt"]

/-- The types that every artifact declares. -/
def supportTypes : List String :=
  ["TelemetryType", "Unit", "MetadataEntry", "MetricDatum", "TelemetrySink"]

/-- Whether a name can begin the way the text does. -/
def startsName (text : String) : Bool :=
  text.toList.head?.any fun c => c == '_' || c.isAlpha

/-- The name of a type. -/
def typeName (raw : String) : String :=
  let name := if raw.isEmpty then "Type" else raw
  let name := if startsName name then name else "Type" ++ name
  if keywords.contains name || reservedTypes.contains name then name ++ "Type" else name

/-- The name of the variant for an allowed value. -/
def variantName (value : String) : String :=
  let name := pascalCase (asciiIdentifier value)
  let name := if name.isEmpty then "Variant" else name
  let name := if startsName name then name else "V" ++ name
  if keywords.contains name then name ++ "Value" else name

/-- Whether a word ends between two characters, given the one behind them. -/
def wordEndsBetween (c d : Char) (next : Option Char) : Bool :=
  (c.isLower && d.isUpper) || (c.isUpper && d.isUpper && next.any Char.isLower)

/-- The words of a run of letters and digits. -/
def camelWords : List Char → List (List Char)
  | [] => []
  | [c] => [[c]]
  | c :: d :: rest =>
    match camelWords (d :: rest) with
    | [] => [[c]]
    | word :: words =>
      if wordEndsBetween c d rest.head? then [c] :: word :: words else (c :: word) :: words

/-- The words of an identifier in lower case. -/
def words (identifier : String) : List String :=
  let runs := (identifier.toList.splitOnP fun c => !c.isAlphanum).filter fun run => !run.isEmpty
  (runs.flatMap camelWords).map fun word => .ofList (word.map Char.toLower)

/-- The name of a field. -/
def fieldName (identifier : String) : String :=
  let name := match words identifier with
    | [] => "field"
    | found => "_".intercalate found
  let name := if name.toList.head?.any Char.isDigit then "field_" ++ name else name
  if keywords.contains name then name ++ "_" else name

/-- The name of the structure of a metric's arguments, and of its variant among the events. -/
def metricType (metric : PlannedMetric) : String :=
  typeName metric.typeName

/-- The name of the enumeration of a constrained type. -/
def enumName (type : ConstrainedType) : String :=
  typeName (pascalCase type.identifier)

/-- Claims names one after the other. -/
def claimAll (scope : IdentifierScope) (claims : List Claim) : Checked IdentifierScope :=
  claims.foldlM (fun scope c => scope.claim c.identifier c.source) scope

/-- Claims the names that a metric brings: its type among all types, and its fields. -/
def claimMetric (types : IdentifierScope) (metric : PlannedMetric) : Checked IdentifierScope := do
  let types ← types.claim (metricType metric) ("metric '" ++ metric.name ++ "'")
  let _ ← claimAll {} (metric.fields.map fun field => ⟨fieldName field.identifier, field.key⟩)
  return types

/-- Claims the names that a constrained type brings: its own among all types, and its variants. -/
def claimConstrained (types : IdentifierScope) (type : ConstrainedType) :
    Checked IdentifierScope := do
  let types ← types.claim (enumName type) ("metadata '" ++ type.source ++ "'")
  let _ ← claimAll {} (type.values.map fun value => ⟨variantName value, value⟩)
  return types

/-- Checks that no two types, fields of a structure or variants of an enumeration get one name. -/
def checkNames (plan : Plan) : Checked Unit := do
  let types ← claimAll {} (supportTypes.map fun name => ⟨name, "generated support type"⟩)
  let types ← plan.metrics.foldlM claimMetric types
  let _ ← plan.constrainedTypes.foldlM claimConstrained types

end Telemetry.Artifact.Rust
