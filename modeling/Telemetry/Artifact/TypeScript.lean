import Telemetry.Artifact.Lines
import Telemetry.Artifact.Target
import Telemetry.Identifier.Scope
import Telemetry.Plan.Basic

/-!
# TypeScript artifacts

A TypeScript artifact declares an enumeration of the events, a union type for every constrained
type, and for every metric an interface of its arguments and a function that passes them to the
sink.

* `typeName` keeps the names of declarations away from keywords and global types;
* `checkNames` rejects a plan in which two declarations would get one name;
* `literalBody` writes a text between single quotes, `blockComment` inside a block comment;
* `render` is the text of a plan.
-/

namespace Telemetry.Artifact.TypeScript

/-- The words that cannot name a declaration. -/
def keywords : List String :=
  ["break", "case", "catch", "class", "const", "continue", "debugger", "default", "delete", "do",
   "else", "enum", "export", "extends", "false", "finally", "for", "function", "if", "import", "in",
   "instanceof", "new", "null", "return", "super", "switch", "this", "throw", "true", "try",
   "typeof", "var", "void", "while", "with", "as", "implements", "interface", "let", "package",
   "private", "protected", "public", "static", "yield", "any", "boolean", "constructor", "declare",
   "get", "module", "require", "number", "set", "string", "symbol", "type", "from", "of",
   "readonly", "keyof", "namespace", "abstract", "never", "object", "unknown", "bigint", "override"]

/-- The global types that a declaration must not hide. -/
def reservedTypes : List String :=
  ["Array", "Boolean", "Date", "Error", "Function", "Map", "Number", "Object", "Partial", "Promise",
   "Record", "RegExp", "Set", "String", "Symbol"]

/-- The name of the enumeration of events. -/
def eventEnum : String := "TelemetryType"

/-- The name of the declaration for an identifier. -/
def typeName (identifier : String) : String :=
  if keywords.contains identifier || reservedTypes.contains identifier then identifier ++ "Type"
  else identifier

/-- The name of a metric's interface. -/
def interfaceName (metric : PlannedMetric) : String :=
  typeName metric.typeName

/-- The names of the declarations of a plan with their sources, in the order in which they are
claimed. -/
def declarations (plan : Plan) : List Claim :=
  ⟨eventEnum, "event-name enumeration"⟩
    :: plan.metrics.map (fun metric => ⟨interfaceName metric, "metric '" ++ metric.name ++ "'"⟩)
    ++ plan.constrainedTypes.map fun type =>
      ⟨typeName type.identifier, "metadata '" ++ type.source ++ "'"⟩

/-- Checks that no two declarations get one name. -/
def checkNames (plan : Plan) : Checked Unit := do
  let _ ← (declarations plan).foldlM (fun scope c => scope.claim c.identifier c.source)
    ({} : IdentifierScope)

/-- What stands for `c` between single quotes. -/
def literalChar (c : Char) : List Char :=
  if c = '\\' then ['\\', '\\']
  else if c = '\'' then ['\\', '\'']
  else if c = '\n' then ['\\', 'n']
  else if c = '\r' then ['\\', 'r']
  else if c = '\t' then ['\\', 't']
  else if Text.isLineBreaking c then
    let digits := Nat.toDigits 16 c.toNat
    '\\' :: 'u' :: (List.replicate (4 - digits.length) '0' ++ digits)
  else [c]

/-- A text in single quotes. -/
def literal (s : String) : String :=
  .ofList ('\'' :: (s.toList.flatMap literalChar ++ ['\'']))

/-- Puts a backslash into every end mark of a block comment. -/
def breakCommentEnds : List Char → List Char
  | '*' :: '/' :: rest => '*' :: '\\' :: '/' :: breakCommentEnds rest
  | c :: rest => c :: breakCommentEnds rest
  | [] => []

/-- A line of a description that can stand in either kind of comment. -/
def blockComment (line : String) : String :=
  .ofList (breakCommentEnds (commentLine line).toList)

/-- The comment lines of a description, each behind a mark. -/
def commentLines (mark : String) (description : String) : List String :=
  (Text.trimmedLines description).map fun line => mark ++ blockComment line

/-- The lines that begin every artifact. -/
def header : List String :=
  ["/*!",
   " * Generated by telemetry-gen from the telemetry definitions schema.",
   " * WARNING: This file is generated. Do not edit manually.",
   " */"]

/-- The enumeration of events. -/
def eventLines (plan : Plan) : List String :=
  enclosed ("export enum " ++ eventEnum ++ " \x7b")
    (plan.metrics.map fun metric => metric.constantName ++ " = " ++ literal metric.name ++ ",")
    "\x7d"

/-- The union type of a constrained type. -/
def unionLine (type : ConstrainedType) : String :=
  "export type " ++ typeName type.identifier ++ " = " ++ " | ".intercalate (type.values.map literal)

/-- The type of a field; `types` is the table of constrained types. -/
def fieldType (types : List ConstrainedType) : FieldType → String
  | .constrained index => (types[index]?.map fun type => typeName type.identifier).getD ""
  | .primitive .text => "string"
  | .primitive .integer => "number"
  | .primitive .double => "number"
  | .primitive .boolean => "boolean"
  | .timestamp => "Date"

/-- A field of an interface behind its description. -/
def fieldLines (types : List ConstrainedType) (field : ArgumentField) : List String :=
  (field.description.map (commentLines "// ")).getD []
    ++ [field.identifier ++ (if field.required then "" else "?") ++ ": "
      ++ fieldType types field.type]

/-- The interface of a metric's arguments. -/
def interfaceLines (types : List ConstrainedType) (metric : PlannedMetric) : List String :=
  enclosed ("export interface " ++ interfaceName metric ++ " \x7b")
    (metric.fields.flatMap (fieldLines types)) "\x7d"

/-- The comment above a recording function. -/
def functionComment (metric : PlannedMetric) : List String :=
  ["/**"]
    ++ (match metric.description with
      | some description => commentLines " * " description
      | none => [" * Records the '" ++ metric.name ++ "' metric"])
    ++ [" * @param args See the " ++ interfaceName metric ++ " interface",
        " * @returns Nothing",
        " */"]

/-- The entry that passes a field to the sink. -/
def metadataEntry (field : ArgumentField) : String :=
  "\x7b Key: " ++ literal field.key ++ ", Value: args?." ++ field.identifier
    ++ "?.toString() ?? '' \x7d,"

/-- The entries that pass the metadata of a metric to the sink. -/
def metadataLines (metric : PlannedMetric) : List String :=
  match metric.metadataFields with
  | [] => ["Metadata: [],"]
  | fields => enclosed "Metadata: [" (fields.map metadataEntry) "],"

/-- The value that stands for an implicit field if a caller leaves it out. -/
def implicitArgument (field : ImplicitField) (otherwise : String) : String :=
  "args?." ++ field.identifier ++ " ?? " ++ otherwise

/-- The datum that a recording function passes to the sink. -/
def datumLines (metric : PlannedMetric) : List String :=
  enclosed "\x7b"
    (["MetricName: " ++ eventEnum ++ "." ++ metric.constantName ++ ",",
      "Value: " ++ implicitArgument .value "1" ++ ",",
      "Unit: '" ++ metric.unit.sinkName ++ "',"]
      ++ metadataLines metric)
    "\x7d,"

/-- The recording function of a metric. -/
def functionLines (settings : Settings) (metric : PlannedMetric) : List String :=
  let args := if metric.argsOptional then "args?" else "args"
  functionComment metric
    ++ enclosed
      ("export function " ++ metric.functionName ++ "(" ++ args ++ ": " ++ interfaceName metric
        ++ ") \x7b")
      (enclosed (settings.sink ++ "(\x7b")
        (("createTime: " ++ implicitArgument .createTime "new Date()" ++ ",")
          :: enclosed "data: [" (datumLines metric) "],")
        "\x7d)")
      "\x7d"

/-- The lines of a plan. -/
def lines (settings : Settings) (plan : Plan) : List String :=
  header
    ++ (match settings.sinkImport with
      | some line => ["", Text.trimEnd line]
      | none => [])
    ++ [""] ++ eventLines plan
    ++ plan.constrainedTypes.flatMap (fun type => ["", unionLine type])
    ++ plan.metrics.flatMap fun metric =>
      [""] ++ interfaceLines plan.constrainedTypes metric
        ++ [""] ++ functionLines settings metric

/-- The text of a plan, if no two declarations get one name. -/
def render (settings : Settings) (plan : Plan) : Checked String := do
  checkNames plan
  return joinLines (lines settings plan)

end Telemetry.Artifact.TypeScript
