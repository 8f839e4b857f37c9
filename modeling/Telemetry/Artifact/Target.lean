import Telemetry.Text.Blank

/-!
# Targets and settings

An artifact is generated for a target, the language of its text, under settings that say how a
generated function reaches the sink and how strict the schema is checked.
-/

namespace Telemetry

/-- The language of an artifact. -/
inductive Target where
  | typescript
  | rust
  deriving DecidableEq, Repr, Inhabited

namespace Target

/-- The name of a target. -/
def name : Target → String
  | .typescript => "typescript"
  | .rust => "rust"

/-- The target that a word stands for, or the word as it was understood.  Blanks around it and the
case of its letters do not matter. -/
def ofWord (word : String) : Except String Target :=
  match (Text.trim word).toLower with
  | "typescript" => .ok .typescript
  | "ts" => .ok .typescript
  | "rust" => .ok .rust
  | "rs" => .ok .rust
  | other => .error other

/-- The wording of a word that stands for no target. -/
def unknownMessage (word : String) : String :=
  "unknown target '" ++ word ++ "'; expected 'typescript' or 'rust'"

end Target

/-- The expression that TypeScript functions call unless another is given. -/
def defaultSink : String := "ext.telemetry.record"

/-- The import line of a TypeScript artifact unless another is given. -/
def defaultSinkImport : String := "import \x7b ext \x7d from '../extensionGlobals'"

/-- How an artifact is generated. -/
structure Settings where
  target : Target := .typescript
  /-- The expression that TypeScript functions call. -/
  sink : String := defaultSink
  /-- The line at the top of a TypeScript artifact, if there is one. -/
  sinkImport : Option String := some defaultSinkImport
  /-- Whether metrics have to be listed in ascending order. -/
  sortedMetrics : Bool := false
  deriving DecidableEq, Repr, Inhabited

end Telemetry
