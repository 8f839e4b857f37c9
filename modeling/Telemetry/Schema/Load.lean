import Telemetry.Json.Reader
import Telemetry.Schema.Decode

/-!
# Loading a document

Loading reads a text as a JSON value and the value as a document, entry by entry, so that a fault
names the entry it was found in.  Unlike `Document.decode` it wants objects where a record is
expected, and accepts no list of fields.

The sections are taken out of the root object first; whatever is left then is unknown.  After that
the pool is read before the metrics, and within a metric its own fields before its metadata.
-/

namespace Telemetry

open Json (Value Members)

/-- The two kinds of entry of a document. -/
inductive EntryKind where
  | metadata
  | metric
  deriving DecidableEq, Repr

/-- An entry of a document: its kind, its name if it has one, and its position. -/
structure EntryLabel where
  kind : EntryKind
  name : Option String
  index : Nat
  deriving DecidableEq, Repr

/-- The path of an entry, behind its kind and name if it has a name. -/
def EntryLabel.text (label : EntryLabel) : String :=
  let (what, list) := match label.kind with
    | .metadata => ("metadata", "metadata")
    | .metric => ("metric", "metrics")
  let path := list ++ "[" ++ toString label.index ++ "]"
  match label.name with
  | some name => what ++ " '" ++ name ++ "' (" ++ path ++ ")"
  | none => path

/-- The part of a document that a fault was found in. -/
inductive Context where
  /-- A section of the root object, by its key. -/
  | root (key : String)
  | entry (label : EntryLabel)
  /-- The metadata list of a metric. -/
  | metadataOf (label : EntryLabel)
  /-- An element of the metadata list of a metric. -/
  | elementOf (label : EntryLabel) (index : Nat)
  deriving DecidableEq, Repr

/-- The words for a part of a document. -/
def Context.text : Context → String
  | .root key => key
  | .entry label => label.text
  | .metadataOf label => label.text ++ " metadata"
  | .elementOf label index => label.text ++ " metadata[" ++ toString index ++ "]"

/-- What can be wrong with a document besides its syntax. -/
inductive SchemaFault where
  | rootNotObject
  /-- The pool is given under both of its keys. -/
  | poolGivenTwice
  | unknownSection (key : String)
  | notArray (context : Context) (found : Value)
  | notObject (context : Context) (wanted : EntryKind) (found : Value)
  | badShape (context : Context) (fault : ShapeFault)
  /-- A definition has a name of blanks only. -/
  | blankName
  deriving Repr

/-- The words for a kind of value. -/
def valueKind : Value → String
  | .null => "null"
  | .bool _ => "a boolean"
  | .number _ => "a number"
  | .text _ => "a string"
  | .list _ => "an array"
  | .object _ => "an object"

/-- The wording of a fault. -/
def SchemaFault.message : SchemaFault → String
  | .rootNotObject => "schema document must be a JSON object with 'metadata' and 'metrics'"
  | .poolGivenTwice =>
    "'metadata' and 'metadataTypes' are the same section; use only 'metadata'"
  | .unknownSection key =>
    "unknown top-level field '" ++ key ++ "'; expected 'metadata' or 'metrics'"
  | .notArray context found =>
    context.text ++ ": expected an array, found " ++ valueKind found
  | .notObject context .metadata found =>
    context.text ++ ": expected a metadata definition object, found " ++ valueKind found
  | .notObject context .metric found =>
    context.text ++ ": expected a metric object, found " ++ valueKind found
  | .badShape context fault => context.text ++ ": " ++ fault.message
  | .blankName => "metadata definitions must have a non-empty name"

/-- What loading a part of a document gives. -/
abbrev Loaded (α : Type) := Except SchemaFault α

/-- The name that an entry gives for itself. -/
def entryName? : Value → Option String
  | .object members =>
    match Members.get? members "name" with
    | some (.text name) => some name
    | _ => none
  | _ => none

/-- The items of a member that has to be a list; without the member there are none. -/
def loadItems (members : Members) (key : String) (context : Context) : Loaded (List Value) :=
  match members.get? key with
  | none => .ok []
  | some (.list items) => .ok items
  | some other => .error (.notArray context other)

/-- Loads a definition that has to be an object. -/
def loadDefinition (context : Context) : Value → Loaded MetadataEntry
  | .object members =>
    match MetadataEntry.decode (.object members) with
    | .ok entry => .ok entry
    | .error fault => .error (.badShape context fault)
  | other => .error (.notObject context .metadata other)

/-- Loads an entry of the pool. -/
def loadPoolEntry (index : Nat) (value : Value) : Loaded MetadataEntry :=
  loadDefinition (.entry ⟨.metadata, entryName? value, index⟩) value

/-- Loads an element of a metric's metadata. -/
def loadElement (label : EntryLabel) (index : Nat) : Value → Loaded MetadataElement
  | .text token => .ok (.reference token)
  | other => do return .inline (← loadDefinition (.elementOf label index) other)

/-- Loads each item of a list, which is told its position. -/
def loadEach {α : Type} (load : Nat → Value → Loaded α) (items : List Value) : Loaded (List α) :=
  items.zipIdx.mapM fun (item, index) => load index item

/-- Loads a metric: its metadata list is taken out, the other fields are read, and then the elements
of the list. -/
def loadMetric (index : Nat) (value : Value) : Loaded MetricEntry :=
  let label : EntryLabel := ⟨.metric, entryName? value, index⟩
  match value with
  | .object members => do
    let elements ← loadItems members "metadata" (.metadataOf label)
    let entry ← match MetricEntry.decode (.object (Members.without members "metadata")) with
      | .ok entry => Except.ok entry
      | .error fault => .error (.badShape (.entry label) fault)
    return { entry with metadata := ← loadEach (loadElement label) elements }
  | other => .error (.notObject (.entry label) .metric other)

/-- The items of the pool, which may be given under one of two keys. -/
def loadPool (members : Members) : Loaded (List Value) :=
  match members.has "metadata", members.has "metadataTypes" with
  | true, true => .error .poolGivenTwice
  | false, true => loadItems members "metadataTypes" (.root "metadataTypes")
  | _, false => loadItems members "metadata" (.root "metadata")

/-- The keys that the root object may have. -/
def sectionKeys : List String := ["metadata", "metadataTypes", "metrics"]

/-- Loads a document from a value. -/
def Document.ofValue : Value → Loaded Document
  | .object members => do
    let pool ← loadPool members
    let metrics ← loadItems members "metrics" (.root "metrics")
    match members.find? fun member => !sectionKeys.contains member.1 with
    | some (key, _) => .error (.unknownSection key)
    | none => return ⟨← loadEach loadPoolEntry pool, ← loadEach loadMetric metrics⟩
  | _ => .error .rootNotObject

end Telemetry
