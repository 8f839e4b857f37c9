import Telemetry.Proofs.Plan.Orderly

/-!
# The wire contract

The wire contract of a document is what a sink and the callers of the generated functions rely on,
whatever the target: for every metric its event, its unit as the sink spells it, whether the
arguments can be left out altogether, and for every metadata element its key, whether it is
required, and its values.

* `Document.contract?` reads the contract off a document as it is written;
* `Plan.contract?` reads it off a plan;
* `contract?_of_plan`: a document that can be planned has a contract, and its plan has the same one.
-/

namespace Telemetry

/-- What the values of a metadata element can be. -/
inductive WireType where
  | oneOf (values : List String)
  | text
  | number
  | boolean
  deriving DecidableEq, Repr

/-- The class of the values of a kind. -/
def WireType.ofKind : MetadataKind → WireType
  | .text => .text
  | .integer => .number
  | .double => .number
  | .boolean => .boolean

/-- A metadata element of a metric. -/
structure WireField where
  key : String
  required : Bool
  type : WireType
  deriving DecidableEq, Repr

/-- A metric. -/
structure WireMetric where
  event : String
  unit : String
  /-- Whether the arguments can be left out altogether. -/
  omissible : Bool
  fields : List WireField
  deriving DecidableEq, Repr

/-- The metrics of a document in their order. -/
abbrev WireContract := List WireMetric

/-! ### The contract of a document -/

/-- The metadata element that an entry describes, if its kind is known. -/
def MetadataEntry.wireField? (entry : MetadataEntry) : Option WireField := do
  let type ← match entry.values, entry.kind with
    | [], none => some .text
    | [], some word => (MetadataKind.ofWord? word).map WireType.ofKind
    | values, _ => some (.oneOf values)
  return { key := entry.key, required := entry.required, type }

namespace Document

/-- The entry that an element of a metric's metadata stands for, if it stands for one. -/
def entryOf? (document : Document) : MetadataElement → Option MetadataEntry
  | .inline entry => some entry
  | .reference token => do
    let name ← referenceName? token
    document.metadata.find? fun entry => entry.key == name

/-- The contract of a metric. -/
def wireMetric? (document : Document) (metric : MetricEntry) : Option WireMetric := do
  let unit ← MetricUnit.ofWord? metric.unit
  let entries ← metric.metadata.mapM document.entryOf?
  let fields ← entries.mapM MetadataEntry.wireField?
  return {
    event := metric.name
    unit := unit.sinkName
    omissible := entries.all fun entry => !entry.required
    fields }

/-- The contract of a document. -/
def contract? (document : Document) : Option WireContract :=
  document.metrics.mapM document.wireMetric?

end Document

/-! ### The contract of a plan -/

/-- The values of a field; a time is none of them. -/
def FieldType.wireType? (types : List ConstrainedType) : FieldType → Option WireType
  | .constrained index => types[index]?.map fun type => .oneOf type.values
  | .primitive kind => some (.ofKind kind)
  | .timestamp => none

/-- The metadata element that a field stands for. -/
def ArgumentField.wireField? (types : List ConstrainedType) (field : ArgumentField) :
    Option WireField := do
  let type ← field.type.wireType? types
  return { key := field.key, required := field.required, type }

/-- The contract of a planned metric. -/
def PlannedMetric.wireMetric? (types : List ConstrainedType) (metric : PlannedMetric) :
    Option WireMetric := do
  let fields ← metric.metadataFields.mapM (ArgumentField.wireField? types)
  return {
    event := metric.name
    unit := metric.unit.sinkName
    omissible := metric.argsOptional
    fields }

/-- The contract of a plan. -/
def Plan.contract? (plan : Plan) : Option WireContract :=
  plan.metrics.mapM (PlannedMetric.wireMetric? plan.constrainedTypes)

/-! ### The two are the same -/

theorem exists_wireField {types : List ConstrainedType} {entry : MetadataEntry}
    {field : ArgumentField} (valid : entry.Valid) (h : field.Shows types entry.definition) :
    ∃ wire, entry.wireField? = some wire ∧ field.wireField? types = some wire := by
  rw [MetadataEntry.wireField?, ArgumentField.wireField?, h.key, h.required]
  cases isValues : entry.values with
  | nil =>
    have free : entry.definition.isConstrained = false := by
      show (!entry.values.isEmpty) = false
      rw [isValues]
      rfl
    rw [h.primitive free]
    show ∃ wire, _ ∧ (FieldType.wireType? types (.primitive
      ((entry.kind.bind MetadataKind.ofWord?).getD .text)) >>= _) = some wire
    cases isKind : entry.kind with
    | none => exact ⟨_, rfl, rfl⟩
    | some word =>
      have known := MetadataKind.isSome_ofWord?_iff.2 (valid.kind word isKind)
      obtain ⟨kind, known⟩ := Option.isSome_iff_exists.1 known
      rw [Option.bind_some, known]
      refine ⟨_, ?_, rfl⟩
      simp only [known, Option.map_some]
      rfl
  | cons value rest =>
    have constrained : entry.definition.isConstrained = true := by
      show (!entry.values.isEmpty) = true
      rw [isValues]
      rfl
    obtain ⟨i, t, isType, place, -, same⟩ := h.constrained constrained
    rw [isType, FieldType.wireType?, place, Option.map_some, same]
    show ∃ wire, _ ∧ some (WireField.mk _ _ (.oneOf entry.values)) = some wire
    rw [isValues]
    exact ⟨_, rfl, rfl⟩

/-- The entry that an element stands for is found. -/
theorem Document.entryOf?_of_stands {document : Document} (pool : document.PoolValid)
    {element : MetadataElement} {entry : MetadataEntry} (h : document.Stands element entry) :
    document.entryOf? element = some entry := by
  cases h with
  | inline => rfl
  | reference there =>
    rw [entryOf?, referenceName?_eq_some_iff.2 rfl]
    show document.metadata.find? (fun other => other.key == entry.key) = some entry
    cases found : document.metadata.find? (fun other => other.key == entry.key) with
    | none => exact absurd (beq_iff_eq.2 rfl) (List.find?_eq_none.1 found entry there)
    | some other =>
      have isKey := List.find?_some found
      have inside := List.mem_of_find?_eq_some found
      rw [List.inj_on_of_nodup_map pool.nodup inside there (beq_iff_eq.1 isKey)]

theorem exists_wireMetric {document : Document} (pool : document.PoolValid)
    {types : List ConstrainedType} {metric : MetricEntry} {m : Metric MetadataDefinition}
    {planned : PlannedMetric} (means : metric.Means document m) (shows : planned.Shows types m) :
    ∃ wire, document.wireMetric? metric = some wire ∧ planned.wireMetric? types = some wire := by
  obtain ⟨own, isFields, shown⟩ := shows.fields
  -- The entries that the elements stand for are between the elements and the fields.
  have pairs := Related.exists_forall₂_trans_iff.1 ⟨m.metadata, means.metadata, shown⟩
  have between : ∃ entries,
      List.Forall₂ (fun element entry => document.entryOf? element = some entry) metric.metadata
        entries ∧
      List.Forall₂ (fun (entry : MetadataEntry) field => entry.Valid ∧
        ArgumentField.Shows types entry.definition field) entries own := by
    rw [Related.exists_forall₂_trans_iff]
    refine pairs.imp fun element field related => ?_
    obtain ⟨_, ⟨entry, stands, valid, rfl⟩, showsField⟩ := related
    exact ⟨entry, Document.entryOf?_of_stands pool stands, valid, showsField⟩
  obtain ⟨entries, found, both⟩ := between
  obtain ⟨fields, ofEntries, ofFields⟩ := Related.exists_mapM_eq both
    fun entry field related => exists_wireField related.1 related.2
  have required := Related.map_eq_map both (f := fun entry => !entry.required)
    (g := fun field => !field.required) fun entry field related => by rw [related.2.required]; rfl
  have omissible : planned.argsOptional = entries.all fun entry => !entry.required := by
    have images := congrArg (List.all · id) required
    simp only [List.all_map] at images
    rw [PlannedMetric.argsOptional, metadataFields_of_shows isFields shown]
    exact images.symm
  have isUnit : MetricUnit.ofWord? metric.unit = some planned.unit := by
    rw [MetricUnit.ofWord?_eq_some_iff, means.unit, shows.unit]
  refine ⟨⟨metric.name, planned.unit.sinkName, planned.argsOptional, fields⟩, ?_, ?_⟩
  · rw [Document.wireMetric?, isUnit, Related.mapM_eq_some_iff.2 found, omissible]
    simp only [Option.bind_eq_bind, Option.bind_some, ofEntries]
    rfl
  · rw [PlannedMetric.wireMetric?, metadataFields_of_shows isFields shown, ofFields,
      shows.name.trans means.name]
    rfl

/-- A document that can be planned has a contract, and its plan has the same one. -/
theorem Document.contract?_of_plan {settings : Settings} {document : Document} {plan : Plan}
    (h : document.plan settings = .ok plan) :
    ∃ contract, document.contract? = some contract ∧ plan.contract? = some contract := by
  obtain ⟨-, -, pool, resolved, means, planned⟩ := plan_eq_ok_iff.1 h
  obtain ⟨-, shown⟩ := Plan.ofMetrics_spec planned
  have both := Related.exists_forall₂_trans_iff.1 ⟨resolved, means, shown⟩
  refine Related.exists_mapM_eq both fun metric planned related => ?_
  obtain ⟨m, meant, shows⟩ := related
  exact exists_wireMetric pool meant shows

end Telemetry
