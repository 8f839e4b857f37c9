import Telemetry.Proofs.Plan.Acceptance

/-!
# A plan says what its document says

* `ArgumentField.ShowsEntry` and `PlannedMetric.ShowsEntry` say what a field and a metric of a plan
  have to say of an entry of the document;
* `showsEntry_of_plan`: the metrics of a plan show those of its document one by one, and
  their fields the entries that their metadata stands for.
-/

namespace Telemetry

/-- Whether a field shows an entry: values if it has any, whatever its kind, and its kind
otherwise. -/
structure ArgumentField.ShowsEntry (types : List ConstrainedType) (entry : MetadataEntry)
    (field : ArgumentField) : Prop where
  key : field.key = Text.trim entry.name
  identifier : field.identifier = asciiIdentifier (Text.trim entry.name)
  required : field.required = entry.required
  description : field.description = entry.description.bind Text.trimmed?
  implicit : field.implicit = none
  /-- The values are those of an entry of the table, each once, in the order written. -/
  values : entry.allowedValues.getD [] ≠ [] → ∃ i t, field.type = .constrained i ∧
    types[i]? = some t ∧ t.values = (entry.allowedValues.getD []).eraseDups
  kind : entry.allowedValues.getD [] = [] → ∃ kind, field.type = .primitive kind ∧
    (entry.kind = none → kind = .text) ∧
    ∀ word, entry.kind = some word → MetadataKind.ofWord? word = some kind

/-- Whether a planned metric shows a metric as written: its fields show the entries that its
metadata stands for, one by one, and the two implicit fields follow. -/
structure PlannedMetric.ShowsEntry (document : Document) (plan : Plan) (entry : MetricEntry)
    (planned : PlannedMetric) : Prop where
  name : planned.name = entry.name
  unit : MetricUnit.ofWord? entry.unit = some planned.unit
  description : planned.description = entry.description.bind Text.trimmed?
  fields : ∃ own,
    planned.fields = own ++ [ImplicitField.createTime.toField, ImplicitField.value.toField] ∧
    List.Forall₂ (fun element field => ∃ spec, document.Stands element spec ∧
      (∀ other, document.Stands element other → other = spec) ∧
      ArgumentField.ShowsEntry plan.constrainedTypes spec field) entry.metadata own

theorem MetadataEntry.values_eq_nil_iff {entry : MetadataEntry} :
    entry.values = [] ↔ entry.allowedValues.getD [] = [] := by
  rw [values]
  cases entry.allowedValues.getD [] with
  | nil => simp
  | cons v rest => simp [List.eraseDups_cons]

/-- The kind of a valid entry is known if it has one. -/
theorem MetadataEntry.Valid.ofWord? {entry : MetadataEntry} (h : entry.Valid) {word : String}
    (isKind : entry.kind = some word) : ∃ kind, MetadataKind.ofWord? word = some kind := by
  rw [← Option.isSome_iff_exists, MetadataKind.isSome_ofWord?_iff]
  exact h.kind word isKind

/-- A field that shows the definition of an entry shows the entry. -/
theorem ArgumentField.ShowsEntry.of_shows {types : List ConstrainedType} {entry : MetadataEntry}
    {field : ArgumentField} (valid : entry.Valid) (h : field.Shows types entry.definition) :
    field.ShowsEntry types entry := by
  refine ⟨h.key, h.identifier, h.required, h.description, h.implicit, ?_, ?_⟩
  · intro some
    have constrained : entry.definition.isConstrained = true := by
      show (!entry.values.isEmpty) = true
      rw [Bool.not_eq_true', List.isEmpty_eq_false_iff, ne_eq, MetadataEntry.values_eq_nil_iff]
      exact some
    obtain ⟨i, t, isType, place, -, isValues⟩ := h.constrained constrained
    exact ⟨i, t, isType, place, isValues⟩
  · intro none
    have free : entry.definition.isConstrained = false := by
      show (!entry.values.isEmpty) = false
      rw [MetadataEntry.values_eq_nil_iff.2 none]
      rfl
    refine ⟨_, h.primitive free, ?_, ?_⟩
    · intro absent
      show (entry.kind.bind MetadataKind.ofWord?).getD .text = .text
      rw [absent]
      rfl
    · intro word isKind
      obtain ⟨kind, known⟩ := valid.ofWord? isKind
      show MetadataKind.ofWord? word = some ((entry.kind.bind MetadataKind.ofWord?).getD .text)
      rw [isKind, Option.bind_some, known]
      rfl

/-- A plan shows the metrics of its document, one by one. -/
theorem showsEntry_of_plan {settings : Settings} {document : Document} {plan : Plan}
    (h : document.plan settings = .ok plan) :
    List.Forall₂ (PlannedMetric.ShowsEntry document plan) document.metrics plan.metrics := by
  obtain ⟨-, -, pool, resolved, means, planned⟩ := Document.plan_eq_ok_iff.1 h
  obtain ⟨-, shown⟩ := Plan.ofMetrics_spec planned
  have both := Related.exists_forall₂_trans_iff.1 ⟨resolved, means, shown⟩
  refine both.imp fun entry planned related => ?_
  obtain ⟨m, meant, shows⟩ := related
  refine ⟨shows.name.trans meant.name, ?_, shows.description.trans meant.description, ?_⟩
  · rw [MetricUnit.ofWord?_eq_some_iff, meant.unit, shows.unit]
  · obtain ⟨own, isFields, fields⟩ := shows.fields
    refine ⟨own, isFields, ?_⟩
    have pairs := Related.exists_forall₂_trans_iff.1 ⟨m.metadata, meant.metadata, fields⟩
    refine pairs.imp fun element field related => ?_
    obtain ⟨_, ⟨spec, stands, valid, rfl⟩, showsField⟩ := related
    exact ⟨spec, stands, fun other => stands.unique pool, .of_shows valid showsField⟩

/-- A document with a reference, a definition of a metric's own, and repeated values. -/
def sampleDocument : Document where
  metadata := [{ name := " region ", allowedValues := some ["eu", "us", "eu"] }]
  metrics := [
    { name := "cache_hit", unit := "Count", description := some "  ",
      metadata := [.reference "$region", .inline { name := "size", kind := some "int" }] },
    { name := "cache_miss", unit := "none", metadata := [.reference "$region"] }]

theorem showsEntry_of_sampleDocument :
    ∃ plan, sampleDocument.plan {} = .ok plan ∧
      List.Forall₂ (PlannedMetric.ShowsEntry sampleDocument plan) sampleDocument.metrics
        plan.metrics := by
  have planned : (sampleDocument.plan {}).toOption.isSome = true := by decide +kernel
  cases h : sampleDocument.plan {} with
  | error fault =>
    rw [h] at planned
    cases planned
  | ok plan => exact ⟨plan, rfl, showsEntry_of_plan h⟩

end Telemetry
