import Telemetry.Proofs.Plan.Acceptance

/-!
# What holds of every plan

A plan of a document is more than a list of records: names are what they were derived from, the
identifiers of a metric are distinct, and indices point into the table.  `Plan.Orderly` collects
what targets rely on, and `orderly_of_plan` says that every plan of a document has it.
-/

namespace Telemetry

/-- What targets rely on in a metric. -/
structure PlannedMetric.Orderly (types : List ConstrainedType) (m : PlannedMetric) : Prop where
  snakeCase : SnakeCase m.name
  typeName : m.typeName = pascalCase m.name
  functionName : m.functionName = recordingFunction m.name
  constantName : m.constantName = Telemetry.constantName m.name
  identifier : ∀ field ∈ m.fields, field.identifier = asciiIdentifier field.key
  nodup : (m.fields.map ArgumentField.identifier).Nodup
  place : ∀ field ∈ m.fields, ∀ i, field.type = .constrained i → ∃ t, types[i]? = some t
  untimed : ∀ field ∈ m.metadataFields, field.type ≠ .timestamp

/-- What targets rely on in an entry of the table. -/
structure ConstrainedType.Orderly (t : ConstrainedType) : Prop where
  identifier : t.identifier = asciiIdentifier t.source
  values : t.values ≠ []
  distinct : t.values.Nodup

/-- What targets rely on in a plan. -/
structure Plan.Orderly (plan : Plan) : Prop where
  metrics : ∀ m ∈ plan.metrics, m.Orderly plan.constrainedTypes
  names : (plan.metrics.map PlannedMetric.name).Nodup
  types : ∀ t ∈ plan.constrainedTypes, t.Orderly
  identifiers : (plan.constrainedTypes.map ConstrainedType.identifier).Nodup

theorem ImplicitField.identifier_toField (f : ImplicitField) :
    f.toField.identifier = f.identifier := by
  cases f <;> rfl

section Fields

variable {types : List ConstrainedType} {m : Metric MetadataDefinition}
  {own : List ArgumentField}

/-- The fields that show definitions are the metadata fields of the metric. -/
theorem metadataFields_of_shows {planned : PlannedMetric}
    (isFields : planned.fields = own ++ ImplicitField.all.map ImplicitField.toField)
    (shown : List.Forall₂ (fun d field => ArgumentField.Shows types d field) m.metadata own) :
    planned.metadataFields = own := by
  have explicit : ∀ field ∈ own, field.implicit.isNone = true := by
    intro field there
    obtain ⟨d, -, shows⟩ := Related.exists_left shown there
    rw [shows.implicit]
    rfl
  rw [PlannedMetric.metadataFields, isFields, List.filter_append, List.filter_eq_self.2 explicit]
  exact List.append_nil own

theorem nodup_of_shows (sound : m.Sound)
    (shown : List.Forall₂ (fun d field => ArgumentField.Shows types d field) m.metadata own) :
    ((own ++ ImplicitField.all.map ImplicitField.toField).map ArgumentField.identifier).Nodup := by
  have same := Related.map_eq_map shown
    (f := MetadataDefinition.identifier) (g := ArgumentField.identifier)
    fun d field shows => shows.identifier.symm
  rw [List.map_append, List.nodup_append, ← same]
  refine ⟨sound.nodup, by decide, ?_⟩
  intro x hx y hy eq
  obtain ⟨d, hd, rfl⟩ := List.mem_map.1 hx
  obtain ⟨field, hField, rfl⟩ := List.mem_map.1 hy
  obtain ⟨f, -, rfl⟩ := List.mem_map.1 hField
  rw [ImplicitField.identifier_toField] at eq
  exact sound.explicit d hd f eq.symm

end Fields

theorem PlannedMetric.Shows.orderly {types : List ConstrainedType} {m : Metric MetadataDefinition}
    {planned : PlannedMetric} (h : planned.Shows types m) (snakeCase : SnakeCase m.name)
    (sound : m.Sound) : planned.Orderly types := by
  obtain ⟨own, isFields, shown⟩ := h.fields
  refine ⟨?_, ?_, ?_, ?_, ?_, ?_, ?_, ?_⟩
  · rw [h.name]
    exact snakeCase
  · rw [h.typeName, h.name]
  · rw [h.functionName, h.name]
  · rw [h.constantName, h.name]
  · intro field there
    rw [isFields] at there
    rcases List.mem_append.1 there with there | there
    · obtain ⟨d, -, shows⟩ := Related.exists_left shown there
      rw [shows.identifier, shows.key]
      rfl
    · obtain ⟨f, -, rfl⟩ := List.mem_map.1 there
      cases f <;> decide
  · rw [isFields]
    exact nodup_of_shows sound shown
  · intro field there i isType
    rw [isFields] at there
    rcases List.mem_append.1 there with there | there
    · obtain ⟨d, -, shows⟩ := Related.exists_left shown there
      by_cases constrained : d.isConstrained = true
      · obtain ⟨j, t, same, place, -⟩ := shows.constrained constrained
        rw [isType] at same
        cases same
        exact ⟨t, place⟩
      · have free := shows.primitive (Bool.eq_false_iff.2 constrained)
        rw [isType] at free
        cases free
    · obtain ⟨f, -, rfl⟩ := List.mem_map.1 there
      cases f <;> cases isType
  · intro field there isTimestamp
    rw [metadataFields_of_shows isFields shown] at there
    obtain ⟨d, -, shows⟩ := Related.exists_left shown there
    by_cases constrained : d.isConstrained = true
    · obtain ⟨j, t, same, -⟩ := shows.constrained constrained
      rw [isTimestamp] at same
      cases same
    · have free := shows.primitive (Bool.eq_false_iff.2 constrained)
      rw [isTimestamp] at free
      cases free

/-- Every entry of the table comes from a definition with allowed values. -/
theorem Interned.orderly {seen : List MetadataDefinition} {types : List ConstrainedType}
    (h : Interned seen types) (distinct : ∀ e ∈ seen, e.allowedValues.Nodup) :
    ∀ t ∈ types, t.Orderly := by
  intro t ht
  obtain ⟨e, he, constrained, isSource, isIdentifier, isValues⟩ := h.origin t ht
  refine ⟨?_, ?_, isValues ▸ distinct e he⟩
  · rw [← isIdentifier, ← isSource]
    rfl
  · intro nothing
    rw [MetadataDefinition.isConstrained, isValues, nothing] at constrained
    cases constrained

/-- The allowed values of what a document says are distinct. -/
theorem MetricEntry.Means.nodup_allowedValues {document : Document} {entry : MetricEntry}
    {m : Metric MetadataDefinition} (h : entry.Means document m) :
    ∀ d ∈ m.metadata, d.allowedValues.Nodup := by
  intro d hd
  obtain ⟨x, -, e, -, -, rfl⟩ := Related.exists_left h.metadata hd
  exact e.nodup_values

/-- Every plan of a document is orderly. -/
theorem Document.orderly_of_plan {settings : Settings} {document : Document} {plan : Plan}
    (h : document.plan settings = .ok plan) : plan.Orderly := by
  obtain ⟨-, -, -, resolved, means, planned⟩ := plan_eq_ok_iff.1 h
  obtain ⟨interned, shown⟩ := Plan.ofMetrics_spec planned
  obtain ⟨sound, beside⟩ := Plan.exists_ofMetrics_iff.1 ⟨plan, planned⟩
  refine ⟨?_, ?_, interned.orderly ?_, interned.nodup⟩
  · intro p hp
    obtain ⟨m, hm, shows⟩ := Related.exists_left shown hp
    obtain ⟨entry, -, meant⟩ := Related.exists_left means hm
    refine shows.orderly ?_ (sound m hm)
    rw [meant.name]
    exact meant.snakeCase
  · have same := Related.map_eq_map shown (f := Metric.name) (g := PlannedMetric.name)
      fun m p shows => shows.name.symm
    rw [← same, List.Nodup, List.pairwise_map]
    refine beside.imp ?_
    intro m n pair eq
    exact pair.typeNames (by rw [eq])
  · intro e he
    obtain ⟨m, hm, there⟩ := List.mem_flatMap.1 he
    obtain ⟨entry, -, meant⟩ := Related.exists_left means hm
    exact meant.nodup_allowedValues e there

end Telemetry
