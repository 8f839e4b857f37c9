import Telemetry.Proofs.Plan.Fields

/-!
# Planning the metrics

* `Metric.Sound` and `Metric.Beside` are what a metric has to satisfy, by itself and beside another;
* `PlannedMetric.Shows` says that a planned metric shows a metric;
* `exists_ofMetrics_iff`: a list of metrics is planned exactly if each of them is sound, and each
  beside every one after it;
* `ofMetrics_spec`: it is then planned faithfully.
-/

namespace Telemetry

/-- Whether the identifiers of a metric's fields are distinct, those of the implicit fields
included. -/
structure Metric.Sound (m : Metric MetadataDefinition) : Prop where
  nodup : (m.metadata.map MetadataDefinition.identifier).Nodup
  explicit : ∀ d ∈ m.metadata, ∀ f : ImplicitField, f.identifier ≠ d.identifier

/-- Whether the definitions of one metric agree with those of another. -/
def Metric.Agrees (m n : Metric MetadataDefinition) : Prop :=
  ∀ e ∈ m.metadata, ∀ d ∈ n.metadata, e.Agrees d

/-- Whether two metrics can stand in one document. -/
structure Metric.Beside (m n : Metric MetadataDefinition) : Prop where
  typeNames : (pascalCase m.name).toLower ≠ (pascalCase n.name).toLower
  agree : m.Agrees n

/-- Whether a planned metric shows a metric, with the values of its fields in the table. -/
structure PlannedMetric.Shows (types : List ConstrainedType) (m : Metric MetadataDefinition)
    (planned : PlannedMetric) : Prop where
  name : planned.name = m.name
  typeName : planned.typeName = pascalCase m.name
  functionName : planned.functionName = recordingFunction m.name
  constantName : planned.constantName = Telemetry.constantName m.name
  unit : planned.unit = m.unit
  description : planned.description = m.description
  fields : ∃ own, planned.fields = own ++ ImplicitField.all.map ImplicitField.toField ∧
    List.Forall₂ (fun d field => ArgumentField.Shows types d field) m.metadata own

theorem PlannedMetric.Shows.mono {types types' : List ConstrainedType}
    {m : Metric MetadataDefinition} {planned : PlannedMetric} (h : planned.Shows types m)
    (le : types <+: types') : planned.Shows types' m := by
  obtain ⟨own, isFields, shown⟩ := h.fields
  exact ⟨h.name, h.typeName, h.functionName, h.constantName, h.unit, h.description, own, isFields,
    shown.imp fun _ _ field => field.mono le⟩

/-! ### The metadata of a metric -/

theorem source?_implicitScope (x s : String) :
    implicitScope.source? x = some s ↔ ∃ f : ImplicitField, f.identifier = x ∧ f.source = s := by
  constructor
  · intro h
    obtain ⟨claim, found, isSource⟩ := Option.map_eq_some_iff.1 h
    rw [IdentifierScope.holder?] at found
    have isIdentifier := List.find?_some found
    rw [IdentifierScope.key_of_exact rfl, IdentifierScope.key_of_exact rfl,
      beq_iff_eq] at isIdentifier
    have there := List.mem_of_find?_eq_some found
    obtain ⟨f, -, rfl⟩ := List.mem_map.1 (List.mem_reverse.1 there)
    exact ⟨f, isIdentifier, isSource⟩
  · intro h
    obtain ⟨f, rfl, rfl⟩ := h
    cases f <;> decide +kernel

/-- What a draft of fields holds before the first definition of a metric. -/
theorem holds_start {before : List MetadataDefinition} {identifiers : IdentifierScope}
    {types : List ConstrainedType} (h : Ledger before identifiers types) :
    FieldDraft.Holds before [] ⟨identifiers, implicitScope, types, []⟩ := by
  refine ⟨?_, rfl, ?_, .nil⟩
  · rw [List.append_nil]
    exact h
  · intro x s
    rw [source?_implicitScope]
    simp

namespace Draft

/-- What a draft holds once the metrics `done` have been planned. -/
structure Holds (done : List (Metric MetadataDefinition)) (draft : Draft) : Prop where
  ledger : Ledger (done.flatMap Metric.metadata) draft.identifiers draft.plan.constrainedTypes
  folds : draft.typeNames.foldCase = true
  claimed : ∀ x s, draft.typeNames.source? x = some s ↔
    ∃ m ∈ done, (pascalCase m.name).toLower = x.toLower ∧ m.name = s
  metrics : List.Forall₂ (fun m planned =>
    PlannedMetric.Shows draft.plan.constrainedTypes m planned) done draft.plan.metrics

/-- The planned form of a metric with the given fields. -/
def plannedOf (m : Metric MetadataDefinition) (fields : List ArgumentField) : PlannedMetric where
  name := m.name
  typeName := pascalCase m.name
  functionName := recordingFunction m.name
  constantName := Telemetry.constantName m.name
  unit := m.unit
  description := m.description
  fields := fields ++ ImplicitField.all.map ImplicitField.toField

/-- The draft of the fields of the next metric. -/
def fieldDraft (draft : Draft) : FieldDraft :=
  ⟨draft.identifiers, implicitScope, draft.plan.constrainedTypes, []⟩

variable {draft next : Draft} {m : Metric MetadataDefinition}
  {done : List (Metric MetadataDefinition)}

/-- The steps of planning a metric, one behind the other. -/
theorem add_eq (draft : Draft) (m : Metric MetadataDefinition) :
    draft.add m =
      if draft.plan.metrics.any fun planned => planned.name == m.name then
        .error (.duplicateIdentifier (pascalCase m.name) m.name (m.name ++ " (defined twice)"))
      else
        (draft.typeNames.claim (pascalCase m.name) m.name).bind fun typeNames =>
        (m.metadata.foldlM (FieldDraft.add m.name) draft.fieldDraft).bind fun fields =>
        .ok ⟨typeNames, fields.identifiers,
          ⟨draft.plan.metrics ++ [plannedOf m fields.fields], fields.types⟩⟩ := by
  simp only [add, bind]
  split
  · rfl
  · rfl

theorem add_eq_ok_iff :
    draft.add m = .ok next ↔ ∃ typeNames fields,
      (∀ planned ∈ draft.plan.metrics, planned.name ≠ m.name) ∧
      draft.typeNames.claim (pascalCase m.name) m.name = .ok typeNames ∧
      m.metadata.foldlM (FieldDraft.add m.name) draft.fieldDraft = .ok fields ∧
      next = ⟨typeNames, fields.identifiers,
        ⟨draft.plan.metrics ++ [plannedOf m fields.fields], fields.types⟩⟩ := by
  have unique : (draft.plan.metrics.any fun planned => planned.name == m.name) = false ↔
      ∀ planned ∈ draft.plan.metrics, planned.name ≠ m.name := by
    simp
  rw [← unique, add_eq]
  constructor
  · intro h
    split at h
    · cases h
    · rename_i fresh
      obtain ⟨typeNames, claimed, h⟩ := Checked.bind_eq_ok_iff.1 h
      obtain ⟨fields, planned, h⟩ := Checked.bind_eq_ok_iff.1 h
      cases h
      exact ⟨typeNames, fields, Bool.eq_false_iff.2 fresh, claimed, planned, rfl⟩
  · intro h
    obtain ⟨typeNames, fields, fresh, claimed, planned, rfl⟩ := h
    rw [fresh, claimed, planned]
    rfl

/-- Each metric that has been planned has its planned form. -/
theorem Holds.exists_planned (h : Holds done draft) {e : Metric MetadataDefinition}
    (he : e ∈ done) :
    ∃ planned ∈ draft.plan.metrics, planned.name = e.name := by
  obtain ⟨planned, there, shows⟩ := Related.exists_right h.metrics he
  exact ⟨planned, there, shows.name⟩

/-- When a metric is planned. -/
theorem exists_add_iff (h : Holds done draft) :
    (∃ next, draft.add m = .ok next) ↔ m.Sound ∧ ∀ e ∈ done, e.Beside m := by
  have fields := FieldDraft.exists_foldlM_iff m.name (holds_start h.ledger) m.metadata
  constructor
  · intro planned
    obtain ⟨next, planned⟩ := planned
    obtain ⟨typeNames, drafted, fresh, claimed, run, -⟩ := add_eq_ok_iff.1 planned
    obtain ⟨each, nodup⟩ := fields.1 ⟨drafted, run⟩
    have granted := IdentifierScope.exists_claim_iff.1 ⟨typeNames, claimed⟩
    refine ⟨⟨nodup, fun d hd => (each d hd).2⟩, ?_⟩
    intro e he
    refine ⟨?_, ?_⟩
    · intro same
      obtain ⟨planned, there, isName⟩ := h.exists_planned he
      have sameName := granted e.name ((h.claimed _ _).2 ⟨e, he, same, rfl⟩)
      exact fresh planned there (isName.trans sameName)
    · intro a ha d hd
      exact (each d hd).1 a (List.mem_flatMap.2 ⟨e, he, ha⟩)
  · intro sound
    obtain ⟨sound, beside⟩ := sound
    have run : ∃ drafted, m.metadata.foldlM (FieldDraft.add m.name) draft.fieldDraft
        = .ok drafted := by
      refine fields.2 ⟨?_, sound.nodup⟩
      intro d hd
      refine ⟨?_, sound.explicit d hd⟩
      intro a ha
      obtain ⟨e, he, ha⟩ := List.mem_flatMap.1 ha
      exact (beside e he).agree a ha d hd
    have claimed : ∃ typeNames, draft.typeNames.claim (pascalCase m.name) m.name
        = .ok typeNames := by
      rw [IdentifierScope.exists_claim_iff]
      intro s held
      obtain ⟨e, he, same, -⟩ := (h.claimed _ _).1 held
      exact absurd same (beside e he).typeNames
    have fresh : ∀ planned ∈ draft.plan.metrics, planned.name ≠ m.name := by
      intro planned there sameName
      obtain ⟨e, he, shows⟩ := Related.exists_left h.metrics there
      have same := shows.name.symm.trans sameName
      exact (beside e he).typeNames (by rw [same])
    obtain ⟨drafted, run⟩ := run
    obtain ⟨typeNames, claimed⟩ := claimed
    exact ⟨_, add_eq_ok_iff.2 ⟨typeNames, drafted, fresh, claimed, run, rfl⟩⟩

/-- A metric that is planned is planned faithfully. -/
theorem holds_add (h : Holds done draft) (planned : draft.add m = .ok next) :
    Holds (done ++ [m]) next := by
  obtain ⟨typeNames, drafted, -, claimed, run, rfl⟩ := add_eq_ok_iff.1 planned
  obtain ⟨fields, le⟩ := FieldDraft.holds_foldlM (holds_start h.ledger) run
  refine ⟨?_, ?_, ?_, ?_⟩
  · rw [List.flatMap_append, List.flatMap_singleton]
    exact fields.ledger
  · exact (IdentifierScope.foldCase_of_claim claimed).trans h.folds
  · intro x s
    rw [IdentifierScope.source?_of_claim_iff claimed, IdentifierScope.key_of_folding h.folds,
      IdentifierScope.key_of_folding h.folds, h.claimed]
    simp only [List.mem_append, or_and_right, exists_or, List.mem_singleton, exists_eq_left]
  · have shows : (plannedOf m drafted.fields).Shows drafted.types m :=
      ⟨rfl, rfl, rfl, rfl, rfl, rfl, drafted.fields, rfl, fields.fields⟩
    exact List.rel_append (h.metrics.imp fun _ _ shown => shown.mono le) (.cons shows .nil)

theorem holds_empty : Holds [] {} :=
  ⟨⟨rfl, by simp [IdentifierScope.source?, IdentifierScope.holder?], .empty⟩, rfl,
    by simp [IdentifierScope.source?, IdentifierScope.holder?], .nil⟩

end Draft

/-! ### All metrics -/

namespace Plan

variable {metrics : List (Metric MetadataDefinition)} {plan : Plan}

/-- When a list of metrics is planned. -/
theorem exists_ofMetrics_iff :
    (∃ plan, Plan.ofMetrics metrics = .ok plan) ↔
      (∀ m ∈ metrics, m.Sound) ∧ metrics.Pairwise Metric.Beside := by
  have run := Checked.exists_foldlM_iff Draft.Holds (fun _ _ _ _ => Draft.holds_add)
    (fun _ _ _ holds => Draft.exists_add_iff holds) metrics Draft.holds_empty
  have mapped : (∃ plan, Plan.ofMetrics metrics = .ok plan) ↔
      ∃ draft, metrics.foldlM Draft.add {} = .ok draft := by
    simp only [Plan.ofMetrics, Checked.map_eq_ok_iff]
    constructor
    · intro h
      obtain ⟨_, draft, run, rfl⟩ := h
      exact ⟨draft, run⟩
    · intro h
      obtain ⟨draft, run⟩ := h
      exact ⟨draft.plan, draft, run, rfl⟩
  rw [mapped, run]
  simp

/-- A plan shows its metrics. -/
theorem ofMetrics_spec (h : Plan.ofMetrics metrics = .ok plan) :
    Interned (metrics.flatMap Metric.metadata) plan.constrainedTypes ∧
      List.Forall₂ (fun m planned => PlannedMetric.Shows plan.constrainedTypes m planned) metrics
        plan.metrics := by
  obtain ⟨draft, run, rfl⟩ := Checked.map_eq_ok_iff.1 h
  have holds := Checked.keeps_foldlM Draft.Holds (fun _ _ _ _ => Draft.holds_add)
    Draft.holds_empty run
  exact ⟨holds.ledger.interned, holds.metrics⟩

end Plan

end Telemetry
