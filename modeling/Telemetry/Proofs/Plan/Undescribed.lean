import Telemetry.Artifact.Generate
import Telemetry.Proofs.Checked
import Telemetry.Proofs.Plan.Orderly

/-!
# Plans without descriptions

Descriptions pass through planning without having a say in it.  `undescribed` takes the descriptions
out of whatever comes from a document, and every step commutes with it: what a step gives without
descriptions is what it gives with them, less these, and a step that fails does so with the same
fault.

* `Document.plan_undescribed` says so of the plan of a document;
* `Document.plan_congr`: documents that differ in descriptions only fail alike, or have plans that
  differ in descriptions only.
-/

namespace Telemetry

/-! ### Taking descriptions out -/

/-- The entry without its description. -/
def MetadataEntry.undescribed (entry : MetadataEntry) : MetadataEntry :=
  { entry with description := none }

/-- The element without its description. -/
def MetadataElement.undescribed : MetadataElement → MetadataElement
  | .reference token => .reference token
  | .inline entry => .inline entry.undescribed

/-- The metric without its description, nor those of its metadata. -/
def MetricEntry.undescribed (entry : MetricEntry) : MetricEntry :=
  { entry with
    description := none
    metadata := entry.metadata.map MetadataElement.undescribed }

/-- The document without descriptions. -/
def Document.undescribed (document : Document) : Document where
  metadata := document.metadata.map MetadataEntry.undescribed
  metrics := document.metrics.map MetricEntry.undescribed

/-- The definition without its description. -/
def MetadataDefinition.undescribed (d : MetadataDefinition) : MetadataDefinition :=
  { d with description := none }

/-- The definition, if it is one, without its description. -/
def MetadataSource.undescribed : MetadataSource → MetadataSource
  | .inline d => .inline d.undescribed
  | .reference token => .reference token

/-- The metric without its description; `f` takes those of its metadata out. -/
def Metric.undescribed {α : Type} (f : α → α) (m : Metric α) : Metric α :=
  { m with description := none, metadata := m.metadata.map f }

/-- The field without a description that comes from a document. -/
def ArgumentField.undescribed (field : ArgumentField) : ArgumentField :=
  { field with description := if field.implicit.isSome then field.description else none }

/-- The metric without its description, nor those of its metadata. -/
def PlannedMetric.undescribed (m : PlannedMetric) : PlannedMetric :=
  { m with description := none, fields := m.fields.map ArgumentField.undescribed }

/-- The plan without descriptions that come from a document. -/
def Plan.undescribed (plan : Plan) : Plan :=
  { plan with metrics := plan.metrics.map PlannedMetric.undescribed }

theorem map_name_undescribed (ds : List MetadataDefinition) :
    (ds.map MetadataDefinition.undescribed).map MetadataDefinition.name
      = ds.map MetadataDefinition.name :=
  List.map_map

/-- The pool without descriptions. -/
def MetadataPool.undescribed (pool : MetadataPool) : MetadataPool where
  definitions := pool.definitions.map MetadataDefinition.undescribed
  nodup := by
    rw [map_name_undescribed]
    exact pool.nodup

/-! ### The pool -/

theorem MetadataDefinition.ofEntry_undescribed (entry : MetadataEntry) :
    ofEntry entry.undescribed = undescribed <$> ofEntry entry := by
  have name : entry.undescribed.name = entry.name := rfl
  have kind : entry.undescribed.kind = entry.kind := rfl
  unfold ofEntry
  rw [name, kind]
  by_cases blank : (Text.trim entry.name).isEmpty = true
  · simp only [if_pos blank]
    rfl
  · simp only [if_neg blank]
    cases declaredKind (Text.trim entry.name) entry.kind with
    | error fault => rfl
    | ok kind => rfl

namespace MetadataPool

theorem insert?_undescribed (pool : MetadataPool) (d : MetadataDefinition) :
    pool.undescribed.insert? d.undescribed = (pool.insert? d).map undescribed := by
  have names : pool.undescribed.definitions.map MetadataDefinition.name
      = pool.definitions.map MetadataDefinition.name := map_name_undescribed _
  by_cases taken : d.name ∈ pool.definitions.map MetadataDefinition.name
  · rw [insert?_eq_none_iff.2 taken, insert?_eq_none_iff.2 (names ▸ taken)]
    rfl
  · have fresh : d.undescribed.name ∉ pool.undescribed.definitions.map MetadataDefinition.name :=
      names ▸ taken
    rw [insert?, dif_neg fresh, insert?, dif_neg taken, Option.map_some]
    simp only [undescribed, List.map_append, List.map_singleton]

theorem addEntry_undescribed (pool : MetadataPool) (entry : MetadataEntry) :
    pool.undescribed.addEntry entry.undescribed = undescribed <$> pool.addEntry entry := by
  refine Checked.bind_comm (MetadataDefinition.ofEntry_undescribed entry) fun d => ?_
  rw [insert?_undescribed]
  cases pool.insert? d with
  | none => rfl
  | some larger => rfl

theorem ofEntries_undescribed (entries : List MetadataEntry) :
    ofEntries (entries.map MetadataEntry.undescribed) = undescribed <$> ofEntries entries :=
  Checked.foldlM_comm addEntry_undescribed empty entries

theorem get?_undescribed (pool : MetadataPool) (name : String) :
    pool.undescribed.get? name = (pool.get? name).map MetadataDefinition.undescribed :=
  List.find?_map ..

end MetadataPool

/-! ### Metrics -/

theorem MetadataSource.ofElement_undescribed (element : MetadataElement) :
    ofElement element.undescribed = undescribed <$> ofElement element := by
  cases element with
  | reference token => rfl
  | inline entry =>
    exact Checked.bind_comm (MetadataDefinition.ofEntry_undescribed entry) fun _ => rfl

theorem Metric.ofEntry_undescribed (entry : MetricEntry) :
    ofEntry entry.undescribed = undescribed MetadataSource.undescribed <$> ofEntry entry := by
  have name : entry.undescribed.name = entry.name := rfl
  have unit : entry.undescribed.unit = entry.unit := rfl
  unfold ofEntry
  rw [name, unit]
  by_cases snakeCase : isSnakeCase entry.name = true
  · simp only [snakeCase, Bool.not_true, Bool.false_eq_true, if_false]
    cases MetricUnit.ofWord? entry.unit with
    | none => rfl
    | some unit =>
      exact Checked.bind_comm (Checked.mapM_comm MetadataSource.ofElement_undescribed _)
        fun _ => rfl
  · simp only [Bool.eq_false_iff.2 snakeCase, Bool.not_false, if_true]
    rfl

theorem MetadataSource.resolve_undescribed (pool : MetadataPool) (metric : String)
    (source : MetadataSource) : source.undescribed.resolve pool.undescribed metric
      = MetadataDefinition.undescribed <$> source.resolve pool metric := by
  cases source with
  | inline d => rfl
  | reference token =>
    show resolve pool.undescribed metric (.reference token) = _
    simp only [resolve]
    cases referenceName? token with
    | none => rfl
    | some name =>
      simp only [MetadataPool.get?_undescribed]
      cases pool.get? name with
      | none => rfl
      | some d => rfl

theorem Metric.resolve_undescribed (pool : MetadataPool) (m : Metric MetadataSource) :
    (m.undescribed MetadataSource.undescribed).resolve pool.undescribed
      = undescribed MetadataDefinition.undescribed <$> m.resolve pool :=
  Checked.bind_comm
    (Checked.mapM_comm (MetadataSource.resolve_undescribed pool m.name) m.metadata) fun _ => rfl

theorem resolveAll_undescribed (pool : MetadataPool) (metrics : List (Metric MetadataSource)) :
    resolveAll pool.undescribed (metrics.map (Metric.undescribed MetadataSource.undescribed))
      = List.map (Metric.undescribed MetadataDefinition.undescribed)
        <$> resolveAll pool metrics :=
  Checked.mapM_comm (Metric.resolve_undescribed pool) metrics

/-! ### Conventions -/

theorem forM_map {α β : Type} (e : α → β) (f : β → Checked Unit) (xs : List α) :
    (xs.map e).forM f = xs.forM fun x => f (e x) := by
  induction xs with
  | nil => rfl
  | cons x xs ih =>
    show (f (e x) >>= fun _ => (xs.map e).forM f) = (f (e x) >>= fun _ => _)
    rw [ih]

theorem Document.checkConventions_undescribed (document : Document) (sorted : Bool) :
    document.undescribed.checkConventions sorted = document.checkConventions sorted := by
  have element : ∀ metric (x : MetadataElement),
      x.undescribed.checkSigil metric = x.checkSigil metric := by
    intro metric x
    cases x with
    | reference token => rfl
    | inline entry => rfl
  have sigils : document.undescribed.checkSigils = document.checkSigils := by
    rw [checkSigils, checkSigils, undescribed, forM_map]
    simp only [MetricEntry.undescribed, forM_map, element]
  have order : document.undescribed.checkOrder = document.checkOrder := by
    have names : document.undescribed.metrics.map MetricEntry.name
        = document.metrics.map MetricEntry.name := List.map_map
    rw [checkOrder, checkOrder, names]
  rw [checkConventions, checkConventions, sigils, order]

/-! ### Plans -/

theorem metadataFields_undescribed (m : PlannedMetric) :
    m.undescribed.metadataFields = m.metadataFields.map ArgumentField.undescribed := by
  rw [PlannedMetric.metadataFields, PlannedMetric.metadataFields, PlannedMetric.undescribed,
    List.filter_map]
  rfl

theorem argsOptional_undescribed (m : PlannedMetric) :
    m.undescribed.argsOptional = m.argsOptional := by
  rw [PlannedMetric.argsOptional, PlannedMetric.argsOptional, metadataFields_undescribed,
    List.all_map]
  rfl

/-- What targets rely on in a metric has nothing to do with descriptions. -/
theorem PlannedMetric.Orderly.undescribed {types : List ConstrainedType} {m : PlannedMetric}
    (h : m.Orderly types) : m.undescribed.Orderly types := by
  refine ⟨h.snakeCase, h.typeName, h.functionName, h.constantName, ?_, ?_, ?_, ?_⟩
  · exact List.forall_mem_map.2 h.identifier
  · rw [PlannedMetric.undescribed, List.map_map]
    exact h.nodup
  · exact List.forall_mem_map.2 h.place
  · rw [metadataFields_undescribed]
    exact List.forall_mem_map.2 h.untimed

/-! ### Planning -/

/-- The draft of a metric's fields without descriptions. -/
def FieldDraft.undescribed (draft : FieldDraft) : FieldDraft :=
  { draft with fields := draft.fields.map ArgumentField.undescribed }

/-- The draft without descriptions. -/
def Draft.undescribed (draft : Draft) : Draft :=
  { draft with plan := draft.plan.undescribed }

theorem FieldDraft.add_undescribed (metric : String) (draft : FieldDraft)
    (d : MetadataDefinition) :
    draft.undescribed.add metric d.undescribed = undescribed <$> draft.add metric d := by
  have repeated : (draft.undescribed.fields.any fun field =>
      field.identifier == asciiIdentifier d.name)
      = draft.fields.any fun field => field.identifier == asciiIdentifier d.name := by
    rw [undescribed, List.any_map]
    rfl
  have type : d.undescribed.valueType = d.valueType := rfl
  have name : d.undescribed.name = d.name := rfl
  unfold add
  rw [type, name]
  refine Checked.bind_comm (e := id) (id_map _).symm fun identifiers => ?_
  refine Checked.bind_comm (e := id) (id_map _).symm fun own => ?_
  rw [repeated]
  by_cases again : (draft.fields.any fun field => field.identifier == asciiIdentifier d.name) = true
  · simp only [if_pos again]
    rfl
  · simp only [if_neg again]
    have appended : ∀ type types, Except.ok (ε := Fault) (FieldDraft.mk identifiers own types
        (draft.undescribed.fields
          ++ [⟨d.name, asciiIdentifier d.name, type, d.required, none, none⟩]))
        = undescribed <$> Except.ok (FieldDraft.mk identifiers own types (draft.fields
          ++ [⟨d.name, asciiIdentifier d.name, type, d.required, d.description, none⟩])) := by
      intro type types
      show Except.ok _ = Except.ok _
      simp only [undescribed, List.map_append, List.map_singleton]
      rfl
    cases d.valueType with
    | primitive kind => exact appended _ _
    | oneOf values =>
      exact Checked.bind_comm (e := id) (id_map _).symm fun found => appended _ _

theorem Draft.add_undescribed (draft : Draft) (m : Metric MetadataDefinition) :
    draft.undescribed.add (m.undescribed MetadataDefinition.undescribed)
      = undescribed <$> draft.add m := by
  have twice : (draft.undescribed.plan.metrics.any fun planned => planned.name == m.name)
      = draft.plan.metrics.any fun planned => planned.name == m.name := by
    show (draft.plan.metrics.map PlannedMetric.undescribed).any _ = _
    rw [List.any_map]
    rfl
  have name : (m.undescribed MetadataDefinition.undescribed).name = m.name := rfl
  unfold add
  rw [name, twice]
  by_cases again : (draft.plan.metrics.any fun planned => planned.name == m.name) = true
  · simp only [if_pos again]
    rfl
  · simp only [if_neg again]
    refine Checked.bind_comm (e := id) (id_map _).symm fun typeNames => ?_
    refine Checked.bind_comm (e := FieldDraft.undescribed) ?_ fun fields => ?_
    · exact Checked.foldlM_comm (FieldDraft.add_undescribed m.name)
        ⟨draft.identifiers, implicitScope, draft.plan.constrainedTypes, []⟩ m.metadata
    · show Except.ok _ = Except.ok _
      simp only [undescribed, Plan.undescribed, List.map_append, List.map_singleton,
        PlannedMetric.undescribed, FieldDraft.undescribed, id]
      rfl

theorem Plan.ofMetrics_undescribed (metrics : List (Metric MetadataDefinition)) :
    ofMetrics (metrics.map (Metric.undescribed MetadataDefinition.undescribed))
      = undescribed <$> ofMetrics metrics := by
  have run : (metrics.map (Metric.undescribed MetadataDefinition.undescribed)).foldlM Draft.add {}
      = Draft.undescribed <$> metrics.foldlM Draft.add {} :=
    Checked.foldlM_comm Draft.add_undescribed {} metrics
  rw [ofMetrics, ofMetrics, run]
  cases metrics.foldlM Draft.add {} with
  | error fault => rfl
  | ok draft => rfl

/-- A document without descriptions has the plan of the document, less descriptions. -/
theorem Document.plan_undescribed (settings : Settings) (document : Document) :
    document.undescribed.plan settings = Plan.undescribed <$> document.plan settings := by
  rw [plan_eq, plan_eq, checkConventions_undescribed]
  refine Checked.bind_comm (e := id) (id_map _).symm fun _ => ?_
  refine Checked.bind_comm (MetadataPool.ofEntries_undescribed _) fun pool => ?_
  refine Checked.bind_comm (Checked.mapM_comm Metric.ofEntry_undescribed _) fun metrics => ?_
  refine Checked.bind_comm (resolveAll_undescribed pool metrics) fun resolved => ?_
  exact Plan.ofMetrics_undescribed resolved

/-- Documents that differ in descriptions only fail alike, or have plans that differ in descriptions
only. -/
theorem Document.plan_congr {document other : Document}
    (same : document.undescribed = other.undescribed) (settings : Settings) :
    Plan.undescribed <$> document.plan settings = Plan.undescribed <$> other.plan settings := by
  rw [← plan_undescribed, ← plan_undescribed, same]

end Telemetry
