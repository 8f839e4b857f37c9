import Telemetry.Proofs.Plan.Acceptance
import Telemetry.Proofs.Schema.Gist

/-!
# Plans are made from gists

A definition without a kind is planned like one of texts, and whatever else the gist of a document
forgets is forgotten when its entries are checked.

* `Plan.ofMetrics_settled`: metrics can be planned after their definitions have been given a kind;
* `MetadataEntry.valid_iff_gist` and `MetadataEntry.Valid.settled_definition`: what an entry comes
  to is determined by its gist;
* `Document.plan_of_gist`: documents with the same gist have the same plan.
-/

namespace Telemetry

/-! ### Definitions without a kind -/

/-- A definition whose kind is given; where none was, its values are texts. -/
def MetadataDefinition.settled (d : MetadataDefinition) : MetadataDefinition :=
  { d with kind := some (d.kind.getD .text) }

/-- A metric whose definitions all have a kind. -/
def Metric.settled (m : Metric MetadataDefinition) : Metric MetadataDefinition :=
  { m with metadata := m.metadata.map MetadataDefinition.settled }

theorem FieldDraft.add_settled (metric : String) (draft : FieldDraft) (d : MetadataDefinition) :
    draft.add metric d.settled = draft.add metric d :=
  rfl

theorem Draft.add_settled (draft : Draft) (m : Metric MetadataDefinition) :
    draft.add m.settled = draft.add m := by
  have fields : ∀ start : FieldDraft, m.settled.metadata.foldlM (FieldDraft.add m.name) start
      = m.metadata.foldlM (FieldDraft.add m.name) start := by
    intro start
    rw [Metric.settled, List.foldlM_map]
    rfl
  have name : m.settled.name = m.name := rfl
  rw [add, add, name, fields]
  rfl

theorem Plan.ofMetrics_settled (metrics : List (Metric MetadataDefinition)) :
    ofMetrics (metrics.map Metric.settled) = ofMetrics metrics := by
  rw [ofMetrics, ofMetrics, List.foldlM_map]
  simp only [Draft.add_settled]

/-! ### What a gist determines -/

namespace MetadataEntry

variable {entry other : MetadataEntry}

theorem valid_iff_gist :
    entry.Valid ↔ entry.gist .name ≠ "" ∧ (entry.gist .kind).isSome = true := by
  obtain ⟨name, kind, allowedValues, required, description⟩ := entry
  constructor
  · intro h
    refine ⟨h.name, ?_⟩
    cases kind with
    | none => rfl
    | some word => exact MetadataKind.isSome_ofWord?_iff.2 (h.kind word rfl)
  · rintro ⟨named, known⟩
    refine ⟨named, ?_⟩
    rintro word rfl
    exact MetadataKind.isSome_ofWord?_iff.1 known

theorem Valid.settled_definition (h : entry.Valid) : entry.definition.settled =
    ⟨entry.gist .name, entry.gist .kind, entry.gist .allowedValues, entry.gist .required,
      entry.gist .description⟩ := by
  obtain ⟨name, kind, allowedValues, required, description⟩ := entry
  have kinds : some ((kind.bind MetadataKind.ofWord?).getD .text)
      = kind.elim (some .text) MetadataKind.ofWord? := by
    cases kind with
    | none => rfl
    | some word =>
      obtain ⟨known, isKnown⟩ :=
        Option.isSome_iff_exists.1 (MetadataKind.isSome_ofWord?_iff.2 (h.kind word rfl))
      rw [Option.bind_some, Option.elim_some, isKnown]
      rfl
  show MetadataDefinition.mk _ (some ((kind.bind MetadataKind.ofWord?).getD .text)) _ _ _ = _
  rw [kinds]
  rfl

end MetadataEntry

section Documents

variable {document other : Document}

/-- The pools of documents with the same gist match entry by entry. -/
theorem Document.exists_entry_of_gist (same : document.gist = other.gist) {entry : MetadataEntry}
    (there : entry ∈ document.metadata) : ∃ e ∈ other.metadata, e.gist = entry.gist := by
  have pools : document.metadata.map MetadataEntry.gist = other.metadata.map MetadataEntry.gist :=
    congrFun same .metadata
  have inMap := List.mem_map_of_mem (f := MetadataEntry.gist) there
  rw [pools] at inMap
  exact List.mem_map.1 inMap

/-- Elements with the same gist say the same, up to definitions without a kind. -/
theorem Document.Says.of_gist (same : document.gist = other.gist) {x y : MetadataElement}
    (elements : x.gist = y.gist) {d : MetadataDefinition} (h : document.Says x d) :
    ∃ e, other.Says y e ∧ e.settled = d.settled := by
  have definitions : ∀ {e f : MetadataEntry}, e.gist = f.gist → e.Valid →
      f.Valid ∧ f.definition.settled = e.definition.settled := by
    intro e f gists valid
    have validToo : f.Valid := by
      rw [MetadataEntry.valid_iff_gist] at valid ⊢
      exact gists ▸ valid
    rw [valid.settled_definition, validToo.settled_definition, gists]
    exact ⟨validToo, rfl⟩
  obtain ⟨entry, stands, valid, rfl⟩ := h
  cases stands with
  | inline =>
    cases y with
    | reference token => cases elements
    | inline f =>
      obtain ⟨validToo, settled⟩ := definitions (Sum.inr.inj elements) valid
      exact ⟨f.definition, ⟨f, .inline, validToo, rfl⟩, settled⟩
  | reference there =>
    cases y with
    | inline f => cases elements
    | reference token =>
      -- The entry has a twin in the other pool, which goes by the same key.
      obtain ⟨f, inPool, gists⟩ := exists_entry_of_gist same there
      obtain ⟨validToo, settled⟩ := definitions gists.symm valid
      have key : f.key = entry.key := congrFun gists .name
      have isToken : token = "$" ++ f.key := key ▸ (Sum.inl.inj elements).symm
      exact ⟨f.definition, ⟨f, isToken ▸ .reference inPool, validToo, rfl⟩, settled⟩

/-- Metrics with the same gist mean the same, up to definitions without a kind. -/
theorem MetricEntry.Means.of_gist (same : document.gist = other.gist) {entry f : MetricEntry}
    (gists : entry.gist = f.gist) {m : Metric MetadataDefinition} (h : entry.Means document m) :
    ∃ n, f.Means other n ∧ n.settled = m.settled := by
  have name : entry.name = f.name := congrFun gists .name
  have unit : MetricUnit.ofWord? entry.unit = MetricUnit.ofWord? f.unit := congrFun gists .unit
  have description : entry.description.bind Text.trimmed? = f.description.bind Text.trimmed? :=
    congrFun gists .description
  have elements : List.Forall₂ (fun y x => MetadataElement.gist x = y.gist) f.metadata
      entry.metadata :=
    (Related.forall₂_of_map_eq (congrFun gists .metadata)).flip
  -- From the elements of the other metric to those of this one, and on to what they say.
  have each : List.Forall₂ (fun y d => ∃ e, other.Says y e ∧ e.settled = d.settled) f.metadata
      m.metadata := by
    refine (Related.exists_forall₂_trans_iff.1 ⟨_, elements, h.metadata⟩).imp ?_
    rintro y d ⟨x, gist, means⟩
    exact means.of_gist same gist
  obtain ⟨definitions, means, settled⟩ := Related.exists_forall₂_trans_iff.2 each
  refine ⟨{ m with metadata := definitions }, ⟨?_, ?_, ?_, ?_, means⟩, ?_⟩
  · exact name ▸ h.snakeCase
  · exact h.name.trans name
  · rw [← MetricUnit.ofWord?_eq_some_iff, ← unit, MetricUnit.ofWord?_eq_some_iff]
    exact h.unit
  · exact h.description.trans description
  · rw [Metric.settled, Metric.settled, Related.map_eq_map settled fun _ _ => id]

theorem Document.Sigils.of_gist (same : document.gist = other.gist) (h : document.Sigils) :
    other.Sigils := by
  have metrics : document.metrics.map MetricEntry.gist = other.metrics.map MetricEntry.gist :=
    congrFun same .metrics
  intro metric there token isElement
  obtain ⟨twin, inDocument, gists⟩ := Related.exists_left (Related.forall₂_of_map_eq metrics) there
  obtain ⟨x, isTwin, gist⟩ :=
    Related.exists_left (Related.forall₂_of_map_eq (congrFun gists .metadata)) isElement
  cases x with
  | inline entry => cases gist
  | reference _ =>
    cases gist
    exact h twin inDocument token isTwin

theorem Document.PoolValid.of_gist (same : document.gist = other.gist) (h : document.PoolValid) :
    other.PoolValid := by
  have pools : document.metadata.map MetadataEntry.gist = other.metadata.map MetadataEntry.gist :=
    congrFun same .metadata
  have keys : document.metadata.map MetadataEntry.key = other.metadata.map MetadataEntry.key :=
    Related.map_eq_map (Related.forall₂_of_map_eq pools) fun _ _ gists => congrFun gists .name
  refine ⟨fun entry there => ?_, keys ▸ h.nodup⟩
  obtain ⟨twin, inPool, gists⟩ := exists_entry_of_gist same.symm there
  have valid := h.valid twin inPool
  rw [MetadataEntry.valid_iff_gist] at valid ⊢
  exact gists ▸ valid

/-- Documents with the same gist have the same plan. -/
theorem Document.plan_of_gist (same : document.gist = other.gist) {settings : Settings}
    {plan : Plan} (h : document.plan settings = .ok plan) : other.plan settings = .ok plan := by
  have metrics : document.metrics.map MetricEntry.gist = other.metrics.map MetricEntry.gist :=
    congrFun same .metrics
  obtain ⟨sigils, ascending, pool, resolved, means, planned⟩ := plan_eq_ok_iff.1 h
  have names : document.metrics.map MetricEntry.name = other.metrics.map MetricEntry.name :=
    Related.map_eq_map (Related.forall₂_of_map_eq metrics) fun _ _ gists => congrFun gists .name
  have each : List.Forall₂ (fun f m => ∃ n, MetricEntry.Means other f n ∧ n.settled = m.settled)
      other.metrics resolved := by
    refine (Related.exists_forall₂_trans_iff.1
      ⟨_, (Related.forall₂_of_map_eq metrics).flip, means⟩).imp ?_
    rintro f m ⟨entry, gists, isMeant⟩
    exact isMeant.of_gist same gists
  obtain ⟨others, meansToo, settled⟩ := Related.exists_forall₂_trans_iff.2 each
  refine plan_eq_ok_iff.2 ⟨sigils.of_gist same, names ▸ ascending, pool.of_gist same, others,
    meansToo, ?_⟩
  rw [← Plan.ofMetrics_settled, Related.map_eq_map settled fun _ _ => id, Plan.ofMetrics_settled]
  exact planned

end Documents

end Telemetry
