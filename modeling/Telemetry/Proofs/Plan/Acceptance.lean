import Telemetry.Artifact.Generate
import Telemetry.Proofs.Metric.Reference
import Telemetry.Proofs.Plan.Metrics

/-!
# Which documents are accepted

* `plan_eq_ok_iff` takes the steps of planning a document apart: its conventions, its pool, what its
  metrics mean, and the plan of these;
* `Document.WellFormed` says, without any of these steps, what a document has to satisfy;
* `exists_plan_iff_wellFormed`: a document is planned exactly if it is well-formed.
-/

namespace Telemetry

namespace Document

variable {settings : Settings} {document : Document}

/-- The pool of a document is made exactly if it is valid, and then it holds its entries. -/
theorem exists_ofEntries_iff :
    (∃ pool, MetadataPool.ofEntries document.metadata = .ok pool) ↔ document.PoolValid := by
  rw [MetadataPool.exists_ofEntries_iff]
  exact ⟨fun h => ⟨h.1, h.2⟩, fun h => ⟨h.valid, h.nodup⟩⟩

/-- What planning a document comes to. -/
theorem plan_eq_ok_iff {plan : Plan} :
    document.plan settings = .ok plan ↔
      document.Sigils ∧
      (settings.sortedMetrics = true →
        (document.metrics.map MetricEntry.name).Pairwise (· < ·)) ∧
      document.PoolValid ∧
      ∃ resolved, List.Forall₂ (MetricEntry.Means document) document.metrics resolved ∧
        Plan.ofMetrics resolved = .ok plan := by
  have stages : document.plan settings = .ok plan ↔
      document.checkConventions settings.sortedMetrics = .ok () ∧
      ∃ pool, MetadataPool.ofEntries document.metadata = .ok pool ∧
        ∃ resolved, (∃ metrics, document.metrics.mapM Metric.ofEntry = .ok metrics ∧
          resolveAll pool metrics = .ok resolved) ∧ Plan.ofMetrics resolved = .ok plan := by
    rw [plan_eq]
    simp only [Checked.bind_eq_ok_iff]
    constructor
    · intro h
      obtain ⟨_, conventions, pool, made, metrics, checked, resolved, found, planned⟩ := h
      exact ⟨conventions, pool, made, resolved, ⟨metrics, checked, found⟩, planned⟩
    · intro h
      obtain ⟨conventions, pool, made, resolved, ⟨metrics, checked, found⟩, planned⟩ := h
      exact ⟨(), conventions, pool, made, metrics, checked, resolved, found, planned⟩
  have means : ∀ {pool}, document.PoolValid → MetadataPool.ofEntries document.metadata = .ok pool →
      ∀ resolved, ((∃ metrics, document.metrics.mapM Metric.ofEntry = .ok metrics ∧
        resolveAll pool metrics = .ok resolved) ↔
        List.Forall₂ (MetricEntry.Means document) document.metrics resolved) := by
    intro pool valid made resolved
    have holds := MetadataPool.holds_of_ofEntries made
    simp only [resolveAll, Checked.mapM_eq_ok_iff]
    rw [Related.exists_forall₂_trans_iff]
    simp only [ofEntry_resolve_iff valid holds]
  rw [stages, checkConventions_eq_ok_iff, and_assoc]
  refine and_congr_right fun _ => and_congr_right fun _ => ?_
  constructor
  · intro h
    obtain ⟨pool, made, resolved, found, planned⟩ := h
    have valid := exists_ofEntries_iff.1 ⟨pool, made⟩
    exact ⟨valid, resolved, (means valid made resolved).1 found, planned⟩
  · intro h
    obtain ⟨valid, resolved, found, planned⟩ := h
    obtain ⟨pool, made⟩ := exists_ofEntries_iff.2 valid
    exact ⟨pool, made, resolved, (means valid made resolved).2 found, planned⟩

end Document

/-! ### Well-formed documents -/

/-- The identifier of the fields that an entry gives. -/
def MetadataEntry.identifier (entry : MetadataEntry) : String :=
  asciiIdentifier entry.key

/-- Whether two entries can be used in one document: if they have one identifier, they have one
name, and the same list of distinct values if both have values. -/
def MetadataEntry.Agrees (e f : MetadataEntry) : Prop :=
  e.identifier = f.identifier →
    e.key = f.key ∧ (e.values ≠ [] → f.values ≠ [] → e.values = f.values)

/-- The words for a unit, in lower case. -/
def unitWords : List String :=
  ["none", "count", "milliseconds", "bytes", "percent"]

/-- What a document has to satisfy to be planned. -/
structure Document.WellFormed (settings : Settings) (document : Document) : Prop where
  /-- Every token begins with the sigil. -/
  sigils : document.Sigils
  /-- The names of metrics ascend, if that is asked for. -/
  ascending : settings.sortedMetrics = true →
    (document.metrics.map MetricEntry.name).Pairwise (· < ·)
  /-- The entries of the pool are valid, and their trimmed names distinct. -/
  pool : document.PoolValid
  /-- The names of metrics are in snake case. -/
  names : ∀ m ∈ document.metrics, SnakeCase m.name
  units : ∀ m ∈ document.metrics, (Text.trim m.unit).toLower ∈ unitWords
  /-- The definitions that metrics contain are valid. -/
  inlines : ∀ m ∈ document.metrics, ∀ entry, .inline entry ∈ m.metadata → entry.Valid
  /-- Every reference names an entry of the pool. -/
  references : ∀ m ∈ document.metrics, ∀ name, .reference ("$" ++ name) ∈ m.metadata →
    ∃ entry ∈ document.metadata, entry.key = name
  /-- The names of metrics differ by more than underscores. -/
  typeNames : (document.metrics.map fun m => withoutUnderscores m.name).Nodup
  /-- The identifiers of a metric are distinct, also from those of the implicit fields. -/
  identifiers : ∀ m ∈ document.metrics, m.metadata.Pairwise fun x y =>
    ∀ e f, document.Stands x e → document.Stands y f → e.identifier ≠ f.identifier
  explicit : ∀ m ∈ document.metrics, ∀ x ∈ m.metadata, ∀ e, document.Stands x e →
    e.identifier ≠ "createTime" ∧ e.identifier ≠ "value"
  /-- An identifier belongs to one name and one list of values in the whole document. -/
  agree : ∀ m ∈ document.metrics, ∀ n ∈ document.metrics, ∀ x ∈ m.metadata, ∀ y ∈ n.metadata,
    ∀ e f, document.Stands x e → document.Stands y f → e.Agrees f

theorem MetadataEntry.agrees_iff {e f : MetadataEntry} :
    e.definition.Agrees f.definition ↔ e.Agrees f := by
  have constrained : ∀ entry : MetadataEntry,
      entry.definition.isConstrained = true ↔ entry.values ≠ [] := by
    intro entry
    show (!entry.values.isEmpty) = true ↔ _
    rw [Bool.not_eq_true', List.isEmpty_eq_false_iff]
  rw [MetadataDefinition.Agrees, constrained, constrained]
  rfl

theorem mem_unitWords_iff {word : String} :
    word ∈ unitWords ↔ ∃ unit : MetricUnit, word = unit.name := by
  constructor
  · intro h
    simp only [unitWords, List.mem_cons, List.not_mem_nil, or_false] at h
    rcases h with h | h | h | h | h
    · exact ⟨.none, h⟩
    · exact ⟨.count, h⟩
    · exact ⟨.milliseconds, h⟩
    · exact ⟨.bytes, h⟩
    · exact ⟨.percent, h⟩
  · intro h
    obtain ⟨unit, rfl⟩ := h
    cases unit <;> decide

/-- What is said of all entries that two elements stand for is said of what they say. -/
theorem Document.Says.forall_iff {document : Document} (pool : document.PoolValid)
    {x y : MetadataElement} {c d : MetadataDefinition} (hx : document.Says x c)
    (hy : document.Says y d) {P : MetadataDefinition → MetadataDefinition → Prop} :
    (∀ e f, document.Stands x e → document.Stands y f → P e.definition f.definition) ↔ P c d := by
  obtain ⟨e, standsE, -, rfl⟩ := hx
  obtain ⟨f, standsF, -, rfl⟩ := hy
  constructor
  · intro h
    exact h e f standsE standsF
  · intro h e' f' standsE' standsF'
    rw [standsE.unique pool standsE', standsF.unique pool standsF']
    exact h

/-! ### Metrics by themselves -/

section Means

variable {document : Document}

/-- When a metric as written means anything. -/
theorem MetricEntry.exists_means_iff {entry : MetricEntry} :
    (∃ m, entry.Means document m) ↔
      SnakeCase entry.name ∧ (Text.trim entry.unit).toLower ∈ unitWords ∧
        ∀ x ∈ entry.metadata, ∃ d, document.Says x d := by
  rw [mem_unitWords_iff, ← Related.exists_forall₂_iff]
  constructor
  · intro h
    obtain ⟨m, means⟩ := h
    exact ⟨means.snakeCase, ⟨m.unit, means.unit⟩, m.metadata, means.metadata⟩
  · intro h
    obtain ⟨snakeCase, ⟨unit, isUnit⟩, metadata, meant⟩ := h
    exact ⟨⟨entry.name, unit, entry.description.bind Text.trimmed?, metadata⟩, snakeCase, rfl,
      isUnit, rfl, meant⟩

variable (pool : document.PoolValid)

include pool

/-- When an element stands for a valid entry. -/
theorem exists_says_iff {x : MetadataElement} :
    (∃ d, document.Says x d) ↔ (∀ entry, x = .inline entry → entry.Valid) ∧
      ∀ token, x = .reference token → ∃ entry ∈ document.metadata, token = "$" ++ entry.key := by
  constructor
  · intro h
    obtain ⟨_, entry, stands, valid, -⟩ := h
    cases stands with
    | inline =>
      refine ⟨?_, fun token isToken => MetadataElement.noConfusion isToken⟩
      intro other same
      cases same
      exact valid
    | reference inPool =>
      refine ⟨fun other same => MetadataElement.noConfusion same, ?_⟩
      intro token isToken
      cases isToken
      exact ⟨entry, inPool, rfl⟩
  · intro h
    cases x with
    | inline entry => exact ⟨_, entry, .inline, h.1 entry rfl, rfl⟩
    | reference token =>
      obtain ⟨entry, inPool, rfl⟩ := h.2 token rfl
      exact ⟨_, entry, .reference inPool, pool.valid entry inPool, rfl⟩

/-- When the identifiers of a metric are distinct. -/
theorem MetricEntry.Means.sound_iff {entry : MetricEntry} {m : Metric MetadataDefinition}
    (h : entry.Means document m) :
    m.Sound ↔
      (entry.metadata.Pairwise fun x y =>
        ∀ e f, document.Stands x e → document.Stands y f → e.identifier ≠ f.identifier) ∧
      ∀ x ∈ entry.metadata, ∀ e, document.Stands x e →
        e.identifier ≠ "createTime" ∧ e.identifier ≠ "value" := by
  have distinct : (entry.metadata.Pairwise fun x y =>
      ∀ e f, document.Stands x e → document.Stands y f → e.identifier ≠ f.identifier) ↔
      (m.metadata.map MetadataDefinition.identifier).Nodup := by
    rw [List.Nodup, List.pairwise_map]
    exact Related.pairwise_iff h.metadata fun x y c d hx hy =>
      Document.Says.forall_iff pool hx hy (P := fun c d => c.identifier ≠ d.identifier)
  have implicit : ∀ d : MetadataDefinition, (∀ f : ImplicitField, f.identifier ≠ d.identifier) ↔
      d.identifier ≠ "createTime" ∧ d.identifier ≠ "value" := by
    intro d
    constructor
    · intro new
      exact ⟨(new .createTime).symm, (new .value).symm⟩
    · intro new f
      cases f with
      | createTime => exact new.1.symm
      | value => exact new.2.symm
  rw [distinct]
  constructor
  · intro sound
    refine ⟨sound.nodup, ?_⟩
    intro x hx e stands
    obtain ⟨d, hd, f, standsF, -, rfl⟩ := Related.exists_right h.metadata hx
    rw [standsF.unique pool stands]
    exact (implicit f.definition).1 (sound.explicit _ hd)
  · intro sound
    refine ⟨sound.1, ?_⟩
    intro d hd
    obtain ⟨x, hx, e, stands, -, rfl⟩ := Related.exists_left h.metadata hd
    exact (implicit e.definition).2 (sound.2 x hx e stands)

/-- When the definitions of two metrics agree. -/
theorem MetricEntry.Means.agree_iff {entry other : MetricEntry} {m n : Metric MetadataDefinition}
    (h : entry.Means document m) (h' : other.Means document n) :
    (∀ x ∈ entry.metadata, ∀ y ∈ other.metadata, ∀ e f, document.Stands x e →
      document.Stands y f → e.Agrees f) ↔ m.Agrees n := by
  have pair : ∀ {x y c d}, document.Says x c → document.Says y d →
      ((∀ e f, document.Stands x e → document.Stands y f → e.Agrees f) ↔ c.Agrees d) := by
    intro x y c d hx hy
    simp only [← MetadataEntry.agrees_iff]
    exact Document.Says.forall_iff pool hx hy (P := MetadataDefinition.Agrees)
  constructor
  · intro all a ha d hd
    obtain ⟨x, hx, saysX⟩ := Related.exists_left h.metadata ha
    obtain ⟨y, hy, saysY⟩ := Related.exists_left h'.metadata hd
    exact (pair saysX saysY).1 (all x hx y hy)
  · intro all x hx y hy
    obtain ⟨a, ha, saysX⟩ := Related.exists_right h.metadata hx
    obtain ⟨d, hd, saysY⟩ := Related.exists_right h'.metadata hy
    exact (pair saysX saysY).2 (all a ha d hd)

end Means

/-! ### Metrics beside each other -/

theorem MetadataDefinition.Agrees.symm {e d : MetadataDefinition} (h : e.Agrees d) :
    d.Agrees e := by
  intro same
  obtain ⟨name, values⟩ := h same.symm
  exact ⟨name.symm, fun hd he => (values he hd).symm⟩

/-- Definitions of sound metrics that agree in pairs of metrics agree throughout. -/
theorem agree_of_pairwise {metrics : List (Metric MetadataDefinition)}
    (sound : ∀ m ∈ metrics, m.Sound)
    (pairs : metrics.Pairwise Metric.Agrees) :
    ∀ m ∈ metrics, ∀ n ∈ metrics, m.Agrees n := by
  intro m hm n hn
  have symmetric : metrics.Pairwise (flip Metric.Agrees) :=
    pairs.imp fun all d hd a ha => (all a ha d hd).symm
  refine pairs.forall_of_forall_of_flip ?_ symmetric hm hn
  intro m hm a ha d hd same
  rw [List.inj_on_of_nodup_map (sound m hm).nodup ha hd same]
  exact ⟨rfl, fun _ _ => rfl⟩

/-- When metrics can be planned together, in terms of the metrics as written. -/
theorem means_iff {document : Document} (pool : document.PoolValid)
    {resolved : List (Metric MetadataDefinition)}
    (h : List.Forall₂ (MetricEntry.Means document) document.metrics resolved) :
    ((∀ m ∈ resolved, m.Sound) ∧ resolved.Pairwise Metric.Beside) ↔
      (document.metrics.map fun m => withoutUnderscores m.name).Nodup ∧
      (∀ m ∈ document.metrics, (m.metadata.Pairwise fun x y =>
        ∀ e f, document.Stands x e → document.Stands y f → e.identifier ≠ f.identifier) ∧
        ∀ x ∈ m.metadata, ∀ e, document.Stands x e →
          e.identifier ≠ "createTime" ∧ e.identifier ≠ "value") ∧
      ∀ m ∈ document.metrics, ∀ n ∈ document.metrics, ∀ x ∈ m.metadata, ∀ y ∈ n.metadata,
        ∀ e f, document.Stands x e → document.Stands y f → e.Agrees f := by
  have each : (∀ m ∈ resolved, m.Sound) ↔ ∀ m ∈ document.metrics,
      (m.metadata.Pairwise fun x y =>
        ∀ e f, document.Stands x e → document.Stands y f → e.identifier ≠ f.identifier) ∧
        ∀ x ∈ m.metadata, ∀ e, document.Stands x e →
          e.identifier ≠ "createTime" ∧ e.identifier ≠ "value" := by
    constructor
    · intro sound entry he
      obtain ⟨m, hm, means⟩ := Related.exists_right h he
      exact (means.sound_iff pool).1 (sound m hm)
    · intro sound m hm
      obtain ⟨entry, he, means⟩ := Related.exists_left h hm
      exact (means.sound_iff pool).2 (sound entry he)
  have names : (document.metrics.map fun m => withoutUnderscores m.name).Nodup ↔
      resolved.Pairwise fun m n =>
        (pascalCase m.name).toLower ≠ (pascalCase n.name).toLower := by
    rw [List.Nodup, List.pairwise_map]
    refine Related.pairwise_iff h ?_
    intro a b m n means means'
    rw [means.name, means'.name, toLower_pascalCase means.snakeCase,
      toLower_pascalCase means'.snakeCase]
  have agree : (∀ m ∈ document.metrics, ∀ n ∈ document.metrics, ∀ x ∈ m.metadata,
      ∀ y ∈ n.metadata, ∀ e f, document.Stands x e → document.Stands y f → e.Agrees f) ↔
      ∀ m ∈ resolved, ∀ n ∈ resolved, m.Agrees n := by
    constructor
    · intro all m hm n hn
      obtain ⟨a, ha, means⟩ := Related.exists_left h hm
      obtain ⟨b, hb, means'⟩ := Related.exists_left h hn
      exact (means.agree_iff pool means').1 (all a ha b hb)
    · intro all a ha b hb
      obtain ⟨m, hm, means⟩ := Related.exists_right h ha
      obtain ⟨n, hn, means'⟩ := Related.exists_right h hb
      exact (means.agree_iff pool means').2 (all m hm n hn)
  rw [names, ← each, agree]
  constructor
  · intro sound
    obtain ⟨sound, beside⟩ := sound
    exact ⟨beside.imp fun pair => pair.typeNames, sound,
      agree_of_pairwise sound (beside.imp fun pair => pair.agree)⟩
  · intro sound
    obtain ⟨typeNames, sound, all⟩ := sound
    refine ⟨sound, typeNames.imp_of_mem ?_⟩
    intro m n hm hn pair
    exact ⟨pair, all m hm n hn⟩

/-- A document is planned exactly if it is well-formed. -/
theorem exists_plan_iff_wellFormed (settings : Settings) (document : Document) :
    (∃ plan, document.plan settings = .ok plan) ↔ document.WellFormed settings := by
  have split : (∃ plan, document.plan settings = .ok plan) ↔
      document.Sigils ∧
      (settings.sortedMetrics = true →
        (document.metrics.map MetricEntry.name).Pairwise (· < ·)) ∧
      document.PoolValid ∧
      ∃ resolved, List.Forall₂ (MetricEntry.Means document) document.metrics resolved ∧
        (∀ m ∈ resolved, m.Sound) ∧ resolved.Pairwise Metric.Beside := by
    simp only [Document.plan_eq_ok_iff, ← Plan.exists_ofMetrics_iff]
    constructor
    · intro h
      obtain ⟨plan, sigils, ascending, pool, resolved, means, planned⟩ := h
      exact ⟨sigils, ascending, pool, resolved, means, plan, planned⟩
    · intro h
      obtain ⟨sigils, ascending, pool, resolved, means, plan, planned⟩ := h
      exact ⟨plan, sigils, ascending, pool, resolved, means, planned⟩
  rw [split]
  constructor
  · intro h
    obtain ⟨sigils, ascending, pool, resolved, means, sound⟩ := h
    obtain ⟨typeNames, identifiers, agree⟩ := (means_iff pool means).1 sound
    have each : ∀ m ∈ document.metrics, SnakeCase m.name ∧
        (Text.trim m.unit).toLower ∈ unitWords ∧
        ∀ x ∈ m.metadata, ∃ d, document.Says x d := by
      intro m hm
      obtain ⟨r, -, meant⟩ := Related.exists_right means hm
      exact MetricEntry.exists_means_iff.1 ⟨r, meant⟩
    refine ⟨sigils, ascending, pool, fun m hm => (each m hm).1, fun m hm => (each m hm).2.1, ?_, ?_,
      typeNames, fun m hm => (identifiers m hm).1, fun m hm => (identifiers m hm).2, agree⟩
    · intro m hm entry he
      exact ((exists_says_iff pool).1 ((each m hm).2.2 _ he)).1 entry rfl
    · intro m hm name hr
      obtain ⟨entry, inPool, same⟩ :=
        ((exists_says_iff pool).1 ((each m hm).2.2 _ hr)).2 _ rfl
      exact ⟨entry, inPool, ((String.append_right_inj "$").1 same).symm⟩
  · intro h
    have meant : ∀ m ∈ document.metrics, ∃ r, m.Means document r := by
      intro m hm
      refine MetricEntry.exists_means_iff.2 ⟨h.names m hm, h.units m hm, ?_⟩
      intro x hx
      refine (exists_says_iff h.pool).2 ⟨?_, ?_⟩
      · intro entry same
        exact h.inlines m hm entry (same ▸ hx)
      · intro token same
        obtain ⟨name, rfl⟩ := h.sigils m hm token (same ▸ hx)
        obtain ⟨entry, inPool, rfl⟩ := h.references m hm name (same ▸ hx)
        exact ⟨entry, inPool, rfl⟩
    obtain ⟨resolved, means⟩ := Related.exists_forall₂_iff.2 meant
    refine ⟨h.sigils, h.ascending, h.pool, resolved, means, (means_iff h.pool means).2 ?_⟩
    exact ⟨h.typeNames, fun m hm => ⟨h.identifiers m hm, h.explicit m hm⟩, h.agree⟩

end Telemetry
