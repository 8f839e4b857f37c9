import Mathlib.Data.String.Basic
import Telemetry.Metric.Reference
import Telemetry.Proofs.Metadata.Pool
import Telemetry.Proofs.Metric.Name
import Telemetry.Proofs.Related

/-!
# What the elements of a document stand for

* `MetadataSource.Denotes` and `MetadataSource.Offends` say what looking up a source gives, or why
  it fails: `resolve_eq_ok_iff`, `resolve_eq_error_iff`;
* `Document.Stands` relates an element of a metric's metadata to the entry that it stands for:
  itself, or the entry of the pool whose trimmed name it refers to;
* `MetricEntry.Means` relates a metric as written to the checked metric with its references
  replaced; `ofEntry_resolve_iff` says that checking and looking up, one after the other, compute
  it;
* `checkConventions_eq_ok_iff` is about the conventions that are checked before.
-/

namespace Telemetry

/-! ### Conventions -/

theorem referenceName?_eq_some_iff {token name : String} :
    referenceName? token = some name ↔ token = "$" ++ name := by
  have spelled : token = "$" ++ name ↔ token.toList = '$' :: name.toList := by
    rw [← String.toList_inj, String.toList_append]
    rfl
  rw [spelled, referenceName?]
  cases token.toList with
  | nil => simp
  | cons c rest =>
    show (if c = '$' then some (String.ofList rest) else none) = some name ↔ _
    by_cases dollar : c = '$'
    · rw [if_pos dollar, Option.some.injEq, List.cons.injEq, ← String.toList_inj,
        String.toList_ofList]
      exact (and_iff_right dollar).symm
    · simp [dollar]

/-- Whether every token of a document begins with the sigil. -/
def Document.Sigils (document : Document) : Prop :=
  ∀ metric ∈ document.metrics, ∀ token, .reference token ∈ metric.metadata →
    ∃ name, token = "$" ++ name

theorem checkSigil_eq_ok_iff {metric : String} {element : MetadataElement} :
    element.checkSigil metric = .ok () ↔
      ∀ token, element = .reference token → ∃ name, token = "$" ++ name := by
  cases element with
  | inline entry => simp [MetadataElement.checkSigil]
  | reference token =>
    simp only [MetadataElement.checkSigil, MetadataElement.reference.injEq, forall_eq',
      ← referenceName?_eq_some_iff, ← Option.isSome_iff_exists]
    split
    · rename_i isSome
      exact iff_of_true rfl isSome
    · rename_i isNone
      exact iff_of_false (by intro h; cases h) isNone

theorem checkSigils_eq_ok_iff {document : Document} :
    document.checkSigils = .ok () ↔ document.Sigils := by
  simp only [Document.checkSigils, Checked.forM_eq_ok_iff, checkSigil_eq_ok_iff, Document.Sigils]
  constructor
  · intro h metric hm token ht
    exact h metric hm _ ht token rfl
  · intro h metric hm element he token isToken
    exact h metric hm token (isToken ▸ he)

/-- Names that ascend from each to the next ascend throughout. -/
theorem checkAscending_eq_ok_iff {names : List String} :
    checkAscending names = .ok () ↔ names.Pairwise (· < ·) := by
  rw [← List.isChain_iff_pairwise]
  induction names with
  | nil => exact iff_of_true rfl .nil
  | cons first rest ih =>
    cases rest with
    | nil => exact iff_of_true rfl (.singleton _)
    | cons second rest =>
      rw [checkAscending, List.isChain_cons_cons, ← ih]
      split
      · rename_i lt
        exact (and_iff_right lt).symm
      · rename_i notLt
        exact iff_of_false (by intro h; cases h) fun h => notLt h.1

theorem checkConventions_eq_ok_iff {document : Document} {sorted : Bool} :
    document.checkConventions sorted = .ok () ↔ document.Sigils ∧
      (sorted = true → (document.metrics.map MetricEntry.name).Pairwise (· < ·)) := by
  have second : (if sorted = true then document.checkOrder else pure ()) = .ok () ↔
      (sorted = true → (document.metrics.map MetricEntry.name).Pairwise (· < ·)) := by
    cases sorted with
    | false => exact iff_of_true rfl (by intro h; cases h)
    | true => exact checkAscending_eq_ok_iff.trans (true_imp_iff.symm.trans (by simp only))
  rw [Document.checkConventions, Checked.bind_eq_ok_iff, ← checkSigils_eq_ok_iff, ← second]
  exact ⟨fun ⟨_, first, rest⟩ => ⟨first, rest⟩, fun ⟨first, rest⟩ => ⟨(), first, rest⟩⟩

/-! ### Looking up -/

namespace MetadataSource

/-- The definition that a source stands for in a pool: a definition stands for itself, and a token
for the definition of the pool whose name follows the sigil. -/
inductive Denotes (pool : MetadataPool) : MetadataSource → MetadataDefinition → Prop
  | inline {d : MetadataDefinition} : Denotes pool (.inline d) d
  | reference {d : MetadataDefinition} : d ∈ pool.definitions →
      Denotes pool (.reference ("$" ++ d.name)) d

/-- The fault of a source of `metric` that stands for nothing: a token without the sigil is reported
as it is, and a name that the pool does not have without the sigil in front. -/
inductive Offends (pool : MetadataPool) (metric : String) : MetadataSource → Fault → Prop
  | malformed {token : String} : (∀ name, token ≠ "$" ++ name) →
      Offends pool metric (.reference token) (.malformedReference metric token)
  | unknown {name : String} : (∀ d ∈ pool.definitions, d.name ≠ name) →
      Offends pool metric (.reference ("$" ++ name)) (.unknownReference metric name)

variable {pool : MetadataPool} {metric : String} {source : MetadataSource}

theorem resolve_eq_ok_iff {d : MetadataDefinition} :
    source.resolve pool metric = .ok d ↔ source.Denotes pool d := by
  cases source with
  | inline e =>
    constructor
    · intro h
      cases h
      exact .inline
    · intro h
      cases h
      rfl
  | reference token =>
    have looksUp : resolve pool metric (.reference token) = .ok d ↔
        ∃ name, referenceName? token = some name ∧ pool.get? name = some d := by
      rw [resolve]
      cases referenceName? token with
      | none => simp
      | some name =>
        simp only [Option.some.injEq, exists_eq_left']
        cases pool.get? name <;> simp
    rw [looksUp]
    constructor
    · intro h
      obtain ⟨name, isReference, found⟩ := h
      obtain ⟨there, rfl⟩ := MetadataPool.get?_eq_some_iff.1 found
      rw [referenceName?_eq_some_iff.1 isReference]
      exact .reference there
    · intro h
      cases h with
      | reference there =>
        exact ⟨d.name, referenceName?_eq_some_iff.2 rfl,
          MetadataPool.get?_eq_some_iff.2 ⟨there, rfl⟩⟩

theorem resolve_eq_error_iff {fault : Fault} :
    source.resolve pool metric = .error fault ↔ source.Offends pool metric fault := by
  cases source with
  | inline e =>
    constructor
    · intro h
      cases h
    · intro h
      cases h
  | reference token =>
    rw [resolve]
    cases isReference : referenceName? token with
    | none =>
      have bare : ∀ name, token ≠ "$" ++ name := by
        intro name isToken
        rw [referenceName?_eq_some_iff.2 isToken] at isReference
        cases isReference
      constructor
      · intro h
        cases h
        exact .malformed bare
      · intro h
        cases h with
        | malformed => rfl
        | unknown => exact absurd rfl (bare _)
    | some name =>
      obtain rfl := referenceName?_eq_some_iff.1 isReference
      have unknown : pool.get? name = none ↔ ∀ d ∈ pool.definitions, d.name ≠ name := by
        rw [MetadataPool.get?, List.find?_eq_none]
        simp only [beq_iff_eq]
      constructor
      · intro h
        cases found : pool.get? name with
        | none =>
          simp only [found] at h
          cases h
          exact .unknown (unknown.1 found)
        | some d =>
          simp only [found] at h
          cases h
      · intro h
        generalize isToken : "$" ++ name = token at h
        cases h with
        | malformed bare => exact absurd isToken.symm (bare name)
        | unknown absent =>
          obtain rfl := (String.append_right_inj "$").1 isToken
          simp only [unknown.2 absent]

end MetadataSource

/-! ### Elements -/

/-- The entry that an element of a metric's metadata stands for in a document: a definition stands
for itself, and a token for the entry of the pool whose trimmed name it refers to. -/
inductive Document.Stands (document : Document) : MetadataElement → MetadataEntry → Prop
  | inline {entry : MetadataEntry} : Stands document (.inline entry) entry
  | reference {entry : MetadataEntry} : entry ∈ document.metadata →
      Stands document (.reference ("$" ++ entry.key)) entry

/-- Whether the pool of a document can be made. -/
structure Document.PoolValid (document : Document) : Prop where
  valid : ∀ entry ∈ document.metadata, entry.Valid
  nodup : (document.metadata.map MetadataEntry.key).Nodup

/-- No element stands for two entries. -/
theorem Document.Stands.unique {document : Document} (pool : document.PoolValid)
    {element : MetadataElement} {entry other : MetadataEntry} (h : document.Stands element entry)
    (h' : document.Stands element other) : other = entry := by
  cases h with
  | inline =>
    cases h'
    rfl
  | reference there =>
    generalize isToken : "$" ++ entry.key = token at h'
    cases h' with
    | reference otherThere =>
      have same := (String.append_right_inj "$").1 isToken
      exact List.inj_on_of_nodup_map pool.nodup otherThere there same.symm

/-- Whether an element stands for a valid entry, and which definition that is. -/
def Document.Says (document : Document) (element : MetadataElement) (d : MetadataDefinition) :
    Prop :=
  ∃ entry, document.Stands element entry ∧ entry.Valid ∧ d = entry.definition

/-- Checking an element and looking it up, one after the other, gives what it says. -/
theorem exists_ofElement_denotes_iff {document : Document} {pool : MetadataPool}
    (valid : document.PoolValid) (holds : pool.Holds document.metadata)
    {element : MetadataElement} {d : MetadataDefinition} :
    (∃ source, MetadataSource.ofElement element = .ok source ∧ source.Denotes pool d) ↔
      document.Says element d := by
  cases element with
  | inline entry =>
    constructor
    · intro h
      obtain ⟨source, checked, denotes⟩ := h
      obtain ⟨definition, isDefinition, same⟩ := Checked.bind_eq_ok_iff.1 checked
      cases same
      cases denotes
      obtain ⟨isValid, rfl⟩ := MetadataDefinition.ofEntry_eq_ok_iff.1 isDefinition
      exact ⟨entry, .inline, isValid, rfl⟩
    · intro h
      obtain ⟨_, stands, isValid, rfl⟩ := h
      cases stands
      refine ⟨.inline entry.definition, ?_, .inline⟩
      rw [MetadataSource.ofElement, MetadataDefinition.ofEntry_eq_ok_iff.2 ⟨isValid, rfl⟩]
      rfl
  | reference token =>
    have isKey : ∀ entry : MetadataEntry, entry.key = entry.definition.name := fun _ => rfl
    constructor
    · intro h
      obtain ⟨_, checked, denotes⟩ := h
      cases checked
      cases denotes with
      | reference there =>
        rw [holds] at there
        obtain ⟨entry, inPool, rfl⟩ := List.mem_map.1 there
        exact ⟨entry, .reference inPool, valid.valid entry inPool, rfl⟩
    · intro h
      obtain ⟨entry, stands, -, rfl⟩ := h
      cases stands with
      | reference inPool =>
        have there : entry.definition ∈ pool.definitions := by
          rw [holds]
          exact List.mem_map_of_mem inPool
        rw [isKey entry]
        exact ⟨_, rfl, .reference there⟩

/-! ### Metrics -/

theorem MetricUnit.ofWord?_eq_some_iff {word : String} {unit : MetricUnit} :
    ofWord? word = some unit ↔ (Text.trim word).toLower = unit.name := by
  constructor
  · intro h
    have isName := List.find?_some h
    exact (beq_iff_eq.1 isName).symm
  · intro h
    rw [ofWord?, h]
    cases unit <;> decide +kernel

/-- What the check of a metric as written comes to. -/
theorem Metric.ofEntry_eq_ok_iff {entry : MetricEntry} {m : Metric MetadataSource} :
    Metric.ofEntry entry = .ok m ↔
      SnakeCase entry.name ∧ (Text.trim entry.unit).toLower = m.unit.name ∧
        List.Forall₂ (fun element source => MetadataSource.ofElement element = .ok source)
          entry.metadata m.metadata ∧
        m.name = entry.name ∧ m.description = entry.description.bind Text.trimmed? := by
  rw [← isSnakeCase_iff, ← MetricUnit.ofWord?_eq_some_iff, ← Checked.mapM_eq_ok_iff]
  rw [Metric.ofEntry]
  cases isSnakeCase entry.name with
  | false =>
    constructor
    · intro h
      cases h
    · intro h
      cases h.1
  | true =>
    cases MetricUnit.ofWord? entry.unit with
    | none =>
      constructor
      · intro h
        cases h
      · intro h
        cases h.2.1
    | some unit =>
      simp only [true_and, Option.some.injEq]
      constructor
      · intro h
        obtain ⟨metadata, checked, h⟩ := Checked.bind_eq_ok_iff.1 h
        cases h
        exact ⟨rfl, checked, rfl, rfl⟩
      · intro h
        obtain ⟨name, isUnit, description, metadata⟩ := m
        obtain ⟨rfl, checked, rfl, rfl⟩ := h
        rw [checked]
        rfl

/-- What a metric as written means, if it means anything: the metric with its references
replaced. -/
structure MetricEntry.Means (document : Document) (entry : MetricEntry)
    (m : Metric MetadataDefinition) : Prop where
  snakeCase : SnakeCase entry.name
  name : m.name = entry.name
  unit : (Text.trim entry.unit).toLower = m.unit.name
  description : m.description = entry.description.bind Text.trimmed?
  metadata : List.Forall₂ document.Says entry.metadata m.metadata

/-- Whether a metric is another one with its sources replaced by what they stand for. -/
structure Metric.Resolves (pool : MetadataPool) (m : Metric MetadataSource)
    (resolved : Metric MetadataDefinition) : Prop where
  name : resolved.name = m.name
  unit : resolved.unit = m.unit
  description : resolved.description = m.description
  metadata : List.Forall₂ (MetadataSource.Denotes pool) m.metadata resolved.metadata

theorem Metric.resolve_eq_ok_iff {pool : MetadataPool} {m : Metric MetadataSource}
    {resolved : Metric MetadataDefinition} :
    m.resolve pool = .ok resolved ↔ m.Resolves pool resolved := by
  have sources : ∀ definitions,
      m.metadata.mapM (MetadataSource.resolve pool m.name) = .ok definitions ↔
        List.Forall₂ (MetadataSource.Denotes pool) m.metadata definitions := by
    simp only [Checked.mapM_eq_ok_iff, MetadataSource.resolve_eq_ok_iff, implies_true]
  rw [Metric.resolve, Checked.bind_eq_ok_iff]
  simp only [sources]
  constructor
  · intro h
    obtain ⟨definitions, found, h⟩ := h
    cases h
    exact ⟨rfl, rfl, rfl, found⟩
  · intro h
    obtain ⟨name, unit, description, definitions⟩ := resolved
    obtain ⟨rfl, rfl, rfl, found⟩ := h
    exact ⟨definitions, found, rfl⟩

/-- Checking a metric and looking its references up, one after the other, gives what it means. -/
theorem ofEntry_resolve_iff {document : Document} {pool : MetadataPool}
    (valid : document.PoolValid) (holds : pool.Holds document.metadata) {entry : MetricEntry}
    {resolved : Metric MetadataDefinition} :
    (∃ m, Metric.ofEntry entry = .ok m ∧ m.resolve pool = .ok resolved) ↔
      entry.Means document resolved := by
  have elements : (∃ sources,
      List.Forall₂ (fun element source => MetadataSource.ofElement element = .ok source)
        entry.metadata sources ∧
      List.Forall₂ (MetadataSource.Denotes pool) sources resolved.metadata) ↔
        List.Forall₂ document.Says entry.metadata resolved.metadata := by
    rw [Related.exists_forall₂_trans_iff]
    simp only [exists_ofElement_denotes_iff valid holds]
  simp only [Metric.resolve_eq_ok_iff]
  constructor
  · intro h
    obtain ⟨m, checked, found⟩ := h
    obtain ⟨snakeCase, unit, sources, name, description⟩ := Metric.ofEntry_eq_ok_iff.1 checked
    exact ⟨snakeCase, found.name.trans name, by rw [found.unit, unit],
      found.description.trans description, elements.1 ⟨_, sources, found.metadata⟩⟩
  · intro h
    obtain ⟨sources, checked, found⟩ := elements.2 h.metadata
    refine ⟨⟨entry.name, resolved.unit, entry.description.bind Text.trimmed?, sources⟩, ?_, ?_⟩
    · exact Metric.ofEntry_eq_ok_iff.2 ⟨h.snakeCase, h.unit, checked, rfl, rfl⟩
    · exact ⟨h.name, rfl, h.description, found⟩

end Telemetry
