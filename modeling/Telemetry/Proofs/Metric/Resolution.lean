import Telemetry.Proofs.Metric.Reference

/-!
# Looking up the references of metrics

Looking up the references of a list of metrics gives the metrics with their definitions, or the
fault of the first token that stands for nothing.

* `MetadataPool.Covers` says of some sources that each of their tokens stands for a definition, and
  `MetadataPool.FirstOffence` which fault ends the run if not all do;
* `Metric.resolve_eq_error_iff`: when one metric fails;
* `resolveAll_exact`: when a list of metrics is resolved, what it gives, and how it fails.
-/

namespace Telemetry

/-- Whether every token among some sources is the sigil followed by a name that the pool has. -/
def MetadataPool.Covers (pool : MetadataPool) (sources : List MetadataSource) : Prop :=
  ∀ token, .reference token ∈ sources → ∃ d ∈ pool.definitions, token = "$" ++ d.name

/-- Whether `fault` is that of the first token of some metrics that stands for nothing: the tokens
of the metrics in front of it are covered, and so are those before it in its own metric. -/
def MetadataPool.FirstOffence (pool : MetadataPool) (metrics : List (Metric MetadataSource))
    (fault : Fault) : Prop :=
  ∃ front m behind before source after, metrics = front ++ m :: behind ∧
    m.metadata = before ++ source :: after ∧ (∀ n ∈ front, pool.Covers n.metadata) ∧
    pool.Covers before ∧ source.Offends pool m.name fault

variable {pool : MetadataPool}

/-- When a source stands for a definition. -/
theorem MetadataSource.exists_denotes_iff {source : MetadataSource} :
    (∃ d, source.Denotes pool d) ↔
      ∀ token, source = .reference token → ∃ d ∈ pool.definitions, token = "$" ++ d.name := by
  constructor
  · intro h token isToken
    obtain ⟨d, h⟩ := h
    cases h with
    | inline => cases isToken
    | reference there =>
      cases isToken
      exact ⟨d, there, rfl⟩
  · intro h
    cases source with
    | inline d => exact ⟨d, .inline⟩
    | reference token =>
      obtain ⟨d, there, rfl⟩ := h token rfl
      exact ⟨d, .reference there⟩

/-- Sources are covered if each of them stands for a definition. -/
theorem MetadataPool.covers_iff {sources : List MetadataSource} :
    pool.Covers sources ↔ ∀ source ∈ sources, ∃ d, source.Denotes pool d := by
  simp only [MetadataSource.exists_denotes_iff, Covers]
  constructor
  · intro h source there token isToken
    exact h token (isToken ▸ there)
  · intro h token there
    exact h _ there token rfl

namespace Metric

variable {m : Metric MetadataSource}

/-- When a metric is resolved. -/
theorem exists_resolve_iff : (∃ resolved, m.resolve pool = .ok resolved) ↔
    pool.Covers m.metadata := by
  rw [MetadataPool.covers_iff, ← Related.exists_forall₂_iff]
  simp only [resolve_eq_ok_iff]
  constructor
  · intro h
    obtain ⟨resolved, h⟩ := h
    exact ⟨resolved.metadata, h.metadata⟩
  · intro h
    obtain ⟨definitions, h⟩ := h
    exact ⟨⟨m.name, m.unit, m.description, definitions⟩, rfl, rfl, rfl, h⟩

/-- A metric fails with the fault of its first source that stands for nothing. -/
theorem resolve_eq_error_iff {fault : Fault} :
    m.resolve pool = .error fault ↔ ∃ before source after,
      m.metadata = before ++ source :: after ∧ pool.Covers before ∧
        source.Offends pool m.name fault := by
  have lookUp : m.resolve pool = .error fault ↔
      m.metadata.mapM (MetadataSource.resolve pool m.name) = .error fault := by
    rw [resolve, Checked.bind_eq_error_iff]
    constructor
    · intro h
      rcases h with h | ⟨_, -, done⟩
      · exact h
      · cases done
    · exact .inl
  rw [lookUp, Checked.mapM_eq_error_iff]
  simp only [MetadataSource.resolve_eq_ok_iff, MetadataSource.resolve_eq_error_iff,
    MetadataPool.covers_iff]

end Metric

/-- Metrics are resolved exactly if the pool covers their tokens.  Each of them then keeps what it
has, with its sources replaced in their order by what they stand for; otherwise the first offence
ends the run, whatever follows it. -/
theorem resolveAll_exact (pool : MetadataPool) (metrics : List (Metric MetadataSource)) :
    ((∃ resolved, resolveAll pool metrics = .ok resolved) ↔
      ∀ m ∈ metrics, pool.Covers m.metadata) ∧
    (∀ resolved, resolveAll pool metrics = .ok resolved ↔
      List.Forall₂ (Metric.Resolves pool) metrics resolved) ∧
    ∀ fault, resolveAll pool metrics = .error fault ↔ pool.FirstOffence metrics fault := by
  have results : ∀ resolved, resolveAll pool metrics = .ok resolved ↔
      List.Forall₂ (Metric.Resolves pool) metrics resolved := by
    intro resolved
    rw [resolveAll, Checked.mapM_eq_ok_iff]
    simp only [Metric.resolve_eq_ok_iff]
  refine ⟨?_, results, ?_⟩
  · simp only [results, Related.exists_forall₂_iff, ← Metric.resolve_eq_ok_iff,
      Metric.exists_resolve_iff]
  · intro fault
    rw [resolveAll, Checked.mapM_eq_error_iff]
    simp only [Metric.exists_resolve_iff, Metric.resolve_eq_error_iff]
    constructor
    · intro h
      obtain ⟨front, m, behind, split, covered, before, source, after, inside, ahead, fails⟩ := h
      exact ⟨front, m, behind, before, source, after, split, inside, covered, ahead, fails⟩
    · intro h
      obtain ⟨front, m, behind, before, source, after, split, inside, covered, ahead, fails⟩ := h
      exact ⟨front, m, behind, split, covered, before, source, after, inside, ahead, fails⟩

/-- One sigil is taken off a token, and nothing else; an empty token has none. -/
example :
    let pool : MetadataPool := ⟨[⟨"x", none, [], false, none⟩], by decide⟩
    ["", "$", "$$x", "$ x", "$x"].map (fun token =>
        (resolveAll pool [⟨"m", .none, none, [.reference token]⟩]).mapError Fault.message) =
      [.error "malformed metadata reference '' in metric 'm': references must start with '$'",
        .error "metric 'm' references unknown metadata ''",
        .error "metric 'm' references unknown metadata '$x'",
        .error "metric 'm' references unknown metadata ' x'",
        .ok [⟨"m", .none, none, [⟨"x", none, [], false, none⟩]⟩]] := by
  rfl

end Telemetry
