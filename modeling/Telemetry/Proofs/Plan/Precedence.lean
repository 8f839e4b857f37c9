import Telemetry.Artifact.Generate
import Telemetry.Proofs.Metadata.Lookup
import Telemetry.Proofs.Metric.Order
import Telemetry.Proofs.Metric.Resolution
import Telemetry.Proofs.Plan.Metrics

/-!
# Malformed references come first

The tokens of a document are checked for their sigil before anything else, and again when they are
looked up.  The first check leaves nothing to the second one.

* `checkSigils_eq_error_iff`: the first check finds the first token without a sigil;
* `MetadataElement.checkSigil_iff_resolve`: on one element, the two checks agree;
* `plan_eq_error_iff` says which steps can end the planning of a document, and
  `isCollision_of_ofMetrics` that its last step only finds names that collide;
* `malformedReference_exact`: planning reports a malformed reference exactly if there is one, the
  first, whatever else is wrong, and never on looking up.
-/

namespace Telemetry

/-! ### Tokens without a sigil -/

/-- Whether a token lacks the sigil. -/
def Bare (token : String) : Prop :=
  ∀ name, token ≠ "$" ++ name

theorem not_bare_iff {token : String} : ¬ Bare token ↔ ∃ name, token = "$" ++ name := by
  simp only [Bare, ne_eq, not_forall, not_not]

theorem bare_iff {token : String} : Bare token ↔ referenceName? token = none := by
  rw [Option.eq_none_iff_forall_ne_some]
  simp only [Bare, ne_eq, referenceName?_eq_some_iff]

theorem checkSigil_eq_error_iff {metric : String} {element : MetadataElement} {fault : Fault} :
    element.checkSigil metric = .error fault ↔
      ∃ token, element = .reference token ∧ Bare token ∧
        fault = .malformedReference metric token := by
  cases element with
  | inline entry => simp [MetadataElement.checkSigil]
  | reference token =>
    simp only [MetadataElement.checkSigil, MetadataElement.reference.injEq, exists_eq_left',
      bare_iff]
    cases referenceName? token with
    | none => simp [@eq_comm _ fault]
    | some name => simp

/-- The two checks of a sigil agree. -/
theorem MetadataElement.checkSigil_iff_resolve {pool : MetadataPool} {name metric token : String}
    {element : MetadataElement} {source : MetadataSource}
    (made : MetadataSource.ofElement element = .ok source) :
    element.checkSigil name = .error (.malformedReference metric token) ↔
      source.resolve pool name = .error (.malformedReference metric token) := by
  rw [checkSigil_eq_error_iff, MetadataSource.resolve_eq_error_iff]
  cases element with
  | inline entry =>
    obtain ⟨d, -, same⟩ := Checked.bind_eq_ok_iff.1 made
    cases same
    constructor
    · intro h
      obtain ⟨_, isToken, -⟩ := h
      cases isToken
    · intro h
      cases h
  | reference written =>
    cases made
    constructor
    · intro h
      obtain ⟨_, isToken, bare, same⟩ := h
      cases isToken
      cases same
      exact .malformed bare
    · intro h
      cases h with
      | malformed bare => exact ⟨_, rfl, bare, rfl⟩

/-- Whether `token` is the first token of a document that lacks the sigil, and `metric` the name of
the metric that it stands in. -/
def Document.FirstBare (document : Document) (metric token : String) : Prop :=
  ∃ front m behind before after, document.metrics = front ++ m :: behind ∧ m.name = metric ∧
    m.metadata = before ++ .reference token :: after ∧
    (∀ n ∈ front, ∀ t, .reference t ∈ n.metadata → ¬ Bare t) ∧
    (∀ t, .reference t ∈ before → ¬ Bare t) ∧ Bare token

/-- Elements pass the check if none of their tokens lacks the sigil. -/
theorem forall_checkSigil_iff {metric : String} {elements : List MetadataElement} :
    (∀ element ∈ elements, element.checkSigil metric = .ok ()) ↔
      ∀ t, .reference t ∈ elements → ¬ Bare t := by
  simp only [checkSigil_eq_ok_iff, not_bare_iff]
  constructor
  · intro h t there
    exact h _ there t rfl
  · intro h element there t isToken
    exact h t (isToken ▸ there)

theorem checkSigils_eq_error_iff {document : Document} {fault : Fault} :
    document.checkSigils = .error fault ↔
      ∃ metric token, document.FirstBare metric token ∧
        fault = .malformedReference metric token := by
  simp only [Document.checkSigils, Checked.forM_eq_error_iff, Checked.forM_eq_ok_iff,
    forall_checkSigil_iff, checkSigil_eq_error_iff]
  constructor
  · intro h
    obtain ⟨front, m, behind, split, passed, before, _, after, inside, ahead, token, rfl, bare,
      rfl⟩ := h
    exact ⟨m.name, token,
      ⟨front, m, behind, before, after, split, rfl, inside, passed, ahead, bare⟩, rfl⟩
  · intro h
    obtain ⟨_, token, ⟨front, m, behind, before, after, split, rfl, inside, passed, ahead, bare⟩,
      rfl⟩ := h
    exact ⟨front, m, behind, split, passed, before, _, after, inside, ahead, token, rfl, bare, rfl⟩

/-! ### Planning ends in collisions -/

theorem isCollision_of_internType {types : List ConstrainedType} {metric : String}
    {d : MetadataDefinition} {identifier : String} {values : List String} {fault : Fault}
    (h : internType types metric d identifier values = .error fault) : fault.IsCollision := by
  unfold internType at h
  split at h
  · split at h
    · cases h
    · cases h
      exact ⟨_, _, _, rfl⟩
  · cases h

theorem isCollision_of_fieldType {types : List ConstrainedType} {metric : String}
    {d : MetadataDefinition} {fault : Fault} (h : fieldType types metric d = .error fault) :
    fault.IsCollision := by
  unfold fieldType at h
  split at h
  · cases h
  · rcases Checked.bind_eq_error_iff.1 h with h | ⟨_, -, done⟩
    · exact isCollision_of_internType h
    · cases done

theorem FieldDraft.isCollision_of_add {metric : String} {draft : FieldDraft}
    {d : MetadataDefinition} {fault : Fault} (h : draft.add metric d = .error fault) :
    fault.IsCollision := by
  rw [add_eq] at h
  rcases Checked.bind_eq_error_iff.1 h with h | ⟨_, -, h⟩
  · exact isCollision_of_claim h
  · rcases Checked.bind_eq_error_iff.1 h with h | ⟨_, -, h⟩
    · exact isCollision_of_claim h
    · split at h
      · cases h
        exact ⟨_, _, _, rfl⟩
      · rcases Checked.bind_eq_error_iff.1 h with h | ⟨_, -, done⟩
        · exact isCollision_of_fieldType h
        · cases done

theorem Draft.isCollision_of_add {draft : Draft} {m : Metric MetadataDefinition} {fault : Fault}
    (h : draft.add m = .error fault) : fault.IsCollision := by
  rw [add_eq] at h
  split at h
  · cases h
    exact ⟨_, _, _, rfl⟩
  · rcases Checked.bind_eq_error_iff.1 h with h | ⟨_, -, h⟩
    · exact isCollision_of_claim h
    · rcases Checked.bind_eq_error_iff.1 h with h | ⟨_, -, done⟩
      · exact Checked.of_foldlM_eq_error (fun _ _ _ => FieldDraft.isCollision_of_add) h
      · cases done

/-- Metrics that are not planned have names that collide. -/
theorem isCollision_of_ofMetrics {metrics : List (Metric MetadataDefinition)} {fault : Fault}
    (h : Plan.ofMetrics metrics = .error fault) : fault.IsCollision :=
  Checked.of_foldlM_eq_error (fun _ _ _ => Draft.isCollision_of_add) (Checked.map_eq_error_iff.1 h)

/-! ### The steps of planning -/

/-- Whether planning a document comes to looking up the references of `metrics` in `pool`. -/
structure Document.LooksUp (settings : Settings) (document : Document) (pool : MetadataPool)
    (metrics : List (Metric MetadataSource)) : Prop where
  conventions : document.checkConventions settings.sortedMetrics = .ok ()
  pool : MetadataPool.ofEntries document.metadata = .ok pool
  metrics : document.metrics.mapM Metric.ofEntry = .ok metrics

namespace Document

variable {settings : Settings} {document : Document}

/-- What can end the planning of a document. -/
theorem plan_eq_error_iff {fault : Fault} :
    document.plan settings = .error fault ↔
      document.checkConventions settings.sortedMetrics = .error fault ∨
      document.checkConventions settings.sortedMetrics = .ok () ∧
        (MetadataPool.ofEntries document.metadata = .error fault ∨
          (∃ pool, MetadataPool.ofEntries document.metadata = .ok pool) ∧
            document.metrics.mapM Metric.ofEntry = .error fault) ∨
      ∃ pool metrics, document.LooksUp settings pool metrics ∧
        (resolveAll pool metrics = .error fault ∨
          ∃ resolved, resolveAll pool metrics = .ok resolved ∧
            Plan.ofMetrics resolved = .error fault) := by
  rw [plan_eq]
  simp only [Checked.bind_eq_error_iff]
  constructor
  · intro h
    rcases h with h | ⟨_, conventions, h⟩
    · exact .inl h
    · rcases h with h | ⟨pool, made, h⟩
      · exact .inr (.inl ⟨conventions, .inl h⟩)
      · rcases h with h | ⟨metrics, checked, h⟩
        · exact .inr (.inl ⟨conventions, .inr ⟨⟨pool, made⟩, h⟩⟩)
        · exact .inr (.inr ⟨pool, metrics, ⟨conventions, made, checked⟩, h⟩)
  · intro h
    rcases h with h | ⟨conventions, h⟩ | ⟨pool, metrics, looksUp, h⟩
    · exact .inl h
    · rcases h with h | ⟨⟨pool, made⟩, h⟩
      · exact .inr ⟨(), conventions, .inl h⟩
      · exact .inr ⟨(), conventions, .inr ⟨pool, made, .inl h⟩⟩
    · exact .inr ⟨(), looksUp.conventions,
        .inr ⟨pool, looksUp.pool, .inr ⟨metrics, looksUp.metrics, h⟩⟩⟩

end Document

/-! ### Malformed references -/

section Malformed

variable {metric token : String}

theorem MetadataPool.ofEntries_ne_malformed {entries : List MetadataEntry} :
    ofEntries entries ≠ .error (.malformedReference metric token) := by
  intro h
  obtain ⟨_, _, _, -, -, -, refused⟩ := ofEntries_eq_error_iff.1 h
  cases refused with
  | flawed flawed => cases flawed

theorem Metric.ofEntry_ne_malformed {entry : MetricEntry} :
    Metric.ofEntry entry ≠ .error (.malformedReference metric token) := by
  rw [Metric.ofEntry]
  cases isSnakeCase entry.name with
  | false =>
    intro h
    cases h
  | true =>
    cases MetricUnit.ofWord? entry.unit with
    | none =>
      intro h
      cases h
    | some unit =>
      intro h
      rcases Checked.bind_eq_error_iff.1 h with h | ⟨_, -, done⟩
      · obtain ⟨_, element, _, -, -, h⟩ := Checked.mapM_eq_error_iff.1 h
        cases element with
        | reference _ => cases h
        | inline e =>
          rcases Checked.bind_eq_error_iff.1 h with h | ⟨_, -, done⟩
          · cases MetadataDefinition.ofEntry_eq_error_iff.1 h
          · cases done
      · cases done

namespace Document

variable {settings : Settings} {document : Document}

theorem checkConventions_eq_malformed_iff {sorted : Bool} :
    document.checkConventions sorted = .error (.malformedReference metric token) ↔
      document.FirstBare metric token := by
  rw [checkConventions, Checked.bind_eq_error_iff, checkSigils_eq_error_iff]
  constructor
  · intro h
    rcases h with ⟨_, _, first, same⟩ | ⟨_, -, h⟩
    · cases same
      exact first
    · cases sorted with
      | false => cases h
      | true =>
        obtain ⟨_, _, _, _, -, -, -, same⟩ := checkAscending_eq_error_iff.1 h
        cases same
  · intro first
    exact .inl ⟨metric, token, first, rfl⟩

/-- No source that is looked up has a malformed reference. -/
theorem LooksUp.resolve_ne_malformed {pool : MetadataPool}
    {metrics : List (Metric MetadataSource)} (h : document.LooksUp settings pool metrics)
    {m : Metric MetadataSource} (hm : m ∈ metrics) {source : MetadataSource}
    (there : source ∈ m.metadata) :
    source.resolve pool m.name ≠ .error (.malformedReference metric token) := by
  obtain ⟨entry, inDocument, checked⟩ :=
    Related.exists_left (Checked.mapM_eq_ok_iff.1 h.metrics) hm
  obtain ⟨-, -, sources, name, -⟩ := Metric.ofEntry_eq_ok_iff.1 checked
  obtain ⟨element, inEntry, made⟩ := Related.exists_left sources there
  have sigils := (checkConventions_eq_ok_iff.1 h.conventions).1
  have passes : element.checkSigil m.name = .ok () := by
    refine checkSigil_eq_ok_iff.2 fun t isToken => sigils entry inDocument t ?_
    exact isToken ▸ inEntry
  rw [ne_eq, ← MetadataElement.checkSigil_iff_resolve made, passes]
  intro same
  cases same

theorem plan_eq_malformed_iff : document.plan settings = .error (.malformedReference metric token) ↔
    document.FirstBare metric token := by
  rw [plan_eq_error_iff, checkConventions_eq_malformed_iff]
  refine ⟨?_, .inl⟩
  intro h
  rcases h with first | ⟨-, unmade | ⟨-, unchecked⟩⟩ | ⟨_, _, looksUp, unresolved | planned⟩
  · exact first
  · exact absurd unmade MetadataPool.ofEntries_ne_malformed
  · obtain ⟨_, entry, _, -, -, fails⟩ := Checked.mapM_eq_error_iff.1 unchecked
    exact absurd fails Metric.ofEntry_ne_malformed
  · obtain ⟨front, m, behind, rfl, -, fails⟩ := Checked.mapM_eq_error_iff.1 unresolved
    obtain ⟨_, source, _, inside, -, offends⟩ := Metric.resolve_eq_error_iff.1 fails
    have hm : m ∈ front ++ m :: behind := List.mem_append_cons_self
    have there : source ∈ m.metadata := inside ▸ List.mem_append_cons_self
    have fails := MetadataSource.resolve_eq_error_iff.2 offends
    exact absurd fails (looksUp.resolve_ne_malformed hm there)
  · obtain ⟨_, -, fails⟩ := planned
    obtain ⟨_, _, _, same⟩ := isCollision_of_ofMetrics fails
    cases same

theorem exists_firstBare_iff : (∃ metric token, document.FirstBare metric token) ↔
    ∃ m ∈ document.metrics, ∃ token, .reference token ∈ m.metadata ∧ Bare token := by
  constructor
  · intro h
    obtain ⟨_, token, _, m, _, _, _, split, -, inside, -, -, bare⟩ := h
    exact ⟨m, split ▸ List.mem_append_cons_self, token, inside ▸ List.mem_append_cons_self, bare⟩
  · intro h
    obtain ⟨m, hm, token, there, bare⟩ := h
    cases checked : document.checkSigils with
    | ok _ => exact absurd bare (not_bare_iff.2 (checkSigils_eq_ok_iff.1 checked m hm token there))
    | error fault =>
      obtain ⟨metric, token, first, -⟩ := checkSigils_eq_error_iff.1 checked
      exact ⟨metric, token, first⟩

/-- Planning a document reports a malformed reference exactly if a token lacks the sigil, and names
the first such token with its metric, whatever else is wrong with the document.  The two checks of
a sigil agree on every element, and the second one never fails: no source that planning comes to
look up has a malformed reference. -/
theorem malformedReference_exact (settings : Settings) (document : Document) :
    ((∃ metric token, document.plan settings = .error (.malformedReference metric token)) ↔
      ∃ m ∈ document.metrics, ∃ token, .reference token ∈ m.metadata ∧ Bare token) ∧
    (∀ metric token, document.plan settings = .error (.malformedReference metric token) ↔
      document.FirstBare metric token) ∧
    (∀ pool name element source, MetadataSource.ofElement element = .ok source →
      ∀ metric token, element.checkSigil name = .error (.malformedReference metric token) ↔
        source.resolve pool name = .error (.malformedReference metric token)) ∧
    ∀ pool metrics, document.LooksUp settings pool metrics → ∀ m ∈ metrics, ∀ source ∈ m.metadata,
      ∀ metric token, source.resolve pool m.name ≠ .error (.malformedReference metric token) := by
  refine ⟨?_, fun _ _ => plan_eq_malformed_iff,
    fun _ _ _ _ made _ _ => MetadataElement.checkSigil_iff_resolve made,
    fun _ _ looksUp _ hm _ there _ _ => looksUp.resolve_ne_malformed hm there⟩
  simp only [plan_eq_malformed_iff]
  exact exists_firstBare_iff

/-- A document with defects of every kind: its pool has a blank name and an unknown kind, and its
metrics are out of order, badly named, without a unit, and refer to what is not there. -/
def defectiveDocument : Document where
  metadata := [{ name := " " }, { name := "a", kind := some "float" }]
  metrics :=
    [{ name := "zebra-1", unit := "none", metadata := [.inline { name := "" }, .reference "$b"] },
      { name := "apple", unit := "", metadata := [.reference "$", .reference "b", .reference ""] }]

/-- A document whose references are looked up. -/
def referringDocument : Document where
  metadata := [{ name := "a" }]
  metrics := [{ name := "apple", unit := "count", metadata := [.reference "$a", .reference "$b"] }]

theorem malformedReference_of_defectiveDocument :
    defectiveDocument.plan { sortedMetrics := true } = .error (.malformedReference "apple" "b") ∧
    (MetadataSource.reference "b").resolve MetadataPool.empty "apple" =
      .error (.malformedReference "apple" "b") ∧
    ∃ pool metrics, referringDocument.LooksUp {} pool metrics ∧
      ∀ m ∈ metrics, ∀ source ∈ m.metadata,
        source.resolve pool m.name ≠ .error (.malformedReference "apple" "$b") := by
  have exact := malformedReference_exact { sortedMetrics := true } defectiveDocument
  have bare : Bare "b" := bare_iff.2 (by decide +kernel)
  have first : defectiveDocument.FirstBare "apple" "b" := by
    refine ⟨[_], _, [], [.reference "$"], [.reference ""], rfl, rfl, rfl, ?_, ?_, bare⟩
    · intro n hn t there
      simp only [List.mem_singleton] at hn
      subst hn
      simp only [List.mem_cons, reduceCtorEq, MetadataElement.reference.injEq, List.not_mem_nil,
        or_false, false_or] at there
      exact not_bare_iff.2 ⟨"b", there⟩
    · intro t there
      simp only [List.mem_singleton, MetadataElement.reference.injEq] at there
      exact not_bare_iff.2 ⟨"", there⟩
  have sigil : MetadataElement.checkSigil "apple" (.reference "b") =
      .error (.malformedReference "apple" "b") :=
    checkSigil_eq_error_iff.2 ⟨"b", rfl, bare, rfl⟩
  obtain ⟨pool, made⟩ := Checked.isSome_toOption_iff.1
    (show (MetadataPool.ofEntries referringDocument.metadata).toOption.isSome by decide +kernel)
  have looksUp : referringDocument.LooksUp {} pool
      [{ name := "apple", unit := .count, description := none,
         metadata := [.reference "$a", .reference "$b"] }] :=
    ⟨Checked.toOption_eq_some_iff.1 (by decide +kernel), made,
      Checked.toOption_eq_some_iff.1 (by decide +kernel)⟩
  exact ⟨(exact.2.1 "apple" "b").2 first,
    (exact.2.2.1 MetadataPool.empty "apple" (.reference "b") _ rfl "apple" "b").1 sigil,
    pool, _, looksUp, fun m hm source there =>
      (malformedReference_exact {} referringDocument).2.2.2 pool _ looksUp m hm source there _ _⟩

end Document

end Malformed

end Telemetry
