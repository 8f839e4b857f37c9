import Mathlib.Data.List.Nodup
import Telemetry.Artifact.TypeScript
import Telemetry.Proofs.Identifier.Scope
import Telemetry.Proofs.Identifier.Words
import Telemetry.Proofs.Plan.Orderly

/-!
# Names of artifacts are distinct

Before an artifact is rendered, its names are claimed in a scope, each for a source.  Claims that
are all granted give distinct names wherever sources are distinct:

* `IdentifierScope.Knows` is what a run of claims keeps, and `exists_claimAll_iff` says which claims
  are all granted;
* `TypeScript.checkNames_eq_ok_iff`: a plan passes if its types have distinct names;
* `Rust.checkNames_eq_ok_iff`: a plan passes if its types, the fields of each structure and the
  variants of each enumeration have distinct names;
* `TypeScript.isCollision_of_checkNames` and `Rust.isCollision_of_checkNames`: there is no other
  fault than a collision.
-/

namespace Telemetry

open Artifact.Rust (claimAll)

/-! ### Runs of claims -/

theorem claimAll_append (scope : IdentifierScope) (a b : List Claim) :
    claimAll scope (a ++ b) = claimAll scope a >>= fun larger => claimAll larger b :=
  List.foldlM_append

/-- Whether a scope that takes letter case into account knows just the claims of a list. -/
structure IdentifierScope.Knows (done : List Claim) (scope : IdentifierScope) : Prop where
  exact : scope.foldCase = false
  known : ∀ x s, scope.source? x = some s ↔ ∃ c ∈ done, c.identifier = x ∧ c.source = s

namespace IdentifierScope.Knows

variable {done : List Claim} {scope larger : IdentifierScope} {c : Claim}

theorem empty : Knows [] {} := ⟨rfl, by simp⟩

/-- A claim that is granted is known afterwards. -/
theorem snoc (h : Knows done scope) (granted : scope.claim c.identifier c.source = .ok larger) :
    Knows (done ++ [c]) larger := by
  refine ⟨(IdentifierScope.foldCase_of_claim granted).trans h.exact, ?_⟩
  intro x s
  rw [IdentifierScope.source?_of_claim_iff granted, IdentifierScope.key_of_exact h.exact,
    IdentifierScope.key_of_exact h.exact, h.known]
  simp only [List.mem_append, or_and_right, exists_or, List.mem_singleton, exists_eq_left]

/-- A claim is granted if the identifier has been claimed for its source only. -/
theorem exists_claim_iff (h : Knows done scope) :
    (∃ larger, scope.claim c.identifier c.source = .ok larger) ↔
      ∀ e ∈ done, e.identifier = c.identifier → e.source = c.source := by
  rw [IdentifierScope.exists_claim_iff]
  constructor
  · intro all e he same
    exact all e.source ((h.known _ _).2 ⟨e, he, same, rfl⟩)
  · intro all s isSource
    obtain ⟨e, he, same, rfl⟩ := (h.known _ _).1 isSource
    exact all e he same

end IdentifierScope.Knows

/-- Claims are all granted if those that have one identifier have one source. -/
theorem exists_claimAll_iff {claims : List Claim} :
    (∃ scope, claimAll {} claims = .ok scope) ↔
      claims.Pairwise fun c d => c.identifier = d.identifier → c.source = d.source := by
  have run : (∃ scope, claimAll {} claims = .ok scope) ↔ _ :=
    Checked.exists_foldlM_iff (p := fun _ => True) IdentifierScope.Knows
      (fun _ _ _ _ knows granted => knows.snoc granted)
      (fun _ _ _ knows => knows.exists_claim_iff.trans (by rw [true_and]))
      claims IdentifierScope.Knows.empty
  rw [run]
  simp

/-- Where claims for one source have distinct identifiers, claims are all granted if all
identifiers are distinct. -/
theorem exists_claimAll_iff_nodup {claims : List Claim}
    (distinct : claims.Pairwise fun c d => c.source = d.source → c.identifier ≠ d.identifier) :
    (∃ scope, claimAll {} claims = .ok scope) ↔ (claims.map Claim.identifier).Nodup := by
  rw [exists_claimAll_iff, List.Nodup, List.pairwise_map]
  constructor
  · intro granted
    exact granted.imp₂ (fun _ _ one other same => other (one same) same) distinct
  · intro nodup
    exact nodup.imp fun differ same => absurd same differ

/-- Claims that are not all granted collide. -/
theorem isCollision_of_claimAll {scope : IdentifierScope} {claims : List Claim} {fault : Fault}
    (h : claimAll scope claims = .error fault) : fault.IsCollision :=
  Checked.of_foldlM_eq_error (fun _ _ _ => isCollision_of_claim) h

/-- Claims for distinct sources. -/
theorem pairwise_of_nodup (claims : List Claim)
    (nodup : (claims.map Claim.source).Nodup) :
    claims.Pairwise fun c d => c.source = d.source → c.identifier ≠ d.identifier := by
  rw [List.Nodup, List.pairwise_map] at nodup
  exact nodup.imp fun differs same => absurd same differs

/-! ### Sources -/

/-- The source that claims the names of a metric. -/
def metricSource (m : PlannedMetric) : String :=
  "metric '" ++ m.name ++ "'"

/-- The source that claims the names of a constrained type. -/
def typeSource (t : ConstrainedType) : String :=
  "metadata '" ++ t.source ++ "'"

theorem metricSource_ne_typeSource (m : PlannedMetric) (t : ConstrainedType) :
    metricSource m ≠ typeSource t := by
  intro eq
  have letters := congrArg String.toList eq
  simp only [metricSource, typeSource, String.toList_append, List.append_assoc] at letters
  cases letters

namespace Plan.Orderly

variable {plan : Plan}

theorem nodup_metricSource (h : plan.Orderly) : (plan.metrics.map metricSource).Nodup := by
  have injective : Function.Injective fun name => "metric '" ++ name ++ "'" := by
    intro a b eq
    exact (String.append_right_inj _).1 ((String.append_left_inj _).1 eq)
  have images := h.names.map injective
  rwa [List.map_map] at images

theorem nodup_typeSource (h : plan.Orderly) : (plan.constrainedTypes.map typeSource).Nodup := by
  have sources : (plan.constrainedTypes.map ConstrainedType.source).Nodup := by
    refine List.Nodup.of_map asciiIdentifier ?_
    rw [List.map_map]
    refine (List.map_congr_left fun t ht => ?_) ▸ h.identifiers
    exact (h.types t ht).identifier
  have injective : Function.Injective fun source => "metadata '" ++ source ++ "'" := by
    intro a b eq
    exact (String.append_right_inj _).1 ((String.append_left_inj _).1 eq)
  have images := sources.map injective
  rwa [List.map_map] at images

/-- The sources of a plan's metrics and constrained types are distinct. -/
theorem nodup_sources (h : plan.Orderly) :
    (plan.metrics.map metricSource ++ plan.constrainedTypes.map typeSource).Nodup := by
  rw [List.nodup_append]
  refine ⟨h.nodup_metricSource, h.nodup_typeSource, ?_⟩
  intro x hx y hy
  obtain ⟨m, -, rfl⟩ := List.mem_map.1 hx
  obtain ⟨t, -, rfl⟩ := List.mem_map.1 hy
  exact metricSource_ne_typeSource m t

end Plan.Orderly

namespace Artifact.TypeScript

variable {plan : Plan}

/-- The names of the types that an artifact declares. -/
def typeNames (plan : Plan) : List String :=
  eventEnum :: (plan.metrics.map interfaceName
    ++ plan.constrainedTypes.map fun t => typeName t.identifier)

theorem map_identifier_declarations (plan : Plan) :
    (declarations plan).map Claim.identifier = typeNames plan := by
  rw [declarations, List.map_append, List.map_cons, List.map_map, List.map_map]
  rfl

/-- The declarations of a plan are claimed for distinct sources. -/
theorem nodup_source_declarations (orderly : plan.Orderly) :
    ((declarations plan).map Claim.source).Nodup := by
  have same : (declarations plan).map Claim.source = "event-name enumeration"
      :: (plan.metrics.map metricSource ++ plan.constrainedTypes.map typeSource) := by
    rw [declarations, List.map_append, List.map_cons, List.map_map, List.map_map]
    rfl
  rw [same, List.nodup_cons]
  refine ⟨?_, orderly.nodup_sources⟩
  intro there
  rcases List.mem_append.1 there with there | there
  · obtain ⟨m, -, eq⟩ := List.mem_map.1 there
    have letters := congrArg String.toList eq
    simp only [metricSource, String.toList_append, List.append_assoc] at letters
    cases letters
  · obtain ⟨t, -, eq⟩ := List.mem_map.1 there
    have letters := congrArg String.toList eq
    simp only [typeSource, String.toList_append, List.append_assoc] at letters
    cases letters

/-- A plan passes if the types that its artifact declares have distinct names. -/
theorem checkNames_eq_ok_iff (orderly : plan.Orderly) :
    checkNames plan = .ok () ↔ (typeNames plan).Nodup := by
  have distinct := pairwise_of_nodup _ (nodup_source_declarations orderly)
  rw [← map_identifier_declarations, ← exists_claimAll_iff_nodup distinct, checkNames,
    Checked.bind_eq_ok_iff]
  exact ⟨fun ⟨scope, run, _⟩ => ⟨scope, run⟩, fun ⟨scope, run⟩ => ⟨scope, run, rfl⟩⟩

/-- A plan that does not pass has a collision. -/
theorem isCollision_of_checkNames {fault : Fault} (h : checkNames plan = .error fault) :
    fault.IsCollision := by
  rcases Checked.bind_eq_error_iff.1 h with claims | ⟨_, -, done⟩
  · exact isCollision_of_claimAll claims
  · cases done

end Artifact.TypeScript

namespace Artifact.Rust

variable {plan : Plan}

/-- Steps that claim one name in an outer scope, and others in a scope of their own. -/
theorem foldlM_eq_ok_iff {α : Type} {f : IdentifierScope → α → Checked IdentifierScope}
    {outer : α → Claim} {inner : α → List Claim}
    (step : ∀ scope x next, f scope x = .ok next ↔
      scope.claim (outer x).identifier (outer x).source = .ok next ∧
        ∃ own, claimAll {} (inner x) = .ok own) {xs : List α} {scope final : IdentifierScope} :
    xs.foldlM f scope = .ok final ↔
      claimAll scope (xs.map outer) = .ok final ∧
        ∀ x ∈ xs, ∃ own, claimAll {} (inner x) = .ok own := by
  induction xs generalizing scope with
  | nil => exact (and_iff_left (List.forall_mem_nil _)).symm
  | cons x xs ih =>
    rw [List.foldlM_cons, Checked.bind_eq_ok_iff, List.map_cons, claimAll, List.foldlM_cons,
      Checked.bind_eq_ok_iff, List.forall_mem_cons]
    constructor
    · intro h
      obtain ⟨next, first, rest⟩ := h
      obtain ⟨granted, own⟩ := (step scope x next).1 first
      obtain ⟨others, owns⟩ := ih.1 rest
      exact ⟨⟨next, granted, others⟩, own, owns⟩
    · intro h
      obtain ⟨⟨next, granted, others⟩, own, owns⟩ := h
      exact ⟨next, (step scope x next).2 ⟨granted, own⟩, ih.2 ⟨others, owns⟩⟩

/-- The claim for the structure of a metric. -/
def metricClaim (m : PlannedMetric) : Claim :=
  ⟨metricType m, metricSource m⟩

/-- The claim for the enumeration of a constrained type. -/
def enumClaim (t : ConstrainedType) : Claim :=
  ⟨enumName t, typeSource t⟩

/-- The claims for the fields of a metric's structure. -/
def fieldClaims (m : PlannedMetric) : List Claim :=
  m.fields.map fun field => ⟨fieldName field.identifier, field.key⟩

/-- The claims for the variants of a constrained type. -/
def variantClaims (t : ConstrainedType) : List Claim :=
  t.values.map fun value => ⟨variantName value, value⟩

/-- The claims that are made before those of a plan. -/
def supportClaims : List Claim :=
  supportTypes.map fun name => ⟨name, "generated support type"⟩

theorem claimMetric_eq_ok_iff (scope : IdentifierScope) (m : PlannedMetric)
    (next : IdentifierScope) : claimMetric scope m = .ok next ↔
      scope.claim (metricClaim m).identifier (metricClaim m).source = .ok next ∧
        ∃ own, claimAll {} (fieldClaims m) = .ok own := by
  simp only [claimMetric, Checked.bind_eq_ok_iff, metricClaim, metricSource, fieldClaims, pure,
    Except.pure, Except.ok.injEq]
  constructor
  · intro h
    obtain ⟨_, outer, own, inner, rfl⟩ := h
    exact ⟨outer, own, inner⟩
  · intro h
    obtain ⟨outer, own, inner⟩ := h
    exact ⟨next, outer, own, inner, rfl⟩

theorem claimConstrained_eq_ok_iff (scope : IdentifierScope) (t : ConstrainedType)
    (next : IdentifierScope) : claimConstrained scope t = .ok next ↔
      scope.claim (enumClaim t).identifier (enumClaim t).source = .ok next ∧
        ∃ own, claimAll {} (variantClaims t) = .ok own := by
  simp only [claimConstrained, Checked.bind_eq_ok_iff, enumClaim, typeSource, variantClaims, pure,
    Except.pure, Except.ok.injEq]
  constructor
  · intro h
    obtain ⟨_, outer, own, inner, rfl⟩ := h
    exact ⟨outer, own, inner⟩
  · intro h
    obtain ⟨outer, own, inner⟩ := h
    exact ⟨next, outer, own, inner, rfl⟩

/-- The names of the types that an artifact declares. -/
def typeNames (plan : Plan) : List String :=
  supportTypes ++ (plan.metrics.map metricType ++ plan.constrainedTypes.map enumName)

/-- The names of the fields of a structure. -/
def fieldNames (m : PlannedMetric) : List String :=
  m.fields.map fun field => fieldName field.identifier

/-- The names of the variants of a constrained type. -/
def variantNames (t : ConstrainedType) : List String :=
  t.values.map variantName

/-- The claims for the types that an artifact declares. -/
def typeClaims (plan : Plan) : List Claim :=
  supportClaims ++ (plan.metrics.map metricClaim ++ plan.constrainedTypes.map enumClaim)

theorem map_identifier_typeClaims (plan : Plan) :
    (typeClaims plan).map Claim.identifier = typeNames plan := by
  have ofSupport : supportClaims.map Claim.identifier = supportTypes := by decide
  simp only [typeClaims, typeNames, List.map_append, List.map_map, ofSupport, Function.comp_def,
    metricClaim, enumClaim]

/-- Types are claimed for one source only if they are types of the support. -/
theorem pairwise_typeClaims (orderly : plan.Orderly) :
    (typeClaims plan).Pairwise fun c d => c.source = d.source → c.identifier ≠ d.identifier := by
  have ofSupport : supportClaims.Pairwise
      fun c d => c.source = d.source → c.identifier ≠ d.identifier := by
    have differ : supportClaims.Pairwise fun c d => c.identifier ≠ d.identifier := by decide
    exact differ.imp fun {c d} (differs : c.identifier ≠ d.identifier) _ => differs
  have ofPlan := pairwise_of_nodup (plan.metrics.map metricClaim
    ++ plan.constrainedTypes.map enumClaim) (by
      rw [List.map_append, List.map_map, List.map_map]
      exact orderly.nodup_sources)
  refine List.pairwise_append.2 ⟨ofSupport, ofPlan, ?_⟩
  intro c hc d hd same
  obtain ⟨name, -, rfl⟩ := List.mem_map.1 hc
  have letters := congrArg String.toList same
  rcases List.mem_append.1 hd with hd | hd
  · obtain ⟨m, -, rfl⟩ := List.mem_map.1 hd
    simp only [metricClaim, metricSource, String.toList_append, List.append_assoc] at letters
    cases letters
  · obtain ⟨t, -, rfl⟩ := List.mem_map.1 hd
    simp only [enumClaim, typeSource, String.toList_append, List.append_assoc] at letters
    cases letters

/-- The fields of a structure can be claimed if they have distinct names. -/
theorem exists_claimAll_fieldClaims_iff {types : List ConstrainedType} {m : PlannedMetric}
    (orderly : m.Orderly types) :
    (∃ own, claimAll {} (fieldClaims m) = .ok own) ↔ (fieldNames m).Nodup := by
  have keys : (m.fields.map ArgumentField.key).Nodup := by
    refine List.Nodup.of_map asciiIdentifier ?_
    rw [List.map_map]
    refine (List.map_congr_left fun field there => ?_) ▸ orderly.nodup
    exact orderly.identifier field there
  rw [exists_claimAll_iff_nodup (pairwise_of_nodup _ ?_), fieldClaims, List.map_map]
  · simp only [fieldNames, Function.comp_def]
  · rw [fieldClaims, List.map_map]
    exact keys

/-- The variants of a constrained type can be claimed if they have distinct names. -/
theorem exists_claimAll_variantClaims_iff {t : ConstrainedType} (orderly : t.Orderly) :
    (∃ own, claimAll {} (variantClaims t) = .ok own) ↔ (variantNames t).Nodup := by
  rw [exists_claimAll_iff_nodup (pairwise_of_nodup _ ?_), variantClaims, List.map_map]
  · simp only [variantNames, Function.comp_def]
  · rw [variantClaims, List.map_map]
    show (t.values.map id).Nodup
    rw [List.map_id]
    exact orderly.distinct

/-- A plan passes if its types, the fields of each structure and the variants of each enumeration
have distinct names. -/
theorem checkNames_eq_ok_iff (orderly : plan.Orderly) :
    checkNames plan = .ok () ↔ (typeNames plan).Nodup ∧
      (∀ m ∈ plan.metrics, (fieldNames m).Nodup) ∧
      ∀ t ∈ plan.constrainedTypes, (variantNames t).Nodup := by
  have types : (∃ support, claimAll {} supportClaims = .ok support ∧
      ∃ metrics, claimAll support (plan.metrics.map metricClaim) = .ok metrics ∧
        ∃ scope, claimAll metrics (plan.constrainedTypes.map enumClaim) = .ok scope) ↔
      (typeNames plan).Nodup := by
    rw [← map_identifier_typeClaims, ← exists_claimAll_iff_nodup (pairwise_typeClaims orderly)]
    simp only [typeClaims, claimAll_append, Checked.bind_eq_ok_iff]
    constructor
    · intro h
      obtain ⟨support, first, metrics, second, scope, third⟩ := h
      exact ⟨scope, support, first, metrics, second, third⟩
    · intro h
      obtain ⟨scope, support, first, metrics, second, third⟩ := h
      exact ⟨support, first, metrics, second, scope, third⟩
  have fields : (∀ m ∈ plan.metrics, ∃ own, claimAll {} (fieldClaims m) = .ok own) ↔
      ∀ m ∈ plan.metrics, (fieldNames m).Nodup :=
    forall₂_congr fun m hm => exists_claimAll_fieldClaims_iff (orderly.metrics m hm)
  have variants : (∀ t ∈ plan.constrainedTypes, ∃ own, claimAll {} (variantClaims t) = .ok own) ↔
      ∀ t ∈ plan.constrainedTypes, (variantNames t).Nodup :=
    forall₂_congr fun t ht => exists_claimAll_variantClaims_iff (orderly.types t ht)
  rw [← types, ← fields, ← variants, checkNames]
  simp only [Checked.bind_eq_ok_iff, foldlM_eq_ok_iff claimMetric_eq_ok_iff,
    foldlM_eq_ok_iff claimConstrained_eq_ok_iff]
  constructor
  · intro h
    obtain ⟨support, first, metrics, ⟨second, own⟩, scope, ⟨third, ownToo⟩, -⟩ := h
    exact ⟨⟨support, first, metrics, second, scope, third⟩, own, ownToo⟩
  · intro h
    obtain ⟨⟨support, first, metrics, second, scope, third⟩, own, ownToo⟩ := h
    exact ⟨support, first, metrics, ⟨second, own⟩, scope, ⟨third, ownToo⟩, rfl⟩

theorem isCollision_of_claimMetric {scope : IdentifierScope} {m : PlannedMetric} {fault : Fault}
    (h : claimMetric scope m = .error fault) : fault.IsCollision := by
  rcases Checked.bind_eq_error_iff.1 h with outer | ⟨larger, -, h⟩
  · exact isCollision_of_claim outer
  · rcases Checked.bind_eq_error_iff.1 h with inner | ⟨_, -, done⟩
    · exact isCollision_of_claimAll inner
    · cases done

theorem isCollision_of_claimConstrained {scope : IdentifierScope} {t : ConstrainedType}
    {fault : Fault} (h : claimConstrained scope t = .error fault) : fault.IsCollision := by
  rcases Checked.bind_eq_error_iff.1 h with outer | ⟨larger, -, h⟩
  · exact isCollision_of_claim outer
  · rcases Checked.bind_eq_error_iff.1 h with inner | ⟨_, -, done⟩
    · exact isCollision_of_claimAll inner
    · cases done

/-- A plan that does not pass has a collision. -/
theorem isCollision_of_checkNames {fault : Fault} (h : checkNames plan = .error fault) :
    fault.IsCollision := by
  rcases Checked.bind_eq_error_iff.1 h with support | ⟨_, -, h⟩
  · exact isCollision_of_claimAll support
  rcases Checked.bind_eq_error_iff.1 h with metrics | ⟨_, -, h⟩
  · exact Checked.of_foldlM_eq_error (fun _ _ _ => isCollision_of_claimMetric) metrics
  rcases Checked.bind_eq_error_iff.1 h with types | ⟨_, -, done⟩
  · exact Checked.of_foldlM_eq_error (fun _ _ _ => isCollision_of_claimConstrained) types
  · cases done

end Artifact.Rust

end Telemetry
