import Telemetry.Identifier.Derived
import Telemetry.Identifier.Scope

/-!
# What a scope knows

A scope is a finite map from identifiers to sources, whatever list of claims stands behind it.

* `source?` is that map;
* `exists_claim_iff`: a claim is granted unless the identifier belongs to another source;
* `source?_of_claim`: a claim that is granted sets the identifier, and nothing else;
  `source?_of_claim_iff` says the same of the pairs that the scope knows;
* `isCollision_of_claim`: a claim that is not granted collides with an earlier one.
-/

namespace Telemetry

namespace IdentifierScope

/-- The source that an identifier belongs to. -/
def source? (scope : IdentifierScope) (identifier : String) : Option String :=
  (scope.holder? identifier).map Claim.source

theorem exists_claim_iff {scope : IdentifierScope} {identifier source : String} :
    (∃ larger, scope.claim identifier source = .ok larger) ↔
      ∀ s, scope.source? identifier = some s → s = source := by
  unfold claim source?
  cases scope.holder? identifier with
  | none => simp
  | some holder =>
    by_cases same : holder.source = source
    · simp [same]
    · simp [same]

theorem foldCase_of_claim {scope larger : IdentifierScope} {identifier source : String}
    (h : scope.claim identifier source = .ok larger) : larger.foldCase = scope.foldCase := by
  unfold claim at h
  split at h
  · cases h
    rfl
  · split at h
    · cases h
      rfl
    · cases h

/-- Identifiers that are compared alike have one holder. -/
theorem holder?_congr {scope : IdentifierScope} {x y : String} (h : scope.key x = scope.key y) :
    scope.holder? x = scope.holder? y := by
  unfold holder?
  rw [h]

theorem source?_of_claim {scope larger : IdentifierScope} {identifier source : String}
    (h : scope.claim identifier source = .ok larger) (x : String) :
    larger.source? x = if scope.key x = scope.key identifier then some source
      else scope.source? x := by
  unfold claim at h
  split at h
  · cases h
    let isHeld (c : Claim) : Bool := scope.key c.identifier == scope.key x
    show Option.map Claim.source ((⟨identifier, source⟩ :: scope.claims).find? isHeld) = _
    by_cases same : scope.key x = scope.key identifier
    · have held : isHeld ⟨identifier, source⟩ = true := beq_iff_eq.2 same.symm
      rw [if_pos same, List.find?_cons_of_pos held]
      rfl
    · have free : ¬ isHeld ⟨identifier, source⟩ = true := fun eq => same (beq_iff_eq.1 eq).symm
      rw [if_neg same, List.find?_cons_of_neg free]
      rfl
  · rename_i holder held
    split at h
    · rename_i isSource
      cases h
      by_cases same : scope.key x = scope.key identifier
      · rw [if_pos same, source?, holder?_congr same, held, Option.map_some, isSource]
      · rw [if_neg same]
    · cases h

/-- What a scope knows behind a claim that is granted. -/
theorem source?_of_claim_iff {scope larger : IdentifierScope} {identifier source : String}
    (h : scope.claim identifier source = .ok larger) (x s : String) :
    larger.source? x = some s ↔
      scope.source? x = some s ∨ scope.key identifier = scope.key x ∧ source = s := by
  have granted := exists_claim_iff.1 ⟨larger, h⟩
  rw [source?_of_claim h]
  by_cases same : scope.key x = scope.key identifier
  · rw [if_pos same, Option.some.injEq]
    constructor
    · intro eq
      exact .inr ⟨same.symm, eq⟩
    · intro known
      rcases known with held | known
      · rw [source?, holder?_congr same] at held
        exact (granted s held).symm
      · exact known.2
  · rw [if_neg same]
    constructor
    · exact .inl
    · intro known
      rcases known with held | known
      · exact held
      · exact absurd known.1.symm same

theorem key_of_exact {scope : IdentifierScope} (h : scope.foldCase = false) (x : String) :
    scope.key x = x := by
  rw [key, h]
  rfl

theorem key_of_folding {scope : IdentifierScope} (h : scope.foldCase = true) (x : String) :
    scope.key x = x.toLower := by
  rw [key, h]
  rfl

@[simp] theorem source?_empty (foldCase : Bool) (x : String) :
    source? ⟨foldCase, []⟩ x = none := rfl

end IdentifierScope

/-! ### Collisions -/

/-- Whether a fault is a name that two sources have come to. -/
def Fault.IsCollision (fault : Fault) : Prop :=
  ∃ identifier first second, fault = .duplicateIdentifier identifier first second

theorem isCollision_of_claim {scope : IdentifierScope} {identifier source : String} {fault : Fault}
    (h : scope.claim identifier source = .error fault) : fault.IsCollision := by
  unfold IdentifierScope.claim at h
  split at h
  · cases h
  · split at h
    · cases h
    · cases h
      exact ⟨_, _, _, rfl⟩

end Telemetry
