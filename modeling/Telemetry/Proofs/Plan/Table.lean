import Mathlib.Data.List.Basic
import Mathlib.Data.List.Nodup
import Telemetry.Plan.Draft
import Telemetry.Proofs.Checked

/-!
# The table of constrained types

`Interned seen types` says that a table holds one entry for each identifier of a constrained
definition that has been seen, with the values of all definitions that have it.

* `exists_internType_iff`: a definition finds its place in such a table unless one seen before has
  the identifier with other values;
* `internType_spec`: its place then has its identifier and its values, the entries before keep
  their places, and the table is as before, with the definition seen.
-/

namespace Telemetry

/-- The identifier of the fields that a definition gives. -/
def MetadataDefinition.identifier (d : MetadataDefinition) : String :=
  asciiIdentifier d.name

/-- What a table holds once the definitions `seen` have passed through it. -/
structure Interned (seen : List MetadataDefinition) (types : List ConstrainedType) : Prop where
  nodup : (types.map ConstrainedType.identifier).Nodup
  origin : ∀ t ∈ types, ∃ e ∈ seen, e.isConstrained = true ∧ e.name = t.source ∧
    e.identifier = t.identifier ∧ e.allowedValues = t.values
  entry : ∀ e ∈ seen, e.isConstrained = true →
    ∃ t ∈ types, t.identifier = e.identifier ∧ t.values = e.allowedValues

namespace Interned

variable {seen : List MetadataDefinition} {types : List ConstrainedType}

theorem empty : Interned [] [] := ⟨List.nodup_nil, by simp, by simp⟩

/-- Entries with one identifier are one entry. -/
theorem eq_of_identifier (h : Interned seen types) {s t : ConstrainedType} (hs : s ∈ types)
    (ht : t ∈ types) (same : s.identifier = t.identifier) : s = t :=
  List.inj_on_of_nodup_map h.nodup hs ht same

/-- A definition without allowed values leaves the table alone. -/
theorem snoc_unconstrained (h : Interned seen types) {d : MetadataDefinition}
    (free : d.isConstrained = false) : Interned (seen ++ [d]) types := by
  refine ⟨h.nodup, ?_, ?_⟩
  · intro t ht
    obtain ⟨e, he, rest⟩ := h.origin t ht
    exact ⟨e, List.mem_append_left _ he, rest⟩
  · intro e he constrained
    rcases List.mem_append.1 he with he | he
    · exact h.entry e he constrained
    · rw [List.mem_singleton.1 he, free] at constrained
      cases constrained

/-- A definition whose identifier and values are there leaves the table alone. -/
theorem snoc_known (h : Interned seen types) {d : MetadataDefinition} {t : ConstrainedType}
    (ht : t ∈ types) (isIdentifier : t.identifier = d.identifier)
    (isValues : t.values = d.allowedValues) : Interned (seen ++ [d]) types := by
  refine ⟨h.nodup, ?_, ?_⟩
  · intro u hu
    obtain ⟨e, he, rest⟩ := h.origin u hu
    exact ⟨e, List.mem_append_left _ he, rest⟩
  · intro e he constrained
    rcases List.mem_append.1 he with he | he
    · exact h.entry e he constrained
    · rw [List.mem_singleton.1 he]
      exact ⟨t, ht, isIdentifier, isValues⟩

/-- A constrained definition with a new identifier gets an entry at the end. -/
theorem snoc_new (h : Interned seen types) {d : MetadataDefinition}
    (constrained : d.isConstrained = true)
    (new : ∀ t ∈ types, t.identifier ≠ d.identifier) :
    Interned (seen ++ [d]) (types ++ [⟨d.name, d.identifier, d.allowedValues⟩]) := by
  refine ⟨?_, ?_, ?_⟩
  · rw [List.map_append, List.nodup_append]
    refine ⟨h.nodup, List.nodup_singleton _, ?_⟩
    intro x hx y hy eq
    obtain ⟨t, ht, rfl⟩ := List.mem_map.1 hx
    exact new t ht (eq.trans (List.mem_singleton.1 hy))
  · intro t ht
    rcases List.mem_append.1 ht with ht | ht
    · obtain ⟨e, he, rest⟩ := h.origin t ht
      exact ⟨e, List.mem_append_left _ he, rest⟩
    · rw [List.mem_singleton.1 ht]
      exact ⟨d, List.mem_append_right _ (List.mem_singleton_self d), constrained, rfl, rfl, rfl⟩
  · intro e he isConstrained
    rcases List.mem_append.1 he with he | he
    · obtain ⟨t, ht, rest⟩ := h.entry e he isConstrained
      exact ⟨t, List.mem_append_left _ ht, rest⟩
    · rw [List.mem_singleton.1 he]
      exact ⟨_, List.mem_append_right _ (List.mem_singleton_self _), rfl, rfl⟩

end Interned

/-! ### One definition -/

section Step

variable {seen : List MetadataDefinition} {types : List ConstrainedType} {metric : String}
  {d : MetadataDefinition}

/-- What the search of the table finds is an entry at its place. -/
theorem find?_zipIdx {x : String} {t : ConstrainedType} {i : Nat}
    (h : types.zipIdx.find? (fun (t, _) => t.identifier == x) = some (t, i)) :
    types[i]? = some t ∧ t.identifier = x := by
  have isIdentifier := List.find?_some h
  have there := List.mem_of_find?_eq_some h
  rw [List.mem_zipIdx_iff_getElem?] at there
  exact ⟨there, beq_iff_eq.1 isIdentifier⟩

/-- If the search of the table finds nothing, the identifier is new. -/
theorem find?_zipIdx_eq_none {x : String}
    (h : types.zipIdx.find? (fun (t, _) => t.identifier == x) = none) :
    ∀ t ∈ types, t.identifier ≠ x := by
  intro t ht eq
  obtain ⟨i, hi⟩ := List.mem_iff_getElem?.1 ht
  have there := List.mem_zipIdx_iff_getElem?.2 (show types[(t, i).2]? = some (t, i).1 from hi)
  exact List.find?_eq_none.1 h (t, i) there (beq_iff_eq.2 eq)

theorem exists_internType_iff (h : Interned seen types) :
    (∃ r, internType types metric d d.identifier d.allowedValues = .ok r) ↔
      ∀ e ∈ seen, e.isConstrained = true → e.identifier = d.identifier →
        e.allowedValues = d.allowedValues := by
  unfold internType
  split
  · rename_i t i found
    obtain ⟨place, isIdentifier⟩ := find?_zipIdx found
    have there := List.mem_of_getElem? place
    have alike : t.values = d.allowedValues ↔ ∀ e ∈ seen, e.isConstrained = true →
        e.identifier = d.identifier → e.allowedValues = d.allowedValues := by
      constructor
      · intro isValues e he constrained same
        obtain ⟨u, hu, uIdentifier, uValues⟩ := h.entry e he constrained
        have sameEntry := h.eq_of_identifier hu there
          (uIdentifier.trans (same.trans isIdentifier.symm))
        rw [← uValues, sameEntry, isValues]
      · intro all
        obtain ⟨e, he, constrained, -, eIdentifier, eValues⟩ := h.origin t there
        rw [← eValues, all e he constrained (eIdentifier.trans isIdentifier)]
    rw [← alike]
    by_cases isValues : t.values = d.allowedValues
    · rw [if_pos isValues]
      exact iff_of_true ⟨_, rfl⟩ isValues
    · rw [if_neg isValues]
      refine iff_of_false ?_ isValues
      intro ok
      obtain ⟨r, ok⟩ := ok
      cases ok
  · rename_i found
    refine iff_of_true ⟨_, rfl⟩ ?_
    intro e he constrained same
    obtain ⟨t, ht, isIdentifier, -⟩ := h.entry e he constrained
    exact absurd (isIdentifier.trans same) (find?_zipIdx_eq_none found t ht)

/-- Where a constrained definition finds its place in the table. -/
theorem internType_spec {types' : List ConstrainedType} {i : Nat} (h : Interned seen types)
    (constrained : d.isConstrained = true)
    (ok : internType types metric d d.identifier d.allowedValues = .ok (i, types')) :
    types <+: types' ∧ Interned (seen ++ [d]) types' ∧
      ∃ t, types'[i]? = some t ∧ t.identifier = d.identifier ∧ t.values = d.allowedValues := by
  unfold internType at ok
  split at ok
  · rename_i t j found
    obtain ⟨place, isIdentifier⟩ := find?_zipIdx found
    split at ok
    · rename_i isValues
      cases ok
      have known := h.snoc_known (List.mem_of_getElem? place) isIdentifier isValues
      exact ⟨List.prefix_rfl, known, t, place, isIdentifier, isValues⟩
    · cases ok
  · rename_i found
    cases ok
    refine ⟨List.prefix_append _ _, h.snoc_new constrained (find?_zipIdx_eq_none found), ?_⟩
    refine ⟨⟨d.name, d.identifier, d.allowedValues⟩, ?_, rfl, rfl⟩
    rw [List.getElem?_append_right (Nat.le_refl _), Nat.sub_self]
    rfl

end Step

end Telemetry
