import Telemetry.Proofs.Identifier.Scope
import Telemetry.Proofs.Plan.Table
import Telemetry.Proofs.Related

/-!
# Planning the metadata of a metric

A draft of fields is described by the definitions that it has come from: those of the metrics
before, and those of the metric itself.

* `Ledger` is about what is shared by all metrics, the identifiers and the table; `FieldDraft.Holds`
  is about a draft, and says of its fields that each of them shows its definition;
* `exists_add_iff`: a definition is planned exactly if it agrees with all definitions of the metrics
  before, and its identifier is neither that of an implicit field nor that of a definition of the
  metric before it;
* `holds_add`: it is then planned faithfully.
-/

namespace Telemetry

/-- Whether two definitions can stand in one document: if they have one identifier, they have one
name, and the same allowed values if both restrict them. -/
def MetadataDefinition.Agrees (e d : MetadataDefinition) : Prop :=
  e.identifier = d.identifier → e.name = d.name ∧
    (e.isConstrained = true → d.isConstrained = true → e.allowedValues = d.allowedValues)

/-- Whether a field shows a definition, with its values in the table if they are restricted. -/
structure ArgumentField.Shows (types : List ConstrainedType) (d : MetadataDefinition)
    (field : ArgumentField) : Prop where
  key : field.key = d.name
  identifier : field.identifier = d.identifier
  required : field.required = d.required
  description : field.description = d.description
  implicit : field.implicit = none
  constrained : d.isConstrained = true → ∃ i t, field.type = .constrained i ∧
    types[i]? = some t ∧ t.identifier = d.identifier ∧ t.values = d.allowedValues
  primitive : d.isConstrained = false → field.type = .primitive (d.kind.getD .text)

/-- A field shows its definition also in a larger table. -/
theorem ArgumentField.Shows.mono {types types' : List ConstrainedType} {d : MetadataDefinition}
    {field : ArgumentField} (h : field.Shows types d) (le : types <+: types') :
    field.Shows types' d where
  key := h.key
  identifier := h.identifier
  required := h.required
  description := h.description
  implicit := h.implicit
  constrained isConstrained := by
    obtain ⟨i, t, isType, place, rest⟩ := h.constrained isConstrained
    refine ⟨i, t, isType, ?_, rest⟩
    obtain ⟨more, rfl⟩ := le
    obtain ⟨bound, -⟩ := List.getElem?_eq_some_iff.1 place
    rwa [List.getElem?_append_left bound]
  primitive := h.primitive

/-- What the metrics share once the definitions `seen` have been planned. -/
structure Ledger (seen : List MetadataDefinition) (identifiers : IdentifierScope)
    (types : List ConstrainedType) : Prop where
  exact : identifiers.foldCase = false
  claimed : ∀ x s, identifiers.source? x = some s ↔ ∃ e ∈ seen, e.identifier = x ∧ e.name = s
  interned : Interned seen types

/-- What a draft holds once the definitions `own` of a metric have been planned, behind the
definitions `before` of the metrics before it. -/
structure FieldDraft.Holds (before own : List MetadataDefinition) (draft : FieldDraft) : Prop where
  ledger : Ledger (before ++ own) draft.identifiers draft.types
  exact : draft.own.foldCase = false
  claimed : ∀ x s, draft.own.source? x = some s ↔
    (∃ f : ImplicitField, f.identifier = x ∧ f.source = s) ∨
      ∃ e ∈ own, e.identifier = x ∧ e.name = s
  fields : List.Forall₂ (fun d field => ArgumentField.Shows draft.types d field) own draft.fields

theorem ImplicitField.source_ne_of_identifier (f : ImplicitField) (d : MetadataDefinition)
    (same : f.identifier = d.identifier) : f.source ≠ d.name := by
  intro eq
  rw [MetadataDefinition.identifier, ← eq] at same
  cases f
  · exact absurd same (by decide +kernel)
  · exact absurd same (by decide +kernel)

/-! ### One definition -/

/-- The type of the field of a definition, and the table with its place in it. -/
def fieldType (types : List ConstrainedType) (metric : String) (d : MetadataDefinition) :
    Checked (FieldType × List ConstrainedType) :=
  match d.valueType with
  | .primitive kind => pure (FieldType.primitive kind, types)
  | .oneOf values => do
    let (index, types) ← internType types metric d d.identifier values
    pure (FieldType.constrained index, types)

/-- The field of a definition. -/
def fieldOf (type : FieldType) (d : MetadataDefinition) : ArgumentField where
  key := d.name
  identifier := d.identifier
  type
  required := d.required
  description := d.description
  implicit := none

theorem fieldType_of_unconstrained {types : List ConstrainedType} {metric : String}
    {d : MetadataDefinition} (free : d.isConstrained = false) :
    fieldType types metric d = .ok (.primitive (d.kind.getD .text), types) := by
  rw [fieldType, MetadataDefinition.valueType, free]
  rfl

theorem fieldType_of_constrained {types : List ConstrainedType} {metric : String}
    {d : MetadataDefinition} (constrained : d.isConstrained = true)
    {r : FieldType × List ConstrainedType} :
    fieldType types metric d = .ok r ↔
      ∃ i types', internType types metric d d.identifier d.allowedValues = .ok (i, types') ∧
        r = (.constrained i, types') := by
  rw [fieldType, MetadataDefinition.valueType, constrained, if_pos rfl]
  show (internType types metric d d.identifier d.allowedValues >>= fun (index, types) =>
    (pure (FieldType.constrained index, types) : Checked _)) = .ok r ↔ _
  rw [Checked.bind_eq_ok_iff]
  constructor
  · intro h
    obtain ⟨⟨i, types'⟩, interned, h⟩ := h
    cases h
    exact ⟨i, types', interned, rfl⟩
  · intro h
    obtain ⟨i, types', interned, rfl⟩ := h
    exact ⟨(i, types'), interned, rfl⟩

namespace FieldDraft

variable {metric : String} {draft next : FieldDraft} {d : MetadataDefinition}

/-- The steps of planning a definition, one behind the other. -/
theorem add_eq (metric : String) (draft : FieldDraft) (d : MetadataDefinition) :
    draft.add metric d =
      (draft.identifiers.claim d.identifier d.name).bind fun identifiers =>
      (draft.own.claim d.identifier d.name).bind fun own =>
      if draft.fields.any fun field => field.identifier == d.identifier then
        .error (.duplicateIdentifier d.identifier d.name
          (d.name ++ " (repeated in metric '" ++ metric ++ "')"))
      else (fieldType draft.types metric d).bind fun (type, types) =>
        .ok ⟨identifiers, own, types, draft.fields ++ [fieldOf type d]⟩ := by
  simp only [add, fieldType, fieldOf, MetadataDefinition.identifier, bind]
  cases draft.identifiers.claim (asciiIdentifier d.name) d.name with
  | error fault => rfl
  | ok identifiers =>
    simp only [Except.bind]
    cases draft.own.claim (asciiIdentifier d.name) d.name with
    | error fault => rfl
    | ok own =>
      simp only
      by_cases repeated :
          (draft.fields.any fun field => field.identifier == asciiIdentifier d.name) = true
      · simp only [repeated, if_true]
        rfl
      · simp only [repeated, Bool.false_eq_true, if_false]
        cases d.valueType with
        | primitive kind => rfl
        | oneOf values =>
          simp only
          cases internType draft.types metric d (asciiIdentifier d.name) values <;> rfl

theorem add_eq_ok_iff :
    draft.add metric d = .ok next ↔ ∃ identifiers own type types,
      draft.identifiers.claim d.identifier d.name = .ok identifiers ∧
      draft.own.claim d.identifier d.name = .ok own ∧
      (∀ field ∈ draft.fields, field.identifier ≠ d.identifier) ∧
      fieldType draft.types metric d = .ok (type, types) ∧
      next = ⟨identifiers, own, types, draft.fields ++ [fieldOf type d]⟩ := by
  have unique : (draft.fields.any fun field => field.identifier == d.identifier) = false ↔
      ∀ field ∈ draft.fields, field.identifier ≠ d.identifier := by
    simp
  rw [← unique, add_eq]
  constructor
  · intro h
    obtain ⟨identifiers, claimed, h⟩ := Checked.bind_eq_ok_iff.1 h
    obtain ⟨own, ownClaimed, h⟩ := Checked.bind_eq_ok_iff.1 h
    split at h
    · cases h
    · rename_i fresh
      obtain ⟨⟨type, types⟩, typed, h⟩ := Checked.bind_eq_ok_iff.1 h
      cases h
      exact ⟨identifiers, own, type, types, claimed, ownClaimed, Bool.eq_false_iff.2 fresh, typed,
        rfl⟩
  · intro h
    obtain ⟨identifiers, own, type, types, claimed, ownClaimed, fresh, typed, rfl⟩ := h
    rw [claimed, ownClaimed, typed]
    simp only [Except.bind, fresh, Bool.false_eq_true, if_false]

variable {before own : List MetadataDefinition}

/-- Each definition of the metric has its field. -/
theorem Holds.exists_field (h : Holds before own draft) {e : MetadataDefinition} (he : e ∈ own) :
    ∃ field ∈ draft.fields, field.identifier = e.identifier := by
  obtain ⟨field, there, shows⟩ := Related.exists_right h.fields he
  exact ⟨field, there, shows.identifier⟩

theorem exists_fieldType_iff (h : Holds before own draft) :
    (∃ r, fieldType draft.types metric d = .ok r) ↔ (d.isConstrained = true →
      ∀ e ∈ before ++ own, e.isConstrained = true → e.identifier = d.identifier →
        e.allowedValues = d.allowedValues) := by
  by_cases constrained : d.isConstrained = true
  · rw [← exists_internType_iff h.ledger.interned]
    simp only [fieldType_of_constrained constrained, constrained, true_implies]
    constructor
    · intro ok
      obtain ⟨-, i, types, interned, -⟩ := ok
      exact ⟨_, interned⟩
    · intro ok
      obtain ⟨⟨i, types⟩, interned⟩ := ok
      exact ⟨_, i, types, interned, rfl⟩
  · refine iff_of_true ⟨_, fieldType_of_unconstrained (Bool.eq_false_iff.2 constrained)⟩ ?_
    intro isConstrained
    exact absurd isConstrained constrained

/-- When a definition is planned. -/
theorem exists_add_iff (h : Holds before own draft) :
    (∃ next, draft.add metric d = .ok next) ↔
      ((∀ e ∈ before, e.Agrees d) ∧ ∀ f : ImplicitField, f.identifier ≠ d.identifier) ∧
        ∀ e ∈ own, e.identifier ≠ d.identifier := by
  constructor
  · intro planned
    obtain ⟨next, planned⟩ := planned
    obtain ⟨identifiers, mine, type, types, claimed, ownClaimed, fresh, typed, -⟩ :=
      add_eq_ok_iff.1 planned
    have granted := IdentifierScope.exists_claim_iff.1 ⟨_, claimed⟩
    have ownGranted := IdentifierScope.exists_claim_iff.1 ⟨_, ownClaimed⟩
    have values := (exists_fieldType_iff h).1 ⟨_, typed⟩
    refine ⟨⟨?_, ?_⟩, ?_⟩
    · intro e he same
      have seen : e ∈ before ++ own := List.mem_append_left _ he
      have isName := granted e.name ((h.ledger.claimed _ _).2 ⟨e, seen, same, rfl⟩)
      exact ⟨isName, fun eConstrained dConstrained =>
        values dConstrained e seen eConstrained same⟩
    · intro f same
      have isName := ownGranted f.source ((h.claimed _ _).2 (.inl ⟨f, same, rfl⟩))
      exact f.source_ne_of_identifier d same isName
    · intro e he same
      obtain ⟨field, there, isIdentifier⟩ := h.exists_field he
      exact fresh field there (isIdentifier.trans same)
  · intro sound
    obtain ⟨⟨agrees, explicit⟩, new⟩ := sound
    have granted : ∃ larger, draft.identifiers.claim d.identifier d.name = .ok larger := by
      rw [IdentifierScope.exists_claim_iff]
      intro s held
      obtain ⟨e, he, same, rfl⟩ := (h.ledger.claimed _ _).1 held
      rcases List.mem_append.1 he with he | he
      · exact (agrees e he same).1
      · exact absurd same (new e he)
    have ownGranted : ∃ larger, draft.own.claim d.identifier d.name = .ok larger := by
      rw [IdentifierScope.exists_claim_iff]
      intro s held
      rcases (h.claimed _ _).1 held with ⟨f, same, -⟩ | ⟨e, he, same, -⟩
      · exact absurd same (explicit f)
      · exact absurd same (new e he)
    have typed : ∃ r, fieldType draft.types metric d = .ok r := by
      rw [exists_fieldType_iff h]
      intro dConstrained e he eConstrained same
      rcases List.mem_append.1 he with he | he
      · exact (agrees e he same).2 eConstrained dConstrained
      · exact absurd same (new e he)
    have fresh : ∀ field ∈ draft.fields, field.identifier ≠ d.identifier := by
      intro field there same
      obtain ⟨e, he, shows⟩ := Related.exists_left h.fields there
      exact new e he (shows.identifier.symm.trans same)
    obtain ⟨identifiers, claimed⟩ := granted
    obtain ⟨mine, ownClaimed⟩ := ownGranted
    obtain ⟨⟨type, types⟩, typed⟩ := typed
    exact ⟨_, add_eq_ok_iff.2
      ⟨identifiers, mine, type, types, claimed, ownClaimed, fresh, typed, rfl⟩⟩

/-- The field that is added, and the table, when a definition is planned. -/
theorem shows_of_fieldType {seen : List MetadataDefinition} {types types' : List ConstrainedType}
    {type : FieldType} (h : Interned seen types)
    (typed : fieldType types metric d = .ok (type, types')) :
    types <+: types' ∧ Interned (seen ++ [d]) types' ∧ (fieldOf type d).Shows types' d := by
  by_cases constrained : d.isConstrained = true
  · obtain ⟨i, _, interned, same⟩ := (fieldType_of_constrained constrained).1 typed
    cases same
    obtain ⟨le, known, place⟩ := internType_spec h constrained interned
    refine ⟨le, known, rfl, rfl, rfl, rfl, rfl, ?_, ?_⟩
    · intro _
      obtain ⟨t, place, isIdentifier, isValues⟩ := place
      exact ⟨i, t, rfl, place, isIdentifier, isValues⟩
    · intro free
      rw [constrained] at free
      cases free
  · have free := Bool.eq_false_iff.2 constrained
    rw [fieldType_of_unconstrained free] at typed
    cases typed
    refine ⟨List.prefix_rfl, h.snoc_unconstrained free, rfl, rfl, rfl, rfl, rfl, ?_, fun _ => rfl⟩
    intro isConstrained
    exact absurd isConstrained constrained

/-- A definition that is planned is planned faithfully, and the table only grows. -/
theorem holds_add (h : Holds before own draft) (planned : draft.add metric d = .ok next) :
    Holds before (own ++ [d]) next ∧ draft.types <+: next.types := by
  obtain ⟨identifiers, mine, type, types, claimed, ownClaimed, -, typed, rfl⟩ :=
    add_eq_ok_iff.1 planned
  obtain ⟨le, interned, shows⟩ := shows_of_fieldType h.ledger.interned typed
  rw [List.append_assoc] at interned
  refine ⟨⟨⟨?_, ?_, interned⟩, ?_, ?_, ?_⟩, le⟩
  · exact (IdentifierScope.foldCase_of_claim claimed).trans h.ledger.exact
  · intro x s
    rw [IdentifierScope.source?_of_claim_iff claimed, IdentifierScope.key_of_exact h.ledger.exact,
      IdentifierScope.key_of_exact h.ledger.exact, h.ledger.claimed, ← List.append_assoc]
    simp only [List.mem_append (s := before ++ own), or_and_right, exists_or, List.mem_singleton,
      exists_eq_left]
  · exact (IdentifierScope.foldCase_of_claim ownClaimed).trans h.exact
  · intro x s
    rw [IdentifierScope.source?_of_claim_iff ownClaimed, IdentifierScope.key_of_exact h.exact,
      IdentifierScope.key_of_exact h.exact, h.claimed, or_assoc]
    simp only [List.mem_append, or_and_right, exists_or, List.mem_singleton, exists_eq_left]
  · exact List.rel_append (h.fields.imp fun _ _ shown => shown.mono le) (.cons shows .nil)

/-! ### All definitions of a metric -/

theorem holds_foldlM {ds : List MetadataDefinition} (h : Holds before [] draft)
    (run : ds.foldlM (add metric) draft = .ok next) :
    Holds before ds next ∧ draft.types <+: next.types := by
  have keeps : ∀ own s d t, Holds before own s ∧ draft.types <+: s.types →
      add metric s d = .ok t → Holds before (own ++ [d]) t ∧ draft.types <+: t.types := by
    intro own s d t holds planned
    obtain ⟨further, le⟩ := holds_add holds.1 planned
    exact ⟨further, holds.2.trans le⟩
  exact Checked.keeps_foldlM _ keeps ⟨h, List.prefix_rfl⟩ run

/-- When the definitions of a metric are planned. -/
theorem exists_foldlM_iff (metric : String) (h : Holds before [] draft)
    (ds : List MetadataDefinition) :
    (∃ next, ds.foldlM (add metric) draft = .ok next) ↔
      (∀ d ∈ ds, (∀ e ∈ before, e.Agrees d) ∧ ∀ f : ImplicitField, f.identifier ≠ d.identifier) ∧
        (ds.map MetadataDefinition.identifier).Nodup := by
  have keeps : ∀ own s d t, Holds before own s → add metric s d = .ok t →
      Holds before (own ++ [d]) t :=
    fun _ _ _ _ holds planned => (holds_add holds planned).1
  have run := Checked.exists_foldlM_iff (Holds before) keeps
    (fun _ _ _ holds => exists_add_iff holds) ds h
  rw [run, List.Nodup, List.pairwise_map]
  simp

end FieldDraft

end Telemetry
