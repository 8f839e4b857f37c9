import Mathlib.Logic.Equiv.Defs
import Mathlib.Logic.Function.Basic
import Telemetry.Proofs.Lookup
import Telemetry.Proofs.Schema.Record
import Telemetry.Schema.Decode

/-!
# What members say of each field

A record is nothing but its fields, and each field is read from the value that the members give for
it.  So reading a record takes two things: that the members are well-formed, whatever their values,
and that each field can be read by itself.

* `RecordShape.Reading` says how the fields of a record are read one by one;
* `RecordShape.WellFormed` is what has to hold of the keys, `RecordShape.value?` the value that is
  given for a field;
* `RecordShape.Reading.ofMembers_eq_ok_iff` takes the reading of a record apart;
* `MetadataEntry.reading`, `MetricEntry.reading` and `Document.reading` are the readings of the
  three records.
-/

namespace Telemetry

open Json (Value Members)

namespace RecordShape

variable {φ ρ : Type} {shape : RecordShape φ ρ}

theorem mem_slots {members : Members} {field : φ} {value : Value} :
    (field, value) ∈ shape.slots members ↔
      ∃ key, (key, value) ∈ members ∧ shape.fieldOf? key = some field := by
  rw [slots, List.mem_filterMap]
  constructor
  · rintro ⟨⟨key, found⟩, there, isSlot⟩
    obtain ⟨other, isField, same⟩ := Option.map_eq_some_iff.1 isSlot
    cases same
    exact ⟨key, there, isField⟩
  · rintro ⟨key, there, isField⟩
    exact ⟨(key, value), there, by rw [isField]; rfl⟩

variable {β : φ → Type} [DecidableEq φ]

/-- How the fields of a record are read, whose values have the types `β`. -/
structure Reading (shape : RecordShape φ ρ) (β : φ → Type) where
  /-- The fields of a record, and the record that has given fields. -/
  fields : ρ ≃ ((field : φ) → β field)
  /-- Reads the value of a field. -/
  read : (field : φ) → Value → Decoded (β field)
  /-- A value is put into a record by reading it, and no other field changes. -/
  put_eq : ∀ field value record, shape.put field value record
    = (fun b => fields.symm (Function.update (fields record) field b)) <$> read field value

/-- The value that members give for a field. -/
def value? (shape : RecordShape φ ρ) (members : Members) (field : φ) : Option Value :=
  (shape.slots members).lookup field

/-- Whether every member stands for a field of its own, and the fields that must be there are. -/
structure WellFormed (shape : RecordShape φ ρ) (members : Members) : Prop where
  spelled : shape.Spelled members
  nodup : ((shape.slots members).map Prod.fst).Nodup
  required : ∀ field ∈ shape.fields, shape.required field = true →
    field ∈ (shape.slots members).map Prod.fst

/-- Where the fields are distinct, the value of a field is that of its only member. -/
theorem value?_eq_some_iff {members : Members}
    (distinct : ((shape.slots members).map Prod.fst).Nodup) {field : φ} {value : Value} :
    shape.value? members field = some value ↔ (field, value) ∈ shape.slots members := by
  rw [value?]
  generalize shape.slots members = slots at distinct
  induction slots with
  | nil => simp
  | cons slot rest ih =>
    obtain ⟨first, given⟩ := slot
    obtain ⟨new, others⟩ := List.nodup_cons.1 distinct
    by_cases same : field = first
    · subst same
      have once : (field, value) ∉ rest := fun there =>
        new (List.mem_map.2 ⟨_, there, rfl⟩)
      simp [once, eq_comm]
    · rw [lookup_cons_of_ne same, List.mem_cons, Prod.mk.injEq]
      simp only [same, false_and, false_or]
      exact ih others

theorem value?_eq_none_iff {members : Members} {field : φ} :
    shape.value? members field = none ↔ field ∉ (shape.slots members).map Prod.fst := by
  rw [value?]
  exact lookup_eq_none_iff_notMem

namespace Reading

variable (r : shape.Reading β)

/-- Values are read into the fields that they stand for, and the other fields stay as they are. -/
theorem readItems_eq_ok_iff {slots : List (φ × Value)} (distinct : (slots.map Prod.fst).Nodup)
    {start record : ρ} :
    shape.readItems start slots = .ok record ↔
      ∀ field, decodeMember (r.read field) (r.fields start field) (slots.lookup field)
        = .ok (r.fields record field) := by
  -- The record read so far is arbitrary: each slot changes one field of it, and no later slot does.
  induction slots generalizing start with
  | nil =>
    simp only [readItems, List.lookup_nil, decodeMember, Except.ok.injEq]
    rw [← r.fields.injective.eq_iff, funext_iff]
  | cons slot rest ih =>
    obtain ⟨first, value⟩ := slot
    obtain ⟨new, others⟩ := List.nodup_cons.1 distinct
    have absent : rest.lookup first = none := lookup_eq_none_iff_notMem.2 new
    have self : ((first, value) :: rest).lookup first = some value := List.lookup_cons_self
    rw [readItems, r.put_eq, Checked.bind_eq_ok_iff]
    simp only [Checked.map_eq_ok_iff, ih others]
    constructor
    · rintro ⟨next, ⟨b, isRead, rfl⟩, rest⟩ field
      have here := rest field
      rw [Equiv.apply_symm_apply] at here
      by_cases same : field = first
      · subst same
        rw [absent, Function.update_self] at here
        rw [self]
        cases here
        exact isRead
      · rw [Function.update_of_ne same] at here
        rw [lookup_cons_of_ne same]
        exact here
    · intro all
      have here := all first
      rw [self] at here
      refine ⟨_, ⟨_, here, rfl⟩, fun field => ?_⟩
      rw [Equiv.apply_symm_apply]
      by_cases same : field = first
      · subst same
        rw [absent, Function.update_self]
        rfl
      · rw [Function.update_of_ne same, ← lookup_cons_of_ne same value]
        exact all field

/-- A record is read from members exactly if they are well-formed and each field can be read from
its value, or is as in the record without fields. -/
theorem ofMembers_eq_ok_iff {members : Members} {record : ρ} :
    shape.ofMembers members = .ok record ↔
      shape.WellFormed members ∧
        ∀ field, decodeMember (r.read field) (r.fields shape.empty field)
          (shape.value? members field) = .ok (r.fields record field) := by
  rw [RecordShape.ofMembers_eq_ok_iff]
  constructor
  · rintro ⟨spelled, nodup, required, items⟩
    exact ⟨⟨spelled, nodup, required⟩, (r.readItems_eq_ok_iff nodup).1 items⟩
  · rintro ⟨⟨spelled, nodup, required⟩, fields⟩
    exact ⟨spelled, nodup, required, (r.readItems_eq_ok_iff nodup).2 fields⟩

end Reading

end RecordShape

/-! ### The three records -/

/-- What a field of a definition holds. -/
abbrev MetadataField.Content : MetadataField → Type
  | .name => String
  | .kind => Option String
  | .allowedValues => Option (List String)
  | .required => Bool
  | .description => Option String

/-- The fields of a definition, one by one. -/
def MetadataEntry.reading : MetadataEntry.shape.Reading MetadataField.Content where
  fields :=
    { toFun := fun entry field => match field with
        | .name => entry.name
        | .kind => entry.kind
        | .allowedValues => entry.allowedValues
        | .required => entry.required
        | .description => entry.description
      invFun := fun f => ⟨f .name, f .kind, f .allowedValues, f .required, f .description⟩
      left_inv := fun _ => rfl
      right_inv := fun f => funext fun field => by cases field <;> rfl }
  read
    | .name => decodeText
    | .kind => decodeOptional decodeText
    | .allowedValues => decodeOptional (decodeList decodeText)
    | .required => decodeBool
    | .description => decodeOptional decodeText
  put_eq field _ _ := by cases field <;> exact bind_pure_comp _ _

/-- What a field of a metric holds. -/
abbrev MetricField.Content : MetricField → Type
  | .name => String
  | .unit => String
  | .description => Option String
  | .metadata => List MetadataElement

/-- The fields of a metric, one by one. -/
def MetricEntry.reading : MetricEntry.shape.Reading MetricField.Content where
  fields :=
    { toFun := fun entry field => match field with
        | .name => entry.name
        | .unit => entry.unit
        | .description => entry.description
        | .metadata => entry.metadata
      invFun := fun f => ⟨f .name, f .unit, f .description, f .metadata⟩
      left_inv := fun _ => rfl
      right_inv := fun f => funext fun field => by cases field <;> rfl }
  read
    | .name => decodeText
    | .unit => decodeText
    | .description => decodeOptional decodeText
    | .metadata => decodeList MetadataElement.decode
  put_eq field _ _ := by cases field <;> exact bind_pure_comp _ _

/-- What a field of a document holds. -/
abbrev DocumentField.Content : DocumentField → Type
  | .metadata => List MetadataEntry
  | .metrics => List MetricEntry

/-- The fields of a document, one by one. -/
def Document.reading : Document.shape.Reading DocumentField.Content where
  fields :=
    { toFun := fun document field => match field with
        | .metadata => document.metadata
        | .metrics => document.metrics
      invFun := fun f => ⟨f .metadata, f .metrics⟩
      left_inv := fun _ => rfl
      right_inv := fun f => funext fun field => by cases field <;> rfl }
  read
    | .metadata => decodeList MetadataEntry.decode
    | .metrics => decodeList MetricEntry.decode
  put_eq field _ _ := by cases field <;> exact bind_pure_comp _ _

end Telemetry
