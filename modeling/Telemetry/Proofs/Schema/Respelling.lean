import Mathlib.Logic.Relation
import Telemetry.Proofs.Schema.Fields
import Telemetry.Proofs.Text.Trim

/-!
# Spellings of a schema

The same schema can be written in many ways: the members of an object come in any order, some fields
have two keys, a field can be left out or be given a value that says nothing, and many a value can
be replaced by another one.  `RecordShape.Rewrite` lists what can be done to one object, and
`RecordShape.Respelled` allows any number of such steps, forth and back.

* `MetadataEntry.Respelled`, `MetricEntry.Respelled` and `Document.Respelled` are the spellings of
  the three records; those of a metric and of a document reach into the lists they hold;
* `RecordShape.Respelled.holds_iff`: objects that are spellings of each other satisfy the same
  conditions on fields, if these do not tell values apart that can replace each other.
-/

namespace Telemetry

open Json (Value Members)

/-! ### Values that can replace each other -/

/-- Blanks are put around a text. -/
inductive Padded : Value → Value → Prop
  | intro {front back : String} (s : String) : Text.Blank front → Text.Blank back →
      Padded (.text s) (.text (front ++ s ++ back))

/-- The case of letters is changed; only the letters of ASCII have one here. -/
inductive Recased : Value → Value → Prop
  | intro {s t : String} : s.toLower = t.toLower → Recased (.text s) (.text t)

/-- A kind is called by its other name. -/
inductive Synonymous : Value → Value → Prop
  | integer : Synonymous (.text "int") (.text "integer")
  | double : Synonymous (.text "double") (.text "number")
  | boolean : Synonymous (.text "bool") (.text "boolean")

/-- A text of blanks is replaced by nothing. -/
inductive Emptied : Value → Value → Prop
  | intro {s : String} : Text.Blank s → Emptied (.text s) .null

/-- An item of a list is listed once more, behind the place where it stands. -/
inductive Repeated : Value → Value → Prop
  | intro {front : List Value} {item : Value} (back : List Value) : item ∈ front →
      Repeated (.list (front ++ back)) (.list (front ++ item :: back))

/-- The items of a list are replaced one by one. -/
inductive ItemWise (R : Value → Value → Prop) : Value → Value → Prop
  | intro {xs ys : List Value} : List.Forall₂ R xs ys → ItemWise R (.list xs) (.list ys)

/-! ### Objects that can replace each other -/

namespace RecordShape

variable {φ ρ : Type} {shape : RecordShape φ ρ} {idle : φ → Value → Prop}
  {alike : φ → Value → Value → Prop}

/-- A step from one spelling of a record to another.  A field may be left out if its value is
`idle`, and values may be exchanged if they are `alike`. -/
inductive Rewrite (shape : RecordShape φ ρ) (idle : φ → Value → Prop)
    (alike : φ → Value → Value → Prop) : Value → Value → Prop
  /-- Members change places. -/
  | permute {m n : Members} : m.Perm n → Rewrite shape idle alike (.object m) (.object n)
  /-- A field goes by another of its keys. -/
  | rename {field : φ} {key other : String} (value : Value) (rest : Members) :
      shape.fieldOf? key = some field → shape.fieldOf? other = some field →
      Rewrite shape idle alike (.object ((key, value) :: rest)) (.object ((other, value) :: rest))
  /-- A field that says nothing is left out; no other member stands for it. -/
  | leaveOut {field : φ} {key : String} {value : Value} {rest : Members} :
      shape.fieldOf? key = some field → idle field value →
      (∀ m ∈ rest, shape.fieldOf? m.1 ≠ some field) →
      Rewrite shape idle alike (.object ((key, value) :: rest)) (.object rest)
  /-- The value of a field is replaced. -/
  | replace {field : φ} {key : String} {value other : Value} (rest : Members) :
      shape.fieldOf? key = some field → alike field value other →
      Rewrite shape idle alike (.object ((key, value) :: rest)) (.object ((key, other) :: rest))

/-- Two spellings of a record: any number of steps lead from one to the other. -/
def Respelled (shape : RecordShape φ ρ) (idle : φ → Value → Prop)
    (alike : φ → Value → Value → Prop) : Value → Value → Prop :=
  Relation.EqvGen (shape.Rewrite idle alike)

theorem Respelled.step {u v w : Value} (h : shape.Rewrite idle alike u v)
    (rest : shape.Respelled idle alike v w) : shape.Respelled idle alike u w :=
  .trans _ _ _ (.rel _ _ h) rest

end RecordShape

/-- What a field of a definition may be left out with. -/
def MetadataEntry.Idle : MetadataField → Value → Prop
  | .name, _ => False
  | .kind, value => value = .null ∨ value = .text "string"
  | .allowedValues, value => value = .null ∨ value = .list []
  | .required, value => value = .bool false
  | .description, value => value = .null

/-- What can replace each other in a definition. -/
def MetadataEntry.Alike : MetadataField → Value → Value → Prop
  | .name, value, other => Padded value other
  | .kind, value, other => Padded value other ∨ Recased value other ∨ Synonymous value other
  | .allowedValues, value, other => Repeated value other
  | .required, _, _ => False
  | .description, value, other => Padded value other ∨ Emptied value other

/-- Two spellings of a definition. -/
def MetadataEntry.Respelled : Value → Value → Prop :=
  MetadataEntry.shape.Respelled MetadataEntry.Idle MetadataEntry.Alike

/-- What a field of a metric may be left out with. -/
def MetricEntry.Idle : MetricField → Value → Prop
  | .name, _ => False
  | .unit, _ => False
  | .description, value => value = .null
  | .metadata, value => value = .list []

/-- What can replace each other in a metric; its definitions may have any of their spellings. -/
def MetricEntry.Alike : MetricField → Value → Value → Prop
  | .name, _, _ => False
  | .unit, value, other => Padded value other ∨ Recased value other
  | .description, value, other => Padded value other ∨ Emptied value other
  | .metadata, value, other => ItemWise MetadataEntry.Respelled value other

/-- Two spellings of a metric. -/
def MetricEntry.Respelled : Value → Value → Prop :=
  MetricEntry.shape.Respelled MetricEntry.Idle MetricEntry.Alike

/-- What a section of a document may be left out with. -/
def Document.Idle (_ : DocumentField) (value : Value) : Prop :=
  value = .list []

/-- What can replace each other in a document: the spellings of its definitions and metrics. -/
def Document.Alike : DocumentField → Value → Value → Prop
  | .metadata => ItemWise MetadataEntry.Respelled
  | .metrics => ItemWise MetricEntry.Respelled

/-- Two spellings of a document. -/
def Document.Respelled : Value → Value → Prop :=
  Document.shape.Respelled Document.Idle Document.Alike

/-! ### Conditions on fields -/

namespace RecordShape

variable {φ ρ : Type} [DecidableEq φ] {shape : RecordShape φ ρ} {idle : φ → Value → Prop}
  {alike : φ → Value → Value → Prop} {accepts : φ → Option Value → Prop} {members rest : Members}
  {field : φ}

/-- Whether members are well-formed and satisfy a condition on the value of each field. -/
structure Fits (shape : RecordShape φ ρ) (accepts : φ → Option Value → Prop) (members : Members) :
    Prop where
  wellFormed : shape.WellFormed members
  accepts : ∀ field, accepts field (shape.value? members field)

/-- What is left of the conditions for the members beside that of one field. -/
structure FitsBeside (shape : RecordShape φ ρ) (accepts : φ → Option Value → Prop) (field : φ)
    (rest : Members) : Prop where
  spelled : shape.Spelled rest
  nodup : ((shape.slots rest).map Prod.fst).Nodup
  absent : field ∉ (shape.slots rest).map Prod.fst
  required : ∀ other ∈ shape.fields, shape.required other = true → other ≠ field →
    other ∈ (shape.slots rest).map Prod.fst
  accepts : ∀ other ≠ field, accepts other (shape.value? rest other)

theorem fits_cons_iff {key : String} (isField : shape.fieldOf? key = some field) {value : Value} :
    shape.Fits accepts ((key, value) :: rest) ↔
      accepts field (some value) ∧ shape.FitsBeside accepts field rest := by
  have isSlots := slots_cons isField value rest
  have here : shape.value? ((key, value) :: rest) field = some value := by
    rw [value?, isSlots, List.lookup_cons_self]
  have elsewhere : ∀ other ≠ field,
      shape.value? ((key, value) :: rest) other = shape.value? rest other := by
    intro other ne
    rw [value?, isSlots, lookup_cons_of_ne ne]
    rfl
  constructor
  · rintro ⟨⟨spelled, nodup, required⟩, all⟩
    rw [isSlots] at nodup required
    obtain ⟨absent, nodup⟩ := List.nodup_cons.1 nodup
    refine ⟨here ▸ all field, (spelled_cons.1 spelled).2, nodup, absent, ?_, ?_⟩
    · intro other isField isRequired ne
      exact (List.mem_cons.1 (required other isField isRequired)).resolve_left ne
    · intro other ne
      exact elsewhere other ne ▸ all other
  · rintro ⟨first, spelled, nodup, absent, required, others⟩
    refine ⟨⟨spelled_cons.2 ⟨⟨field, isField⟩, spelled⟩, ?_, ?_⟩, ?_⟩
    · rw [isSlots]
      exact List.nodup_cons.2 ⟨absent, nodup⟩
    · intro other isField isRequired
      rw [isSlots]
      by_cases same : other = field
      · exact List.mem_cons.2 (.inl same)
      · exact List.mem_cons_of_mem _ (required other isField isRequired same)
    · intro other
      by_cases same : other = field
      · subst same
        exact here ▸ first
      · exact elsewhere other same ▸ others other same

theorem fits_iff_of_absent (absent : field ∉ (shape.slots rest).map Prod.fst)
    (optional : shape.required field = false) :
    shape.Fits accepts rest ↔ accepts field none ∧ shape.FitsBeside accepts field rest := by
  have nothing : shape.value? rest field = none := value?_eq_none_iff.2 absent
  constructor
  · rintro ⟨⟨spelled, nodup, required⟩, all⟩
    exact ⟨nothing ▸ all field, spelled, nodup, absent, fun other isField isRequired _ =>
      required other isField isRequired, fun other _ => all other⟩
  · rintro ⟨none, spelled, nodup, -, required, others⟩
    refine ⟨⟨spelled, nodup, ?_⟩, ?_⟩
    · intro other isField isRequired
      refine required other isField isRequired ?_
      rintro rfl
      rw [optional] at isRequired
      cases isRequired
    · intro other
      by_cases same : other = field
      · subst same
        exact nothing ▸ none
      · exact others other same

theorem Fits.of_perm {other : Members} (h : shape.Fits accepts members)
    (perm : members.Perm other) : shape.Fits accepts other := by
  obtain ⟨⟨spelled, nodup, required⟩, all⟩ := h
  have slots : (shape.slots members).Perm (shape.slots other) := perm.filterMap _
  have fields := slots.map Prod.fst
  have nodup' := fields.nodup_iff.1 nodup
  refine ⟨⟨fun m there => spelled m (perm.mem_iff.2 there), nodup', ?_⟩, ?_⟩
  · intro field isField isRequired
    exact fields.mem_iff.1 (required field isField isRequired)
  · intro field
    have same : shape.value? other field = shape.value? members field := by
      refine Option.ext fun value => ?_
      rw [value?_eq_some_iff nodup, value?_eq_some_iff nodup', slots.mem_iff]
    rw [same]
    exact all field

/-- Whether a value is an object whose members satisfy conditions on fields. -/
def Holds (shape : RecordShape φ ρ) (accepts : φ → Option Value → Prop) (value : Value) : Prop :=
  ∃ members, value = .object members ∧ shape.Fits accepts members

theorem holds_object_iff : shape.Holds accepts (.object members) ↔ shape.Fits accepts members := by
  constructor
  · rintro ⟨_, same, fits⟩
    cases same
    exact fits
  · intro fits
    exact ⟨members, rfl, fits⟩

section Invariance

variable (ofIdle : ∀ field value, idle field value →
    shape.required field = false ∧ (accepts field (some value) ↔ accepts field none))
  (ofAlike : ∀ field value other, alike field value other →
    (accepts field (some value) ↔ accepts field (some other)))

include ofIdle ofAlike

/-- A step does not change whether conditions hold that idle and alike values do not matter to. -/
theorem Rewrite.holds_iff {value other : Value} (h : shape.Rewrite idle alike value other) :
    shape.Holds accepts value ↔ shape.Holds accepts other := by
  cases h with
  | permute perm =>
    rw [holds_object_iff, holds_object_iff]
    exact ⟨fun fits => fits.of_perm perm, fun fits => fits.of_perm perm.symm⟩
  | rename value rest isField otherField =>
    rw [holds_object_iff, holds_object_iff, fits_cons_iff isField, fits_cons_iff otherField]
  | leaveOut isField isIdle alone =>
    obtain ⟨optional, same⟩ := ofIdle _ _ isIdle
    have absent := mt mem_fields_slots.1 (not_exists.2 fun m there => alone m there.1 there.2)
    rw [holds_object_iff, holds_object_iff, fits_cons_iff isField,
      fits_iff_of_absent absent optional, same]
  | replace rest isField isAlike =>
    rw [holds_object_iff, holds_object_iff, fits_cons_iff isField, fits_cons_iff isField,
      ofAlike _ _ _ isAlike]

theorem Respelled.holds_iff {value other : Value} (h : shape.Respelled idle alike value other) :
    shape.Holds accepts value ↔ shape.Holds accepts other := by
  induction h with
  | rel _ _ step => exact step.holds_iff ofIdle ofAlike
  | refl _ => rfl
  | symm _ _ _ ih => exact ih.symm
  | trans _ _ _ _ _ first second => exact first.trans second

end Invariance

end RecordShape

end Telemetry
