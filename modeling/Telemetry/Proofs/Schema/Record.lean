import Mathlib.Data.List.Nodup
import Mathlib.Data.List.Pairwise
import Telemetry.Proofs.Checked
import Telemetry.Proofs.Json.Members
import Telemetry.Schema.Record

/-!
# Reading records field by field

A record is read from its members one after the other.  Where the value of a field is read by itself
and no other field meddles with it, it does not matter when that happens: the member of the field
can be taken out, the other members read, and the field put in at the end.

* `RecordShape.ofMembers_eq_ok_iff`: when a record can be read from members, and which it is;
* `RecordShape.Apart` says of a field that it is read by itself;
* `RecordShape.Apart.ofMembers_iff` takes the member of such a field out.
-/

namespace Telemetry.RecordShape

open Json (Value Members)

variable {φ ρ : Type} {shape : RecordShape φ ρ}

/-! ### Fields and their values -/

theorem mem_spellings {key : String} {field : φ} (h : shape.fieldOf? key = some field) :
    key ∈ shape.spellings field := by
  have spelled := List.find?_some h
  exact List.contains_iff_mem.1 spelled

/-- The fields that members stand for, each with its value. -/
def slots (shape : RecordShape φ ρ) (members : Members) : List (φ × Value) :=
  members.filterMap fun m => (shape.fieldOf? m.1).map (·, m.2)

/-- Whether every member stands for a field. -/
def Spelled (shape : RecordShape φ ρ) (members : Members) : Prop :=
  ∀ m ∈ members, ∃ field, shape.fieldOf? m.1 = some field

theorem slots_append (front back : Members) :
    shape.slots (front ++ back) = shape.slots front ++ shape.slots back :=
  List.filterMap_append

theorem slots_cons {key : String} {field : φ} (h : shape.fieldOf? key = some field) (value : Value)
    (rest : Members) : shape.slots ((key, value) :: rest) = (field, value) :: shape.slots rest := by
  rw [slots, List.filterMap_cons_some]
  · rfl
  · rw [h]
    rfl

theorem mem_fields_slots {members : Members} {field : φ} :
    field ∈ (shape.slots members).map Prod.fst ↔
      ∃ m ∈ members, shape.fieldOf? m.1 = some field := by
  rw [slots, List.map_filterMap, List.mem_filterMap]
  simp [Option.map_map, Function.comp_def]

theorem spelled_cons {m : String × Value} {rest : Members} :
    shape.Spelled (m :: rest) ↔
      (∃ field, shape.fieldOf? m.1 = some field) ∧ shape.Spelled rest :=
  List.forall_mem_cons

section Reading

variable [DecidableEq φ]

/-- Members are read exactly if each stands for a field of its own that has not been seen, and the
fields can be read. -/
theorem readMembers_eq_ok_iff {seen seen' : List φ} {record record' : ρ} {members : Members} :
    shape.readMembers seen record members = .ok (seen', record') ↔
      shape.Spelled members ∧ ((shape.slots members).map Prod.fst).Nodup ∧
        (∀ field ∈ (shape.slots members).map Prod.fst, field ∉ seen) ∧
        seen' = ((shape.slots members).map Prod.fst).reverse ++ seen ∧
        shape.readItems record (shape.slots members) = .ok record' := by
  induction members generalizing seen record with
  | nil =>
    simp only [readMembers, readItems, Except.ok.injEq, Prod.mk.injEq, slots, Spelled,
      List.filterMap_nil, List.map_nil, List.nodup_nil, List.reverse_nil, List.nil_append,
      List.not_mem_nil, IsEmpty.forall_iff, implies_true, true_and]
    exact and_congr_left fun _ => eq_comm
  | cons m rest ih =>
    obtain ⟨key, value⟩ := m
    rw [readMembers, spelled_cons]
    cases isField : shape.fieldOf? key with
    | none => simp
    | some field =>
      dsimp only
      rw [slots_cons isField, readItems, List.map_cons, List.nodup_cons, List.forall_mem_cons,
        List.reverse_cons]
      split
      · rename_i again
        simp [again]
      · rename_i new
        rw [Checked.bind_eq_ok_iff, Checked.bind_eq_ok_iff]
        simp only [ih, List.mem_cons, not_or, new, not_false_eq_true, true_and,
          Option.some.injEq, exists_eq', List.append_assoc, List.singleton_append]
        constructor
        · rintro ⟨next, put, spelled, nodup, apart, rfl, read⟩
          refine ⟨spelled, ⟨fun again => (apart _ again).1 rfl, nodup⟩, fun f hf => (apart f hf).2,
            rfl, next, put, read⟩
        · rintro ⟨spelled, ⟨once, nodup⟩, apart, rfl, next, put, read⟩
          refine ⟨next, put, spelled, nodup, fun f hf => ⟨?_, apart f hf⟩, rfl, read⟩
          rintro rfl
          exact once hf

/-- A record is read from members exactly if each stands for a field of its own, the fields that
must be there are, and the fields can be read. -/
theorem ofMembers_eq_ok_iff {members : Members} {record : ρ} :
    shape.ofMembers members = .ok record ↔
      shape.Spelled members ∧ ((shape.slots members).map Prod.fst).Nodup ∧
        (∀ field ∈ shape.fields, shape.required field = true →
          field ∈ (shape.slots members).map Prod.fst) ∧
        shape.readItems shape.empty (shape.slots members) = .ok record := by
  rw [ofMembers, Checked.bind_eq_ok_iff]
  simp only [Prod.exists, readMembers_eq_ok_iff, List.append_nil, List.not_mem_nil,
    not_false_eq_true, implies_true, true_and]
  constructor
  · rintro ⟨seen, record', ⟨spelled, nodup, rfl, read⟩, h⟩
    split at h
    · cases h
    · rename_i none
      cases h
      refine ⟨spelled, nodup, fun field isField isRequired => ?_, read⟩
      have found := List.find?_eq_none.1 none field isField
      simpa [isRequired] using found
  · rintro ⟨spelled, nodup, required, read⟩
    refine ⟨_, _, ⟨spelled, nodup, rfl, read⟩, ?_⟩
    have none : (shape.fields.find? fun field => shape.required field &&
        !decide (field ∈ ((shape.slots members).map Prod.fst).reverse)) = none := by
      rw [List.find?_eq_none]
      intro field isField
      simpa using required field isField
    rw [none]

/-- No field is read twice. -/
theorem ofMembers_ne_ok {members : Members} {m n : String × Value} {field : φ}
    (first : m ∈ members) (second : n ∈ members) (ne : m ≠ n)
    (isField : shape.fieldOf? m.1 = some field) (same : shape.fieldOf? n.1 = some field)
    (record : ρ) : shape.ofMembers members ≠ .ok record := by
  intro read
  have nodup := (ofMembers_eq_ok_iff.1 read).2.1
  rw [slots, List.map_filterMap, List.Nodup, List.pairwise_filterMap] at nodup
  have symmetric : Std.Symm fun m n : String × Value =>
      ∀ a, Option.map Prod.fst ((shape.fieldOf? m.1).map (·, m.2)) = some a →
      ∀ b, Option.map Prod.fst ((shape.fieldOf? n.1).map (·, n.2)) = some b → a ≠ b :=
    ⟨fun _ _ apart a ha b hb => (apart b hb a ha).symm⟩
  refine nodup.forall first second ne field ?_ field ?_ rfl
  · rw [isField]
    rfl
  · rw [same]
    rfl

end Reading

/-! ### Taking a field out -/

/-- Whether a field may be left out, its value is read by `decode` and put into the record by `set`,
and no other field minds what has been set.  The record with all fields left out has the value
`absent` set. -/
structure Apart {α : Type} (shape : RecordShape φ ρ) (field : φ) (decode : Value → Decoded α)
    (set : α → ρ → ρ) (absent : α) : Prop where
  optional : shape.required field = false
  set_absent : set absent shape.empty = shape.empty
  put_self : ∀ value record, shape.put field value record = (set · record) <$> decode value
  put_other : ∀ other value record a, other ≠ field →
    shape.put other value (set a record) = set a <$> shape.put other value record

/-- Reads the value under a key, if there is one. -/
def decodeMember {α : Type} (decode : Value → Decoded α) (absent : α) : Option Value → Decoded α
  | none => .ok absent
  | some value => decode value

namespace Apart

variable {α : Type} {field : φ} {decode : Value → Decoded α} {set : α → ρ → ρ} {absent : α}

/-- The other fields are read alike, whatever is set. -/
theorem readItems_set (h : shape.Apart field decode set absent) {slots : List (φ × Value)}
    (others : field ∉ slots.map Prod.fst) (a : α) (record : ρ) :
    shape.readItems (set a record) slots = set a <$> shape.readItems record slots := by
  induction slots generalizing record with
  | nil => rfl
  | cons slot rest ih =>
    obtain ⟨other, value⟩ := slot
    simp only [List.map_cons, List.mem_cons, not_or] at others
    rw [readItems, readItems, h.put_other _ _ _ _ (Ne.symm others.1)]
    cases shape.put other value record with
    | error fault => rfl
    | ok next => exact ih others.2 next

/-- The field is read last. -/
theorem readItems_middle (h : shape.Apart field decode set absent)
    (front : List (φ × Value)) {back : List (φ × Value)} (others : field ∉ back.map Prod.fst)
    (value : Value) (start record : ρ) :
    shape.readItems start (front ++ (field, value) :: back) = .ok record ↔
      ∃ a rest, decode value = .ok a ∧ shape.readItems start (front ++ back) = .ok rest ∧
        record = set a rest := by
  induction front generalizing start with
  | nil =>
    rw [List.nil_append, List.nil_append, readItems, h.put_self]
    cases decode value with
    | error fault => simp [Functor.map, Except.map, bind, Except.bind]
    | ok a =>
      show shape.readItems (set a start) back = _ ↔ _
      rw [h.readItems_set others, Checked.map_eq_ok_iff]
      simp only [Except.ok.injEq, exists_and_left, exists_eq_left', eq_comm]
  | cons slot front ih =>
    obtain ⟨other, first⟩ := slot
    rw [List.cons_append, List.cons_append, readItems, readItems]
    cases shape.put other first start with
    | error fault => simp [bind, Except.bind]
    | ok next => exact ih next

variable [DecidableEq φ]

/-- The member of the field can be read last, if no other stands for the field. -/
theorem ofMembers_middle (h : shape.Apart field decode set absent) {key : String}
    (isField : shape.fieldOf? key = some field) {front back : Members}
    (others : ∀ m ∈ front ++ back, shape.fieldOf? m.1 ≠ some field) (value : Value) (record : ρ) :
    shape.ofMembers (front ++ (key, value) :: back) = .ok record ↔
      ∃ a rest, decode value = .ok a ∧ shape.ofMembers (front ++ back) = .ok rest ∧
        record = set a rest := by
  have once : field ∉ (shape.slots front ++ shape.slots back).map Prod.fst := by
    rw [← slots_append, mem_fields_slots]
    rintro ⟨m, isMember, same⟩
    exact others m isMember same
  have spelled : shape.Spelled (front ++ (key, value) :: back) ↔
      shape.Spelled (front ++ back) := by
    simp only [Spelled, List.forall_mem_append, List.forall_mem_cons, isField, Option.some.injEq,
      exists_eq', true_and]
  have required : ∀ other, shape.required other = true →
      (other ∈ (shape.slots front ++ (field, value) :: shape.slots back).map Prod.fst ↔
        other ∈ (shape.slots front ++ shape.slots back).map Prod.fst) := by
    intro other isRequired
    have ne : other ≠ field := by
      rintro rfl
      rw [h.optional] at isRequired
      cases isRequired
    simp [ne]
  have nodup : ((shape.slots front ++ (field, value) :: shape.slots back).map Prod.fst).Nodup ↔
      ((shape.slots front ++ shape.slots back).map Prod.fst).Nodup := by
    rw [List.map_append, List.map_cons, List.nodup_middle, List.nodup_cons, ← List.map_append]
    exact and_iff_right once
  have last := h.readItems_middle (shape.slots front)
    (fun inside => once (by rw [List.map_append]; exact List.mem_append_right _ inside))
    value shape.empty record
  simp only [ofMembers_eq_ok_iff, spelled, slots_append, slots_cons isField, nodup, last]
  constructor
  · rintro ⟨isSpelled, distinct, needed, a, rest, decoded, readRest, isRecord⟩
    have needed' := fun other isOther isRequired =>
      (required other isRequired).1 (needed other isOther isRequired)
    exact ⟨a, rest, decoded, ⟨isSpelled, distinct, needed', readRest⟩, isRecord⟩
  · rintro ⟨a, rest, decoded, ⟨isSpelled, distinct, needed, readRest⟩, isRecord⟩
    have needed' := fun other isOther isRequired =>
      (required other isRequired).2 (needed other isOther isRequired)
    exact ⟨isSpelled, distinct, needed', a, rest, decoded, readRest, isRecord⟩

/-- A record read without the field has the value of the absent field. -/
theorem set_of_ofMembers (h : shape.Apart field decode set absent) {members : Members}
    (others : ∀ m ∈ members, shape.fieldOf? m.1 ≠ some field) {record : ρ}
    (read : shape.ofMembers members = .ok record) : set absent record = record := by
  have once : field ∉ (shape.slots members).map Prod.fst := by
    rw [mem_fields_slots]
    rintro ⟨m, isMember, same⟩
    exact others m isMember same
  have fields := (ofMembers_eq_ok_iff.1 read).2.2.2
  rw [← h.set_absent, h.readItems_set once, Checked.map_eq_ok_iff] at fields
  obtain ⟨record', fields, isSet⟩ := fields
  have same := (ofMembers_eq_ok_iff.1 read).2.2.2
  rw [fields] at same
  cases same
  exact isSet

/-- Where the field stands under one key at most, the member under this key can be taken out. -/
theorem ofMembers_iff (h : shape.Apart field decode set absent) {members : Members} {key : String}
    (distinct : members.keys.Nodup) (isField : shape.fieldOf? key = some field)
    (others : ∀ m ∈ members.without key, shape.fieldOf? m.1 ≠ some field) (record : ρ) :
    shape.ofMembers members = .ok record ↔
      ∃ a rest, decodeMember decode absent (members.get? key) = .ok a ∧
        shape.ofMembers (members.without key) = .ok rest ∧ record = set a rest := by
  cases found : members.get? key with
  | none =>
    rw [Json.Members.without_eq_self found] at others ⊢
    constructor
    · intro read
      exact ⟨absent, record, rfl, read, (h.set_of_ofMembers others read).symm⟩
    · rintro ⟨a, rest, isAbsent, read, rfl⟩
      cases isAbsent
      rw [h.set_of_ofMembers others read]
      exact read
  | some value =>
    obtain ⟨front, back, rfl, without⟩ := Json.Members.split_of_get? distinct found
    rw [without] at others ⊢
    exact h.ofMembers_middle isField others value record

end Apart

end Telemetry.RecordShape
