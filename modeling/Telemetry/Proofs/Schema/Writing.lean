import Telemetry.Proofs.Json.Writing
import Telemetry.Proofs.Schema.Fields
import Telemetry.Proofs.Schema.Loading

/-!
# Loading undoes writing

A document is written as a JSON value under its main field names, without the members that have no
value, and the value as a text in any layout.  The text says everything that the document did.

* `RecordShape.Reading.ofMembers_written`: a record is read from its fields as they were written;
* `MetadataEntry.decode_toValue`, `MetricEntry.decode_toValue` and `Document.decode_toValue`: so the
  three records are read from their values;
* `Document.isWritten_of_document`: every document has a text, every text of a document is loaded as
  the document, and its value is read as the document.
-/

namespace Telemetry

open Json (Value Members)

namespace RecordShape

variable {φ ρ : Type} {β : φ → Type} {shape : RecordShape φ ρ}

/-- Members written one by one, each for a field; those without a value are left out. -/
def written (contents : List (String × φ × Option Value)) : Members :=
  contents.filterMap fun content => content.2.2.map (content.1, ·)

/-- The fields that have a value, each with its value. -/
def given (contents : List (φ × Option Value)) : List (φ × Value) :=
  contents.filterMap fun content => content.2.map (content.1, ·)

theorem memberIfSome_append {α : Type} (key : String) (field : φ) (toValue : α → Value)
    (a? : Option α) (rest : List (String × φ × Option Value)) :
    memberIfSome key toValue a? ++ written rest
      = written ((key, field, a?.map toValue) :: rest) := by
  cases a? with
  | none => rfl
  | some a => rfl

theorem slots_written {contents : List (String × φ × Option Value)}
    (spelled : ∀ content ∈ contents, shape.fieldOf? content.1 = some content.2.1) :
    shape.slots (written contents) = given (contents.map Prod.snd) := by
  rw [slots, written, given, List.filterMap_filterMap, List.filterMap_map]
  refine List.filterMap_congr fun content there => ?_
  obtain ⟨key, field, value?⟩ := content
  cases value? with
  | none => rfl
  | some value =>
    show (shape.fieldOf? key).map (·, value) = _
    rw [spelled _ there]
    rfl

theorem fields_given_sublist (contents : List (φ × Option Value)) :
    ((given contents).map Prod.fst).Sublist (contents.map Prod.fst) := by
  induction contents with
  | nil => exact .slnil
  | cons content rest ih =>
    obtain ⟨field, value?⟩ := content
    cases value? with
    | none => exact ih.cons field
    | some value => exact ih.cons_cons field

theorem lookup_given [DecidableEq φ] {contents : List (φ × Option Value)}
    (distinct : (contents.map Prod.fst).Nodup) (field : φ) :
    (given contents).lookup field = (contents.lookup field).join := by
  induction contents with
  | nil => rfl
  | cons content rest ih =>
    obtain ⟨first, value?⟩ := content
    obtain ⟨new, others⟩ := List.nodup_cons.1 distinct
    by_cases same : field = first
    · subst same
      rw [List.lookup_cons_self]
      cases value? with
      | none =>
        have absent := mt (fun there => (fields_given_sublist rest).subset there) new
        exact lookup_eq_none_iff_notMem.2 absent
      | some value => exact List.lookup_cons_self
    · rw [lookup_cons_of_ne same, ← ih others]
      cases value? with
      | none => rfl
      | some value => exact lookup_cons_of_ne same value _

/-- A record is read from its fields as they were written, in whatever order, if each field is. -/
theorem Reading.ofMembers_written [DecidableEq φ] (r : shape.Reading β)
    {contents : List (String × φ × Option Value)} {record : ρ}
    (spelled : ∀ content ∈ contents, shape.fieldOf? content.1 = some content.2.1)
    (distinct : ((contents.map Prod.snd).map Prod.fst).Nodup)
    (required : ∀ field ∈ shape.fields, shape.required field = true →
      ∃ value, (field, some value) ∈ contents.map Prod.snd)
    (each : ∀ field, decodeMember (r.read field) (r.fields shape.empty field)
      ((contents.map Prod.snd).lookup field).join = .ok (r.fields record field)) :
    shape.ofMembers (written contents) = .ok record := by
  have isSlots := slots_written spelled
  refine r.ofMembers_eq_ok_iff.2 ⟨⟨?_, ?_, ?_⟩, ?_⟩
  · intro m there
    obtain ⟨content, inContents, isMember⟩ := List.mem_filterMap.1 there
    obtain ⟨value, -, rfl⟩ := Option.map_eq_some_iff.1 isMember
    exact ⟨_, spelled content inContents⟩
  · rw [isSlots]
    exact distinct.sublist (fields_given_sublist _)
  · intro field isField isRequired
    obtain ⟨value, there⟩ := required field isField isRequired
    rw [isSlots]
    exact List.mem_map.2 ⟨(field, value), List.mem_filterMap.2 ⟨_, there, rfl⟩, rfl⟩
  · intro field
    rw [value?, isSlots, lookup_given distinct]
    exact each field

end RecordShape

/-! ### Values of records -/

/-- A list is read as it was written, if its items are. -/
theorem decodeList_map {α : Type} {decode : Value → Decoded α} {toValue : α → Value}
    (each : ∀ a, decode (toValue a) = .ok a) (as : List α) :
    decodeList decode (.list (as.map toValue)) = .ok as := by
  rw [decodeList, Checked.mapM_eq_ok_iff, List.forall₂_map_left_iff, List.forall₂_same]
  exact fun a _ => each a

/-- What was left out is read as nothing, and what was written as it was written. -/
theorem decodeMember_optional {α : Type} {decode : Value → Decoded α} {toValue : α → Value}
    (each : ∀ a, decode (toValue a) = .ok a) (notNull : ∀ a, toValue a ≠ .null) (a? : Option α) :
    RecordShape.decodeMember (decodeOptional decode) none (a?.map toValue) = .ok a? := by
  cases a? with
  | none => rfl
  | some a =>
    rw [Option.map_some, RecordShape.decodeMember, decodeOptional.eq_2 _ _ (notNull a), each]
    rfl

theorem decodeMember_text (text? : Option String) :
    RecordShape.decodeMember (decodeOptional decodeText) none (text?.map .text) = .ok text? := by
  have each : ∀ s, decodeText (.text s) = .ok s := fun _ => rfl
  exact decodeMember_optional each (fun _ => nofun) text?

theorem MetadataEntry.decode_toValue (entry : MetadataEntry) :
    MetadataEntry.decode entry.toValue = .ok entry := by
  have isWritten : entry.toValue = .object (RecordShape.written
      [("allowedValues", MetadataField.allowedValues, entry.allowedValues.map textsToValue),
        ("description", .description, entry.description.map .text),
        ("kind", .kind, entry.kind.map .text), ("name", .name, some (.text entry.name)),
        ("required", .required, some (.bool entry.required))]) := by
    simp only [← RecordShape.memberIfSome_append, toValue, List.append_assoc]
    rfl
  rw [isWritten]
  refine reading.ofMembers_written ?_ ?_ ?_ ?_
  · simp only [List.forall_mem_cons]
    exact ⟨rfl, rfl, rfl, rfl, rfl, List.forall_mem_nil _⟩
  · show [MetadataField.allowedValues, .description, .kind, .name, .required].Nodup
    decide
  · intro field _ isRequired
    cases field with
    | name => exact ⟨.text entry.name, by simp⟩
    | _ => cases isRequired
  · intro field
    cases field with
    | name => rfl
    | kind => exact decodeMember_text entry.kind
    | allowedValues =>
      have each : ∀ texts, decodeList decodeText (textsToValue texts) = .ok texts :=
        decodeList_map fun _ => rfl
      exact decodeMember_optional each (fun _ => nofun) entry.allowedValues
    | required => rfl
    | description => exact decodeMember_text entry.description

theorem MetadataElement.decode_toValue (element : MetadataElement) :
    MetadataElement.decode element.toValue = .ok element := by
  cases element with
  | reference token => rfl
  | inline entry =>
    have notText : ∀ token, entry.toValue ≠ .text token := fun _ => nofun
    rw [toValue, decode.eq_2 _ notText, MetadataEntry.decode_toValue]

theorem MetricEntry.decode_toValue (entry : MetricEntry) :
    MetricEntry.decode entry.toValue = .ok entry := by
  have isWritten : entry.toValue = .object (RecordShape.written
      [("description", MetricField.description, entry.description.map .text),
        ("metadata", .metadata, some (.list (entry.metadata.map MetadataElement.toValue))),
        ("name", .name, some (.text entry.name)), ("unit", .unit, some (.text entry.unit))]) := by
    rw [← RecordShape.memberIfSome_append]
    rfl
  rw [isWritten]
  refine reading.ofMembers_written ?_ ?_ ?_ ?_
  · simp only [List.forall_mem_cons]
    exact ⟨rfl, rfl, rfl, rfl, List.forall_mem_nil _⟩
  · show [MetricField.description, .metadata, .name, .unit].Nodup
    decide
  · intro field _ isRequired
    cases field with
    | name => exact ⟨.text entry.name, by simp⟩
    | unit => exact ⟨.text entry.unit, by simp⟩
    | _ => cases isRequired
  · intro field
    cases field with
    | name => rfl
    | unit => rfl
    | description => exact decodeMember_text entry.description
    | metadata => exact decodeList_map MetadataElement.decode_toValue entry.metadata

theorem Document.decode_toValue (document : Document) :
    Document.decode document.toValue = .ok document := by
  have isWritten : document.toValue = .object (RecordShape.written
      [("metadata", DocumentField.metadata,
          some (.list (document.metadata.map MetadataEntry.toValue))),
        ("metrics", .metrics, some (.list (document.metrics.map MetricEntry.toValue)))]) := rfl
  rw [isWritten]
  refine reading.ofMembers_written ?_ ?_ ?_ ?_
  · simp only [List.forall_mem_cons]
    exact ⟨rfl, rfl, List.forall_mem_nil _⟩
  · show [DocumentField.metadata, .metrics].Nodup
    decide
  · intro field _ isRequired
    cases isRequired
  · intro field
    cases field with
    | metadata => exact decodeList_map MetadataEntry.decode_toValue document.metadata
    | metrics => exact decodeList_map MetricEntry.decode_toValue document.metrics

/-! ### Values that can be written -/

/-- An optional member has its key, or there is none. -/
theorem memberIfSome_sublist {α : Type} (key : String) (toValue : α → Value) (a? : Option α) :
    ((memberIfSome key toValue a?).map Prod.fst).Sublist [key] := by
  cases a? with
  | none => exact List.nil_sublist _
  | some a => exact .refl _

theorem forall_mem_memberIfSome {α : Type} {P : Value → Prop} {toValue : α → Value}
    (h : ∀ a, P (toValue a)) (key : String) (a? : Option α) :
    ∀ m ∈ memberIfSome key toValue a?, P m.2 := by
  cases a? with
  | none => exact List.forall_mem_nil _
  | some a => exact List.forall_mem_singleton.2 (h a)

/-- Members are in order if their keys are among ascending ones, in the same order. -/
theorem Json.Members.ordered_of_sublist {members : Members} {keys : List String}
    (ascending : keys.Pairwise (· < ·)) (h : (members.map Prod.fst).Sublist keys) :
    members.Ordered :=
  List.pairwise_map.1 (ascending.sublist h)

section Writable

variable {depth : Nat}

theorem writable_textsToValue (shallow : depth < Json.maxDepth) (texts : List String) :
    Value.Writable depth (textsToValue texts) :=
  Value.writable_list shallow
    (List.forall_mem_map.2 fun s _ => Value.writable_text s)

theorem MetadataEntry.writable (shallow : depth + 1 < Json.maxDepth) (entry : MetadataEntry) :
    Value.Writable depth entry.toValue := by
  refine Value.writable_object (Nat.lt_of_succ_lt shallow) ?_ ?_
  · refine Json.Members.ordered_of_sublist
      (show ["allowedValues", "description", "kind", "name", "required"].Pairwise (· < ·) by
        decide +kernel) ?_
    simp only [List.map_append]
    exact (((memberIfSome_sublist _ _ _).append (memberIfSome_sublist _ _ _)).append
      (memberIfSome_sublist _ _ _)).append (.refl ["name", "required"])
  · simp only [List.forall_mem_append, List.forall_mem_cons]
    exact ⟨⟨⟨forall_mem_memberIfSome (writable_textsToValue shallow) _ _,
      forall_mem_memberIfSome Value.writable_text _ _⟩,
      forall_mem_memberIfSome Value.writable_text _ _⟩,
      Value.writable_text _, Value.writable_bool _, List.forall_mem_nil _⟩

theorem MetadataElement.writable (shallow : depth + 1 < Json.maxDepth)
    (element : MetadataElement) : Value.Writable depth element.toValue := by
  cases element with
  | reference token => exact Value.writable_text token
  | inline entry => exact entry.writable shallow

theorem MetricEntry.writable (shallow : depth + 3 < Json.maxDepth) (entry : MetricEntry) :
    Value.Writable depth entry.toValue := by
  refine Value.writable_object (by omega) ?_ ?_
  · refine Json.Members.ordered_of_sublist
      (show ["description", "metadata", "name", "unit"].Pairwise (· < ·) by decide +kernel) ?_
    rw [List.map_append]
    exact (memberIfSome_sublist _ _ _).append (.refl ["metadata", "name", "unit"])
  · have elements : ∀ v ∈ entry.metadata.map MetadataElement.toValue, v.Writable (depth + 2) :=
      List.forall_mem_map.2 fun element _ => element.writable shallow
    simp only [List.forall_mem_append, List.forall_mem_cons]
    exact ⟨forall_mem_memberIfSome Value.writable_text _ _,
      Value.writable_list (by omega) elements, Value.writable_text _,
      Value.writable_text _, List.forall_mem_nil _⟩

theorem Document.writable (document : Document) : Value.Writable 0 document.toValue := by
  have shallow : 5 < Json.maxDepth := by decide
  refine Value.writable_object (by omega) ?_ ?_
  · exact Json.Members.ordered_of_sublist
      (show ["metadata", "metrics"].Pairwise (· < ·) by decide +kernel) (.refl _)
  · simp only [List.forall_mem_cons]
    exact ⟨Value.writable_list (by omega)
        (List.forall_mem_map.2 fun entry _ => entry.writable (by omega)),
      Value.writable_list (by omega)
        (List.forall_mem_map.2 fun entry _ => entry.writable shallow),
      List.forall_mem_nil _⟩

end Writable

/-! ### Texts of documents -/

theorem MetricEntry.places_toValue (entry : MetricEntry) :
    places entry.toValue = entry.toValue :: entry.metadata.map MetadataElement.toValue := by
  have isElements : entry.toValue.itemsUnder "metadata"
      = entry.metadata.map MetadataElement.toValue := by
    obtain ⟨name, unit, description, metadata⟩ := entry
    cases description <;> rfl
  rw [places, isElements]

/-- No record is written as a list of its fields. -/
theorem Document.isList_of_mem_places_toValue {document : Document} :
    ∀ place ∈ places document.toValue, place.isList = false := by
  have isPlaces : places document.toValue = document.toValue ::
      (document.metadata.map MetadataEntry.toValue ++ [] ++
        (document.metrics.map MetricEntry.toValue).flatMap MetricEntry.places) := rfl
  rw [isPlaces, List.append_nil, List.flatMap_map]
  simp only [List.forall_mem_cons, List.forall_mem_append, List.forall_mem_map,
    List.forall_mem_flatMap, MetricEntry.places_toValue]
  refine ⟨rfl, fun _ _ => rfl, fun entry _ => ⟨rfl, fun element _ => ?_⟩⟩
  cases element <;> rfl

/-- Whether a text writes a document: it spells the document's value, in whatever layout. -/
def Document.IsWritten (document : Document) (text : String) : Prop :=
  Json.Grammar.Spells (Json.contentChars text) document.toValue

/-- Every document has a text, each of its texts is loaded as the document, and the document is
also read from its value. -/
theorem Document.isWritten_of_document (document : Document) :
    (∃ text, document.IsWritten text) ∧
      (∀ text, document.IsWritten text → load text = .ok document) ∧
        decode document.toValue = .ok document := by
  refine ⟨document.writable.exists_spells, fun text isWritten => ?_, document.decode_toValue⟩
  have parsed := Json.parse_of_spells isWritten
  rw [load_eq_ok_iff parsed, ofValue_iff (Json.Value.distinct_of_parse parsed)]
  exact ⟨document.decode_toValue, isList_of_mem_places_toValue⟩

/-- A document with characters that have to be escaped, and an empty list of allowed values. -/
def escapedDocument : Document where
  metadata := [{ name := "a\"b\\\n\u0000", allowedValues := some [] },
    { name := "é😀", kind := some "", allowedValues := some ["\u2028", "\t"], required := true }]
  metrics := [⟨"m", "ms", some "", [.reference "$x", .inline { name := "y" }]⟩]

theorem Document.isWritten_of_escapedDocument :
    ∃ text, escapedDocument.IsWritten text ∧ load text = .ok escapedDocument := by
  obtain ⟨⟨text, isWritten⟩, loaded, -⟩ := isWritten_of_document escapedDocument
  exact ⟨text, isWritten, loaded text isWritten⟩

end Telemetry
