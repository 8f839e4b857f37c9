import Telemetry.Proofs.Metadata.Pool
import Telemetry.Proofs.Related
import Telemetry.Proofs.Schema.Loading
import Telemetry.Proofs.Schema.Respelling
import Telemetry.Metric.Unit

/-!
# What counts in a schema

Of each field of a record something is left when its spelling is forgotten: its gist.  Two spellings
of a schema are loaded alike, and the documents have the same gist.

* `MetadataEntry.gist`, `MetricEntry.gist` and `Document.gist` are what counts in the three records;
* `RecordShape.Reading.Forgets` is what a gist has to forget of a record, field by field, and
  `RecordShape.Reading.Forgets.readAs_iff` what follows for the spellings of the record;
* `Document.Respelled.readAs_iff`: spellings of a document are read with the same gist.
-/

namespace Telemetry

open Json (Value Members)

/-! ### Gists -/

/-- What counts in a field of a definition. -/
abbrev MetadataField.Gist : MetadataField → Type
  | .name => String
  | .kind => Option MetadataKind
  | .allowedValues => List String
  | .required => Bool
  | .description => Option String

/-- What counts in a field of a definition: its trimmed name, the kind of its values, where none is
given texts, the allowed ones without repetitions, and what is left of the description. -/
def MetadataField.gist : (field : MetadataField) → field.Content → field.Gist
  | .name, s => Text.trim s
  | .kind, word? => word?.elim (some .text) MetadataKind.ofWord?
  | .allowedValues, values? => (values?.getD []).eraseDups
  | .required, b => b
  | .description, s? => s?.bind Text.trimmed?

/-- What counts in a definition. -/
abbrev MetadataEntry.Gist : Type :=
  (field : MetadataField) → field.Gist

/-- What counts in a definition, field by field. -/
def MetadataEntry.gist (entry : MetadataEntry) : MetadataEntry.Gist :=
  fun field => field.gist (reading.fields entry field)

/-- What counts in an element of a metric's metadata: the token, or the definition. -/
def MetadataElement.gist : MetadataElement → String ⊕ MetadataEntry.Gist
  | .reference token => .inl token
  | .inline entry => .inr entry.gist

/-- What counts in a field of a metric. -/
abbrev MetricField.Gist : MetricField → Type
  | .name => String
  | .unit => Option MetricUnit
  | .description => Option String
  | .metadata => List (String ⊕ MetadataEntry.Gist)

/-- What counts in a field of a metric. -/
def MetricField.gist : (field : MetricField) → field.Content → field.Gist
  | .name, s => s
  | .unit, word => MetricUnit.ofWord? word
  | .description, s? => s?.bind Text.trimmed?
  | .metadata, elements => elements.map MetadataElement.gist

/-- What counts in a metric. -/
abbrev MetricEntry.Gist : Type :=
  (field : MetricField) → field.Gist

/-- What counts in a metric, field by field. -/
def MetricEntry.gist (entry : MetricEntry) : MetricEntry.Gist :=
  fun field => field.gist (reading.fields entry field)

/-- What counts in a section of a document. -/
abbrev DocumentField.Gist : DocumentField → Type
  | .metadata => List MetadataEntry.Gist
  | .metrics => List MetricEntry.Gist

/-- What counts in a section of a document. -/
def DocumentField.gist : (field : DocumentField) → field.Content → field.Gist
  | .metadata, entries => entries.map MetadataEntry.gist
  | .metrics, entries => entries.map MetricEntry.gist

/-- What counts in a document, section by section. -/
def Document.gist (document : Document) : (field : DocumentField) → field.Gist :=
  fun field => field.gist (reading.fields document field)

/-! ### Reading values with a gist -/

/-- The items of a list; other values have none. -/
def Json.Value.items : Value → List Value
  | .list items => items
  | _ => []

theorem Json.Members.itemsUnder_eq_items {members : Members} {key : String} {value : Value}
    (h : members.get? key = some value) : members.itemsUnder key = value.items := by
  rw [itemsUnder, h]
  cases value <;> rfl

/-- Whether a value, no place of which is a list, is read as something with a gist. -/
def ReadAs {α γ : Type} (places : Value → List Value) (decode : Value → Decoded α) (gist : α → γ)
    (value : Value) (c : γ) : Prop :=
  (∀ place ∈ places value, place.isList = false) ∧ gist <$> decode value = .ok c

section Lists

variable {α γ : Type} {places : Value → List Value} {decode : Value → Decoded α} {gist : α → γ}

/-- The items of a list are read one by one. -/
theorem readAs_list_iff {items : List Value} {cs : List γ} :
    ReadAs (fun value => value.items.flatMap places) (decodeList decode) (List.map gist)
        (.list items) cs ↔
      List.Forall₂ (ReadAs places decode gist) items cs := by
  have isMap : ∀ as : List α, as.map gist = cs ↔ List.Forall₂ (fun a c => gist a = c) as cs := by
    intro as
    rw [← List.forall₂_map_left_iff, List.forall₂_eq_eq_eq]
  have parts : ReadAs places decode gist = fun item c =>
      (∀ place ∈ places item, place.isList = false) ∧ ∃ a, decode item = .ok a ∧ gist a = c := by
    funext item c
    rw [ReadAs, Checked.map_eq_ok_iff]
  rw [parts, List.forall₂_and_left, ReadAs]
  simp only [Value.items, List.forall_mem_flatMap, decodeList, Checked.map_eq_ok_iff,
    Checked.mapM_eq_ok_iff, isMap, Related.exists_forall₂_trans_iff]

/-- Lists are read alike if their items are. -/
theorem ItemWise.readAs_iff {R : Value → Value → Prop} {value other : Value}
    (same : ∀ x y, R x y → ∀ c, ReadAs places decode gist x c ↔ ReadAs places decode gist y c)
    (h : ItemWise R value other) (cs : List γ) :
    ReadAs (fun value => value.items.flatMap places) (decodeList decode) (List.map gist) value cs ↔
      ReadAs (fun value => value.items.flatMap places) (decodeList decode) (List.map gist)
        other cs := by
  obtain ⟨related⟩ := h
  rw [readAs_list_iff, readAs_list_iff]
  induction related generalizing cs with
  | nil => rfl
  | cons first _ ih =>
    rw [List.forall₂_cons_left_iff, List.forall₂_cons_left_iff]
    simp only [same _ _ first, ih]

end Lists

/-! ### Reading records with a gist -/

namespace RecordShape

variable {φ ρ : Type} [DecidableEq φ] {shape : RecordShape φ ρ} {β γ : φ → Type}

/-- Whether a field that has a value or none is read with a gist, and no list stands among the
places of its value. -/
def Reading.Reads (r : shape.Reading β) (places : φ → Value → List Value)
    (gist : (field : φ) → β field → γ field) (c : (field : φ) → γ field) (field : φ)
    (value? : Option Value) : Prop :=
  (∀ value, value? = some value → ∀ place ∈ places field value, place.isList = false) ∧
    gist field <$> decodeMember (r.read field) (r.fields shape.empty field) value?
      = .ok (c field)

/-- Under the keys of a field stand the items of the list that is its value. -/
theorem WellFormed.forall_mem_itemsUnder_iff {members : Members} (h : shape.WellFormed members)
    (field : φ) (P : Value → Prop) :
    (∀ key, shape.fieldOf? key = some field → ∀ item ∈ Members.itemsUnder members key, P item) ↔
      ∀ value, shape.value? members field = some value → ∀ item ∈ value.items, P item := by
  have value_eq : ∀ {key value}, shape.fieldOf? key = some field → (key, value) ∈ members →
      shape.value? members field = some value := fun isField there =>
    (value?_eq_some_iff h.nodup).2 (mem_slots.2 ⟨_, there, isField⟩)
  constructor
  · intro all value given item isItem
    obtain ⟨key, there, isField⟩ := mem_slots.1 ((value?_eq_some_iff h.nodup).1 given)
    apply all key isField
    cases found : Members.get? members key with
    | none => exact absurd (List.mem_map_of_mem there) (Json.Members.get?_eq_none_iff.1 found)
    | some first =>
      have same := value_eq isField (Json.Members.mem_of_get? found)
      rw [given, Option.some.injEq] at same
      rw [Json.Members.itemsUnder_eq_items found, ← same]
      exact isItem
  · intro all key isField item isItem
    obtain ⟨items, there, isItem⟩ := Members.mem_itemsUnder isItem
    exact all _ (value_eq isField there) item isItem

theorem Reading.reads_some_iff {r : shape.Reading β} {places : φ → Value → List Value}
    {gist : (field : φ) → β field → γ field} {c : (field : φ) → γ field} {field : φ}
    {value : Value} :
    r.Reads places gist c field (some value) ↔
      ReadAs (places field) (r.read field) (gist field) value (c field) := by
  rw [Reads, ReadAs]
  simp only [Option.some.injEq, forall_eq']
  rfl

/-- What makes the gist of a record forget the differences between spellings: the places of a record
are those of its fields, idle values count for nothing, and alike values for the same. -/
structure Reading.Forgets (r : shape.Reading β) (gist : (field : φ) → β field → γ field)
    (places : Value → List Value) (placesOf : φ → Value → List Value) (idle : φ → Value → Prop)
    (alike : φ → Value → Value → Prop) : Prop where
  places_list : ∀ items, .list items ∈ places (.list items)
  places_object : ∀ members, shape.WellFormed members →
    ((∀ place ∈ places (.object members), place.isList = false) ↔
      ∀ field value, shape.value? members field = some value →
        ∀ place ∈ placesOf field value, place.isList = false)
  optional : ∀ field value, idle field value → shape.required field = false
  idle : ∀ field value, idle field value → placesOf field value = [] ∧
    gist field <$> r.read field value = .ok (gist field (r.fields shape.empty field))
  alike : ∀ field value other, alike field value other → ∀ c,
    ReadAs (placesOf field) (r.read field) (gist field) value c ↔
      ReadAs (placesOf field) (r.read field) (gist field) other c

namespace Reading.Forgets

variable {r : shape.Reading β} {gist : (field : φ) → β field → γ field}
  {places : Value → List Value} {placesOf : φ → Value → List Value} {idle : φ → Value → Prop}
  {alike : φ → Value → Value → Prop} (h : r.Forgets gist places placesOf idle alike)

include h

/-- A record is read with a gist if its fields are. -/
theorem readAs_iff_holds (value : Value) (c : (field : φ) → γ field) :
    ReadAs places shape.decode (fun record field => gist field (r.fields record field)) value c ↔
      shape.Holds (r.Reads placesOf gist c) value := by
  cases value with
  | object members =>
    rw [holds_object_iff, ReadAs, decode, Checked.map_eq_ok_iff]
    simp only [r.ofMembers_eq_ok_iff]
    constructor
    · rintro ⟨placed, record, ⟨wellFormed, isRead⟩, rfl⟩
      have placedOf := (h.places_object members wellFormed).1 placed
      exact ⟨wellFormed, fun field => ⟨placedOf field, by rw [isRead field]; rfl⟩⟩
    · rintro ⟨wellFormed, reads⟩
      have read : ∀ field, ∃ b, decodeMember (r.read field) (r.fields shape.empty field)
          (shape.value? members field) = .ok b ∧ gist field b = c field := fun field =>
        Checked.map_eq_ok_iff.1 (reads field).2
      -- Every field has its own witness; together they are the record.
      choose b isRead isGist using read
      refine ⟨(h.places_object members wellFormed).2 fun field => (reads field).1, r.fields.symm b,
        ⟨wellFormed, ?_⟩, ?_⟩
      · intro field
        rw [Equiv.apply_symm_apply]
        exact isRead field
      · rw [Equiv.apply_symm_apply]
        exact funext isGist
  | list items =>
    constructor
    · intro read
      cases read.1 _ (h.places_list items)
    · rintro ⟨_, same, _⟩
      cases same
  | _ =>
    constructor
    · intro read
      cases read.2
    · rintro ⟨_, same, _⟩
      cases same

/-- Spellings of a record are read with the same gist. -/
theorem readAs_iff {value other : Value} (respelled : shape.Respelled idle alike value other)
    (c : (field : φ) → γ field) :
    ReadAs places shape.decode (fun record field => gist field (r.fields record field)) value c ↔
      ReadAs places shape.decode (fun record field => gist field (r.fields record field))
        other c := by
  rw [h.readAs_iff_holds, h.readAs_iff_holds]
  apply respelled.holds_iff
  · intro field value isIdle
    refine ⟨h.optional field value isIdle, ?_⟩
    obtain ⟨noPlace, same⟩ := h.idle field value isIdle
    rw [reads_some_iff, ReadAs, same, noPlace]
    refine and_congr_left fun _ => iff_of_true (List.forall_mem_nil _) ?_
    intro value isValue
    cases isValue
  · intro field value other areAlike
    rw [reads_some_iff, reads_some_iff]
    exact h.alike field value other areAlike (c field)

end Reading.Forgets

omit [DecidableEq φ] in
/-- Spellings of a record are equal or objects. -/
theorem Respelled.eq_or_objects {idle : φ → Value → Prop} {alike : φ → Value → Value → Prop}
    {value other : Value} (h : shape.Respelled idle alike value other) :
    value = other ∨ ∃ m n, value = .object m ∧ other = .object n := by
  induction h with
  | rel _ _ step => cases step <;> exact .inr ⟨_, _, rfl, rfl⟩
  | refl _ => exact .inl rfl
  | symm _ _ _ ih =>
    rcases ih with same | ⟨m, n, first, second⟩
    · exact .inl same.symm
    · exact .inr ⟨n, m, second, first⟩
  | trans _ _ _ _ _ first second =>
    rcases first with rfl | ⟨m, n, isObject, rfl⟩
    · exact second
    · rcases second with rfl | ⟨_, k, -, isOther⟩
      · exact .inr ⟨m, n, isObject, rfl⟩
      · exact .inr ⟨m, k, isObject, isOther⟩

end RecordShape

/-- Values without places that have the same gist are read alike. -/
theorem readAs_congr {α γ : Type} {places : Value → List Value} {decode : Value → Decoded α}
    {gist : α → γ} {value other : Value} (noPlace : places value = [])
    (noOtherPlace : places other = []) (same : gist <$> decode value = gist <$> decode other)
    (c : γ) : ReadAs places decode gist value c ↔ ReadAs places decode gist other c := by
  rw [ReadAs, ReadAs, noPlace, noOtherPlace, same]

/-! ### Values that can replace each other -/

theorem Padded.trim_eq {value other : Value} (h : Padded value other) :
    ∃ s t, value = .text s ∧ other = .text t ∧ Text.trim s = Text.trim t := by
  obtain ⟨s, front, back⟩ := h
  exact ⟨s, _, rfl, rfl, (Text.trim_append front back s).symm⟩

/-- Words that differ in blanks or in the case of letters are the same word. -/
theorem word_eq {value other : Value} (h : Padded value other ∨ Recased value other) :
    ∃ s t, value = .text s ∧ other = .text t ∧
      (Text.trim s).toLower = (Text.trim t).toLower := by
  rcases h with padded | ⟨⟨same⟩⟩
  · obtain ⟨s, t, isText, isOther, same⟩ := padded.trim_eq
    exact ⟨s, t, isText, isOther, by rw [same]⟩
  · refine ⟨_, _, rfl, rfl, ?_⟩
    rw [Text.toLower_trim, Text.toLower_trim, same]

theorem MetadataKind.ofWord?_congr {s t : String}
    (same : (Text.trim s).toLower = (Text.trim t).toLower) : ofWord? s = ofWord? t := by
  rw [ofWord?, ofWord?, same]

theorem MetricUnit.ofWord?_congr {s t : String}
    (same : (Text.trim s).toLower = (Text.trim t).toLower) : ofWord? s = ofWord? t := by
  rw [ofWord?, ofWord?, same]

theorem Synonymous.ofWord?_eq {value other : Value} (h : Synonymous value other) :
    ∃ s t, value = .text s ∧ other = .text t ∧
      MetadataKind.ofWord? s = MetadataKind.ofWord? t := by
  cases h with
  | integer => exact ⟨_, _, rfl, rfl, by decide +kernel⟩
  | double => exact ⟨_, _, rfl, rfl, by decide +kernel⟩
  | boolean => exact ⟨_, _, rfl, rfl, by decide +kernel⟩

/-- What is left of a description does not depend on its spelling. -/
theorem description_eq {value other : Value} (h : Padded value other ∨ Emptied value other) :
    (fun s? : Option String => s?.bind Text.trimmed?) <$> decodeOptional decodeText value
      = (fun s? => s?.bind Text.trimmed?) <$> decodeOptional decodeText other := by
  have text : ∀ (f : String → Option String) s,
      (fun s? : Option String => s?.bind f) <$> decodeOptional decodeText (.text s) = .ok (f s) :=
    fun _ _ => rfl
  rcases h with padded | emptied
  · obtain ⟨s, t, rfl, rfl, same⟩ := padded.trim_eq
    rw [text, text, Text.trimmed?, Text.trimmed?, same]
  · obtain @⟨s, blank⟩ := emptied
    rw [text, Text.trimmed?_eq_none blank]
    rfl

theorem eraseDups_append_cons {texts : List String} {s : String} (there : s ∈ texts)
    (rest : List String) : (texts ++ s :: rest).eraseDups = (texts ++ rest).eraseDups := by
  have removed : (s :: rest).removeAll texts = rest.removeAll texts := by
    rw [List.removeAll, List.filter_cons_of_neg, List.removeAll]
    simp [there]
  rw [List.eraseDups_append, List.eraseDups_append, removed]

/-- An allowed value that is listed again does not count. -/
theorem Repeated.eraseDups_eq {value other : Value} (h : Repeated value other) :
    List.eraseDups <$> decodeList decodeText value
      = List.eraseDups <$> decodeList decodeText other := by
  obtain @⟨front, item, back, there⟩ := h
  rw [decodeList, decodeList, List.mapM_append, List.mapM_append, List.mapM_cons]
  -- Where the items in front cannot be read, reading ends before it comes to the repetition.
  cases first : front.mapM decodeText with
  | error fault => rfl
  | ok texts =>
    obtain ⟨s, inTexts, isText⟩ := Related.exists_right (Checked.mapM_eq_ok_iff.1 first) there
    rw [isText]
    cases back.mapM decodeText with
    | error fault => rfl
    | ok rest =>
      show Except.ok (texts ++ rest).eraseDups = Except.ok (texts ++ s :: rest).eraseDups
      rw [eraseDups_append_cons inTexts]

/-! ### Definitions -/

namespace MetadataEntry

theorem forgets : reading.Forgets MetadataField.gist (fun value => [value]) (fun _ _ => []) Idle
    Alike where
  places_list items := List.mem_singleton_self _
  places_object members _ :=
    iff_of_true (List.forall_mem_singleton.2 rfl) fun _ _ _ => List.forall_mem_nil _
  optional field value h := by
    cases field with
    | name => cases h
    | _ => rfl
  idle field value h := by
    refine ⟨rfl, ?_⟩
    cases field with
    | name => cases h
    | kind =>
      rcases h with rfl | rfl
      · rfl
      · have isText : MetadataKind.ofWord? "string" = some .text := by decide +kernel
        exact congrArg Except.ok isText
    | allowedValues =>
      rcases h with rfl | rfl
      · rfl
      · rfl
    | required =>
      cases h
      rfl
    | description =>
      cases h
      rfl
  alike field value other h := by
    apply readAs_congr rfl rfl
    cases field with
    | name =>
      obtain ⟨s, t, rfl, rfl, same⟩ := Padded.trim_eq h
      exact congrArg Except.ok same
    | kind =>
      have kinds : ∃ s t, value = .text s ∧ other = .text t ∧
          MetadataKind.ofWord? s = MetadataKind.ofWord? t := by
        rcases h with padded | recased | synonymous
        · obtain ⟨s, t, isText, isOther, same⟩ := word_eq (.inl padded)
          exact ⟨s, t, isText, isOther, MetadataKind.ofWord?_congr same⟩
        · obtain ⟨s, t, isText, isOther, same⟩ := word_eq (.inr recased)
          exact ⟨s, t, isText, isOther, MetadataKind.ofWord?_congr same⟩
        · exact synonymous.ofWord?_eq
      obtain ⟨s, t, rfl, rfl, same⟩ := kinds
      exact congrArg Except.ok same
    | allowedValues =>
      have listed : ∀ items,
          (fun values? : Option (List String) => (values?.getD []).eraseDups) <$>
            decodeOptional (decodeList decodeText) (.list items)
          = List.eraseDups <$> decodeList decodeText (.list items) := by
        intro items
        have notNull : Value.list items ≠ .null := by
          intro same
          cases same
        rw [decodeOptional.eq_2 _ _ notNull, Functor.map_map]
        rfl
      have same := Repeated.eraseDups_eq h
      obtain ⟨back, there⟩ := h
      rw [← listed, ← listed] at same
      exact same
    | required => cases h
    | description => exact description_eq h

/-- Spellings of a definition are read with the same gist. -/
theorem Respelled.readAs_iff {value other : Value} (h : Respelled value other) (c : Gist) :
    ReadAs (fun value => [value]) decode gist value c ↔
      ReadAs (fun value => [value]) decode gist other c :=
  forgets.readAs_iff h c

end MetadataEntry

/-! ### Metrics -/

/-- An object is an element with a gist if it is a definition with it. -/
theorem MetadataElement.readAs_object_iff {members : Members} {c : String ⊕ MetadataEntry.Gist} :
    ReadAs (fun value => [value]) decode gist (.object members) c ↔
      ∃ d, ReadAs (fun value => [value]) MetadataEntry.decode MetadataEntry.gist
        (.object members) d ∧ .inr d = c := by
  simp only [ReadAs, and_assoc, exists_and_left]
  refine and_congr_right fun _ => ?_
  have notText : ∀ token, Value.object members ≠ .text token := by
    intro token same
    cases same
  rw [decode.eq_2 _ notText]
  cases MetadataEntry.decode (.object members) with
  | error fault =>
    constructor
    · intro h
      cases h
    · rintro ⟨_, h, _⟩
      cases h
  | ok entry =>
    constructor
    · intro h
      cases h
      exact ⟨entry.gist, rfl, rfl⟩
    · rintro ⟨_, h, rfl⟩
      cases h
      rfl

theorem MetadataElement.readAs_iff {value other : Value} (h : MetadataEntry.Respelled value other)
    (c : String ⊕ MetadataEntry.Gist) :
    ReadAs (fun value => [value]) decode gist value c ↔
      ReadAs (fun value => [value]) decode gist other c := by
  rcases RecordShape.Respelled.eq_or_objects h with rfl | ⟨m, n, rfl, rfl⟩
  · rfl
  · simp only [readAs_object_iff, h.readAs_iff]

/-- The elements of a metric's metadata, where no list may stand. -/
def MetricField.places : MetricField → Value → List Value
  | .metadata, value => value.items.flatMap fun item => [item]
  | _, _ => []

namespace MetricEntry

theorem forgets : reading.Forgets MetricField.gist places MetricField.places Idle Alike where
  places_list items := List.mem_cons_self
  places_object members wellFormed := by
    have underKey : ∀ key, shape.fieldOf? key = some .metadata ↔ key = "metadata" := by
      intro key
      constructor
      · intro isField
        exact List.mem_singleton.1 (RecordShape.mem_spellings isField)
      · rintro rfl
        rfl
    have elements := wellFormed.forall_mem_itemsUnder_iff .metadata fun item => item.isList = false
    simp only [underKey, forall_eq] at elements
    have onlyElements : (∀ (field : MetricField) value, shape.value? members field = some value →
        ∀ place ∈ field.places value, place.isList = false) ↔
        ∀ value, shape.value? members .metadata = some value →
          ∀ item ∈ value.items, item.isList = false := by
      constructor
      · intro placed value given item isItem
        apply placed .metadata value given
        exact List.mem_flatMap.2 ⟨item, isItem, List.mem_singleton_self _⟩
      · intro placed field value given place isPlace
        cases field with
        | metadata =>
          obtain ⟨item, isItem, same⟩ := List.mem_flatMap.1 isPlace
          rw [List.mem_singleton.1 same]
          exact placed value given item isItem
        | _ => cases isPlace
    rw [onlyElements, ← elements]
    exact List.forall_mem_cons.trans (and_iff_right rfl)
  optional field value h := by
    cases field with
    | name => cases h
    | unit => cases h
    | _ => rfl
  idle field value h := by
    cases field with
    | name => cases h
    | unit => cases h
    | description =>
      cases h
      exact ⟨rfl, rfl⟩
    | metadata =>
      cases h
      exact ⟨rfl, rfl⟩
  alike field value other h := by
    cases field with
    | name => cases h
    | unit =>
      obtain ⟨s, t, rfl, rfl, same⟩ := word_eq h
      apply readAs_congr rfl rfl
      exact congrArg Except.ok (MetricUnit.ofWord?_congr same)
    | description => exact readAs_congr rfl rfl (description_eq h)
    | metadata => exact ItemWise.readAs_iff (fun _ _ => MetadataElement.readAs_iff) h

/-- Spellings of a metric are read with the same gist. -/
theorem Respelled.readAs_iff {value other : Value} (h : Respelled value other) (c : Gist) :
    ReadAs places decode gist value c ↔ ReadAs places decode gist other c :=
  forgets.readAs_iff h c

end MetricEntry

/-! ### Documents -/

/-- The entries of a section and their elements, where no list may stand. -/
def DocumentField.places : DocumentField → Value → List Value
  | .metadata, value => value.items.flatMap fun item => [item]
  | .metrics, value => value.items.flatMap MetricEntry.places

namespace Document

theorem forgets : reading.Forgets DocumentField.gist places DocumentField.places Idle Alike where
  places_list items := List.mem_cons_self
  places_object members wellFormed := by
    have poolKey : ∀ key,
        shape.fieldOf? key = some .metadata ↔ key = "metadata" ∨ key = "metadataTypes" := by
      intro key
      constructor
      · intro isField
        simpa [shape] using RecordShape.mem_spellings isField
      · rintro (rfl | rfl)
        · rfl
        · rfl
    have metricsKey : ∀ key, shape.fieldOf? key = some .metrics ↔ key = "metrics" := by
      intro key
      constructor
      · intro isField
        exact List.mem_singleton.1 (RecordShape.mem_spellings isField)
      · rintro rfl
        rfl
    have pool := wellFormed.forall_mem_itemsUnder_iff .metadata fun item => item.isList = false
    have metrics := wellFormed.forall_mem_itemsUnder_iff .metrics fun item =>
      ∀ place ∈ MetricEntry.places item, place.isList = false
    simp only [poolKey, metricsKey, forall_eq_or_imp, forall_eq] at pool metrics
    have bothSections : (∀ (field : DocumentField) value,
        shape.value? members field = some value →
          ∀ place ∈ field.places value, place.isList = false) ↔
        (∀ value, shape.value? members .metadata = some value →
          ∀ item ∈ value.items, item.isList = false) ∧
        ∀ value, shape.value? members .metrics = some value →
          ∀ item ∈ value.items, ∀ place ∈ MetricEntry.places item, place.isList = false := by
      simp only [← List.forall_mem_flatMap]
      constructor
      · intro placed
        refine ⟨fun value given item isItem => ?_, placed .metrics⟩
        apply placed .metadata value given
        exact List.mem_flatMap.2 ⟨item, isItem, List.mem_singleton_self _⟩
      · rintro ⟨ofPool, ofMetrics⟩ field value given
        cases field with
        | metadata =>
          simpa [DocumentField.places] using ofPool value given
        | metrics => exact ofMetrics value given
    rw [bothSections, ← pool, ← metrics]
    simp only [places, List.forall_mem_cons, List.forall_mem_append, List.forall_mem_flatMap,
      Value.itemsUnder]
    exact and_iff_right rfl
  optional _ _ _ := rfl
  idle field value h := by
    cases h
    cases field with
    | metadata => exact ⟨rfl, rfl⟩
    | metrics => exact ⟨rfl, rfl⟩
  alike field value other h := by
    cases field with
    | metadata => exact ItemWise.readAs_iff (fun _ _ => MetadataEntry.Respelled.readAs_iff) h
    | metrics => exact ItemWise.readAs_iff (fun _ _ => MetricEntry.Respelled.readAs_iff) h

/-- Spellings of a document are read with the same gist. -/
theorem Respelled.readAs_iff {value other : Value} (h : Respelled value other)
    (c : (field : DocumentField) → field.Gist) :
    ReadAs places decode gist value c ↔ ReadAs places decode gist other c :=
  forgets.readAs_iff h c

end Document

end Telemetry
