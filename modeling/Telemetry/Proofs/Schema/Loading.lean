import Telemetry.Fault
import Telemetry.Proofs.Json.Acceptance
import Telemetry.Proofs.Schema.Record

/-!
# Loading agrees with reading

A document is loaded entry by entry, with the lists of entries taken out of their objects first.
It can also be read as a record in one go.  Both give the same document, apart from records that
are written as a list of their fields, which only reading accepts.

* `Json.Value.Distinct`: every value that is read from a text has distinct keys everywhere;
* `loadSection_iff`: a list of entries is loaded if the entries are;
* `loadMetric_iff` and `Document.ofValue_iff`: so metrics and documents are loaded as they are read;
* `Document.load_eq_ok_iff` turns from texts to their values, and `Document.load_iff_decode` puts
  this together for texts.
-/

namespace Telemetry

open Json (Value Members)

/-! ### Values with distinct keys -/

/-- Whether the keys of each object inside a value are distinct. -/
inductive Json.Value.Distinct : Value → Prop
  | null : Distinct .null
  | bool (b : Bool) : Distinct (.bool b)
  | number (n : Json.Number) : Distinct (.number n)
  | text (s : String) : Distinct (.text s)
  | list {items : List Value} : (∀ item ∈ items, Distinct item) → Distinct (.list items)
  | object {members : Members} : members.keys.Nodup → (∀ m ∈ members, Distinct m.2) →
      Distinct (.object members)

namespace Json.Grammar

mutual

theorem IsValue.distinct {depth : Nat} {lexemes : List Lexeme} {v : Value} :
    IsValue depth lexemes v → v.Distinct
  | .null => .null
  | .bool => .bool _
  | .number => .number _
  | .text => .text _
  | .object _ areMembers nodup perm _ =>
    .object ((perm.map Prod.fst).nodup_iff.2 nodup)
      fun m hm => areMembers.distinct m (perm.subset hm)
  | .list _ areItems => .list areItems.distinct

theorem AreMembers.distinct {depth : Nat} {lexemes : List Lexeme} {members : Members} :
    AreMembers depth lexemes members → ∀ m ∈ members, m.2.Distinct
  | .none => List.forall_mem_nil _
  | .one isValue _ => List.forall_mem_singleton.2 isValue.distinct
  | .more isValue others _ => List.forall_mem_cons.2 ⟨isValue.distinct, others.distinct⟩

theorem AreItems.distinct {depth : Nat} {lexemes : List Lexeme} {items : List Value} :
    AreItems depth lexemes items → ∀ item ∈ items, item.Distinct
  | .none => List.forall_mem_nil _
  | .one isValue _ => List.forall_mem_singleton.2 isValue.distinct
  | .more isValue others _ => List.forall_mem_cons.2 ⟨isValue.distinct, others.distinct⟩

end

end Json.Grammar

/-! ### Where records stand -/

namespace Json

/-- Whether a value is a list. -/
def Value.isList : Value → Bool
  | .list _ => true
  | _ => false

/-- The items of the list under a key; without such a list there are none. -/
def Members.itemsUnder (members : Members) (key : String) : List Value :=
  match members.get? key with
  | some (.list items) => items
  | _ => []

theorem Members.mem_of_get? {members : Members} {key : String} {value : Value}
    (h : members.get? key = some value) : (key, value) ∈ members := by
  obtain ⟨front, back, rfl, -⟩ := List.lookup_eq_some_iff.1 h
  simp

theorem Members.mem_itemsUnder {members : Members} {key : String} {item : Value}
    (h : item ∈ members.itemsUnder key) :
    ∃ items, (key, .list items) ∈ members ∧ item ∈ items := by
  rw [Members.itemsUnder] at h
  split at h
  · rename_i items found
    exact ⟨items, mem_of_get? found, h⟩
  · cases h

theorem Members.itemsUnder_eq_nil {members : Members} {key : String}
    (h : members.get? key = none) : members.itemsUnder key = [] := by
  rw [Members.itemsUnder, h]

theorem Value.Distinct.of_mem_itemsUnder {members : Members} {key : String} {item : Value}
    (distinct : Value.Distinct (.object members)) (h : item ∈ members.itemsUnder key) :
    item.Distinct := by
  obtain - | - | - | - | - | ⟨-, inner⟩ := distinct
  obtain ⟨items, isMember, isItem⟩ := Members.mem_itemsUnder h
  have isList := inner _ isMember
  cases isList with
  | list each => exact each item isItem

/-- The items of the list under a key of an object; without such a list there are none. -/
def Value.itemsUnder (key : String) : Value → List Value
  | .object members => Members.itemsUnder members key
  | _ => []

end Json

/-- The values that make up a metric: itself and the elements of its metadata. -/
def MetricEntry.places (value : Value) : List Value :=
  value :: value.itemsUnder "metadata"

/-- The values that make up a document: itself, the entries of the pool, and the metrics with the
elements of their metadata.  Each stands where a record is wanted, or a text in its place. -/
def Document.places (value : Value) : List Value :=
  value :: (value.itemsUnder "metadata" ++ value.itemsUnder "metadataTypes" ++
    (value.itemsUnder "metrics").flatMap MetricEntry.places)

/-! ### Lists of entries -/

/-- Items are loaded as they are read, if each is. -/
theorem loadEach_iff {α : Type} {load : Nat → Value → Loaded α} (decode : Value → Decoded α)
    (p : Value → Prop) {items : List Value}
    (each : ∀ item ∈ items, ∀ i a, load i item = .ok a ↔ decode item = .ok a ∧ p item)
    (as : List α) :
    loadEach load items = .ok as ↔ items.mapM decode = .ok as ∧ ∀ item ∈ items, p item := by
  rw [loadEach]
  generalize 0 = start
  induction items generalizing start as with
  | nil => simp [pure, Except.pure]
  | cons item rest ih =>
    obtain ⟨first, others⟩ := List.forall_mem_cons.1 each
    rw [List.zipIdx_cons, List.mapM_cons, List.mapM_cons, List.forall_mem_cons]
    simp only [Checked.bind_eq_ok_iff, first, ih others]
    constructor
    · rintro ⟨a, ⟨decoded, holds⟩, as', ⟨decodedRest, holdsRest⟩, isList⟩
      exact ⟨⟨a, decoded, as', decodedRest, by cases isList; rfl⟩, holds, holdsRest⟩
    · rintro ⟨⟨a, decoded, as', decodedRest, isList⟩, holds, holdsRest⟩
      exact ⟨a, ⟨decoded, holds⟩, as', ⟨decodedRest, holdsRest⟩, by cases isList; rfl⟩

/-- A list of entries under a key is loaded as it is read, if each entry is. -/
theorem loadSection_iff {α : Type} {load : Nat → Value → Loaded α} (decode : Value → Decoded α)
    (p : Value → Prop) {members : Members} {key : String}
    (each : ∀ item ∈ members.itemsUnder key, ∀ i a,
      load i item = .ok a ↔ decode item = .ok a ∧ p item)
    (context : Context) (as : List α) :
    (∃ items, loadItems members key context = .ok items ∧ loadEach load items = .ok as) ↔
      RecordShape.decodeMember (decodeList decode) [] (members.get? key) = .ok as ∧
        ∀ item ∈ members.itemsUnder key, p item := by
  rw [loadItems]
  cases found : members.get? key with
  | none =>
    simp [Json.Members.itemsUnder, found, RecordShape.decodeMember, loadEach, pure, Except.pure]
  | some value =>
    rw [Json.Members.itemsUnder, found] at each ⊢
    cases value with
    | list items =>
      simp only [Except.ok.injEq, exists_eq_left', RecordShape.decodeMember, decodeList]
      exact loadEach_iff decode p each as
    | _ => simp [RecordShape.decodeMember, decodeList]

/-! ### Definitions and elements -/

theorem loadDefinition_iff (context : Context) (value : Value) (entry : MetadataEntry) :
    loadDefinition context value = .ok entry ↔
      MetadataEntry.decode value = .ok entry ∧ value.isList = false := by
  cases value with
  | object members =>
    rw [loadDefinition]
    cases MetadataEntry.decode (.object members) <;> simp [Value.isList]
  | list items => simp [loadDefinition, Value.isList]
  | _ => simp [loadDefinition, MetadataEntry.decode, RecordShape.decode]

theorem loadPoolEntry_iff (index : Nat) (value : Value) (entry : MetadataEntry) :
    loadPoolEntry index value = .ok entry ↔
      MetadataEntry.decode value = .ok entry ∧ value.isList = false :=
  loadDefinition_iff _ value entry

theorem loadElement_iff (label : EntryLabel) (index : Nat) (value : Value)
    (element : MetadataElement) :
    loadElement label index value = .ok element ↔
      MetadataElement.decode value = .ok element ∧ value.isList = false := by
  by_cases isText : ∃ token, value = .text token
  · obtain ⟨token, rfl⟩ := isText
    simp [loadElement, MetadataElement.decode, Value.isList]
  · have notText : ∀ token, value ≠ .text token := fun token eq => isText ⟨token, eq⟩
    rw [loadElement.eq_2 _ _ _ notText, MetadataElement.decode.eq_2 _ notText]
    simp only [Checked.bind_eq_ok_iff, loadDefinition_iff]
    cases MetadataEntry.decode value <;> simp [pure, Except.pure, and_comm]

/-! ### Metrics -/

theorem MetricEntry.apart_metadata : MetricEntry.shape.Apart .metadata
    (decodeList MetadataElement.decode) (fun elements entry => { entry with metadata := elements })
    [] where
  optional := rfl
  set_absent := rfl
  put_self value entry := by
    simp only [MetricEntry.shape]
    cases decodeList MetadataElement.decode value <;> rfl
  put_other other value entry elements ne := by
    cases other with
    | name =>
      simp only [MetricEntry.shape]
      cases decodeText value <;> rfl
    | unit =>
      simp only [MetricEntry.shape]
      cases decodeText value <;> rfl
    | description =>
      simp only [MetricEntry.shape]
      cases decodeOptional decodeText value <;> rfl
    | metadata => exact absurd rfl ne

/-- The metadata list of a metric can be loaded before its other fields. -/
theorem loadMetric_object_iff {index : Nat} {members : Members} {entry : MetricEntry} :
    loadMetric index (.object members) = .ok entry ↔
      ∃ elements rest,
        (∃ items,
          loadItems members "metadata"
            (.metadataOf ⟨.metric, entryName? (.object members), index⟩) = .ok items ∧
          loadEach (loadElement ⟨.metric, entryName? (.object members), index⟩) items =
            .ok elements) ∧
        MetricEntry.shape.ofMembers (Members.without members "metadata") = .ok rest ∧
        entry = { rest with metadata := elements } := by
  rw [loadMetric, Checked.bind_eq_ok_iff]
  cases decoded : MetricEntry.decode (.object (Members.without members "metadata")) with
  | error fault =>
    rw [MetricEntry.decode, RecordShape.decode] at decoded
    simp [decoded, bind, Except.bind]
  | ok rest =>
    rw [MetricEntry.decode, RecordShape.decode] at decoded
    simp only [decoded, Checked.bind_eq_ok_iff, Except.ok.injEq, exists_eq_left', pure, Except.pure]
    constructor
    · rintro ⟨items, isList, elements, loaded, rfl⟩
      exact ⟨elements, rest, ⟨items, isList, loaded⟩, rfl, rfl⟩
    · rintro ⟨elements, _, ⟨items, isList, loaded⟩, rfl, rfl⟩
      exact ⟨items, isList, elements, loaded, rfl⟩

theorem loadMetric_iff {value : Value} (distinct : value.Distinct) (index : Nat)
    (entry : MetricEntry) :
    loadMetric index value = .ok entry ↔
      MetricEntry.decode value = .ok entry ∧
        ∀ place ∈ MetricEntry.places value, place.isList = false := by
  cases value with
  | object members =>
    obtain - | - | - | - | - | ⟨distinctKeys, -⟩ := distinct
    have others : ∀ m ∈ Members.without members "metadata",
        MetricEntry.shape.fieldOf? m.1 ≠ some .metadata := by
      intro m isMember same
      exact Json.Members.fst_ne_of_mem_without isMember
        (List.mem_singleton.1 (RecordShape.mem_spellings same))
    have read := MetricEntry.apart_metadata.ofMembers_iff distinctKeys rfl others entry
    rw [MetricEntry.decode, RecordShape.decode, read, loadMetric_object_iff]
    simp only [loadSection_iff MetadataElement.decode (fun value => value.isList = false)
      fun item _ i a => loadElement_iff _ i item a]
    have places : (∀ place ∈ MetricEntry.places (.object members), place.isList = false) ↔
        ∀ item ∈ Members.itemsUnder members "metadata", item.isList = false :=
      List.forall_mem_cons.trans (and_iff_right rfl)
    rw [places]
    constructor
    · rintro ⟨elements, rest, ⟨decoded, none⟩, isRest, isEntry⟩
      exact ⟨⟨elements, rest, decoded, isRest, isEntry⟩, none⟩
    · rintro ⟨⟨elements, rest, decoded, isRest, isEntry⟩, none⟩
      exact ⟨elements, rest, ⟨decoded, none⟩, isRest, isEntry⟩
  | list items => simp [loadMetric, MetricEntry.places, Value.isList]
  | _ => simp [loadMetric, MetricEntry.decode, RecordShape.decode]

/-! ### Documents -/

theorem Document.apart_metadata : Document.shape.Apart .metadata
    (decodeList MetadataEntry.decode) (fun pool document => { document with metadata := pool })
    [] where
  optional := rfl
  set_absent := rfl
  put_self value document := by
    simp only [Document.shape]
    cases decodeList MetadataEntry.decode value <;> rfl
  put_other other value document pool ne := by
    cases other with
    | metadata => exact absurd rfl ne
    | metrics =>
      simp only [Document.shape]
      cases decodeList MetricEntry.decode value <;> rfl

theorem Document.apart_metrics : Document.shape.Apart .metrics
    (decodeList MetricEntry.decode) (fun metrics document => { document with metrics := metrics })
    [] where
  optional := rfl
  set_absent := rfl
  put_self value document := by
    simp only [Document.shape]
    cases decodeList MetricEntry.decode value <;> rfl
  put_other other value document metrics ne := by
    cases other with
    | metrics => exact absurd rfl ne
    | metadata =>
      simp only [Document.shape]
      cases decodeList MetadataEntry.decode value <;> rfl

/-- A document is read from its sections, if the pool is given under one key only. -/
theorem Document.ofMembers_iff {members : Members} (distinct : members.keys.Nodup) {key : String}
    (isPool : Document.shape.fieldOf? key = some .metadata)
    (once : ∀ m ∈ members.without key, Document.shape.fieldOf? m.1 ≠ some .metadata)
    (document : Document) :
    Document.shape.ofMembers members = .ok document ↔
      RecordShape.decodeMember (decodeList MetadataEntry.decode) [] (members.get? key) =
          .ok document.metadata ∧
        RecordShape.decodeMember (decodeList MetricEntry.decode) [] (members.get? "metrics") =
          .ok document.metrics ∧
        ∀ m ∈ members, m.1 = key ∨ m.1 = "metrics" := by
  have ne : "metrics" ≠ key := by
    rintro rfl
    cases isPool
  have others : ∀ m ∈ (members.without key).without "metrics",
      Document.shape.fieldOf? m.1 ≠ some .metrics := by
    intro m isMember same
    exact Json.Members.fst_ne_of_mem_without isMember
      (List.mem_singleton.1 (RecordShape.mem_spellings same))
  have left : ∀ rest, Document.shape.ofMembers ((members.without key).without "metrics") =
      .ok rest ↔ (∀ m ∈ members, m.1 = key ∨ m.1 = "metrics") ∧ rest = {} := by
    intro rest
    have isNil : (members.without key).without "metrics" = [] ↔
        ∀ m ∈ members, m.1 = key ∨ m.1 = "metrics" := by
      simp only [Members.without, List.filter_filter, List.filter_eq_nil_iff]
      refine forall_congr' fun m => forall_congr' fun _ => ?_
      simp only [Bool.and_eq_true, bne_iff_ne, not_and_or, not_not, or_comm]
    rw [← isNil]
    constructor
    · intro read
      have none : (members.without key).without "metrics" = [] := by
        refine List.eq_nil_iff_forall_not_mem.2 fun m isMember => ?_
        obtain ⟨field, isField⟩ := (RecordShape.ofMembers_eq_ok_iff.1 read).1 m isMember
        cases field with
        | metadata => exact once m (List.mem_of_mem_filter isMember) isField
        | metrics => exact others m isMember isField
      rw [none] at read
      cases read
      exact ⟨none, rfl⟩
    · rintro ⟨none, rfl⟩
      rw [none]
      rfl
  rw [Document.apart_metadata.ofMembers_iff distinct isPool once]
  simp only [Document.apart_metrics.ofMembers_iff (Json.Members.Nodup.keys_without distinct key)
    rfl others, left, Json.Members.get?_without_of_ne ne]
  constructor
  · rintro ⟨pool, _, isPool, ⟨metrics, _, areMetrics, ⟨known, rfl⟩, rfl⟩, rfl⟩
    exact ⟨isPool, areMetrics, known⟩
  · rintro ⟨isPool, areMetrics, known⟩
    exact ⟨document.metadata, _, isPool, ⟨document.metrics, _, areMetrics, ⟨known, rfl⟩, rfl⟩, rfl⟩

/-- The pool and the metrics can be loaded one after the other. -/
theorem Document.ofValue_object_iff {members : Members} {document : Document} :
    Document.ofValue (.object members) = .ok document ↔
      (∃ items, loadPool members = .ok items ∧
        loadEach loadPoolEntry items = .ok document.metadata) ∧
      (∃ items, loadItems members "metrics" (.root "metrics") = .ok items ∧
        loadEach loadMetric items = .ok document.metrics) ∧
      ∀ m ∈ members, m.1 ∈ sectionKeys := by
  rw [Document.ofValue, Checked.bind_eq_ok_iff]
  simp only [Checked.bind_eq_ok_iff]
  cases found : members.find? fun member => !sectionKeys.contains member.1 with
  | some m =>
    have unknown := List.find?_some found
    have isMember := List.mem_of_find?_eq_some found
    constructor
    · rintro ⟨_, _, _, _, h⟩
      cases h
    · rintro ⟨-, -, known⟩
      simp [known m isMember] at unknown
  | none =>
    have known : ∀ m ∈ members, m.1 ∈ sectionKeys := by
      simpa using List.find?_eq_none.1 found
    simp only [Checked.bind_eq_ok_iff]
    constructor
    · rintro ⟨pool, isPool, metrics, areMetrics, entries, loaded, own, loadedOwn, isDocument⟩
      cases isDocument
      exact ⟨⟨pool, isPool, loaded⟩, ⟨metrics, areMetrics, loadedOwn⟩, known⟩
    · rintro ⟨⟨pool, isPool, loaded⟩, ⟨metrics, areMetrics, loadedOwn⟩, -⟩
      exact ⟨pool, isPool, metrics, areMetrics, _, loaded, _, loadedOwn, rfl⟩

/-- A document is loaded as it is read, if the pool is given under one key only. -/
theorem Document.ofValue_iff_of_absent {members : Members}
    (distinct : Value.Distinct (.object members)) {key other : String}
    (keys : key = "metadata" ∧ other = "metadataTypes" ∨ key = "metadataTypes" ∧ other = "metadata")
    (absent : members.get? other = none)
    (pool : loadPool members = loadItems members key (.root key)) (document : Document) :
    Document.ofValue (.object members) = .ok document ↔
      Document.shape.ofMembers members = .ok document ∧
        ∀ place ∈ Document.places (.object members), place.isList = false := by
  have isPool : Document.shape.fieldOf? key = some .metadata := by
    rcases keys with ⟨rfl, -⟩ | ⟨rfl, -⟩ <;> rfl
  have noOther : ∀ m ∈ members, m.1 ≠ other := by
    rintro m isMember rfl
    exact Json.Members.get?_eq_none_iff.1 absent (List.mem_map_of_mem isMember)
  have once : ∀ m ∈ members.without key, Document.shape.fieldOf? m.1 ≠ some .metadata := by
    intro m isMember same
    have ne := Json.Members.fst_ne_of_mem_without isMember
    have ne' := noOther m (List.mem_of_mem_filter isMember)
    have isKey : m.1 ∈ ["metadata", "metadataTypes"] := RecordShape.mem_spellings same
    simp only [List.mem_cons, List.not_mem_nil, or_false] at isKey
    rcases keys with ⟨rfl, rfl⟩ | ⟨rfl, rfl⟩ <;> tauto
  have known : (∀ m ∈ members, m.1 ∈ sectionKeys) ↔
      ∀ m ∈ members, m.1 = key ∨ m.1 = "metrics" := by
    refine forall₂_congr fun m isMember => ?_
    have ne := noOther m isMember
    simp only [sectionKeys, List.mem_cons, List.not_mem_nil, or_false]
    rcases keys with ⟨rfl, rfl⟩ | ⟨rfl, rfl⟩ <;> tauto
  have places : (∀ place ∈ Document.places (.object members), place.isList = false) ↔
      (∀ item ∈ members.itemsUnder key, item.isList = false) ∧
        ∀ item ∈ members.itemsUnder "metrics",
          ∀ place ∈ MetricEntry.places item, place.isList = false := by
    have nil := Json.Members.itemsUnder_eq_nil absent
    have either : Members.itemsUnder members "metadata" ++ Members.itemsUnder members
        "metadataTypes" = members.itemsUnder key := by
      rcases keys with ⟨rfl, rfl⟩ | ⟨rfl, rfl⟩ <;> simp [nil]
    rw [Document.places, List.forall_mem_cons, List.forall_mem_append]
    simp only [Value.itemsUnder, either, Value.isList, true_and, List.forall_mem_flatMap]
  have distinctKeys : members.keys.Nodup := by
    cases distinct
    assumption
  rw [Document.ofValue_object_iff, Document.ofMembers_iff distinctKeys isPool once, pool, places,
    known,
    loadSection_iff MetadataEntry.decode (fun item => item.isList = false)
      fun item _ i => loadPoolEntry_iff i item,
    loadSection_iff MetricEntry.decode
      (fun item => ∀ place ∈ MetricEntry.places item, place.isList = false)
      fun item isItem i => loadMetric_iff (distinct.of_mem_itemsUnder isItem) i]
  constructor
  · rintro ⟨⟨readPool, pool⟩, ⟨readMetrics, metrics⟩, known⟩
    exact ⟨⟨readPool, readMetrics, known⟩, pool, metrics⟩
  · rintro ⟨⟨readPool, readMetrics, known⟩, pool, metrics⟩
    exact ⟨⟨readPool, pool⟩, ⟨readMetrics, metrics⟩, known⟩

/-- A document is loaded as it is read, if no record is written as a list. -/
theorem Document.ofValue_iff {value : Value} (distinct : value.Distinct) (document : Document) :
    Document.ofValue value = .ok document ↔
      Document.decode value = .ok document ∧
        ∀ place ∈ Document.places value, place.isList = false := by
  cases value with
  | object members =>
    rw [Document.decode, RecordShape.decode]
    cases legacy : Members.get? members "metadataTypes" with
    | none =>
      refine Document.ofValue_iff_of_absent distinct (.inl ⟨rfl, rfl⟩) legacy ?_ document
      rw [loadPool, Members.has_eq_isSome_get?, Members.has_eq_isSome_get?, legacy]
      cases Members.get? members "metadata" <;> rfl
    | some old =>
      cases main : Members.get? members "metadata" with
      | none =>
        refine Document.ofValue_iff_of_absent distinct (.inr ⟨rfl, rfl⟩) main ?_ document
        rw [loadPool, Members.has_eq_isSome_get?, Members.has_eq_isSome_get?, legacy, main]
        rfl
      | some new =>
        -- The pool stands under both of its keys, and neither way of reading lets that pass.
        have isMain : Document.shape.fieldOf? "metadata" = some .metadata := rfl
        have isLegacy : Document.shape.fieldOf? "metadataTypes" = some .metadata := rfl
        have twice := RecordShape.ofMembers_ne_ok (Members.mem_of_get? main)
          (Members.mem_of_get? legacy) (by simp) isMain isLegacy document
        refine iff_of_false ?_ fun read => twice read.1
        rw [Document.ofValue, loadPool, Members.has_eq_isSome_get?, Members.has_eq_isSome_get?,
          legacy, main]
        simp [bind, Except.bind]
  | list items => simp [Document.ofValue, Document.places, Value.isList]
  | _ => simp [Document.ofValue, Document.decode, RecordShape.decode]

/-- The values of texts have distinct keys everywhere. -/
theorem Json.Value.distinct_of_parse {text : String} {value : Value}
    (parsed : Json.parse text = .ok value) : value.Distinct := by
  obtain ⟨lexemes, -, isValue⟩ := Json.spells_of_parse parsed
  exact isValue.distinct

/-- Loading a text is loading its value. -/
theorem Document.load_eq_ok_iff {text : String} {value : Value}
    (parsed : Json.parse text = .ok value) (document : Document) :
    Document.load text = .ok document ↔ Document.ofValue value = .ok document := by
  rw [Document.load, parsed]
  show (Document.ofValue value).mapError Fault.schema = _ ↔ _
  cases Document.ofValue value <;> simp [Except.mapError]

/-- Loading a text gives the document that its value is read as, if no record is written as a list
of its fields; where one is, or the value cannot be read, loading fails. -/
theorem Document.load_iff_decode {text : String} {value : Value}
    (parsed : Json.parse text = .ok value) (document : Document) :
    Document.load text = .ok document ↔
      Document.decode value = .ok document ∧
        ∀ place ∈ Document.places value, place.isList = false := by
  rw [Document.load_eq_ok_iff parsed, Document.ofValue_iff (Json.Value.distinct_of_parse parsed)]

/-- A document under its older keys. -/
def legacyText : String :=
  "\x7b\"metadataTypes\":[\x7b\"name\":\"s\",\"type\":null\x7d],
  \"metrics\":[\x7b\"name\":\"h\",\"type\":\"n\",\"metadata\":[\"$s\"]\x7d]\x7d"

/-- A document with a metric that is written as a list of its fields. -/
def listedText : String :=
  "\x7b\"metrics\":[[\"h\",\"n\"]]\x7d"

theorem Document.load_iff_decode_of_texts :
    (∃ value, Json.parse legacyText = .ok value ∧
      Document.decode value = .ok ⟨[{ name := "s" }], [⟨"h", "n", none, [.reference "$s"]⟩]⟩) ∧
    ∃ value, Json.parse listedText = .ok value ∧
      Document.decode value = .ok ⟨[], [{ name := "h", unit := "n" }]⟩ ∧
      Document.load listedText ≠ .ok ⟨[], [{ name := "h", unit := "n" }]⟩ := by
  constructor
  · have loaded := Checked.toOption_eq_some_iff.1 (show (Document.load legacyText).toOption =
      some ⟨[{ name := "s" }], [⟨"h", "n", none, [.reference "$s"]⟩]⟩ by decide +kernel)
    cases parsed : Json.parse legacyText with
    | error defects =>
      rw [Document.load, parsed] at loaded
      cases loaded
    | ok value => exact ⟨value, rfl, ((Document.load_iff_decode parsed _).1 loaded).1⟩
  · have read : ((Json.parse listedText).toOption.bind fun value =>
        (Document.decode value).toOption.map fun document =>
          (document, (Document.places value).all fun place => !place.isList)) =
        some (⟨[], [{ name := "h", unit := "n" }]⟩, false) := by decide +kernel
    obtain ⟨value, parsed, h⟩ := Option.bind_eq_some_iff.1 read
    obtain ⟨document, decoded, both⟩ := Option.map_eq_some_iff.1 h
    obtain ⟨rfl, places⟩ := Prod.mk.inj both
    refine ⟨value, Checked.toOption_eq_some_iff.1 parsed, Checked.toOption_eq_some_iff.1 decoded,
      fun loaded => ?_⟩
    obtain ⟨-, noList⟩ :=
      (Document.load_iff_decode (Checked.toOption_eq_some_iff.1 parsed) _).1 loaded
    rw [List.all_eq_true.2 fun place isPlace => by rw [noList place isPlace]; rfl] at places
    cases places

end Telemetry
