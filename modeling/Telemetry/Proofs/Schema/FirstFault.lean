import Telemetry.Proofs.Schema.Loading

/-!
# The first fault of a document

Loading goes through the pool, then through the metrics, and within a metric through the elements of
its metadata, and ends at the first part that cannot be read.  The fault names that part.

* `MetadataEntry.Readable`, `MetricEntry.Readable` and `MetadataElement.Readable` say of a value
  that it can be read by itself;
* `MetricEntry.Broken` and `Document.Broken` are the part that is the first one not to be readable;
* `SchemaFault.context?` is the part that a fault names, and `EntryLabel.text_eq_called_iff` and
  `EntryLabel.text_eq_path_iff` are the words for it;
* `Document.load_exact` puts this together for texts.
-/

namespace Telemetry

open Json (Value Members)

/-! ### Values that can be read by themselves -/

/-- Whether a value can be read as a definition: it is an object with the members of one. -/
def MetadataEntry.Readable (value : Value) : Prop :=
  ∃ members entry, value = .object members ∧ MetadataEntry.decode value = .ok entry

/-- Whether a value can be read as an element of a metric's metadata. -/
def MetadataElement.Readable (value : Value) : Prop :=
  (∃ token, value = .text token) ∨ MetadataEntry.Readable value

/-- Whether a value can be read as a metric, whatever the elements of its metadata are: it is an
object, its metadata are a list if they are there, and the other members can be read. -/
def MetricEntry.Readable (value : Value) : Prop :=
  ∃ members entry, value = .object members ∧
    (∀ elements ∈ Members.get? members "metadata", elements.isList = true) ∧
    MetricEntry.decode (.object (Members.without members "metadata")) = .ok entry

/-- Whether a metric and the elements of its metadata can be read. -/
def MetricEntry.Whole (value : Value) : Prop :=
  MetricEntry.Readable value ∧
    ∀ element ∈ value.itemsUnder "metadata", MetadataElement.Readable element

/-! ### The first part that cannot be read -/

/-- The first part of a metric that cannot be read. -/
inductive MetricEntry.Broken (label : EntryLabel) : Value → Context → Prop
  | notObject {value : Value} : (∀ members, value ≠ .object members) →
      Broken label value (.entry label)
  | notList {members : Members} {found : Value} :
      Members.get? members "metadata" = some found → found.isList = false →
      Broken label (.object members) (.metadataOf label)
  | fields {members : Members} {fault : ShapeFault} :
      (∀ elements ∈ Members.get? members "metadata", elements.isList = true) →
      MetricEntry.decode (.object (Members.without members "metadata")) = .error fault →
      Broken label (.object members) (.entry label)
  | element {value element : Value} {front behind : List Value} : MetricEntry.Readable value →
      value.itemsUnder "metadata" = front ++ element :: behind →
      (∀ other ∈ front, MetadataElement.Readable other) → ¬ MetadataElement.Readable element →
      Broken label value (.elementOf label front.length)

/-- The first part that cannot be read of a document with the given pool and metrics. -/
inductive Document.Broken (pool metrics : List Value) : Context → Prop
  | pool {front behind : List Value} {entry : Value} : pool = front ++ entry :: behind →
      (∀ other ∈ front, MetadataEntry.Readable other) → ¬ MetadataEntry.Readable entry →
      Broken pool metrics (.entry ⟨.metadata, entryName? entry, front.length⟩)
  | metric {front behind : List Value} {metric : Value} {context : Context} :
      (∀ entry ∈ pool, MetadataEntry.Readable entry) → metrics = front ++ metric :: behind →
      (∀ other ∈ front, MetricEntry.Whole other) →
      MetricEntry.Broken ⟨.metric, entryName? metric, front.length⟩ metric context →
      Broken pool metrics context

/-- The part of a document that a fault names. -/
def SchemaFault.context? : SchemaFault → Option Context
  | .notArray context _ => some context
  | .notObject context _ _ => some context
  | .badShape context _ => some context
  | _ => none

/-- The wording of a fault begins with the part that it names. -/
theorem SchemaFault.exists_message_eq {fault : SchemaFault} {context : Context}
    (h : fault.context? = some context) :
    ∃ rest, fault.message = context.text ++ ": " ++ rest := by
  have behind (rest : String) (words : String) (isWords : words = ": " ++ rest) (found : String) :
      context.text ++ words ++ found = context.text ++ ": " ++ (rest ++ found) := by
    rw [isWords, String.append_assoc, String.append_assoc, String.append_assoc]
  cases fault with
  | notArray _ found =>
    cases h
    exact ⟨_, behind "expected an array, found " _ rfl _⟩
  | notObject _ wanted found =>
    cases h
    cases wanted with
    | metadata => exact ⟨_, behind "expected a metadata definition object, found " _ rfl _⟩
    | metric => exact ⟨_, behind "expected a metric object, found " _ rfl _⟩
  | badShape _ fault =>
    cases h
    exact ⟨_, rfl⟩
  | _ => cases h

/-! ### The words for an entry -/

/-- Whether a value is an object with the name. -/
def Json.Value.Named (name : String) (value : Value) : Prop :=
  ∃ members, value = .object members ∧ Members.get? members "name" = some (.text name)

theorem entryName?_eq_some_iff {value : Value} {name : String} :
    entryName? value = some name ↔ value.Named name := by
  unfold Json.Value.Named
  cases value with
  | object members =>
    rw [entryName?]
    cases found : Members.get? members "name" with
    | none => simp [found]
    | some value => cases value <;> simp [found]
  | _ => simp [entryName?]

/-- The word for a kind of entry. -/
def EntryKind.word : EntryKind → String
  | .metadata => "metadata"
  | .metric => "metric"

/-- The path of an entry. -/
def EntryKind.path (kind : EntryKind) (index : Nat) : String :=
  (match kind with
    | .metadata => "metadata"
    | .metric => "metrics") ++ "[" ++ toString index ++ "]"

/-- The words for an entry with a name. -/
def EntryKind.called (kind : EntryKind) (name : String) (index : Nat) : String :=
  kind.word ++ " '" ++ name ++ "' (" ++ kind.path index ++ ")"

theorem EntryLabel.text_eq (kind : EntryKind) (name : Option String) (index : Nat) :
    EntryLabel.text ⟨kind, name, index⟩ =
      match name with
      | some name => kind.called name index
      | none => kind.path index := by
  cases kind <;> cases name <;> rfl

theorem EntryKind.called_inj {kind : EntryKind} {name other : String} {index : Nat}
    (h : kind.called name index = kind.called other index) : name = other := by
  have letters := congrArg String.toList h
  simp only [called, String.toList_append, List.append_assoc, List.append_cancel_left_eq,
    List.append_cancel_right_eq] at letters
  exact String.toList_inj.1 letters

/-- A path is no name with a path: the first has a bracket or a plural where the second has a
blank. -/
theorem EntryKind.called_ne_path (kind : EntryKind) (name : String) (index other : Nat) :
    kind.called name index ≠ kind.path other := by
  intro h
  have letters := congrArg String.toList h
  cases kind <;> simp [called, path, word] at letters

/-- An entry is called by its name exactly if it has this name. -/
theorem EntryLabel.text_eq_called_iff {kind : EntryKind} {value : Value} {index : Nat}
    {name : String} :
    EntryLabel.text ⟨kind, entryName? value, index⟩ = kind.called name index ↔
      value.Named name := by
  rw [text_eq, ← entryName?_eq_some_iff]
  cases entryName? value with
  | none => simpa using (kind.called_ne_path name index index).symm
  | some other =>
    rw [Option.some.injEq]
    exact ⟨EntryKind.called_inj, fun same => by rw [same]⟩

/-- An entry is called by its path alone exactly if it has no name. -/
theorem EntryLabel.text_eq_path_iff {kind : EntryKind} {value : Value} {index : Nat} :
    EntryLabel.text ⟨kind, entryName? value, index⟩ = kind.path index ↔
      ∀ name, ¬ value.Named name := by
  simp only [text_eq, ← entryName?_eq_some_iff]
  cases entryName? value with
  | none => simp
  | some other => simpa using kind.called_ne_path other index index

/-! ### Lists of entries -/

section

variable {α : Type} {load : Nat → Value → Loaded α} {readable : Value → Prop}

/-- A list is loaded exactly if its items can be. -/
theorem exists_loadEach_iff (each : ∀ index value,
      (∃ a, load index value = .ok a) ↔ readable value) (items : List Value) :
    (∃ as, loadEach load items = .ok as) ↔ ∀ item ∈ items, readable item := by
  rw [loadEach]
  generalize 0 = start
  induction items generalizing start with
  | nil => simp [pure, Except.pure]
  | cons item rest ih =>
    rw [List.zipIdx_cons, List.mapM_cons, List.forall_mem_cons, ← each start, ← ih (start + 1)]
    simp only [Checked.bind_eq_ok_iff]
    constructor
    · rintro ⟨_, a, first, as, others, -⟩
      exact ⟨⟨a, first⟩, as, others⟩
    · rintro ⟨⟨a, first⟩, as, others⟩
      exact ⟨a :: as, a, first, as, others, rfl⟩

/-- The fault of a list is that of its first item that cannot be loaded, at its position. -/
theorem loadEach_eq_error_iff (each : ∀ index value,
      (∃ a, load index value = .ok a) ↔ readable value) {items : List Value} {fault : SchemaFault} :
    loadEach load items = .error fault ↔
      ∃ front item behind, items = front ++ item :: behind ∧ (∀ other ∈ front, readable other) ∧
        load front.length item = .error fault := by
  rw [loadEach]
  have fromZero : (∃ front item behind, items = front ++ item :: behind ∧
      (∀ other ∈ front, readable other) ∧ load front.length item = .error fault) ↔
        ∃ front item behind, items = front ++ item :: behind ∧
          (∀ other ∈ front, readable other) ∧ load (0 + front.length) item = .error fault := by
    simp only [Nat.zero_add]
  rw [fromZero]
  clear fromZero
  -- The positions are those behind `start` items that have been loaded already.
  generalize 0 = start
  induction items generalizing start with
  | nil => simp [pure, Except.pure]
  | cons item rest ih =>
    rw [List.zipIdx_cons, List.mapM_cons, Checked.bind_eq_error_iff]
    simp only [Checked.bind_eq_error_iff]
    constructor
    · rintro (fails | ⟨a, first, others | ⟨_, -, done⟩⟩)
      · exact ⟨[], item, rest, rfl, List.forall_mem_nil _, fails⟩
      · obtain ⟨front, other, behind, rfl, sound, fails⟩ := (ih (start + 1)).1 others
        refine ⟨item :: front, other, behind, rfl,
          List.forall_mem_cons.2 ⟨(each start item).1 ⟨a, first⟩, sound⟩, ?_⟩
        rw [List.length_cons, Nat.add_comm front.length, ← Nat.add_assoc]
        exact fails
      · cases done
    · rintro ⟨_ | ⟨first, front⟩, other, behind, split, sound, fails⟩
      · obtain ⟨rfl, -⟩ := List.cons.inj split
        exact .inl fails
      · obtain ⟨rfl, rfl⟩ := List.cons.inj split
        obtain ⟨loads, sound⟩ := List.forall_mem_cons.1 sound
        obtain ⟨a, first⟩ := (each start item).2 loads
        refine .inr ⟨a, first, .inl ((ih (start + 1)).2 ⟨front, other, behind, rfl, sound, ?_⟩)⟩
        rw [Nat.add_assoc, Nat.add_comm 1]
        exact fails

end

/-! ### Entries -/

theorem exists_loadDefinition_iff (context : Context) (value : Value) :
    (∃ entry, loadDefinition context value = .ok entry) ↔ MetadataEntry.Readable value := by
  unfold MetadataEntry.Readable
  cases value with
  | object members =>
    rw [loadDefinition]
    cases MetadataEntry.decode (.object members) <;> simp
  | _ => simp [loadDefinition]

/-- A definition that cannot be read is named as the part that it is loaded as. -/
theorem context?_of_loadDefinition {context : Context} {value : Value} {fault : SchemaFault}
    (h : loadDefinition context value = .error fault) : fault.context? = some context := by
  cases value with
  | object members =>
    rw [loadDefinition] at h
    split at h
    · cases h
    · cases h
      rfl
  | _ =>
    cases h
    rfl

theorem exists_loadPoolEntry_iff (index : Nat) (value : Value) :
    (∃ entry, loadPoolEntry index value = .ok entry) ↔ MetadataEntry.Readable value :=
  exists_loadDefinition_iff _ value

theorem exists_loadElement_iff (label : EntryLabel) (index : Nat) (value : Value) :
    (∃ element, loadElement label index value = .ok element) ↔
      MetadataElement.Readable value := by
  by_cases isText : ∃ token, value = .text token
  · obtain ⟨token, rfl⟩ := isText
    exact iff_of_true ⟨_, rfl⟩ (.inl ⟨token, rfl⟩)
  · have notText : ∀ token, value ≠ .text token := fun token eq => isText ⟨token, eq⟩
    rw [MetadataElement.Readable, or_iff_right isText, loadElement.eq_2 _ _ _ notText,
      ← exists_loadDefinition_iff (.elementOf label index)]
    simp only [Checked.bind_eq_ok_iff]
    constructor
    · rintro ⟨_, entry, loaded, -⟩
      exact ⟨entry, loaded⟩
    · rintro ⟨entry, loaded⟩
      exact ⟨_, entry, loaded, rfl⟩

theorem context?_of_loadElement {label : EntryLabel} {index : Nat} {value : Value}
    {fault : SchemaFault} (h : loadElement label index value = .error fault) :
    fault.context? = some (.elementOf label index) := by
  by_cases isText : ∃ token, value = .text token
  · obtain ⟨token, rfl⟩ := isText
    cases h
  · rw [loadElement.eq_2 _ _ _ fun token eq => isText ⟨token, eq⟩, Checked.bind_eq_error_iff] at h
    rcases h with fails | ⟨_, -, done⟩
    · exact context?_of_loadDefinition fails
    · cases done

/-! ### Metrics -/

theorem loadItems_eq_ok_iff {members : Members} {key : String} {context : Context}
    {items : List Value} : loadItems members key context = .ok items ↔
      (∀ value ∈ members.get? key, value.isList = true) ∧ items = members.itemsUnder key := by
  rw [loadItems, Members.itemsUnder]
  cases members.get? key with
  | none =>
    rw [Except.ok.injEq]
    constructor
    · intro same
      refine ⟨fun _ isValue => ?_, same.symm⟩
      cases isValue
    · exact fun h => h.2.symm
  | some value =>
    cases value with
    | list found =>
      rw [Except.ok.injEq]
      constructor
      · intro same
        refine ⟨fun _ isValue => ?_, same.symm⟩
        cases isValue
        rfl
      · exact fun h => h.2.symm
    | _ => simp [Value.isList]

theorem loadItems_eq_error_iff {members : Members} {key : String} {context : Context}
    {fault : SchemaFault} : loadItems members key context = .error fault ↔
      ∃ found, members.get? key = some found ∧ found.isList = false ∧
        fault = .notArray context found := by
  rw [loadItems]
  cases members.get? key with
  | none =>
    constructor
    · intro h
      cases h
    · rintro ⟨_, isFound, -⟩
      cases isFound
  | some value =>
    constructor
    · intro h
      cases value with
      | list items => cases h
      | _ =>
        cases h
        exact ⟨_, rfl, rfl, rfl⟩
    · rintro ⟨found, isFound, noList, rfl⟩
      cases isFound
      cases value with
      | list items => cases noList
      | _ => rfl

theorem exists_loadMetric_iff (index : Nat) (value : Value) :
    (∃ entry, loadMetric index value = .ok entry) ↔ MetricEntry.Whole value := by
  cases value with
  | object members =>
    have elements := exists_loadEach_iff
      (exists_loadElement_iff ⟨.metric, entryName? (.object members), index⟩)
      (Members.itemsUnder members "metadata")
    simp only [loadMetric_object_iff, loadItems_eq_ok_iff]
    constructor
    · rintro ⟨_, loaded, rest, ⟨_, ⟨isList, rfl⟩, each⟩, read, -⟩
      exact ⟨⟨members, rest, rfl, isList, read⟩, elements.1 ⟨loaded, each⟩⟩
    · rintro ⟨⟨_, rest, same, isList, read⟩, each⟩
      cases same
      obtain ⟨loaded, each⟩ := elements.2 each
      exact ⟨_, loaded, rest, ⟨_, ⟨isList, rfl⟩, each⟩, read, rfl⟩
  | _ => simp [loadMetric, MetricEntry.Whole, MetricEntry.Readable]

/-- The fault of a metric names its first part that cannot be read. -/
theorem exists_broken_of_loadMetric {index : Nat} {value : Value} {fault : SchemaFault}
    (h : loadMetric index value = .error fault) :
    ∃ context, fault.context? = some context ∧
      MetricEntry.Broken ⟨.metric, entryName? value, index⟩ value context := by
  cases value with
  | object members =>
    rw [loadMetric, Checked.bind_eq_error_iff] at h
    rcases h with notList | ⟨items, isItems, h⟩
    · obtain ⟨found, isFound, noList, rfl⟩ := loadItems_eq_error_iff.1 notList
      exact ⟨_, rfl, .notList isFound noList⟩
    obtain ⟨isList, rfl⟩ := loadItems_eq_ok_iff.1 isItems
    cases read : MetricEntry.decode (.object (Members.without members "metadata")) with
    | error shapeFault =>
      rw [read] at h
      cases h
      exact ⟨_, rfl, .fields isList read⟩
    | ok entry =>
      rw [read] at h
      rcases Checked.bind_eq_error_iff.1 h with fails | ⟨_, isEntry, h⟩
      · cases fails
      cases isEntry
      rcases Checked.bind_eq_error_iff.1 h with elements | ⟨_, -, done⟩
      · obtain ⟨front, element, behind, split, sound, fails⟩ :=
          (loadEach_eq_error_iff (exists_loadElement_iff _)).1 elements
        refine ⟨_, context?_of_loadElement fails,
          .element ⟨members, entry, rfl, isList, read⟩ split sound fun readable => ?_⟩
        obtain ⟨_, loaded⟩ := (exists_loadElement_iff _ front.length element).2 readable
        rw [loaded] at fails
        cases fails
      · cases done
  | _ =>
    cases h
    refine ⟨_, rfl, .notObject fun members same => ?_⟩
    cases same

/-- A metric with a part that cannot be read has a fault that names this part. -/
theorem MetricEntry.Broken.exists_loadMetric {index : Nat} {value : Value} {context : Context}
    (broken : MetricEntry.Broken ⟨.metric, entryName? value, index⟩ value context) :
    ∃ fault, loadMetric index value = .error fault ∧ fault.context? = some context := by
  cases broken with
  | notObject noObject =>
    cases value with
    | object members => exact absurd rfl (noObject members)
    | _ => exact ⟨_, rfl, rfl⟩
  | @notList _ found isFound noList =>
    refine ⟨.notArray _ found, ?_, rfl⟩
    rw [loadMetric, loadItems_eq_error_iff.2 ⟨_, isFound, noList, rfl⟩]
    rfl
  | @fields _ fault isList fails =>
    refine ⟨.badShape _ fault, ?_, rfl⟩
    rw [loadMetric, loadItems_eq_ok_iff.2 ⟨isList, rfl⟩, fails]
    rfl
  | @element _ element front behind readable split sound fails =>
    obtain ⟨members, entry, rfl, isList, read⟩ := readable
    obtain ⟨fault, isFault⟩ := Checked.exists_eq_error_iff.2
      (mt (exists_loadElement_iff ⟨.metric, entryName? (.object members), index⟩ front.length
        element).1 fails)
    have elements := (loadEach_eq_error_iff (exists_loadElement_iff _)).2
      ⟨front, element, behind, split, sound, isFault⟩
    refine ⟨fault, ?_, context?_of_loadElement isFault⟩
    rw [loadMetric, loadItems_eq_ok_iff.2 ⟨isList, rfl⟩, read]
    exact congrArg (· >>= fun loaded => pure { entry with metadata := loaded }) elements

/-! ### Documents -/

/-- Loads a document from the values of its pool and of its metrics. -/
def Document.ofParts (pool metrics : List Value) : Loaded Document := do
  let pool ← loadEach loadPoolEntry pool
  let metrics ← loadEach loadMetric metrics
  return ⟨pool, metrics⟩

/-- A document whose sections are lists is loaded from its pool and its metrics. -/
theorem Document.ofValue_eq {members : Members}
    (once : ¬ (members.has "metadata" = true ∧ members.has "metadataTypes" = true))
    (lists : ∀ key ∈ sectionKeys, ∀ value ∈ members.get? key, value.isList = true)
    (known : ∀ m ∈ members, m.1 ∈ sectionKeys) :
    Document.ofValue (.object members) =
      Document.ofParts (members.itemsUnder "metadata" ++ members.itemsUnder "metadataTypes")
        (members.itemsUnder "metrics") := by
  have pool : loadPool members =
      .ok (members.itemsUnder "metadata" ++ members.itemsUnder "metadataTypes") := by
    have nil {key : String} (absent : members.has key = false) : members.itemsUnder key = [] := by
      rw [Members.has_eq_isSome_get?, Option.isSome_eq_false_iff,
        Option.isNone_iff_eq_none] at absent
      exact Members.itemsUnder_eq_nil absent
    unfold loadPool
    split
    · rename_i main legacy
      exact absurd ⟨main, legacy⟩ once
    · rename_i main legacy
      rw [nil main, List.nil_append]
      exact loadItems_eq_ok_iff.2 ⟨lists "metadataTypes" (by decide), rfl⟩
    · rename_i legacy
      rw [nil legacy, List.append_nil]
      exact loadItems_eq_ok_iff.2 ⟨lists "metadata" (by decide), rfl⟩
  have metrics : loadItems members "metrics" (.root "metrics") =
      .ok (members.itemsUnder "metrics") :=
    loadItems_eq_ok_iff.2 ⟨lists "metrics" (by decide), rfl⟩
  have none : (members.find? fun member => !sectionKeys.contains member.1) = none := by
    simpa [List.find?_eq_none] using known
  rw [ofValue, pool, metrics]
  simp only [none]
  rfl

section

variable {pool metrics : List Value}

theorem Document.exists_ofParts_iff :
    (∃ document, Document.ofParts pool metrics = .ok document) ↔
      (∀ entry ∈ pool, MetadataEntry.Readable entry) ∧
        ∀ metric ∈ metrics, MetricEntry.Whole metric := by
  rw [← exists_loadEach_iff exists_loadPoolEntry_iff, ← exists_loadEach_iff exists_loadMetric_iff]
  simp only [ofParts, Checked.bind_eq_ok_iff]
  constructor
  · rintro ⟨_, pool, isPool, metrics, isMetrics, -⟩
    exact ⟨⟨pool, isPool⟩, metrics, isMetrics⟩
  · rintro ⟨⟨pool, isPool⟩, metrics, isMetrics⟩
    exact ⟨_, pool, isPool, metrics, isMetrics, rfl⟩

/-- The fault of a pool and metrics names their first part that cannot be read. -/
theorem Document.broken_of_ofParts {cause : SchemaFault}
    (h : Document.ofParts pool metrics = .error cause) :
    ∃ context, cause.context? = some context ∧ Document.Broken pool metrics context := by
  rcases Checked.bind_eq_error_iff.1 h with fails | ⟨loaded, isPool, h⟩
  · obtain ⟨front, entry, behind, split, sound, fails⟩ :=
      (loadEach_eq_error_iff exists_loadPoolEntry_iff).1 fails
    have unreadable := mt (exists_loadPoolEntry_iff front.length entry).2
      (Checked.exists_eq_error_iff.1 ⟨cause, fails⟩)
    exact ⟨_, context?_of_loadDefinition fails, .pool split sound unreadable⟩
  · rcases Checked.bind_eq_error_iff.1 h with fails | ⟨_, -, done⟩
    · obtain ⟨front, metric, behind, split, sound, fails⟩ :=
        (loadEach_eq_error_iff exists_loadMetric_iff).1 fails
      have readable := (exists_loadEach_iff exists_loadPoolEntry_iff pool).1 ⟨loaded, isPool⟩
      obtain ⟨context, named, broken⟩ := exists_broken_of_loadMetric fails
      exact ⟨context, named, .metric readable split sound broken⟩
    · cases done

/-- A pool and metrics with a part that cannot be read have a fault that names this part. -/
theorem Document.Broken.exists_ofParts {context : Context}
    (broken : Document.Broken pool metrics context) :
    ∃ cause, Document.ofParts pool metrics = .error cause ∧ cause.context? = some context := by
  cases broken with
  | @pool front behind entry split sound fails =>
    obtain ⟨cause, isCause⟩ := Checked.exists_eq_error_iff.2
      (mt (exists_loadPoolEntry_iff front.length entry).1 fails)
    have first := (loadEach_eq_error_iff exists_loadPoolEntry_iff).2
      ⟨front, entry, behind, split, sound, isCause⟩
    exact ⟨cause, Checked.bind_eq_error_iff.2 (.inl first), context?_of_loadDefinition isCause⟩
  | @metric front behind metric _ readable split sound broken =>
    obtain ⟨loaded, isPool⟩ := (exists_loadEach_iff exists_loadPoolEntry_iff pool).2 readable
    obtain ⟨cause, isCause, named⟩ := broken.exists_loadMetric
    have first := (loadEach_eq_error_iff exists_loadMetric_iff).2
      ⟨front, metric, behind, split, sound, isCause⟩
    exact ⟨cause, Checked.bind_eq_error_iff.2
      (.inr ⟨loaded, isPool, Checked.bind_eq_error_iff.2 (.inl first)⟩), named⟩

end

/-- Loading a text is loading its value. -/
theorem Document.load_eq_error_iff {text : String} {value : Value}
    (parsed : Json.parse text = .ok value) {fault : Fault} :
    Document.load text = .error fault ↔
      ∃ cause, Document.ofValue value = .error cause ∧ fault = .schema cause := by
  rw [Document.load, parsed]
  show (Document.ofValue value).mapError Fault.schema = _ ↔ _
  cases Document.ofValue value <;> simp [Except.mapError, eq_comm]

/-- What loading a text says of the pool and the metrics in it. -/
structure Document.FirstFault (text : String) (pool metrics : List Value) : Prop where
  /-- Loading succeeds exactly if each part can be read by itself. -/
  loads_iff : (∃ document, Document.load text = .ok document) ↔
    (∀ entry ∈ pool, MetadataEntry.Readable entry) ∧
      ∀ metric ∈ metrics, MetricEntry.Readable metric ∧
        ∀ element ∈ metric.itemsUnder "metadata", MetadataElement.Readable element
  /-- A part is named exactly if it is the first one that cannot be read. -/
  names_iff : ∀ context, (∃ cause, Document.load text = .error (.schema cause) ∧
      cause.context? = some context) ↔ Document.Broken pool metrics context
  /-- Whenever loading fails, the wording begins with the part that is named. -/
  names : ∀ fault, Document.load text = .error fault → ∃ cause context rest,
    fault = .schema cause ∧ cause.context? = some context ∧
      cause.message = context.text ++ ": " ++ rest
  /-- What is inside an entry is named behind it. -/
  inside : ∀ (label : EntryLabel) (index : Nat),
    (Context.metadataOf label).text = (Context.entry label).text ++ " metadata" ∧
      (Context.elementOf label index).text =
        (Context.entry label).text ++ " metadata[" ++ toString index ++ "]"
  /-- An entry is called by its name exactly if it is an object with this name. -/
  called_iff : ∀ (kind : EntryKind) (value : Value) (index : Nat) (name : String),
    (Context.entry ⟨kind, entryName? value, index⟩).text =
        kind.word ++ " '" ++ name ++ "' (" ++ kind.path index ++ ")" ↔
      ∃ members, value = .object members ∧ Members.get? members "name" = some (.text name)
  /-- Otherwise it is called by its path. -/
  path_iff : ∀ (kind : EntryKind) (value : Value) (index : Nat),
    (Context.entry ⟨kind, entryName? value, index⟩).text = kind.path index ↔
      ∀ name, ¬ ∃ members, value = .object members ∧
        Members.get? members "name" = some (.text name)

/-- In a document with lists for its sections and no other members, the fault is the first part that
cannot be read by itself. -/
theorem Document.load_exact {text : String} {members : Members}
    (parsed : Json.parse text = .ok (.object members))
    (once : ¬ (members.has "metadata" = true ∧ members.has "metadataTypes" = true))
    (lists : ∀ key ∈ sectionKeys, ∀ value ∈ members.get? key, value.isList = true)
    (known : ∀ member ∈ members, member.1 ∈ sectionKeys) :
    Document.FirstFault text (members.itemsUnder "metadata" ++ members.itemsUnder "metadataTypes")
      (members.itemsUnder "metrics") where
  loads_iff := by
    simp only [load_eq_ok_iff parsed, ofValue_eq once lists known]
    exact exists_ofParts_iff
  names_iff context := by
    simp only [load_eq_error_iff parsed, ofValue_eq once lists known]
    constructor
    · rintro ⟨_, ⟨cause, fails, same⟩, named⟩
      cases same
      obtain ⟨other, named', broken⟩ := broken_of_ofParts fails
      obtain rfl := Option.some.inj (named.symm.trans named')
      exact broken
    · intro broken
      obtain ⟨cause, fails, named⟩ := broken.exists_ofParts
      exact ⟨cause, ⟨cause, fails, rfl⟩, named⟩
  names fault h := by
    obtain ⟨cause, fails, rfl⟩ := (load_eq_error_iff parsed).1 h
    rw [ofValue_eq once lists known] at fails
    obtain ⟨context, named, -⟩ := broken_of_ofParts fails
    obtain ⟨rest, isMessage⟩ := SchemaFault.exists_message_eq named
    exact ⟨cause, context, rest, rfl, named, isMessage⟩
  inside _ _ := ⟨rfl, rfl⟩
  called_iff _ _ _ _ := EntryLabel.text_eq_called_iff
  path_iff _ _ _ := EntryLabel.text_eq_path_iff

/-- A document whose second metric has a number for the second element of its metadata; the third
metric is no object. -/
def flawedText : String :=
  "\x7b\"metrics\":[\x7b\"name\":\"a\",\"unit\":\"count\"\x7d,
  \x7b\"metadata\":[\"$s\",7],\"name\":\"b\",\"unit\":\"count\"\x7d,8],
  \"metadata\":[\x7b\"name\":\"s\"\x7d]\x7d"

/-- The members of that document. -/
def flawedMembers : Members :=
  [("metadata", .list [.object [("name", .text "s")]]),
    ("metrics", .list [.object [("name", .text "a"), ("unit", .text "count")],
      .object [("metadata", .list [.text "$s", .number (.integer 7)]), ("name", .text "b"),
        ("unit", .text "count")],
      .number (.integer 8)])]

open Json.Grammar in
theorem parse_flawedText : Json.parse flawedText = .ok (.object flawedMembers) := by
  have sources : IsValue 3 _ (.list [.text "$s", .number (.integer 7)]) :=
    .list (by decide) (.more .text (.one .number .none) (List.cons_ne_nil _ _))
  have first : IsValue 2 _ (.object [("name", .text "a"), ("unit", .text "count")]) :=
    .object (by decide) (.more .text (.one .text .none) (List.cons_ne_nil _ _)) (by decide)
      (.refl _) (by decide +kernel)
  have second : IsValue 2 _ (.object [("metadata", .list [.text "$s", .number (.integer 7)]),
      ("name", .text "b"), ("unit", .text "count")]) :=
    .object (by decide) (.more sources (.more .text (.one .text .none) (List.cons_ne_nil _ _))
      (List.cons_ne_nil _ _)) (by decide) (.refl _) (by decide +kernel)
  have metrics : IsValue 1 _ (.list [_, _, .number (.integer 8)]) :=
    .list (by decide) (.more first (.more second (.one .number .none) (List.cons_ne_nil _ _))
      (List.cons_ne_nil _ _))
  have pool : IsValue 1 _ (.list [.object [("name", .text "s")]]) :=
    .list (by decide) (.one (.object (by decide) (.one .text .none) (by decide) (.refl _)
      (by decide +kernel)) .none)
  -- the metrics are written first, and the pool is the first member in the order of the keys
  have document : IsValue 0 _ (.object flawedMembers) :=
    .object (by decide) (.more metrics (.one pool .none) (List.cons_ne_nil _ _)) (by decide)
      (.swap _ _ _) (by decide +kernel)
  exact Json.parse_of_spells
    ⟨_, Json.scan_iff_tokens.1 ⟨by decide +kernel, by decide +kernel⟩, document⟩

theorem Document.load_exact_of_flawedText :
    Json.parse flawedText = .ok (.object flawedMembers) ∧
      Document.FirstFault flawedText [.object [("name", .text "s")]]
        (flawedMembers.itemsUnder "metrics") ∧
      Document.Broken [.object [("name", .text "s")]] (flawedMembers.itemsUnder "metrics")
        (.elementOf ⟨.metric, some "b", 1⟩ 1) ∧
      (Context.elementOf ⟨.metric, some "b", 1⟩ 1).text =
        "metric 'b' (metrics[1]) metadata[1]" := by
  have exact := Document.load_exact parse_flawedText (by decide) (by decide) (by decide)
  have fails : Document.ofValue (.object flawedMembers) = .error (.notObject
      (.elementOf ⟨.metric, some "b", 1⟩ 1) .metadata (.number (.integer 7))) := by rfl
  have loaded := (load_eq_error_iff parse_flawedText).2 ⟨_, fails, rfl⟩
  exact ⟨parse_flawedText, exact, (exact.names_iff _).1 ⟨_, loaded, rfl⟩, rfl⟩

end Telemetry
