import Telemetry.Proofs.Json.Writing
import Telemetry.Proofs.Plan.Gist

/-!
# The artifact does not depend on the spelling

`generateText_of_respelled`: texts whose values are spellings of the same schema have the same
artifact.
-/

namespace Telemetry

open Json (Value Members)

/-! ### Texts -/

/-- A text is loaded as a document with a gist if its value is read with it. -/
theorem Document.exists_load_iff {text : String} {value : Value}
    (parsed : Json.parse text = .ok value) (c : (field : DocumentField) → field.Gist) :
    (∃ document, load text = .ok document ∧ document.gist = c) ↔
      ReadAs places decode gist value c := by
  have distinct := Json.Value.distinct_of_parse parsed
  simp only [load_eq_ok_iff parsed, ofValue_iff distinct, ReadAs, Checked.map_eq_ok_iff]
  constructor
  · rintro ⟨document, ⟨decoded, placed⟩, isGist⟩
    exact ⟨placed, document, decoded, isGist⟩
  · rintro ⟨placed, document, decoded, isGist⟩
    exact ⟨document, ⟨decoded, placed⟩, isGist⟩

/-- Texts whose values are spellings of each other have the same artifact. -/
theorem generateText_of_respelled {settings : Settings} {text other artifact : String}
    {value otherValue : Value} (parsed : Json.parse text = .ok value)
    (otherParsed : Json.parse other = .ok otherValue)
    (respelled : Document.Respelled value otherValue)
    (generated : generateText settings text = .ok artifact) :
    generateText settings other = .ok artifact := by
  obtain ⟨document, loaded, generated⟩ := Checked.bind_eq_ok_iff.1 generated
  rw [Document.generate_eq] at generated
  obtain ⟨plan, planned, rendered⟩ := Checked.bind_eq_ok_iff.1 generated
  have read := (Document.exists_load_iff parsed _).1 ⟨document, loaded, rfl⟩
  rw [respelled.readAs_iff] at read
  obtain ⟨otherDocument, otherLoaded, gists⟩ := (Document.exists_load_iff otherParsed _).2 read
  refine Checked.bind_eq_ok_iff.2 ⟨otherDocument, otherLoaded, ?_⟩
  rw [Document.generate_eq]
  exact Checked.bind_eq_ok_iff.2 ⟨plan, Document.plan_of_gist gists.symm planned, rendered⟩

/-! ### An example -/

/-- A schema with one definition, and one metric that refers to it. -/
def sampleValue (poolKey : String) (definition : Members) (unitKey unit : String) : Value :=
  .object [(poolKey, .list [.object definition]),
    ("metrics", .list [.object [("metadata", .list [.text "$s"]), ("name", .text "m"),
      (unitKey, .text unit)]])]

/-- The schema in the main spelling. -/
def plainValue : Value :=
  sampleValue "metadata" [("kind", .text "int"), ("name", .text "s")] "unit" "count"

/-- The schema under its older keys, with blanks, another word for the kind, and capitals. -/
def olderValue : Value :=
  sampleValue "metadataTypes" [("name", .text " s "), ("type", .text "integer")] "type" "COUNT"

theorem respelled_plainValue : Document.Respelled plainValue olderValue := by
  have definition : MetadataEntry.Respelled
      (.object [("kind", .text "int"), ("name", .text "s")])
      (.object [("name", .text " s "), ("type", .text "integer")]) := by
    have synonymous : MetadataEntry.Alike .kind (.text "int") (.text "integer") :=
      .inr (.inr .integer)
    have blank : Text.Blank " " := by
      intro c there
      rw [List.mem_singleton.1 there]
      decide +kernel
    have padded : MetadataEntry.Alike .name (.text "s") (.text " s ") := .intro "s" blank blank
    have named : MetadataEntry.shape.fieldOf? "type" = some .kind := rfl
    apply RecordShape.Respelled.step (.replace _ rfl synonymous)
    apply RecordShape.Respelled.step (.rename _ _ rfl named)
    apply RecordShape.Respelled.step (.permute (.swap ("name", _) ("type", _) []))
    exact .rel _ _ (.replace _ rfl padded)
  have metric : MetricEntry.Respelled
      (.object [("metadata", .list [.text "$s"]), ("name", .text "m"), ("unit", .text "count")])
      (.object [("metadata", .list [.text "$s"]), ("name", .text "m"),
        ("type", .text "COUNT")]) := by
    have last : ∀ m n o : String × Value, [m, n, o].Perm [o, m, n] := fun m n o =>
      List.perm_append_singleton o [m, n]
    have lower : "count".toLower = "COUNT".toLower := by
      rw [← String.toList_inj, Text.toList_toLower, Text.toList_toLower]
      decide
    have recased : MetricEntry.Alike .unit (.text "count") (.text "COUNT") := .inr (.intro lower)
    have named : MetricEntry.shape.fieldOf? "type" = some .unit := rfl
    apply RecordShape.Respelled.step (.permute (last _ _ _))
    apply RecordShape.Respelled.step (.replace _ rfl recased)
    apply RecordShape.Respelled.step (.rename _ _ rfl named)
    exact .rel _ _ (.permute (last _ _ _).symm)
  have named : Document.shape.fieldOf? "metadataTypes" = some .metadata := rfl
  have pool : Document.Alike .metadata (.list [_]) (.list [_]) :=
    .intro (.cons definition .nil)
  have metrics : Document.Alike .metrics (.list [_]) (.list [_]) :=
    .intro (.cons metric .nil)
  apply RecordShape.Respelled.step (.replace _ rfl pool)
  apply RecordShape.Respelled.step (.rename _ _ rfl named)
  apply RecordShape.Respelled.step (.permute (.swap ("metrics", _) ("metadataTypes", _) []))
  apply RecordShape.Respelled.step (.replace _ rfl metrics)
  exact .rel _ _ (.permute (.swap _ _ []))

theorem exists_parse_sampleValue {poolKey unitKey unit : String} {definition : Members}
    (pool : poolKey < "metrics") (name : "name" < unitKey) (ordered : definition.Ordered)
    (texts : ∀ m ∈ definition, ∃ s, m.2 = .text s) :
    ∃ text, Json.parse text = .ok (sampleValue poolKey definition unitKey unit) := by
  have deep : 5 < Json.maxDepth := by decide
  have isText : ∀ {depth} (s : String), (Value.text s).Writable depth := Value.writable_text
  have isDefinition : (Value.object definition).Writable 2 := by
    refine Value.writable_object (by omega) ordered fun m there => ?_
    obtain ⟨s, same⟩ := texts m there
    exact same ▸ isText s
  have metadataFirst : "metadata" < "name" := by decide +kernel
  have isMetric : (Value.object [("metadata", .list [.text "$s"]), ("name", .text "m"),
      (unitKey, .text unit)]).Writable 2 := by
    refine Value.writable_object (by omega) ?_ ?_
    · simp only [Json.Members.Ordered, List.pairwise_cons, List.forall_mem_cons]
      exact ⟨⟨metadataFirst, String.lt_trans metadataFirst name, List.forall_mem_nil _⟩,
        ⟨name, List.forall_mem_nil _⟩, List.forall_mem_nil _, .nil⟩
    · simp only [List.forall_mem_cons]
      exact ⟨Value.writable_list (by omega) (List.forall_mem_singleton.2 (isText _)),
        isText _, isText _, List.forall_mem_nil _⟩
  have writable : (sampleValue poolKey definition unitKey unit).Writable 0 := by
    refine Value.writable_object (by omega) ?_ ?_
    · simp only [Json.Members.Ordered, List.pairwise_cons, List.forall_mem_cons]
      exact ⟨⟨pool, List.forall_mem_nil _⟩, List.forall_mem_nil _, .nil⟩
    · simp only [List.forall_mem_cons]
      exact ⟨Value.writable_list (by omega) (List.forall_mem_singleton.2 isDefinition),
        Value.writable_list (by omega) (List.forall_mem_singleton.2 isMetric),
        List.forall_mem_nil _⟩
  obtain ⟨text, spelled⟩ := writable.exists_spells
  exact ⟨text, Json.parse_of_spells spelled⟩

/-- The main spelling has an artifact. -/
theorem exists_generateText_plainValue {text : String} (parsed : Json.parse text = .ok plainValue) :
    ∃ artifact, generateText {} text = .ok artifact := by
  let document : Document := ⟨[{ name := "s", kind := some "int" }],
    [⟨"m", "count", none, [.reference "$s"]⟩]⟩
  have loaded : Document.load text = .ok document := by
    have placed : ((Document.places plainValue).all fun place => !place.isList) = true := rfl
    rw [Document.load_eq_ok_iff parsed, Document.ofValue_iff (Value.distinct_of_parse parsed)]
    refine ⟨rfl, fun place isPlace => ?_⟩
    exact Bool.not_eq_true' _ ▸ List.all_eq_true.1 placed place isPlace
  have generated : (document.generate {}).toOption.isSome = true := by decide +kernel
  obtain ⟨artifact, isArtifact⟩ := Option.isSome_iff_exists.1 generated
  exact ⟨artifact, Checked.bind_eq_ok_iff.2
    ⟨document, loaded, Checked.toOption_eq_some_iff.1 isArtifact⟩⟩

theorem generateText_of_olderValue :
    ∃ text other artifact, Json.parse text = .ok plainValue ∧ Json.parse other = .ok olderValue ∧
      Document.Respelled plainValue olderValue ∧
      generateText {} text = .ok artifact ∧ generateText {} other = .ok artifact := by
  obtain ⟨text, parsed⟩ : ∃ text, Json.parse text = .ok plainValue := by
    apply exists_parse_sampleValue
    · decide +kernel
    · decide +kernel
    · unfold Json.Members.Ordered
      decide +kernel
    · simp
  obtain ⟨other, otherParsed⟩ : ∃ other, Json.parse other = .ok olderValue := by
    apply exists_parse_sampleValue
    · decide +kernel
    · decide +kernel
    · unfold Json.Members.Ordered
      decide +kernel
    · simp
  obtain ⟨artifact, generated⟩ := exists_generateText_plainValue parsed
  exact ⟨text, other, artifact, parsed, otherParsed, respelled_plainValue, generated,
    generateText_of_respelled parsed otherParsed respelled_plainValue generated⟩

end Telemetry
