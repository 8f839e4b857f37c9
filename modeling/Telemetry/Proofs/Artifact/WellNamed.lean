import Telemetry.Proofs.Artifact.RustDeclared
import Telemetry.Proofs.Artifact.TypeScriptDeclared

/-!
# Artifacts are well named

An artifact is rendered unless two names of a kind coincide, and then no name in its text is
declared twice, none is one that the language or the artifact needs for something else, and every
type that a field mentions is declared.

* `Rust.Collides` and `Rust.WellNamed` say this of a plan and of the text of a Rust artifact, and
  `Rust.wellNamed_of_plan` that every plan of a document has the one or gives the other;
* `TypeScript.WellNamed` and `TypeScript.wellNamed_of_document` are about TypeScript artifacts under
  any settings.  Their text also holds texts of the settings, and `declaredTwice_of_importedType`
  is about an import that declares a type once more.
-/

namespace Telemetry.Artifact

/-! ### Rust -/

namespace Rust

variable {plan : Plan}

/-- Whether two names of a kind coincide among those that a plan comes to. -/
def Collides (plan : Plan) : Prop :=
  ¬ (typeNames plan).Nodup ∨ (∃ m ∈ plan.metrics, ¬ (fieldNames m).Nodup) ∨
    ∃ t ∈ plan.constrainedTypes, ¬ (variantNames t).Nodup

/-- The keywords that declare a type. -/
def typeKeywords : List String := ["enum", "struct", "trait", "type", "union"]

/-- The keywords that declare a function. -/
def functionKeywords : List String := ["const fn", "fn"]

/-- The names in types that the language and its standard library give a meaning. -/
def builtInNames : List String :=
  ["Option", "String", "SystemTime", "Vec", "bool", "f64", "i64", "static", "str"]

/-- What is asked of the names in a text. -/
structure WellNamed (plan : Plan) (text : String) : Prop where
  /-- The types that the text declares are those of the plan. -/
  types : (namesOf typeKeywords (declarationsIn text)).Perm (typeNames plan)
  distinctTypes : (namesOf typeKeywords (declarationsIn text)).Nodup
  typeForm : ∀ name ∈ namesOf typeKeywords (declarationsIn text),
    isTypeName name = true ∧ name ∉ keywords ∧ name ∉ reservedTypes
  /-- The text declares one function for each metric. -/
  functions : namesOf functionKeywords (declarationsIn text) = plan.metrics.map functionName
  distinctFunctions : (namesOf functionKeywords (declarationsIn text)).Nodup
  /-- The bodies of the text's enumerations hold the variants of the plan and nothing else. -/
  enumerationBodies : enumerationsOf (passagesIn text) = some (enumerations plan)
  variants : ∀ es ∈ enumerationsOf (passagesIn text), ∀ e ∈ es,
    e.2.Nodup ∧ ∀ name ∈ e.2, isTypeName name = true ∧ name ∉ keywords
  /-- The bodies of the text's structures hold the fields of the plan, and comments. -/
  structureBodies : structuresOf (passagesIn text) = some (structures plan)
  fields : ∀ ss ∈ structuresOf (passagesIn text), ∀ s ∈ ss,
    (s.2.map Prod.fst).Nodup ∧ ∀ field ∈ s.2, isFieldName field.1 = true ∧ field.1 ∉ keywords
  /-- A name in the type of a field is built in, or the text declares one type of this name. -/
  mentioned : ∀ ss ∈ structuresOf (passagesIn text), ∀ s ∈ ss, ∀ field ∈ s.2,
    ∀ name ∈ mentions field.2,
      name ∈ builtInNames ∨ (namesOf typeKeywords (declarationsIn text)).count name = 1
  /-- The text declares the enumeration of a constrained field, and does so once. -/
  constrained : ∀ m ∈ plan.metrics, ∀ field ∈ m.fields, ∀ i, field.type = .constrained i →
    (declarationsIn text).count ("enum", fieldType plan.constrainedTypes field.type) = 1

/-- Every type gets a name that can be one. -/
theorem form_of_mem_typeNames (orderly : plan.Orderly) : ∀ name ∈ typeNames plan,
    isTypeName name = true ∧ name ∉ keywords ∧ name ∉ reservedTypes := by
  intro name there
  rcases List.mem_append.1 there with there | there
  · have support : ∀ name ∈ supportTypes,
        isTypeName name = true ∧ name ∉ keywords ∧ name ∉ reservedTypes := by decide +kernel
    exact support name there
  rcases List.mem_append.1 there with there | there
  · obtain ⟨m, hm, rfl⟩ := List.mem_map.1 there
    exact ⟨isTypeName_metricType (orderly.metrics m hm), typeName_notMem_keywords _,
      typeName_notMem_reservedTypes _⟩
  · obtain ⟨t, ht, rfl⟩ := List.mem_map.1 there
    exact ⟨isTypeName_enumName (orderly.types t ht), typeName_notMem_keywords _,
      typeName_notMem_reservedTypes _⟩

/-- The types that the text of a plan declares. -/
theorem types_of_render (orderly : plan.Orderly) {text : String} (h : render plan = .ok text) :
    (namesOf typeKeywords (declarationsIn text)).Perm (typeNames plan) := by
  have support : namesOf typeKeywords (supportDeclarations ++ [("enum", "TelemetryType")])
      = ["Unit", "MetadataEntry", "MetricDatum", "TelemetrySink", "TelemetryType"] := by decide
  have one : ∀ m : PlannedMetric, namesOf typeKeywords
      [("struct", metricType m), ("fn", functionName m)] = [metricType m] := fun _ => rfl
  rw [declarationsIn_of_render orderly h, namesOf_append, namesOf_append, support,
    namesOf_map (by decide), namesOf_flatMap one, List.append_assoc, typeNames]
  refine List.Perm.append ?_ List.perm_append_comm
  decide

theorem functions_of_render (orderly : plan.Orderly) {text : String} (h : render plan = .ok text) :
    namesOf functionKeywords (declarationsIn text) = plan.metrics.map functionName := by
  have support : namesOf functionKeywords (supportDeclarations ++ [("enum", "TelemetryType")])
      = [] := by decide
  have one : ∀ m : PlannedMetric, namesOf functionKeywords
      [("struct", metricType m), ("fn", functionName m)] = [functionName m] := fun _ => rfl
  rw [declarationsIn_of_render orderly h, namesOf_append, namesOf_append, support,
    namesOf_map_other (by decide), namesOf_flatMap one]
  rfl

/-- If the names of a plan pass, no two variants of an enumeration have one name. -/
theorem nodup_of_mem_enumerations (orderly : plan.Orderly) (passes : checkNames plan = .ok ()) :
    ∀ e ∈ enumerations plan, e.2.Nodup := by
  intro e there
  rcases List.mem_cons.1 there with rfl | there
  · decide
  rcases List.mem_cons.1 there with rfl | there
  · exact (fits orderly passes).events
  · obtain ⟨t, ht, rfl⟩ := List.mem_map.1 there
    exact ((checkNames_eq_ok_iff orderly).1 passes).2.2 t ht

/-- If the names of a plan pass, no two fields of a structure have one name, and every field gets a
name that can be one. -/
theorem fields_of_mem_structures (orderly : plan.Orderly) (passes : checkNames plan = .ok ()) :
    ∀ s ∈ structures plan, (s.2.map Prod.fst).Nodup ∧
      ∀ field ∈ s.2, isFieldName field.1 = true ∧ field.1 ∉ keywords := by
  intro s there
  rcases List.mem_cons.1 there with rfl | there
  · decide +kernel
  rcases List.mem_cons.1 there with rfl | there
  · decide +kernel
  · obtain ⟨m, hm, rfl⟩ := List.mem_map.1 there
    constructor
    · simp only [List.map_map, Function.comp_def]
      exact ((checkNames_eq_ok_iff orderly).1 passes).2.1 m hm
    · refine List.forall_mem_map.2 fun field _ => ?_
      dsimp only
      exact ⟨isFieldName_fieldName _, fieldName_notMem_keywords _⟩

theorem fieldType_constrained {types : List ConstrainedType} {i : Nat} {t : ConstrainedType}
    (place : types[i]? = some t) : fieldType types (.constrained i) = enumName t := by
  simp only [fieldType, place, Option.map_some, Option.getD_some]

/-- The type of a field is built in, or the plan declares it. -/
theorem fieldType_mem (orderly : plan.Orderly) {m : PlannedMetric} (hm : m ∈ plan.metrics)
    {field : ArgumentField} (there : field ∈ m.fields) :
    fieldType plan.constrainedTypes field.type ∈ builtInNames ∨
      fieldType plan.constrainedTypes field.type ∈ typeNames plan := by
  cases isType : field.type with
  | primitive kind =>
    refine .inl ?_
    cases kind <;> simp only [fieldType] <;> decide
  | timestamp =>
    refine .inl ?_
    simp only [fieldType]
    decide
  | constrained i =>
    obtain ⟨t, place⟩ := (orderly.metrics m hm).place field there i isType
    rw [fieldType_constrained place]
    refine .inr (List.mem_append_right _ (List.mem_append_right _ ?_))
    exact List.mem_map_of_mem (List.mem_of_getElem? place)

/-- What the type of a field mentions is built in, or the plan declares it. -/
theorem mentions_of_mem_structures (orderly : plan.Orderly) : ∀ s ∈ structures plan,
    ∀ field ∈ s.2, ∀ name ∈ mentions field.2, name ∈ builtInNames ∨ name ∈ typeNames plan := by
  intro s there
  have support : ∀ name ∈ supportTypes, name ∈ typeNames plan :=
    fun name known => List.mem_append_left _ known
  rcases List.mem_cons.1 there with rfl | there
  · have builtIn : ∀ field ∈ [("key", "&'static str"), ("value", "String")],
        ∀ name ∈ mentions field.2, name ∈ builtInNames := by decide +kernel
    exact fun field inside name mentioned => .inl (builtIn field inside name mentioned)
  rcases List.mem_cons.1 there with rfl | there
  · have either : ∀ field ∈ [("create_time", "SystemTime"), ("metric_name", "TelemetryType"),
        ("value", "f64"), ("unit", "Unit"), ("metadata", "Vec<MetadataEntry>")],
        ∀ name ∈ mentions field.2, name ∈ builtInNames ∨ name ∈ supportTypes := by decide +kernel
    exact fun field inside name mentioned =>
      (either field inside name mentioned).imp_right (support name)
  · obtain ⟨m, hm, rfl⟩ := List.mem_map.1 there
    refine List.forall_mem_map.2 fun field inside name mentioned => ?_
    have isWord := isWord_fieldType orderly.types field.type
    have known := fieldType_mem orderly hm inside
    rcases eq_or_of_mem_mentions_writtenType isWord mentioned with rfl | rfl
    · exact .inl (by decide)
    · exact known

/-- An artifact is well named. -/
theorem wellNamed_of_render (orderly : plan.Orderly) {text : String} (h : render plan = .ok text) :
    WellNamed plan text := by
  have passes := (render_eq_ok_iff.1 h).1
  have types := types_of_render orderly h
  have distinctTypes := types.nodup_iff.2 ((checkNames_eq_ok_iff orderly).1 passes).1
  have enumerationBodies := enumerationsOf_passagesOf orderly
  have structureBodies := structuresOf_passagesOf orderly
  rw [← passagesIn_of_render orderly h] at enumerationBodies structureBodies
  constructor
  case types => exact types
  case distinctTypes => exact distinctTypes
  case typeForm =>
    exact fun name there => form_of_mem_typeNames orderly name (types.mem_iff.1 there)
  case functions => exact functions_of_render orderly h
  case distinctFunctions =>
    rw [functions_of_render orderly h]
    have injective : Function.Injective fun name => "record_" ++ name :=
      fun _ _ => (String.append_right_inj _).1
    have images := orderly.names.map injective
    rwa [List.map_map] at images
  case enumerationBodies => exact enumerationBodies
  case variants =>
    intro es isRead e there
    cases isRead.symm.trans enumerationBodies
    exact ⟨nodup_of_mem_enumerations orderly passes e there,
      form_of_mem_enumerations orderly e there⟩
  case structureBodies => exact structureBodies
  case fields =>
    intro ss isRead
    cases isRead.symm.trans structureBodies
    exact fields_of_mem_structures orderly passes
  case mentioned =>
    intro ss isRead s there field inside name mentioned
    cases isRead.symm.trans structureBodies
    refine (mentions_of_mem_structures orderly s there field inside name mentioned).imp_right ?_
    exact fun known => List.count_eq_one_of_mem distinctTypes (types.mem_iff.2 known)
  case constrained =>
    intro m hm field there i isType
    obtain ⟨t, place⟩ := (orderly.metrics m hm).place field there i isType
    have known : "enum" ∈ typeKeywords := by decide
    refine count_eq_one distinctTypes known ?_
    rw [isType, fieldType_constrained place, declarationsIn_of_render orderly h]
    refine List.mem_append_left _ (List.mem_append_right _ ?_)
    exact List.mem_map_of_mem (List.mem_of_getElem? place)

/-- A plan of a document is rendered unless two of its names of a kind coincide, and that is then
the fault; the artifact is well named. -/
theorem wellNamed_of_plan {settings : Settings} {document : Document}
    (planned : document.plan settings = .ok plan) :
    ((∃ fault, render plan = .error fault) ↔ Collides plan) ∧
      (∀ fault, render plan = .error fault → fault.IsCollision) ∧
      ∀ text, render plan = .ok text → WellNamed plan text := by
  have orderly := Document.orderly_of_plan planned
  refine ⟨?_, ?_, fun text => wellNamed_of_render orderly⟩
  · rw [exists_render_eq_error_iff, checkNames_eq_ok_iff orderly, Collides]
    simp only [not_and_or, not_forall, exists_prop]
  · intro fault failed
    rcases Checked.bind_eq_error_iff.1 failed with names | ⟨_, -, done⟩
    · exact isCollision_of_checkNames names
    · cases done

/-- A document whose names have to be changed before they can stand in an artifact. -/
def awkwardDocument : Document where
  metadata := [{ name := "$self", allowedValues := some ["", "self", "2fa"] },
    { name := "HTTPStatus", kind := some "integer" }]
  metrics := [
    { name := "option", unit := "None",
      metadata := [.reference "$$self", .reference "$HTTPStatus", .inline { name := "type" }] },
    { name := "option_2", unit := "none", metadata := [.reference "$$self"] }]

/-- A document in which two allowed values come to the name of one variant. -/
def collidingDocument : Document where
  metadata := [{ name := "$self", allowedValues := some ["", "é"] }]
  metrics := [{ name := "option", unit := "None", metadata := [.reference "$$self"] }]

/-- The names of enumerations and their variants that the first document comes to. -/
def awkwardEnumerations : List (String × List String) :=
  [("Unit", ["None", "Count", "Milliseconds", "Bytes", "Percent"]),
   ("TelemetryType", ["OptionType", "Option2"]),
   ("SelfType", ["Variant", "SelfValue", "V2fa"])]

theorem awkwardDocument_renders : ((awkwardDocument.plan {}).toOption.any fun plan =>
    (render plan).toOption.isSome && decide (enumerations plan = awkwardEnumerations)) = true := by
  decide +kernel

theorem collidingDocument_fails : ((collidingDocument.plan {}).toOption.any fun plan =>
    (render plan).toOption.isNone) = true := by
  decide +kernel

/-- The one document has a well-named artifact, and the other none. -/
theorem wellNamed_of_awkwardDocument :
    (∃ plan text, awkwardDocument.plan {} = .ok plan ∧ render plan = .ok text ∧
        ¬ Collides plan ∧ WellNamed plan text ∧
        enumerationsOf (passagesIn text) = some awkwardEnumerations) ∧
      ∃ plan fault, collidingDocument.plan {} = .ok plan ∧ render plan = .error fault ∧
        Collides plan ∧ fault.IsCollision := by
  constructor
  · obtain ⟨plan, planned, evaluated⟩ := Checked.any_toOption_iff.1 awkwardDocument_renders
    rw [Bool.and_eq_true, Checked.isSome_toOption_iff, decide_eq_true_iff] at evaluated
    obtain ⟨⟨text, isText⟩, variants⟩ := evaluated
    obtain ⟨fails_iff, -, wellNamed⟩ := wellNamed_of_plan planned
    have named := wellNamed text isText
    refine ⟨plan, text, planned, isText, fun collides => ?_, named, ?_⟩
    · obtain ⟨fault, failed⟩ := fails_iff.2 collides
      rw [isText] at failed
      cases failed
    · rw [named.enumerationBodies, variants]
  · obtain ⟨plan, planned, refused⟩ := Checked.any_toOption_iff.1 collidingDocument_fails
    rw [Option.isNone_iff_eq_none, Checked.toOption_eq_none_iff] at refused
    obtain ⟨fault, failed⟩ := refused
    obtain ⟨fails_iff, isCollision, -⟩ := wellNamed_of_plan planned
    exact ⟨plan, fault, planned, failed, fails_iff.1 ⟨fault, failed⟩, isCollision fault failed⟩

end Rust

/-! ### TypeScript -/

namespace TypeScript

variable {settings : Settings} {plan : Plan}

/-- The keywords that declare a type. -/
def typeKeywords : List String := ["class", "const enum", "enum", "interface", "type"]

/-- The types that are built in. -/
def builtInTypes : List String := ["string", "number", "boolean", "Date"]

/-- What is asked of the names in a text and in the declarations of it that do not come from the
settings. -/
structure WellNamed (settings : Settings) (plan : Plan) (text : String)
    (generated : List Passage) : Prop where
  /-- The text holds the declarations in their order. -/
  shown : generated.Sublist (passagesIn text)
  /-- Beside them, the lines of the text declare what the lines with the settings' texts declare. -/
  beside : (declarationsIn text).Perm
    (generated.map Passage.head ++ settingsDeclarations settings plan)
  /-- The types that are declared are those of the plan. -/
  types : (namesOf typeKeywords (generated.map Passage.head)).Perm (typeNames plan)
  distinctTypes : (namesOf typeKeywords (generated.map Passage.head)).Nodup
  unreserved : ∀ name ∈ namesOf typeKeywords (generated.map Passage.head),
    name ∉ keywords ∧ name ∉ reservedTypes
  /-- The body of the enumeration holds the events of the plan and nothing else. -/
  enumerationBodies : enumerationsOf generated = some (enumerations plan)
  events : ∀ es ∈ enumerationsOf generated, ∀ e ∈ es,
    (e.2.map Prod.fst).Nodup ∧ ∀ member ∈ e.2, isConstantName member.1 = true
  /-- One function is declared for each metric. -/
  functions : namesOf ["function"] (generated.map Passage.head)
    = plan.metrics.map PlannedMetric.functionName
  distinctFunctions : (namesOf ["function"] (generated.map Passage.head)).Nodup
  /-- The bodies of the interfaces hold the properties of the plan, and comments. -/
  interfaceBodies : interfacesOf generated = some (interfaces plan)
  properties : ∀ is ∈ interfacesOf generated, ∀ i ∈ is,
    (i.2.map Prod.fst).Nodup ∧ ∀ property ∈ i.2, isPropertyName property.1 = true
  /-- A name in the type of a property is built in, or a union has this name, and the text declares
  one type more of this name than the lines with the settings' texts do. -/
  mentioned : ∀ is ∈ interfacesOf generated, ∀ i ∈ is, ∀ property ∈ i.2,
    ∀ name ∈ mentions property.2.type, name ∈ builtInTypes ∨
      ("type", name) ∈ generated.map Passage.head ∧
        (namesOf typeKeywords (declarationsIn text)).count name
          = 1 + (namesOf typeKeywords (settingsDeclarations settings plan)).count name

/-- What the declarations of a plan declare. -/
theorem heads_passagesOf (settings : Settings) (plan : Plan) :
    (passagesOf settings plan).map Passage.head = [("enum", eventEnum)]
      ++ (plan.constrainedTypes.map (fun t => ("type", typeName t.identifier))
        ++ plan.metrics.flatMap fun m =>
          [("interface", interfaceName m), ("function", m.functionName)]) := by
  have union : ∀ name, Passage.head ⟨"type", name, []⟩ = ("type", name) := fun _ => rfl
  simp only [passagesOf, metricPassages, List.map_append, List.map_cons, List.map_nil,
    List.map_map, List.map_flatMap, Passage.head_of, Function.comp_def, union]

/-- No type gets the name of a keyword or of a global type. -/
theorem unreserved_of_mem_typeNames :
    ∀ name ∈ typeNames plan, name ∉ keywords ∧ name ∉ reservedTypes := by
  intro name there
  rcases List.mem_cons.1 there with rfl | there
  · decide +kernel
  rcases List.mem_append.1 there with there | there
  · obtain ⟨m, -, rfl⟩ := List.mem_map.1 there
    exact ⟨typeName_notMem_keywords _, typeName_notMem_reservedTypes _⟩
  · obtain ⟨t, -, rfl⟩ := List.mem_map.1 there
    exact ⟨typeName_notMem_keywords _, typeName_notMem_reservedTypes _⟩

/-- The types that a plan declares. -/
theorem types_perm (settings : Settings) (plan : Plan) :
    (namesOf typeKeywords ((passagesOf settings plan).map Passage.head)).Perm
      (typeNames plan) := by
  have events : namesOf typeKeywords [("enum", eventEnum)] = [eventEnum] := by decide
  have one : ∀ m : PlannedMetric, namesOf typeKeywords
      [("interface", interfaceName m), ("function", m.functionName)] = [interfaceName m] :=
    fun _ => rfl
  rw [heads_passagesOf, namesOf_append, namesOf_append, events, namesOf_map (by decide),
    namesOf_flatMap one, typeNames, List.singleton_append]
  exact List.Perm.cons _ List.perm_append_comm

theorem functions_eq (settings : Settings) (plan : Plan) :
    namesOf ["function"] ((passagesOf settings plan).map Passage.head)
      = plan.metrics.map PlannedMetric.functionName := by
  have events : namesOf ["function"] [("enum", eventEnum)] = [] := by decide
  have one : ∀ m : PlannedMetric, namesOf ["function"]
      [("interface", interfaceName m), ("function", m.functionName)] = [m.functionName] :=
    fun _ => rfl
  rw [heads_passagesOf, namesOf_append, namesOf_append, events, namesOf_map_other (by decide),
    namesOf_flatMap one]
  rfl

/-- Functions have distinct names, since the types of metrics have. -/
theorem nodup_functionNames (orderly : plan.Orderly) (distinct : (typeNames plan).Nodup) :
    (plan.metrics.map PlannedMetric.functionName).Nodup := by
  rw [typeNames, List.nodup_cons, List.nodup_append] at distinct
  have interfaces := List.pairwise_map.1 distinct.2.1
  rw [List.Nodup, List.pairwise_map]
  refine interfaces.imp_of_mem ?_
  intro m n hm hn differ same
  have isOrderly := orderly.metrics m hm
  have isOrderlyToo := orderly.metrics n hn
  rw [isOrderly.functionName, isOrderlyToo.functionName] at same
  have pascal : pascalCase m.name = pascalCase n.name := (String.append_right_inj _).1 same
  refine differ ?_
  rw [interfaceName, interfaceName, isOrderly.typeName, isOrderlyToo.typeName, pascal]

/-- No two properties of an interface have one name, and every property gets a name that can be
one. -/
theorem properties_of_mem_interfaces (orderly : plan.Orderly) : ∀ i ∈ interfaces plan,
    (i.2.map Prod.fst).Nodup ∧ ∀ property ∈ i.2, isPropertyName property.1 = true := by
  refine List.forall_mem_map.2 fun m hm => ⟨?_, ?_⟩
  · rw [List.map_map]
    exact (orderly.metrics m hm).nodup
  · have name : ∀ field, (naming.propertyOf plan.constrainedTypes field).1 = field.identifier :=
      fun _ => rfl
    refine List.forall_mem_map.2 fun field there => ?_
    rw [name, (orderly.metrics m hm).identifier field there]
    exact isPropertyName_asciiIdentifier field.key

/-- The type of a field is built in, or the plan declares a union of this name. -/
theorem fieldType_mem (settings : Settings) (orderly : plan.Orderly) {m : PlannedMetric}
    (hm : m ∈ plan.metrics) {field : ArgumentField} (there : field ∈ m.fields) :
    fieldType plan.constrainedTypes field.type ∈ builtInTypes ∨
      ("type", fieldType plan.constrainedTypes field.type)
        ∈ (passagesOf settings plan).map Passage.head := by
  cases isType : field.type with
  | primitive kind =>
    refine .inl ?_
    cases kind <;> simp only [fieldType] <;> decide
  | timestamp =>
    refine .inl ?_
    simp only [fieldType]
    decide
  | constrained i =>
    obtain ⟨t, place⟩ := (orderly.metrics m hm).place field there i isType
    simp only [fieldType, place, Option.map_some, Option.getD_some]
    rw [heads_passagesOf]
    refine .inr (List.mem_append_right _ (List.mem_append_left _ ?_))
    exact List.mem_map_of_mem (List.mem_of_getElem? place)

/-- An artifact is well named. -/
theorem wellNamed_of_render (orderly : plan.Orderly) {text : String}
    (h : render settings plan = .ok text) :
    WellNamed settings plan text (passagesOf settings plan) := by
  have passes := (render_eq_ok_iff.1 h).1
  obtain ⟨shown, beside⟩ := shows_render orderly h
  have types := types_perm settings plan
  have distinctTypes := types.nodup_iff.2 ((checkNames_eq_ok_iff orderly).1 passes)
  have enumerationBodies := enumerationsOf_passagesOf settings orderly
  have interfaceBodies := interfacesOf_passagesOf settings orderly
  constructor
  case shown => exact shown
  case beside => exact beside
  case types => exact types
  case distinctTypes => exact distinctTypes
  case unreserved =>
    exact fun name there => unreserved_of_mem_typeNames name (types.mem_iff.1 there)
  case enumerationBodies => exact enumerationBodies
  case events =>
    intro es isRead
    cases isRead.symm.trans enumerationBodies
    refine List.forall_mem_singleton.2 ⟨?_, List.forall_mem_map.2 fun m hm => ?_⟩
    · rw [List.map_map]
      exact (fits orderly passes).events
    · dsimp only
      rw [(orderly.metrics m hm).constantName]
      exact isConstantName_constantName (orderly.metrics m hm).snakeCase
  case functions => exact functions_eq settings plan
  case distinctFunctions =>
    rw [functions_eq settings plan]
    exact nodup_functionNames orderly (types.nodup_iff.1 distinctTypes)
  case interfaceBodies => exact interfaceBodies
  case properties =>
    intro is isRead
    cases isRead.symm.trans interfaceBodies
    exact properties_of_mem_interfaces orderly
  case mentioned =>
    intro is isRead
    cases isRead.symm.trans interfaceBodies
    refine List.forall_mem_map.2 fun m hm => List.forall_mem_map.2 fun field there name inside => ?_
    cases eq_of_mem_mentions (isWord_fieldType orderly.types field.type) inside
    refine (fieldType_mem settings orderly hm there).imp_right fun declared => ⟨declared, ?_⟩
    have isType : typeKeywords.contains "type" = true := by decide
    have known : fieldType plan.constrainedTypes field.type
        ∈ namesOf typeKeywords ((passagesOf settings plan).map Passage.head) :=
      List.mem_map_of_mem (List.mem_filter.2 ⟨declared, isType⟩)
    rw [(namesOf_perm beside typeKeywords).count_eq, namesOf_append, List.count_append,
      List.count_eq_one_of_mem distinctTypes known]

/-- Under any settings, a plan of a document is rendered unless two of its types come to one name,
and that is then the fault; the artifact is well named. -/
theorem wellNamed_of_document {planning : Settings} {document : Document}
    (planned : document.plan planning = .ok plan) (settings : Settings) :
    ((∃ fault, render settings plan = .error fault) ↔ ¬ (typeNames plan).Nodup) ∧
      (∀ fault, render settings plan = .error fault → fault.IsCollision) ∧
      ∀ text, render settings plan = .ok text →
        ∃ generated, WellNamed settings plan text generated := by
  have orderly := Document.orderly_of_plan planned
  refine ⟨?_, ?_, fun text isText => ⟨_, wellNamed_of_render orderly isText⟩⟩
  · rw [exists_render_eq_error_iff, checkNames_eq_ok_iff orderly]
  · intro fault failed
    rcases Checked.bind_eq_error_iff.1 failed with names | ⟨_, -, done⟩
    · exact isCollision_of_checkNames names
    · cases done

/-- A document with names that are global types or keywords. -/
def shadowingDocument : Document where
  metadata := [{ name := "Date", allowedValues := some ["today", "to-day"] }, { name := "from" }]
  metrics := [
    { name := "map", unit := "Bytes", metadata := [.reference "$Date", .reference "$from"] }]

/-- Settings whose import declares an enumeration. -/
def declaringSettings : Settings := { sinkImport := some "export enum A \x7b\n\x7d" }

theorem shadowingDocument_renders :
    ((shadowingDocument.plan { sortedMetrics := true }).toOption.any fun plan =>
      (render declaringSettings plan).toOption.isSome) = true := by
  decide +kernel

/-- The document has a well-named artifact, in which the import declares an enumeration more. -/
theorem wellNamed_of_shadowingDocument :
    ∃ plan text, shadowingDocument.plan { sortedMetrics := true } = .ok plan ∧
      render declaringSettings plan = .ok text ∧ (typeNames plan).Nodup ∧
      settingsDeclarations declaringSettings plan = [("enum", "A")] ∧
      ∃ generated, WellNamed declaringSettings plan text generated := by
  obtain ⟨plan, planned, rendered⟩ := Checked.any_toOption_iff.1 shadowingDocument_renders
  obtain ⟨text, isText⟩ := Checked.isSome_toOption_iff.1 rendered
  obtain ⟨fails_iff, -, wellNamed⟩ := wellNamed_of_document planned declaringSettings
  refine ⟨plan, text, planned, isText, ?_, ?_, wellNamed text isText⟩
  · by_contra collides
    obtain ⟨fault, failed⟩ := fails_iff.2 collides
    rw [isText] at failed
    cases failed
  · rw [settingsDeclarations_of_unbroken (by decide)]
    decide

/-! ### Types that are imported -/

/-- A document with a union of one text. -/
def regionDocument : Document where
  metadata := [{ name := "region", allowedValues := some ["a"] }]
  metrics := [{ name := "open", unit := "Count", metadata := [.reference "$region"] }]

/-- Settings whose import declares a type of the same name. -/
def importingSettings : Settings := { sinkImport := some "export type region = 'x'" }

/-- The interface of the document's metric. -/
def regionInterface : String × List (String × Property) :=
  ("Open", [("region", ⟨false, "region"⟩), ("createTime", ⟨false, "Date"⟩),
    ("value", ⟨false, "number"⟩)])

theorem regionDocument_renders : ((regionDocument.plan {}).toOption.any fun plan =>
    (render importingSettings plan).toOption.isSome &&
      decide (interfaces plan = [regionInterface] ∧
        ((passagesOf importingSettings plan).map Passage.head).count ("type", "region") = 1))
      = true := by
  decide +kernel

/-- An interface of an artifact may mention a type that is not built in and that the artifact
declares twice. -/
theorem declaredTwice_of_importedType :
    ∃ plan text, regionDocument.plan {} = .ok plan ∧ render importingSettings plan = .ok text ∧
      (∃ p ∈ passagesIn text, p.keyword = "interface" ∧ properties? p = some regionInterface) ∧
      ("region", ⟨false, "region"⟩) ∈ regionInterface.2 ∧ "region" ∉ builtInTypes ∧
      (declarationsIn text).count ("type", "region") = 2 := by
  obtain ⟨plan, planned, evaluated⟩ := Checked.any_toOption_iff.1 regionDocument_renders
  rw [Bool.and_eq_true, Checked.isSome_toOption_iff, decide_eq_true_iff] at evaluated
  obtain ⟨⟨text, isText⟩, isInterface, once⟩ := evaluated
  have named := wellNamed_of_render (Document.orderly_of_plan planned) isText
  refine ⟨plan, text, planned, isText, ?_, List.mem_cons_self, by decide, ?_⟩
  · have bodies := named.interfaceBodies
    rw [isInterface, interfacesOf, Related.mapM_eq_some_iff] at bodies
    obtain ⟨p, _, isRead, -, interfaces⟩ := List.forall₂_cons_right_iff.1 bodies
    obtain ⟨inside, isInterface⟩ := List.mem_filter.1 (interfaces ▸ List.mem_cons_self)
    exact ⟨p, named.shown.subset inside, beq_iff_eq.1 isInterface, isRead⟩
  · rw [named.beside.count_eq, List.count_append, once,
      settingsDeclarations_of_unbroken (by decide)]
    decide

end TypeScript

end Telemetry.Artifact
