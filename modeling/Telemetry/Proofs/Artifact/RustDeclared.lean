import Telemetry.Proofs.Artifact.Declared
import Telemetry.Proofs.Artifact.RustReader

/-!
# What Rust artifacts declare

* `Rust.passagesIn` are the declarations of a text with their bodies; `Rust.enumerationsOf` reads
  the variants out of the bodies of enumerations, and `Rust.structuresOf` the fields out of those of
  structures, and neither reads anything if some line of a body is nothing of the kind;
* `Rust.splitOn_of_render`: the lines of an artifact are the lines of its plan;
* `Rust.passagesIn_of_render`: what an artifact declares is what its plan comes to, so
  `Rust.enumerationsOf_passagesOf` and `Rust.structuresOf_passagesOf` say what is inside.
-/

namespace Telemetry.Artifact.Rust

variable {plan : Plan}

/-! ### The reader -/

/-- How a declaration begins. -/
def heading : Heading where
  marks := ["pub ", "pub(crate) ", "async ", "unsafe "]
  keywords :=
    ["const fn", "const", "enum", "fn", "macro_rules!", "mod", "static", "struct", "trait", "type",
     "union"]
  worded := by decide

/-- The declarations of a text with their bodies. -/
def passagesIn (text : String) : List Passage :=
  heading.passages (text.toList.splitOn '\n')

/-- What the lines of a text declare. -/
def declarationsIn (text : String) : List (String × String) :=
  heading.declaredIn (text.toList.splitOn '\n')

/-- A variant of an enumeration.  Nothing else stands on its line. -/
def variant? (line : List Char) : Option String :=
  let (name, rest) := word (unindented line)
  if rest = [','] then some name else none

/-- An enumeration with its variants. -/
def variants? (p : Passage) : Option (String × List String) :=
  (p.body.mapM variant?).map fun names => (p.name, names)

/-- A field of a structure with its type. -/
def field? (line : List Char) : Option (String × String) := do
  let rest ← after? "pub " (unindented line)
  let (name, rest) := word rest
  let rest ← after? ": " rest
  if rest.getLast? = some ',' then some (name, .ofList rest.dropLast) else none

/-- A structure with its fields. -/
def fields? (p : Passage) : Option (String × List (String × String)) :=
  (p.code.mapM field?).map fun fields => (p.name, fields)

/-- The enumerations among declarations. -/
def enumerationsOf (ps : List Passage) : Option (List (String × List String)) :=
  (Passage.withKeyword "enum" ps).mapM variants?

/-- The structures among declarations. -/
def structuresOf (ps : List Passage) : Option (List (String × List (String × String))) :=
  (Passage.withKeyword "struct" ps).mapM fields?

/-! ### What a plan comes to -/

/-- The enumeration with some variants. -/
def enumPassage (name : String) (variants : List String) : Passage :=
  .of "enum" name (variants.map (· ++ ","))

/-- The structure of a metadata entry. -/
def entryPassage : Passage :=
  .of "struct" "MetadataEntry" ["pub key: &'static str,", "pub value: String,"]

/-- The structure of a datum. -/
def datumPassage : Passage :=
  .of "struct" "MetricDatum"
    ["pub create_time: SystemTime,", "pub metric_name: TelemetryType,", "pub value: f64,",
     "pub unit: Unit,", "pub metadata: Vec<MetadataEntry>,"]

/-- The declarations that every artifact has. -/
def supportPassages : List Passage :=
  [enumPassage "Unit" (MetricUnit.all.map MetricUnit.sinkName), entryPassage, datumPassage,
   .of "trait" "TelemetrySink" ["fn record(&self, datum: MetricDatum);"]]

/-- The structure of a metric's arguments, and the function that records the metric. -/
def metricPassages (types : List ConstrainedType) (m : PlannedMetric) : List Passage :=
  [.of "struct" (metricType m) (m.fields.flatMap (fieldLines types)),
   .of "fn" (functionName m) (bodyLines m)]

/-- The declarations of a plan. -/
def passagesOf (plan : Plan) : List Passage :=
  supportPassages ++ [enumPassage "TelemetryType" (plan.metrics.map metricType)]
    ++ plan.constrainedTypes.map (fun t => enumPassage (enumName t) (variantNames t))
    ++ plan.metrics.flatMap (metricPassages plan.constrainedTypes)

/-- The text of a field's type. -/
def writtenType (types : List ConstrainedType) (field : ArgumentField) : String :=
  if field.required then fieldType types field.type
  else "Option<" ++ fieldType types field.type ++ ">"

/-- The enumerations of a plan, with the names of their variants. -/
def enumerations (plan : Plan) : List (String × List String) :=
  ("Unit", MetricUnit.all.map MetricUnit.sinkName)
    :: ("TelemetryType", plan.metrics.map metricType)
    :: plan.constrainedTypes.map fun t => (enumName t, variantNames t)

/-- The structures of a plan, with the names and the types of their fields. -/
def structures (plan : Plan) : List (String × List (String × String)) :=
  ("MetadataEntry", [("key", "&'static str"), ("value", "String")])
    :: ("MetricDatum",
      [("create_time", "SystemTime"), ("metric_name", "TelemetryType"), ("value", "f64"),
       ("unit", "Unit"), ("metadata", "Vec<MetadataEntry>")])
    :: plan.metrics.map fun m =>
      (metricType m, m.fields.map fun field =>
        (fieldName field.identifier, writtenType plan.constrainedTypes field))

/-! ### The lines of a plan -/

theorem shows_blank : heading.Shows [""] [] [] :=
  .symbols plain_blank (by decide)

theorem declared?_impl (rest : List Char) : heading.declared? ("impl ".toList ++ rest) = none := by
  rfl

theorem shows_enumLines {name : String} (hName : IsWord name) {variants : List (String × String)}
    (hVariants : ∀ v ∈ variants, IsWord v.1) :
    heading.Shows (enumLines name variants) [enumPassage name (variants.map Prod.fst)] [] := by
  have plain := plain_cons.1 (plain_enumLines hName hVariants)
  have mark : heading.Shows [enumAttribute] [] [] :=
    .symbols (plain_cons.2 ⟨plain.1, plain_nil⟩) (by decide)
  have opening := Heading.declared?_line (h := heading) "pub enum " "enum" " \x7b" (fun _ => rfl)
    hName (by decide)
  have body : variants.map (fun v => v.1 ++ ",") = (variants.map Prod.fst).map (· ++ ",") :=
    by rw [List.map_map]; rfl
  have block := Heading.Shows.block plain.2 opening (Heading.getLast?_append_brace _ (by decide))
  rw [enumPassage, ← body]
  exact mark.cons block

theorem shows_asStrLines {name : String} (hName : IsWord name)
    {variants : List (String × String)} (hVariants : ∀ v ∈ variants, IsWord v.1) :
    heading.Shows (asStrLines name variants) [] [] := by
  refine .passed (plain_asStrLines hName hVariants) ?_ (Heading.declared?_symbol (by decide))
  rw [String.toList_append, String.toList_append, List.append_assoc]
  exact declared?_impl _

theorem shows_textEnumLines {name : String} (hName : IsWord name)
    {variants : List (String × String)} (hVariants : ∀ v ∈ variants, IsWord v.1) :
    heading.Shows (textEnumLines name variants) [enumPassage name (variants.map Prod.fst)] [] := by
  have display : heading.Shows (enclosed ("impl fmt::Display for " ++ name ++ " \x7b")
      (enclosed "fn fmt(&self, f: &mut fmt::Formatter<'_>) -> fmt::Result \x7b"
        ["f.write_str(self.as_str())"] "\x7d") "\x7d") [] [] := by
    refine .passed (plain_displayLines hName) ?_ (Heading.declared?_symbol (by decide))
    rw [String.toList_append, String.toList_append, List.append_assoc]
    exact declared?_impl _
  have texts := ((shows_enumLines hName hVariants).append_silent shows_blank).append_silent
    (shows_asStrLines hName hVariants)
  exact (texts.append_silent shows_blank).append_silent display

theorem shows_supportLines : heading.Shows supportLines supportPassages [] := by
  have comment {line : String} (plain : Text.Unbroken line.toList)
      (symbol : (line.toList.head?.all fun c => !isIdentifierChar c) = true) :
      heading.Shows [line] [] [] :=
    .symbols (plain_cons.2 ⟨plain, plain_nil⟩) (List.forall_mem_singleton.2 symbol)
  have unitComment : heading.Shows ["/// Units understood by the telemetry sink."] [] [] :=
    comment (.ofList (by decide)) (by decide)
  have entryComment : heading.Shows ["/// One metadata key/value pair attached to a datum.",
      "#[derive(Debug, Clone, PartialEq, Eq)]"] [] [] :=
    (comment (.ofList (by decide)) (by decide)).cons (comment (.ofList (by decide)) (by decide))
  have datumComment : heading.Shows ["/// A single recorded metric event.",
      "#[derive(Debug, Clone, PartialEq)]"] [] [] :=
    (comment (.ofList (by decide)) (by decide)).cons (comment (.ofList (by decide)) (by decide))
  have sinkComment : heading.Shows ["/// Destination of recorded metric events."] [] [] :=
    comment (.ofList (by decide)) (by decide)
  have unit : heading.Shows (enumLines "Unit" unitVariants)
      [enumPassage "Unit" (MetricUnit.all.map MetricUnit.sinkName)] [] :=
    shows_enumLines (by decide) isWord_unitVariants
  have texts : heading.Shows (asStrLines "Unit" unitVariants) [] [] :=
    shows_asStrLines (by decide) isWord_unitVariants
  have entry : heading.Shows (enclosed "pub struct MetadataEntry \x7b"
      ["pub key: &'static str,", "pub value: String,"] "\x7d") [entryPassage] [] :=
    .block plain_entryStruct (by decide) (by decide)
  have datum : heading.Shows (enclosed "pub struct MetricDatum \x7b"
      ["pub create_time: SystemTime,", "pub metric_name: TelemetryType,", "pub value: f64,",
       "pub unit: Unit,", "pub metadata: Vec<MetadataEntry>,"] "\x7d") [datumPassage] [] :=
    .block plain_datumStruct (by decide) (by decide)
  have sink : heading.Shows (enclosed "pub trait TelemetrySink \x7b"
      ["fn record(&self, datum: MetricDatum);"] "\x7d")
      [.of "trait" "TelemetrySink" ["fn record(&self, datum: MetricDatum);"]] [] :=
    .block plain_sinkTrait (by decide) (by decide)
  have units := (((unitComment.append unit).append_silent shows_blank).append_silent
    texts).append_silent shows_blank
  have entries := ((units.append_silent entryComment).append entry).append_silent shows_blank
  have data := ((entries.append_silent datumComment).append datum).append_silent shows_blank
  exact (data.append_silent sinkComment).append sink

theorem shows_eventLines (orderly : plan.Orderly) :
    heading.Shows (eventLines plan)
      [enumPassage "TelemetryType" (plan.metrics.map metricType)] [] := by
  have words : ∀ v ∈ plan.metrics.map fun m => (metricType m, m.name), IsWord v.1 := by
    simp only [List.forall_mem_map]
    exact fun m hm => isWord_metricType (orderly.metrics m hm)
  have names : (plan.metrics.map fun m => (metricType m, m.name)).map Prod.fst
      = plan.metrics.map metricType := by simp only [List.map_map, Function.comp_def]
  have comment : heading.Shows ["/// Names of every metric in the schema."] [] [] :=
    .symbols (plain_cons.2 ⟨.ofList (by decide), plain_nil⟩) (by decide)
  have name : IsWord "TelemetryType" := by decide
  have events := shows_textEnumLines name words
  rw [names] at events
  exact comment.append events

theorem shows_constrainedLines {t : ConstrainedType} (orderly : t.Orderly) :
    heading.Shows (constrainedLines t) [enumPassage (enumName t) (variantNames t)] [] := by
  have words : ∀ v ∈ t.values.map fun value => (variantName value, value), IsWord v.1 := by
    simp only [List.forall_mem_map]
    exact fun value _ => isWord_variantName value
  have names : (t.values.map fun value => (variantName value, value)).map Prod.fst
      = variantNames t := by simp only [List.map_map, Function.comp_def, variantNames]
  have comment : heading.Shows
      ["/// Allowed values of the `" ++ commentLine t.source ++ "` metadata field."] [] [] := by
    refine .symbols ?_ (List.forall_mem_singleton.2 ?_)
    · simp +decide only [plain_cons, plain_nil, Text.unbroken_toList_append, unbroken_commentLine]
    · rw [String.toList_append, String.toList_append, List.append_assoc]
      rfl
  have variants := shows_textEnumLines (isWord_enumName orderly) words
  rw [names] at variants
  exact comment.append variants

theorem shows_structLines (orderly : plan.Orderly) {m : PlannedMetric} (hm : m ∈ plan.metrics) :
    heading.Shows (structLines plan.constrainedTypes m)
      [.of "struct" (metricType m) (m.fields.flatMap (fieldLines plan.constrainedTypes))] [] := by
  have plain := plain_append.1 (plain_structLines orderly hm)
  have front : heading.Shows ["/// Arguments for [`" ++ functionName m ++ "`].",
      if m.argsOptional then "#[derive(Debug, Clone, Default, PartialEq)]"
      else "#[derive(Debug, Clone, PartialEq)]"] [] [] := by
    refine .symbols plain.1 ?_
    rw [List.forall_mem_cons, List.forall_mem_singleton]
    constructor
    · rw [String.toList_append, String.toList_append, List.append_assoc]
      rfl
    · split <;> rfl
  have opening := Heading.declared?_line (h := heading) "pub struct " "struct" " \x7b"
    (fun _ => rfl) (isWord_metricType (orderly.metrics m hm)) (by decide)
  exact front.append
    (.block plain.2 opening (Heading.getLast?_append_brace _ (by decide)))

theorem shows_functionLines {m : PlannedMetric} {types : List ConstrainedType}
    (orderly : m.Orderly types) :
    heading.Shows (functionLines m) [.of "fn" (functionName m) (bodyLines m)] [] := by
  have plain := plain_functionLines orderly
  have comment : heading.Shows (functionComment m) [] [] := by
    rw [functionLines_eq, plain_append] at plain
    refine .symbols plain.1 ?_
    rw [functionComment]
    split
    · rw [commentLines, List.forall_mem_map]
      intro line _
      rw [String.toList_append]
      rfl
    · rw [List.forall_mem_singleton, String.toList_append, String.toList_append, List.append_assoc]
      rfl
  have opening := Heading.declared?_opening (h := heading) "pub fn " "fn"
    "(sink: &dyn TelemetrySink, args: " (fun _ => rfl) (isWord_recorder orderly) (by decide)
  rw [functionLines_eq] at plain ⊢
  refine comment.append
    (.block (plain_append.1 plain).2 ?_ (Heading.getLast?_append_brace _ (by decide)))
  simp only [String.toList_append, List.append_assoc]
  exact opening _

/-- What the lines of a plan show. -/
theorem shows_lines (orderly : plan.Orderly) : heading.Shows (lines plan) (passagesOf plan) [] := by
  have front : heading.Shows header [] [] := .silent plain_header (by decide)
  have support := (front.append_silent shows_blank).append shows_supportLines
  have events := (support.append_silent shows_blank).append (shows_eventLines orderly)
  have enumerations := Heading.Shows.flatMap_alone
    fun t ht => shows_blank.append (shows_constrainedLines (orderly.types t ht))
  have metrics := Heading.Shows.flatMap_alone fun m hm =>
    ((shows_blank.append (shows_structLines orderly hm)).append_silent shows_blank).append
      (shows_functionLines (orderly.metrics m hm))
  have all := (events.append enumerations).append metrics
  simp only [passagesOf, List.map_eq_flatMap (l := plan.constrainedTypes)]
  exact all

/-! ### Artifacts -/

theorem plain_constrainedLines {t : ConstrainedType} (orderly : t.Orderly) :
    Plain (constrainedLines t) := by
  have variants : ∀ v ∈ t.values.map fun value => (variantName value, value), IsWord v.1 := by
    simp only [List.forall_mem_map]
    exact fun value _ => isWord_variantName value
  simp +decide only [constrainedLines, plain_append, plain_cons, plain_nil,
    Text.unbroken_toList_append, unbroken_commentLine,
    plain_textEnumLines (isWord_enumName orderly) variants]

theorem plain_eventLines (orderly : plan.Orderly) : Plain (eventLines plan) := by
  have variants : ∀ v ∈ plan.metrics.map fun m => (metricType m, m.name), IsWord v.1 := by
    simp only [List.forall_mem_map]
    exact fun m hm => isWord_metricType (orderly.metrics m hm)
  have name : IsWord "TelemetryType" := by decide
  have texts := plain_textEnumLines name variants
  exact plain_append.2 ⟨by simp +decide only [plain_cons, plain_nil], texts⟩

/-- No line of a plan holds a character that could end it. -/
theorem plain_lines (orderly : plan.Orderly) : Plain (lines plan) := by
  have enumerations : Plain
      (plan.constrainedTypes.flatMap fun t => [""] ++ constrainedLines t) := by
    rw [plain_flatMap]
    intro t ht
    simp +decide only [plain_append, plain_cons, plain_nil,
      plain_constrainedLines (orderly.types t ht)]
  have metrics : Plain (plan.metrics.flatMap fun m =>
      [""] ++ structLines plan.constrainedTypes m ++ [""] ++ functionLines m) := by
    rw [plain_flatMap]
    intro m hm
    simp +decide only [plain_append, plain_cons, plain_nil, plain_structLines orderly hm,
      plain_functionLines (orderly.metrics m hm)]
  simp +decide only [lines, plain_append, plain_cons, plain_nil, plain_header, plain_supportLines,
    plain_eventLines orderly, enumerations, metrics]

/-- What an artifact declares, with the bodies. -/
theorem passagesIn_of_render (orderly : plan.Orderly) {text : String}
    (h : render plan = .ok text) : passagesIn text = passagesOf plan := by
  have last : heading.Shows [""] [] [] := shows_blank
  have all := ((shows_lines orderly).append_silent last).passages_eq
  have blank : [""].flatMap physical = [[]] := by rfl
  rw [passagesIn, (render_eq_ok_iff.1 h).2, splitOn_joinLines, ← blank, ← List.flatMap_append, all]

/-- What the support declares. -/
def supportDeclarations : List (String × String) :=
  [("enum", "Unit"), ("struct", "MetadataEntry"), ("struct", "MetricDatum"),
   ("trait", "TelemetrySink")]

/-- What an artifact declares. -/
theorem declarationsIn_of_render (orderly : plan.Orderly) {text : String}
    (h : render plan = .ok text) :
    declarationsIn text = supportDeclarations ++ [("enum", "TelemetryType")]
      ++ plan.constrainedTypes.map (fun t => ("enum", enumName t))
      ++ plan.metrics.flatMap fun m => [("struct", metricType m), ("fn", functionName m)] := by
  have support : supportPassages.map Passage.head = supportDeclarations := by rfl
  have types : (plan.constrainedTypes.map fun t => enumPassage (enumName t) (variantNames t)).map
      Passage.head = plan.constrainedTypes.map fun t => ("enum", enumName t) := by
    simp only [List.map_map, Function.comp_def, enumPassage, Passage.head_of]
  have metrics : (plan.metrics.flatMap (metricPassages plan.constrainedTypes)).map Passage.head
      = plan.metrics.flatMap fun m => [("struct", metricType m), ("fn", functionName m)] := by
    simp only [List.map_flatMap, metricPassages, List.map_cons, List.map_nil, Passage.head_of]
  have heads := Heading.map_head_passages (h := heading) (text.toList.splitOn '\n')
  rw [declarationsIn, ← heads, ← passagesIn, passagesIn_of_render orderly h, passagesOf,
    List.map_append, List.map_append, List.map_append, support, types, metrics, List.map_singleton,
    enumPassage, Passage.head_of]

/-! ### Bodies -/

theorem variant?_line {name : String} (isWord : IsWord name) (notEmpty : name ≠ "") :
    variant? (indentation ++ (name ++ ",")).toList = some name := by
  have begins : unindented (indentation ++ (name ++ ",")).toList = name.toList ++ ",".toList := by
    rw [← shown, shown_indentation, shown_word isWord notEmpty]
  simp only [variant?, begins, word_before_last "," (by decide) isWord]
  rfl

theorem variants?_enumPassage (name : String) {variants : List String}
    (words : ∀ variant ∈ variants, IsWord variant ∧ variant ≠ "") :
    variants? (enumPassage name variants) = some (name, variants) := by
  have plain : Plain (variants.map (· ++ ",")) := by
    refine plain_map.2 fun variant there => ?_
    exact Text.unbroken_toList_append.2 ⟨(words variant there).1.unbroken, by decide⟩
  have body := mapM_body_of plain
    (fun variant there => variant?_line (words variant there).1 (words variant there).2)
    "enum" name
  rw [variants?, enumPassage, body, List.map_id']
  rfl

theorem field?_line {name type : String} (isWord : IsWord name) :
    field? (indentation ++ ("pub " ++ name ++ ": " ++ type ++ ",")).toList
      = some (name, type) := by
  have begins : unindented (indentation ++ ("pub " ++ name ++ ": " ++ type ++ ",")).toList
      = "pub ".toList ++ (name.toList ++ (": ".toList ++ (type.toList ++ [',']))) := by
    simp only [String.toList_append, List.append_assoc]
    rfl
  simp only [field?, begins, after?_append, word_before ": " (by decide) isWord,
    Option.bind_eq_bind, Option.bind_some, List.getLast?_concat, List.dropLast_concat,
    String.ofList_toList, if_true]

/-- The line of a field, behind its description. -/
def fieldLine (types : List ConstrainedType) (field : ArgumentField) : String :=
  "pub " ++ fieldName field.identifier ++ ": " ++ writtenType types field ++ ","

theorem isComment_of_mem_commentLines (description : String) :
    ∀ line ∈ commentLines description, Passage.isComment (indentation ++ line).toList = true := by
  refine List.forall_mem_map.2 fun line _ => ?_
  simp only [Passage.isComment, String.toList_append]
  rfl

theorem isComment_fieldLine (types : List ConstrainedType) (field : ArgumentField) :
    Passage.isComment (indentation ++ fieldLine types field).toList = false := by
  simp only [Passage.isComment, fieldLine, String.toList_append, List.append_assoc]
  rfl

theorem fields?_metric (orderly : plan.Orderly) {m : PlannedMetric} (hm : m ∈ plan.metrics) :
    fields? (.of "struct" (metricType m) (m.fields.flatMap (fieldLines plan.constrainedTypes)))
      = some (metricType m, m.fields.map fun field =>
        (fieldName field.identifier, writtenType plan.constrainedTypes field)) := by
  have isOrderly := orderly.metrics m hm
  have plain : Plain (m.fields.flatMap (fieldLines plan.constrainedTypes)) := by
    rw [plain_flatMap]
    exact fun field there => plain_fieldLines orderly.types (isWord_property isOrderly field there)
  have split : ∀ field ∈ m.fields, ∃ comments,
      fieldLines plan.constrainedTypes field
        = comments ++ [fieldLine plan.constrainedTypes field] ∧
      ∀ comment ∈ comments, Passage.isComment (indentation ++ comment).toList = true := by
    intro field _
    exact ⟨_, rfl, Passage.isComment_getD field.description isComment_of_mem_commentLines⟩
  have code := mapM_code_of plain split (fun field _ => isComment_fieldLine _ field)
    (fun field there => field?_line (isWord_property isOrderly field there))
    "struct" (metricType m)
  rw [fields?, code]
  rfl

theorem isTypeName_metricType {m : PlannedMetric} {types : List ConstrainedType}
    (orderly : m.Orderly types) : isTypeName (metricType m) = true := by
  rw [metricType, orderly.typeName]
  exact isTypeName_typeName (isAlphanum_of_mem_pascalCase orderly.snakeCase.isWord)
    (startsLower_pascalCase orderly.snakeCase.isWord)

theorem isTypeName_enumName {t : ConstrainedType} (orderly : t.Orderly) :
    isTypeName (enumName t) = true := by
  have isWord := isWord_asciiIdentifier t.source
  rw [enumName, orderly.identifier]
  exact isTypeName_typeName (isAlphanum_of_mem_pascalCase isWord) (startsLower_pascalCase isWord)

/-- Every variant gets a name that can be one. -/
theorem form_of_mem_enumerations (orderly : plan.Orderly) : ∀ e ∈ enumerations plan,
    ∀ name ∈ e.2, isTypeName name = true ∧ name ∉ keywords := by
  intro e there
  rcases List.mem_cons.1 there with rfl | there
  · decide +kernel
  rcases List.mem_cons.1 there with rfl | there
  · refine List.forall_mem_map.2 fun m hm => ?_
    exact ⟨isTypeName_metricType (orderly.metrics m hm), typeName_notMem_keywords _⟩
  · obtain ⟨t, -, rfl⟩ := List.mem_map.1 there
    refine List.forall_mem_map.2 fun value _ => ?_
    exact ⟨isTypeName_variantName value, variantName_notMem_keywords value⟩

/-- What the type of a field mentions beside what may stand around it. -/
theorem eq_or_of_mem_mentions_writtenType {types : List ConstrainedType} {field : ArgumentField}
    (isWord : IsWord (fieldType types field.type)) {name : String}
    (there : name ∈ mentions (writtenType types field)) :
    name = "Option" ∨ name = fieldType types field.type := by
  rw [writtenType] at there
  split at there
  · exact .inr (eq_of_mem_mentions isWord there)
  · have parts : ("Option<" ++ fieldType types field.type ++ ">").toList = "Option".toList
        ++ '<' :: ((fieldType types field.type).toList ++ '>' :: "".toList) := by
      rw [String.toList_append, String.toList_append, List.append_assoc]
      rfl
    rw [mentions_around parts (by decide) (by decide)] at there
    rcases List.mem_append.1 there with there | there
    · exact .inl (eq_of_mem_mentions (by decide) there)
    rcases List.mem_append.1 there with there | there
    · exact .inr (eq_of_mem_mentions isWord there)
    · have none : mentions "" = [] := by rfl
      rw [none] at there
      cases there

/-- The enumerations of a plan have the variants that they should have. -/
theorem enumerationsOf_passagesOf (orderly : plan.Orderly) :
    enumerationsOf (passagesOf plan) = some (enumerations plan) := by
  have support : Passage.withKeyword "enum" supportPassages
      = [enumPassage "Unit" (MetricUnit.all.map MetricUnit.sinkName)] := by rfl
  have events : Passage.withKeyword "enum"
      [enumPassage "TelemetryType" (plan.metrics.map metricType)]
      = [enumPassage "TelemetryType" (plan.metrics.map metricType)] := by rfl
  have types : Passage.withKeyword "enum"
      (plan.constrainedTypes.map fun t => enumPassage (enumName t) (variantNames t))
      = plan.constrainedTypes.map fun t => enumPassage (enumName t) (variantNames t) :=
    Passage.withKeyword_map fun _ _ => rfl
  have metrics : Passage.withKeyword "enum"
      (plan.metrics.flatMap (metricPassages plan.constrainedTypes)) = [] :=
    Passage.withKeyword_flatMap_other fun _ _ => rfl
  have kept : Passage.withKeyword "enum" (passagesOf plan)
      = (enumerations plan).map fun e => enumPassage e.1 e.2 := by
    simp only [passagesOf, Passage.withKeyword_append, support, events, types, metrics,
      enumerations, List.map_cons, List.map_map, Function.comp_def, List.cons_append,
      List.nil_append, List.append_nil]
  rw [enumerationsOf, kept, List.mapM_map, Related.mapM_eq_some_iff, List.forall₂_same]
  exact fun e there => variants?_enumPassage e.1 fun name inside =>
    isWord_of_isTypeName (form_of_mem_enumerations orderly e there name inside).1

/-- The structures of a plan have the fields that they should have. -/
theorem structuresOf_passagesOf (orderly : plan.Orderly) :
    structuresOf (passagesOf plan) = some (structures plan) := by
  have support : Passage.withKeyword "struct" supportPassages = [entryPassage, datumPassage] := by
    rfl
  have events : Passage.withKeyword "struct"
      [enumPassage "TelemetryType" (plan.metrics.map metricType)] = [] := by rfl
  have types : Passage.withKeyword "struct"
      (plan.constrainedTypes.map fun t => enumPassage (enumName t) (variantNames t)) = [] :=
    Passage.withKeyword_map_other fun _ _ => show "enum" ≠ "struct" by decide
  have metrics : Passage.withKeyword "struct"
      (plan.metrics.flatMap (metricPassages plan.constrainedTypes)) = plan.metrics.map fun m =>
        .of "struct" (metricType m) (m.fields.flatMap (fieldLines plan.constrainedTypes)) :=
    Passage.withKeyword_flatMap fun _ _ => rfl
  have entry : fields? entryPassage
      = some ("MetadataEntry", [("key", "&'static str"), ("value", "String")]) := by decide
  have datum : fields? datumPassage = some ("MetricDatum",
      [("create_time", "SystemTime"), ("metric_name", "TelemetryType"), ("value", "f64"),
       ("unit", "Unit"), ("metadata", "Vec<MetadataEntry>")]) := by decide
  rw [structuresOf, passagesOf, Passage.withKeyword_append, Passage.withKeyword_append,
    Passage.withKeyword_append, support, events, types, metrics, Related.mapM_eq_some_iff,
    structures]
  refine .cons entry (.cons datum ?_)
  rw [List.forall₂_map_right_iff]
  refine List.forall₂_map_left_iff.2 (List.forall₂_same.2 fun m hm => ?_)
  exact fields?_metric orderly hm

end Telemetry.Artifact.Rust
