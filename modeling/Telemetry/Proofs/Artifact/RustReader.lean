import Telemetry.Proofs.Artifact.Declarations
import Telemetry.Proofs.Artifact.Literal
import Telemetry.Proofs.Artifact.Names
import Telemetry.Proofs.Identifier.Forms

/-!
# Reading Rust artifacts

* `Rust.outline` says how a Rust artifact is read: which lines open a block, and what a block
  declares;
* `Rust.naming` is how Rust artifacts name what a plan declares;
* `reads_lines`: the lines of a plan declare what they should;
* `read?_of_render`: an artifact has the contract of its plan.
-/

namespace Telemetry.Artifact.Rust

/-! ### The reader -/

/-- The class of a built-in type. -/
def classOf (name : String) : Option WireType :=
  [("String", WireType.text), ("i64", .number), ("f64", .number), ("bool", .boolean)].lookup name

/-- A variant of an enumeration with its text. -/
def arm? (line : List Char) : Option (String × String) := do
  let rest ← after? "::" (word line).2
  let (variant, rest) := word rest
  let rest ← after? " => " rest
  let (text, _) ← quoting.read? rest
  return (variant, text)

/-- An enumeration, by the method that gives the texts of its variants. -/
def enumeration? (block : Block) : Option Declaration := do
  let rest ← after? "impl " block.opening
  let (name, rest) := word rest
  let _ ← after? " \x7b" rest
  return .enumeration name (block.body.filterMap arm?)

/-- The text before a character. -/
def upTo (stop : Char) (cs : List Char) : String :=
  .ofList (cs.takeWhile (· != stop))

/-- Whether the type before a character is that of something optional, and the type itself. -/
def type? (stop : Char) (cs : List Char) : Bool × String :=
  match after? "Option<" cs with
  | some inner => (true, upTo '>' inner)
  | none => (false, upTo stop cs)

/-- A field of a structure. -/
def property? (line : List Char) : Option (String × Property) := do
  let rest ← after? "pub " line
  let (name, rest) := word rest
  let rest ← after? ": " rest
  let (isOptional, type) := type? ',' rest
  return (name, ⟨!isOptional, type⟩)

/-- A structure. -/
def structure? (block : Block) : Option Declaration := do
  let rest ← after? "pub struct " block.opening
  return .record (word rest).1 (block.body.filterMap property?)

/-- A variant behind the name of its enumeration. -/
def path? (cs : List Char) : Option TextExpression := do
  let (enumeration, rest) := word cs
  let rest ← after? "::" rest
  return .member enumeration (word rest).1

/-- The event of a datum. -/
def event? (line : List Char) : Option TextExpression :=
  after? "metric_name: " line >>= path?

/-- The unit of a datum. -/
def unit? (line : List Char) : Option TextExpression :=
  after? "unit: " line >>= path?

/-- A metadata entry of a datum. -/
def metadata? (line : List Char) : Option (String × String) := do
  let rest ← after? "MetadataEntry \x7b key: " line
  let (key, rest) ← quoting.read? rest
  let rest ← after? ", value: args." rest
  return (key, (word rest).1)

/-- Whether the arguments of a function can be left out, and their type. -/
def signature? (line : List Char) : Option (Bool × String) := do
  let rest ← after? "pub fn " line
  let rest ← after? "(sink: &dyn TelemetrySink, args: " (word rest).2
  return type? ')' rest

/-- A recording function. -/
def recorder? (block : Block) : Option Declaration := do
  let (omissible, record) ← signature? block.opening
  let event ← block.body.findSome? event?
  let unit ← block.body.findSome? unit?
  return .recorder { record, omissible, event, unit, entries := block.body.filterMap metadata? }

/-- How artifacts are read. -/
def outline : Outline Declaration where
  opens line :=
    if (after? "pub " line).isSome || (after? "impl " line).isSome then some 0 else none
  item? block := enumeration? block <|> structure? block <|> recorder? block

/-- The contract of an artifact. -/
def read? (text : String) : Option WireContract :=
  contract? classOf (outline.items (text.toList.splitOn '\n'))

/-- The units with their texts. -/
def unitVariants : List (String × String) :=
  MetricUnit.all.map fun unit => (unit.sinkName, unit.sinkName)

/-- The structure of a metadata entry. -/
def entryRecord : Declaration :=
  .record "MetadataEntry" [("key", ⟨true, "&'static str"⟩), ("value", ⟨true, "String"⟩)]

/-- The structure of a datum. -/
def datumRecord : Declaration :=
  .record "MetricDatum"
    [("create_time", ⟨true, "SystemTime"⟩), ("metric_name", ⟨true, "TelemetryType"⟩),
     ("value", ⟨true, "f64"⟩), ("unit", ⟨true, "Unit"⟩),
     ("metadata", ⟨true, "Vec<MetadataEntry>"⟩)]

/-- What every artifact declares. -/
def support : List Declaration :=
  [.enumeration "Unit" unitVariants, entryRecord, datumRecord]

/-- How artifacts name what a plan declares. -/
def naming : Naming where
  support := support
  events := "TelemetryType"
  event := metricType
  unit unit := .member "Unit" unit.sinkName
  record := metricType
  enumeration := enumName
  member := variantName
  property := fieldName
  fieldType := fieldType
  classOf := classOf

variable {plan : Plan}

theorem plain_blank : Plain [""] := plain_cons.2 ⟨by decide, plain_nil⟩

/-- A blank line declares nothing. -/
theorem reads_blank : outline.Reads [""] [] :=
  Outline.Reads.single (.ofList (by decide)) (by rfl) (by rfl)

/-- A comment declares nothing, whatever it says. -/
theorem reads_comment {line : String} (plain : Text.Unbroken line.toList)
    (marked : (after? "/// " line.toList).isSome = true) : outline.Reads [line] [] := by
  obtain ⟨rest, isLine⟩ := eq_append_of_isSome_after? marked
  refine Outline.Reads.single plain ?_ ?_
  · rw [isLine]
    rfl
  · rw [isLine]
    rfl

/-! ### Enumerations -/

theorem arm?_shown {name variant : String} (hName : IsWord name) (hVariant : IsWord variant)
    (text : String) :
    arm? (shown (name ++ "::" ++ variant ++ " => " ++ literal text ++ ","))
      = some (variant, text) := by
  have begins : shown (name ++ "::" ++ variant ++ " => " ++ literal text ++ ",")
      = (name ++ "::" ++ variant ++ " => " ++ literal text ++ ",").toList := by
    simp only [String.append_assoc]
    by_cases empty : name = ""
    · rw [empty]
      simp only [shown, String.toList_append]
      rfl
    · rw [shown_word hName empty]
      simp only [String.toList_append]
  rw [begins, arm?]
  simp only [String.toList_append, List.append_assoc, word_before "::" (by decide) hName,
    after?_append, word_before " => " (by decide) hVariant, read_literal, Option.bind_eq_bind,
    Option.bind_some, Option.pure_def]

theorem enumeration?_block {name : String} (h : IsWord name) (body : List (List Char)) :
    enumeration? ⟨("impl " ++ name ++ " \x7b").toList, body⟩
      = some (.enumeration name (body.filterMap arm?)) := by
  have brace : after? " \x7b" " \x7b".toList = some [] := by decide
  simp only [enumeration?, String.toList_append, List.append_assoc, after?_append,
    word_before_last " \x7b" (by decide) h, brace, Option.bind_eq_bind, Option.bind_some,
    Option.pure_def]

theorem plain_enumLines {name : String} (hName : IsWord name) {variants : List (String × String)}
    (hVariants : ∀ v ∈ variants, IsWord v.1) : Plain (enumLines name variants) := by
  rw [enumLines, plain_cons, plain_enclosed, plain_map]
  refine ⟨by decide, ?_, ?_, by decide⟩
  · simp +decide only [Text.unbroken_toList_append, hName.unbroken]
  · intro v hv
    simp +decide only [Text.unbroken_toList_append, (hVariants v hv).unbroken]

theorem plain_asStrLines {name : String} (hName : IsWord name) {variants : List (String × String)}
    (hVariants : ∀ v ∈ variants, IsWord v.1) : Plain (asStrLines name variants) := by
  have arms : Plain
      (variants.map fun v => name ++ "::" ++ v.1 ++ " => " ++ literal v.2 ++ ",") := by
    rw [plain_map]
    intro v hv
    simp +decide only [Text.unbroken_toList_append, hName.unbroken, (hVariants v hv).unbroken,
      unbroken_literal]
  simp +decide only [asStrLines, plain_enclosed, Text.unbroken_toList_append, hName.unbroken, arms]

theorem plain_displayLines {name : String} (hName : IsWord name) :
    Plain (enclosed ("impl fmt::Display for " ++ name ++ " \x7b")
      (enclosed "fn fmt(&self, f: &mut fmt::Formatter<'_>) -> fmt::Result \x7b"
        ["f.write_str(self.as_str())"] "\x7d") "\x7d") := by
  have method : Plain (enclosed "fn fmt(&self, f: &mut fmt::Formatter<'_>) -> fmt::Result \x7b"
      ["f.write_str(self.as_str())"] "\x7d") := by
    simp only [plain_enclosed, plain_cons, plain_nil, and_true]
    exact ⟨.ofList (by decide), .ofList (by decide), .ofList (by decide)⟩
  simp +decide only [plain_enclosed, Text.unbroken_toList_append, hName.unbroken, method]

theorem plain_textEnumLines {name : String} (hName : IsWord name)
    {variants : List (String × String)} (hVariants : ∀ v ∈ variants, IsWord v.1) :
    Plain (textEnumLines name variants) := by
  simp only [textEnumLines, plain_append, plain_blank, plain_enumLines hName hVariants,
    plain_asStrLines hName hVariants, plain_displayLines hName, and_self]

/-- The method that gives the texts of an enumeration declares it. -/
theorem reads_asStrLines {name : String} (hName : IsWord name) {variants : List (String × String)}
    (hVariants : ∀ v ∈ variants, IsWord v.1) :
    outline.Reads (asStrLines name variants) [.enumeration name variants] := by
  have arms := filterMap_shown_map arm? _ fun v hv =>
    arm?_shown hName (hVariants v hv) v.2
  have method : arm? (shown "pub fn as_str(self) -> &'static str \x7b") = none := by rfl
  have branches : arm? (shown "match self \x7b") = none := by rfl
  have brace : [shown "\x7d"].filterMap arm? = [] := by rfl
  refine Outline.Reads.block (plain_asStrLines hName hVariants) ?_ ?_
  · simp only [String.toList_append, List.append_assoc]
    rfl
  · show (enumeration? ⟨_, _⟩ <|> _).toList = _
    rw [enumeration?_block hName, map_shown_enclosed, map_shown_enclosed, List.filterMap_cons,
      method]
    simp only
    rw [List.filterMap_append, brace, List.append_nil, List.filterMap_cons, branches]
    simp only
    rw [List.filterMap_append, brace, List.append_nil, arms, List.map_id']
    rfl

/-- The declaration of an enumeration gives no texts. -/
theorem reads_enumLines {name : String} (hName : IsWord name) {variants : List (String × String)}
    (hVariants : ∀ v ∈ variants, IsWord v.1) : outline.Reads (enumLines name variants) [] := by
  have «attribute» : outline.Reads [enumAttribute] [] :=
    Outline.Reads.single (.ofList (by decide)) (by rfl) (by rfl)
  have plain := (plain_cons.1 (plain_enumLines hName hVariants)).2
  refine «attribute».cons (Outline.Reads.block plain ?_ ?_)
  · simp only [String.toList_append, List.append_assoc]
    rfl
  · simp only [String.toList_append, List.append_assoc]
    rfl

theorem reads_textEnumLines {name : String} (hName : IsWord name)
    {variants : List (String × String)} (hVariants : ∀ v ∈ variants, IsWord v.1) :
    outline.Reads (textEnumLines name variants) [.enumeration name variants] := by
  have display : outline.Reads (enclosed ("impl fmt::Display for " ++ name ++ " \x7b")
      (enclosed "fn fmt(&self, f: &mut fmt::Formatter<'_>) -> fmt::Result \x7b"
        ["f.write_str(self.as_str())"] "\x7d") "\x7d") [] := by
    refine Outline.Reads.block (plain_displayLines hName) ?_ ?_
    · simp only [String.toList_append, List.append_assoc]
      rfl
    · simp only [String.toList_append, List.append_assoc]
      rfl
  have texts := (((reads_enumLines hName hVariants).append reads_blank).append
    (reads_asStrLines hName hVariants)).append reads_blank
  exact texts.append display

theorem isWord_sinkName (unit : MetricUnit) : IsWord unit.sinkName := by
  cases unit <;> decide

theorem isWord_unitVariants : ∀ v ∈ unitVariants, IsWord v.1 := by
  rw [unitVariants, List.forall_mem_map]
  exact fun unit _ => isWord_sinkName unit

theorem plain_unitEnum :
    Plain (enumLines "Unit" unitVariants ++ [""] ++ asStrLines "Unit" unitVariants) := by
  have name : IsWord "Unit" := by decide
  exact plain_append.2 ⟨plain_append.2 ⟨plain_enumLines name isWord_unitVariants, plain_blank⟩,
    plain_asStrLines name isWord_unitVariants⟩

theorem reads_unitEnum :
    outline.Reads (enumLines "Unit" unitVariants ++ [""] ++ asStrLines "Unit" unitVariants)
      [.enumeration "Unit" unitVariants] := by
  have name : IsWord "Unit" := by decide
  exact ((reads_enumLines name isWord_unitVariants).append reads_blank).append
    (reads_asStrLines name isWord_unitVariants)

theorem plain_entryStruct : Plain (enclosed "pub struct MetadataEntry \x7b"
    ["pub key: &'static str,", "pub value: String,"] "\x7d") := by
  simp only [plain_enclosed, plain_cons, plain_nil, and_true]
  exact ⟨.ofList (by decide), ⟨.ofList (by decide), .ofList (by decide)⟩, .ofList (by decide)⟩

theorem reads_entryStruct :
    outline.Reads (enclosed "pub struct MetadataEntry \x7b"
      ["pub key: &'static str,", "pub value: String,"] "\x7d") [entryRecord] :=
  Outline.Reads.block plain_entryStruct (by rfl) (by rfl)

theorem plain_datumStruct : Plain (enclosed "pub struct MetricDatum \x7b"
    ["pub create_time: SystemTime,", "pub metric_name: TelemetryType,", "pub value: f64,",
     "pub unit: Unit,", "pub metadata: Vec<MetadataEntry>,"] "\x7d") := by
  simp only [plain_enclosed, plain_cons, plain_nil, and_true]
  exact ⟨.ofList (by decide), ⟨.ofList (by decide), .ofList (by decide), .ofList (by decide),
    .ofList (by decide), .ofList (by decide)⟩, .ofList (by decide)⟩

theorem reads_datumStruct :
    outline.Reads (enclosed "pub struct MetricDatum \x7b"
      ["pub create_time: SystemTime,", "pub metric_name: TelemetryType,", "pub value: f64,",
       "pub unit: Unit,", "pub metadata: Vec<MetadataEntry>,"] "\x7d") [datumRecord] :=
  Outline.Reads.block plain_datumStruct (by rfl) (by rfl)

theorem plain_sinkTrait : Plain (enclosed "pub trait TelemetrySink \x7b"
    ["fn record(&self, datum: MetricDatum);"] "\x7d") := by
  simp only [plain_enclosed, plain_cons, plain_nil, and_true]
  exact ⟨.ofList (by decide), .ofList (by decide), .ofList (by decide)⟩

theorem reads_sinkTrait :
    outline.Reads (enclosed "pub trait TelemetrySink \x7b"
      ["fn record(&self, datum: MetricDatum);"] "\x7d") [] :=
  Outline.Reads.block plain_sinkTrait (by rfl) (by rfl)

theorem plain_supportLines : Plain supportLines := by
  have unit := plain_unitEnum
  simp only [plain_append, unitVariants] at unit
  simp only [supportLines, plain_append, plain_cons, plain_nil, unit, plain_entryStruct,
    plain_datumStruct, plain_sinkTrait, and_true]
  exact ⟨⟨⟨.ofList (by decide), .ofList (by decide), .ofList (by decide)⟩, .ofList (by decide),
    .ofList (by decide)⟩, .ofList (by decide)⟩

theorem reads_supportLines : outline.Reads supportLines support := by
  have unitComment : outline.Reads ["/// Units understood by the telemetry sink."] [] :=
    reads_comment (.ofList (by decide)) (by decide)
  have entryComment : outline.Reads ["/// One metadata key/value pair attached to a datum.",
      "#[derive(Debug, Clone, PartialEq, Eq)]"] [] :=
    (reads_comment (.ofList (by decide)) (by decide)).cons
      (Outline.Reads.single (.ofList (by decide)) (by rfl) (by rfl))
  have datumComment : outline.Reads ["/// A single recorded metric event.",
      "#[derive(Debug, Clone, PartialEq)]"] [] :=
    (reads_comment (.ofList (by decide)) (by decide)).cons
      (Outline.Reads.single (.ofList (by decide)) (by rfl) (by rfl))
  have sinkComment : outline.Reads ["/// Destination of recorded metric events."] [] :=
    reads_comment (.ofList (by decide)) (by decide)
  have unit := unitComment.append (reads_unitEnum.append reads_blank)
  have entry := entryComment.append (reads_entryStruct.append reads_blank)
  have datum := datumComment.append (reads_datumStruct.append reads_blank)
  have sink := sinkComment.append reads_sinkTrait
  have all := ((unit.append entry).append datum).append sink
  simp only [List.append_assoc, unitVariants] at all
  simp only [supportLines, List.append_assoc]
  exact all

theorem isWord_metricType {m : PlannedMetric} {types : List ConstrainedType}
    (orderly : m.Orderly types) : IsWord (metricType m) := by
  rw [metricType, orderly.typeName]
  exact isWord_typeName (isWord_pascalCase orderly.snakeCase.isWord)

theorem isWord_enumName {t : ConstrainedType} (orderly : t.Orderly) : IsWord (enumName t) := by
  rw [enumName, orderly.identifier]
  exact isWord_typeName (isWord_pascalCase (isWord_asciiIdentifier t.source))

theorem reads_eventLines (orderly : plan.Orderly) :
    outline.Reads (eventLines plan) [naming.eventsOf plan] := by
  have comment : outline.Reads ["/// Names of every metric in the schema."] [] :=
    reads_comment (.ofList (by decide)) (by decide)
  refine comment.cons (reads_textEnumLines (by decide) ?_)
  simp only [List.forall_mem_map]
  exact fun m hm => isWord_metricType (orderly.metrics m hm)

theorem reads_constrainedLines {t : ConstrainedType} (orderly : t.Orderly) :
    outline.Reads (constrainedLines t) [naming.enumerationOf t] := by
  have comment : outline.Reads
      ["/// Allowed values of the `" ++ commentLine t.source ++ "` metadata field."] [] := by
    refine reads_comment ?_ ?_
    · simp +decide only [Text.unbroken_toList_append, unbroken_commentLine]
    · simp only [String.toList_append, List.append_assoc]
      rfl
  have variants : ∀ v ∈ t.values.map fun value => (variantName value, value), IsWord v.1 := by
    simp only [List.forall_mem_map]
    exact fun value _ => isWord_variantName value
  simp only [Naming.enumerationOf, naming, constrainedLines]
  exact comment.append (reads_textEnumLines (isWord_enumName orderly) variants)

/-! ### Structures -/

/-- A word before a character that no word holds. -/
theorem upTo_word {s : String} (h : IsWord s) {stop : Char}
    (noLetter : isIdentifierChar stop = false) (rest : List Char) :
    upTo stop (s.toList ++ stop :: rest) = s := by
  have inner : ∀ c ∈ s.toList, (c != stop) = true := by
    intro c hc
    refine bne_iff_ne.2 fun eq => ?_
    rw [← eq, h c hc] at noLetter
    cases noLetter
  have ends : Text.Ends (fun c => c != stop) (stop :: rest) :=
    Text.ends_cons (p := fun c => c != stop) (bne_self_eq_false stop) rest
  rw [upTo, Text.takeWhile_run inner ends, String.ofList_toList]

theorem type?_word {s : String} (h : IsWord s) {stop : Char}
    (noLetter : isIdentifierChar stop = false) (noBracket : stop ≠ '<') (rest : List Char) :
    type? stop (s.toList ++ stop :: rest) = (false, s) := by
  have noOption : after? "Option<" (s.toList ++ stop :: rest) = none := by
    rw [after?, if_neg]
    intro begins
    obtain ⟨more, eq⟩ := List.isPrefixOf_iff_prefix.1 begins
    have noBracketInside : '<' ∉ s.toList := fun there => absurd (h _ there) (by decide)
    rcases List.append_eq_append_iff.1 eq with ⟨inner, isWord, -⟩ | ⟨inner, isOption, isRest⟩
    · refine noBracketInside ?_
      rw [isWord]
      exact List.mem_append_left _ (by decide)
    · cases inner with
      | nil =>
        refine noBracketInside ?_
        rw [List.append_nil] at isOption
        rw [← isOption]
        decide
      | cons c inner =>
        cases isRest
        have letters : ("Option<".toList.all fun c => c == '<' || isIdentifierChar c) = true := by
          decide
        have inside : stop ∈ "Option<".toList := by
          rw [isOption]
          exact List.mem_append_right _ List.mem_cons_self
        have either := List.all_eq_true.1 letters stop inside
        rw [noLetter, Bool.or_false] at either
        exact noBracket (beq_iff_eq.1 either)
  rw [type?, noOption]
  simp only
  rw [upTo_word h noLetter]

theorem type?_option {s : String} (h : IsWord s) (stop : Char) (rest : List Char) :
    type? stop ("Option<".toList ++ (s.toList ++ '>' :: rest)) = (true, s) := by
  rw [type?, after?_append]
  simp only
  rw [upTo_word h (by decide)]

theorem property?_shown {name type : String} (hName : IsWord name) (hType : IsWord type)
    (required : Bool) :
    property? (shown ("pub " ++ name ++ ": "
      ++ (if required then type else "Option<" ++ type ++ ">") ++ ","))
      = some (name, ⟨required, type⟩) := by
  have typed : type? ',' ((if required then type else "Option<" ++ type ++ ">").toList
      ++ ",".toList) = (!required, type) := by
    cases required with
    | true => exact type?_word hType (by decide) (by decide) []
    | false =>
      show type? ',' (("Option<" ++ type ++ ">").toList ++ ",".toList) = _
      rw [String.toList_append, String.toList_append, List.append_assoc, List.append_assoc]
      exact type?_option hType ',' _
  generalize (if required then type else "Option<" ++ type ++ ">") = text at typed
  have begins : shown ("pub " ++ name ++ ": " ++ text ++ ",")
      = ("pub " ++ name ++ ": " ++ text ++ ",").toList := by
    simp only [shown, String.toList_append, List.append_assoc]
    rfl
  rw [begins, property?]
  simp only [String.toList_append, List.append_assoc, after?_append,
    word_before ": " (by decide) hName, typed, Option.bind_eq_bind, Option.bind_some,
    Option.pure_def, Bool.not_not]

theorem structure?_block {name : String} (h : IsWord name) (body : List (List Char)) :
    structure? ⟨("pub struct " ++ name ++ " \x7b").toList, body⟩
      = some (.record name (body.filterMap property?)) := by
  simp only [structure?, String.toList_append, List.append_assoc, after?_append,
    word_before_last " \x7b" (by decide) h, Option.bind_eq_bind, Option.bind_some, Option.pure_def]

theorem isWord_fieldType {types : List ConstrainedType} (orderly : ∀ t ∈ types, t.Orderly)
    (type : FieldType) : IsWord (fieldType types type) := by
  cases type with
  | constrained i =>
    simp only [fieldType]
    cases place : types[i]? with
    | none => decide
    | some t =>
      simp only [Option.map_some, Option.getD_some]
      exact isWord_enumName (orderly t (List.mem_of_getElem? place))
  | primitive kind =>
    cases kind with
    | text => simp +decide only [fieldType]
    | integer => simp +decide only [fieldType]
    | double => simp +decide only [fieldType]
    | boolean => simp +decide only [fieldType]
  | timestamp => simp +decide only [fieldType]

theorem isWord_property {m : PlannedMetric} {types : List ConstrainedType}
    (orderly : m.Orderly types) : ∀ field ∈ m.fields, IsWord (fieldName field.identifier) := by
  intro field there
  rw [orderly.identifier field there]
  exact isWord_fieldName (isWord_asciiIdentifier field.key)

theorem plain_commentLines (description : String) : Plain (commentLines description) := by
  rw [commentLines, plain_map]
  intro line _
  exact Text.unbroken_toList_append.2 ⟨by decide, unbroken_commentLine line⟩

theorem property?_comment (line : String) : property? (shown ("/// " ++ line)) = none := by
  rw [shown, String.toList_append]
  rfl

/-- The lines of a field are its property, behind comments. -/
theorem filterMap_fieldLines {types : List ConstrainedType} (orderly : ∀ t ∈ types, t.Orderly)
    {field : ArgumentField} (h : IsWord (fieldName field.identifier)) :
    ((fieldLines types field).map shown).filterMap property?
      = [naming.propertyOf types field] := by
  have comments : (((field.description.map commentLines).getD []).map shown).filterMap
      property? = [] := by
    cases field.description with
    | none => rfl
    | some description =>
      refine filterMap_shown_eq_nil property? fun line there => ?_
      obtain ⟨shownLine, -, rfl⟩ := List.mem_map.1 there
      exact property?_comment _
  rw [fieldLines, List.map_append, List.filterMap_append, comments, List.nil_append,
    List.map_singleton, List.filterMap_cons,
    property?_shown h (isWord_fieldType orderly field.type)]
  simp only [Naming.propertyOf, naming]
  rfl

theorem plain_fieldLines {types : List ConstrainedType} (orderly : ∀ t ∈ types, t.Orderly)
    {field : ArgumentField} (h : IsWord (fieldName field.identifier)) :
    Plain (fieldLines types field) := by
  have type := (isWord_fieldType orderly field.type).unbroken
  have isPlain : Text.Unbroken (if field.required then fieldType types field.type
      else "Option<" ++ fieldType types field.type ++ ">").toList := by
    split
    · exact type
    · simp +decide only [Text.unbroken_toList_append, type]
  rw [fieldLines, plain_append]
  constructor
  · cases field.description with
    | none => exact plain_nil
    | some description => exact plain_commentLines description
  · simp +decide only [plain_cons, plain_nil, Text.unbroken_toList_append, h.unbroken, isPlain]

/-- The line that says which traits a structure derives. -/
theorem reads_derive (omissible : Bool) :
    outline.Reads [if omissible then "#[derive(Debug, Clone, Default, PartialEq)]"
      else "#[derive(Debug, Clone, PartialEq)]"] [] := by
  cases omissible with
  | true => exact Outline.Reads.single (.ofList (by decide)) (by rfl) (by rfl)
  | false => exact Outline.Reads.single (.ofList (by decide)) (by rfl) (by rfl)

theorem isWord_recorder {m : PlannedMetric} {types : List ConstrainedType}
    (orderly : m.Orderly types) : IsWord (functionName m) :=
  isWord_append.2 ⟨by decide, orderly.snakeCase.isWord⟩

theorem plain_structLines (orderly : plan.Orderly) {m : PlannedMetric} (hm : m ∈ plan.metrics) :
    Plain (structLines plan.constrainedTypes m) := by
  have isOrderly := orderly.metrics m hm
  have fields : Plain (m.fields.flatMap (fieldLines plan.constrainedTypes)) := by
    rw [plain_flatMap]
    exact fun field there => plain_fieldLines orderly.types (isWord_property isOrderly field there)
  have derive : Text.Unbroken (if m.argsOptional = true
      then "#[derive(Debug, Clone, Default, PartialEq)]"
      else "#[derive(Debug, Clone, PartialEq)]").toList := by
    split <;> decide
  simp +decide only [structLines, plain_append, plain_cons, plain_nil, plain_enclosed,
    Text.unbroken_toList_append, (isWord_recorder isOrderly).unbroken,
    (isWord_metricType isOrderly).unbroken, fields, derive]

theorem reads_structLines (orderly : plan.Orderly) {m : PlannedMetric} (hm : m ∈ plan.metrics) :
    outline.Reads (structLines plan.constrainedTypes m)
      [naming.recordOf plan.constrainedTypes m] := by
  have orderlyMetric := orderly.metrics m hm
  have name := isWord_metricType orderlyMetric
  have word := isWord_property orderlyMetric
  have properties := filterMap_shown_flatMap property?
    fun field there => filterMap_fieldLines orderly.types (word field there)
  have comment : outline.Reads ["/// Arguments for [`" ++ functionName m ++ "`]."] [] := by
    refine reads_comment ?_ ?_
    · simp +decide only [functionName, Text.unbroken_toList_append,
        orderlyMetric.snakeCase.isWord.unbroken]
    · simp only [String.toList_append, List.append_assoc]
      rfl
  have noEnumeration : ∀ body, enumeration?
      ⟨("pub struct " ++ metricType m ++ " \x7b").toList, body⟩ = none := by
    intro body
    simp only [String.toList_append, List.append_assoc]
    rfl
  have plain := (plain_append.1 (plain_structLines orderly hm)).2
  refine comment.cons ((reads_derive m.argsOptional).cons (Outline.Reads.block plain ?_ ?_))
  · simp only [String.toList_append, List.append_assoc]
    rfl
  · show (enumeration? ⟨_, _⟩ <|> structure? ⟨_, _⟩ <|> _).toList = _
    rw [noEnumeration, structure?_block name, properties]
    rfl

/-! ### Recording functions -/

theorem path?_append {enumeration name : String} (hEnumeration : IsWord enumeration)
    (hName : IsWord name) :
    path? (enumeration.toList ++ ("::".toList ++ (name.toList ++ ",".toList)))
      = some (.member enumeration name) := by
  simp only [path?, word_before "::" (by decide) hEnumeration, after?_append,
    word_before_last "," (by decide) hName, Option.bind_eq_bind, Option.bind_some, Option.pure_def]

theorem event?_shown {name : String} (h : IsWord name) :
    event? (shown ("metric_name: TelemetryType::" ++ name ++ ","))
      = some (.member "TelemetryType" name) := by
  have path := path?_append (show IsWord "TelemetryType" by decide) h
  simp only [shown, String.toList_append, List.append_assoc]
  exact path

theorem unit?_shown (unit : MetricUnit) :
    unit? (shown ("unit: Unit::" ++ unit.sinkName ++ ","))
      = some (.member "Unit" unit.sinkName) := by
  have path := path?_append (show IsWord "Unit" by decide) (isWord_sinkName unit)
  simp only [shown, String.toList_append, List.append_assoc]
  exact path

theorem metadata?_line (key : String) {name : String} (h : IsWord name) (required : Bool) :
    metadata? (shown ("MetadataEntry \x7b key: " ++ literal key ++ ", value: "
      ++ (if required then "args." ++ name ++ ".to_string()"
        else "args." ++ name ++ ".as_ref().map(ToString::to_string).unwrap_or_default()")
      ++ " \x7d,")) = some (key, name) := by
  have behindKey : ∀ rest, after? ", value: args." (", value: ".toList ++ ("args.".toList ++ rest))
      = some rest := fun _ => rfl
  have begins : ∀ rest, unindented ("MetadataEntry \x7b key: ".toList ++ rest)
      = "MetadataEntry \x7b key: ".toList ++ rest := fun _ => rfl
  cases required with
  | true =>
    simp only [shown, if_true, String.toList_append, List.append_assoc, begins, metadata?,
      after?_append, read_literal, behindKey, word_before ".to_string()" (by decide) h,
      Option.bind_eq_bind, Option.bind_some, Option.pure_def]
  | false =>
    simp only [shown, Bool.false_eq_true, if_false, String.toList_append, List.append_assoc, begins,
      metadata?, after?_append, read_literal, behindKey,
      word_before ".as_ref().map(ToString::to_string).unwrap_or_default()" (by decide) h,
      Option.bind_eq_bind, Option.bind_some, Option.pure_def]

theorem metadata?_shown {field : ArgumentField} (h : IsWord (fieldName field.identifier)) :
    metadata? (shown (metadataEntry field)) = some (field.key, fieldName field.identifier) := by
  unfold metadataEntry
  extract_lets name value
  have entry := metadata?_line field.key h field.required
  exact entry

/-- The line that passes the time of the event to the sink. -/
def timeLine (name : String) : String :=
  "create_time: args." ++ name ++ ".unwrap_or_else(SystemTime::now),"

/-- The line that passes the value of the event to the sink. -/
def valueLine (name : String) : String :=
  "value: args." ++ name ++ ".unwrap_or(1.0),"

/-- The line that gets the arguments if they can be left out. -/
def unwrapLines (m : PlannedMetric) : List String :=
  if m.argsOptional then ["let args = args.unwrap_or_default();"] else []

/-- The lines before the one that passes the event to the sink. -/
def linesBeforeEvent (m : PlannedMetric) : List (List Char) :=
  (unwrapLines m).map shown
    ++ [shown "sink.record(MetricDatum \x7b", shown (timeLine (implicitName m .createTime))]

/-- The lines of a recording function. -/
def bodyLines (m : PlannedMetric) : List String :=
  unwrapLines m ++ enclosed "sink.record(MetricDatum \x7b"
    ([timeLine (implicitName m .createTime), "metric_name: TelemetryType::" ++ metricType m ++ ",",
      valueLine (implicitName m .value), "unit: Unit::" ++ m.unit.sinkName ++ ","]
      ++ metadataLines m) "\x7d);"

theorem map_shown_bodyLines (m : PlannedMetric) :
    (bodyLines m).map shown = linesBeforeEvent m
      ++ (shown ("metric_name: TelemetryType::" ++ metricType m ++ ",")
        :: shown (valueLine (implicitName m .value))
        :: shown ("unit: Unit::" ++ m.unit.sinkName ++ ",")
        :: ((metadataLines m).map shown ++ [shown "\x7d);"])) := by
  simp only [bodyLines, linesBeforeEvent, List.map_append, List.map_cons, map_shown_enclosed,
    List.append_assoc, List.cons_append, List.nil_append]

/-- A reader that passes over each line before the event passes over all of them. -/
theorem forall_linesBeforeEvent {β : Type} (read : List Char → Option β) (m : PlannedMetric)
    (unwrap : read (shown "let args = args.unwrap_or_default();") = none)
    (call : read (shown "sink.record(MetricDatum \x7b") = none)
    (time : ∀ rest, read (unindented ("create_time: args.".toList ++ rest)) = none) :
    ∀ line ∈ linesBeforeEvent m, read line = none := by
  have timed : ∀ name, read (shown (timeLine name)) = none := by
    intro name
    unfold timeLine
    rw [shown, String.append_assoc, String.toList_append]
    exact time _
  intro line there
  rcases List.mem_append.1 there with there | there
  · rw [unwrapLines] at there
    split at there
    · rw [List.map_singleton, List.mem_singleton] at there
      rw [there, unwrap]
    · cases there
  · rcases List.mem_cons.1 there with rfl | there
    · exact call
    · rw [List.mem_singleton.1 there, timed]

theorem findSome?_event {m : PlannedMetric} (h : IsWord (metricType m)) :
    ((bodyLines m).map shown).findSome? event? = some (.member "TelemetryType" (metricType m)) := by
  have before := List.findSome?_eq_none_iff.2 (forall_linesBeforeEvent event? m (by rfl) (by rfl)
    fun _ => rfl)
  rw [map_shown_bodyLines, List.findSome?_append, before, Option.none_or, List.findSome?_cons,
    event?_shown h]

theorem findSome?_unit (m : PlannedMetric) :
    ((bodyLines m).map shown).findSome? unit? = some (.member "Unit" m.unit.sinkName) := by
  have before := List.findSome?_eq_none_iff.2 (forall_linesBeforeEvent unit? m (by rfl) (by rfl)
    fun _ => rfl)
  have event : ∀ rest, unit? (unindented ("metric_name: TelemetryType::".toList ++ rest)) = none :=
    fun _ => rfl
  have value : ∀ rest, unit? (unindented ("value: args.".toList ++ rest)) = none := fun _ => rfl
  have notEvent : unit? (shown ("metric_name: TelemetryType::" ++ metricType m ++ ",")) = none := by
    rw [shown, String.append_assoc, String.toList_append]
    exact event _
  have notValue : ∀ name, unit? (shown (valueLine name)) = none := by
    intro name
    unfold valueLine
    rw [shown, String.append_assoc, String.toList_append]
    exact value _
  rw [map_shown_bodyLines, List.findSome?_append, before, Option.none_or, List.findSome?_cons,
    notEvent, List.findSome?_cons, notValue, List.findSome?_cons, unit?_shown]

/-- The lines of the metadata are an entry each, between brackets. -/
theorem filterMap_metadataLines {m : PlannedMetric}
    (h : ∀ field ∈ m.fields, IsWord (fieldName field.identifier)) :
    ((metadataLines m).map shown).filterMap metadata?
      = m.metadataFields.map fun field => (field.key, fieldName field.identifier) := by
  have words : ∀ field ∈ m.metadataFields, IsWord (fieldName field.identifier) :=
    fun field there => h field (List.mem_filter.1 there).1
  unfold metadataLines
  generalize m.metadataFields = fields at words
  cases fields with
  | nil => rfl
  | cons field rest =>
    have each := filterMap_shown_map metadata? metadataEntry
      fun field there => metadata?_shown (words field there)
    have opening : metadata? (shown "metadata: vec![") = none := by rfl
    have closing : [shown "],"].filterMap metadata? = [] := by rfl
    simp only
    rw [map_shown_enclosed, List.filterMap_cons, opening]
    simp only
    rw [List.filterMap_append, each, closing, List.append_nil]

theorem filterMap_metadata {m : PlannedMetric}
    (h : ∀ field ∈ m.fields, IsWord (fieldName field.identifier)) :
    ((bodyLines m).map shown).filterMap metadata?
      = m.metadataFields.map fun field => (field.key, fieldName field.identifier) := by
  have before := List.filterMap_eq_nil_iff.2 (forall_linesBeforeEvent metadata? m (by rfl) (by rfl)
    fun _ => rfl)
  have event : ∀ rest,
      metadata? (unindented ("metric_name: TelemetryType::".toList ++ rest)) = none := fun _ => rfl
  have value : ∀ rest, metadata? (unindented ("value: args.".toList ++ rest)) = none := fun _ => rfl
  have unit : ∀ rest, metadata? (unindented ("unit: Unit::".toList ++ rest)) = none := fun _ => rfl
  have notEvent : metadata? (shown ("metric_name: TelemetryType::" ++ metricType m ++ ","))
      = none := by
    rw [shown, String.append_assoc, String.toList_append]
    exact event _
  have notValue : ∀ name, metadata? (shown (valueLine name)) = none := by
    intro name
    unfold valueLine
    rw [shown, String.append_assoc, String.toList_append]
    exact value _
  have notUnit : metadata? (shown ("unit: Unit::" ++ m.unit.sinkName ++ ",")) = none := by
    rw [shown, String.append_assoc, String.toList_append]
    exact unit _
  have behind : [shown "\x7d);"].filterMap metadata? = [] := by rfl
  have entries := filterMap_metadataLines h
  rw [map_shown_bodyLines, List.filterMap_append, before, List.nil_append, List.filterMap_cons,
    notEvent, List.filterMap_cons, notValue, List.filterMap_cons, notUnit]
  simp only
  rw [List.filterMap_append, entries, behind, List.append_nil]

theorem signature?_line {function record : String} (hFunction : IsWord function)
    (hRecord : IsWord record) (omissible : Bool) :
    signature? ("pub fn " ++ function ++ "(sink: &dyn TelemetrySink, args: "
      ++ (if omissible then "Option<" ++ record ++ ">" else record) ++ ") \x7b").toList
      = some (omissible, record) := by
  have typed : type? ')' ((if omissible then "Option<" ++ record ++ ">" else record).toList
      ++ ") \x7b".toList) = (omissible, record) := by
    cases omissible with
    | false => exact type?_word hRecord (by decide) (by decide) _
    | true =>
      show type? ')' (("Option<" ++ record ++ ">").toList ++ ") \x7b".toList) = _
      rw [String.toList_append, String.toList_append, List.append_assoc, List.append_assoc]
      exact type?_option hRecord ')' _
  generalize (if omissible then "Option<" ++ record ++ ">" else record) = type at typed
  simp only [signature?, String.toList_append, List.append_assoc, after?_append,
    word_before "(sink: &dyn TelemetrySink, args: " (by decide) hFunction, typed,
    Option.bind_eq_bind, Option.bind_some, Option.pure_def]

theorem recorder?_block {m : PlannedMetric} {types : List ConstrainedType}
    (orderly : m.Orderly types) {opening : List Char}
    (isSignature : signature? opening = some (m.argsOptional, metricType m)) :
    recorder? ⟨opening, (bodyLines m).map shown⟩ = some (.recorder (naming.recorderOf m)) := by
  simp only [recorder?, isSignature, findSome?_event (isWord_metricType orderly), findSome?_unit,
    filterMap_metadata (isWord_property orderly), Option.bind_eq_bind, Option.bind_some,
    Option.pure_def, Naming.recorderOf, naming]

/-- The comment above a recording function declares nothing, whatever it says. -/
theorem reads_functionComment {m : PlannedMetric} {types : List ConstrainedType}
    (orderly : m.Orderly types) : outline.Reads (functionComment m) [] := by
  rw [functionComment]
  split
  · refine Outline.Reads.ignored fun line there => ?_
    obtain ⟨text, -, rfl⟩ := List.mem_map.1 there
    refine reads_comment ?_ ?_
    · exact Text.unbroken_toList_append.2 ⟨by decide, unbroken_commentLine text⟩
    · rw [String.toList_append, after?_append]
      rfl
  · refine reads_comment ?_ ?_
    · simp +decide only [Text.unbroken_toList_append, orderly.snakeCase.isWord.unbroken]
    · simp only [String.toList_append, List.append_assoc]
      rfl

theorem plain_metadataLines {m : PlannedMetric} {types : List ConstrainedType}
    (orderly : m.Orderly types) : Plain (metadataLines m) := by
  have property := isWord_property orderly
  have words : ∀ field ∈ m.metadataFields, IsWord (fieldName field.identifier) :=
    fun field there => property field (List.mem_filter.1 there).1
  unfold metadataLines
  generalize m.metadataFields = fields at words
  split
  · simp +decide only [plain_cons, plain_nil]
  · rw [plain_enclosed, plain_map]
    refine ⟨by decide, ?_, by decide⟩
    intro field there
    have name := (words field there).unbroken
    unfold metadataEntry
    extract_lets identifier value
    have isPlain : Text.Unbroken value.toList := by
      show Text.Unbroken (if field.required then _ else _ : String).toList
      split
      · simp +decide only [Text.unbroken_toList_append, identifier, name]
      · simp +decide only [Text.unbroken_toList_append, identifier, name]
    simp +decide only [Text.unbroken_toList_append, unbroken_literal, isPlain]

theorem isWord_implicitName {m : PlannedMetric} {types : List ConstrainedType}
    (orderly : m.Orderly types) (implicit : ImplicitField) : IsWord (implicitName m implicit) := by
  unfold implicitName
  split
  · rename_i field found
    exact isWord_property orderly field (List.mem_of_find?_eq_some found)
  · cases implicit with
    | createTime => decide
    | value => decide

theorem plain_bodyLines {m : PlannedMetric} {types : List ConstrainedType}
    (orderly : m.Orderly types) : Plain (bodyLines m) := by
  have type := (isWord_metricType orderly).unbroken
  have unit := (isWord_sinkName m.unit).unbroken
  have unwrap : Plain (unwrapLines m) := by
    rw [unwrapLines]
    split
    · simp +decide only [plain_cons, plain_nil]
    · exact plain_nil
  have time : Text.Unbroken (timeLine (implicitName m .createTime)).toList := by
    have name := (isWord_implicitName orderly .createTime).unbroken
    unfold timeLine
    simp +decide only [Text.unbroken_toList_append, name]
  have value : Text.Unbroken (valueLine (implicitName m .value)).toList := by
    have name := (isWord_implicitName orderly .value).unbroken
    unfold valueLine
    simp +decide only [Text.unbroken_toList_append, name]
  simp +decide only [bodyLines, plain_append, plain_enclosed, plain_cons, plain_nil,
    Text.unbroken_toList_append, type, unit, unwrap, time, value, plain_metadataLines orderly]

theorem functionLines_eq (m : PlannedMetric) :
    functionLines m = functionComment m ++ enclosed ("pub fn " ++ functionName m
      ++ "(sink: &dyn TelemetrySink, args: "
      ++ (if m.argsOptional then "Option<" ++ metricType m ++ ">" else metricType m) ++ ") \x7b")
      (bodyLines m) "\x7d" := by
  rfl

theorem plain_functionLines {m : PlannedMetric} {types : List ConstrainedType}
    (orderly : m.Orderly types) : Plain (functionLines m) := by
  have type := (isWord_metricType orderly).unbroken
  have args : Text.Unbroken (if m.argsOptional then "Option<" ++ metricType m ++ ">"
      else metricType m).toList := by
    split
    · simp +decide only [Text.unbroken_toList_append, type]
    · exact type
  have comment : Plain (functionComment m) := by
    rw [functionComment]
    split
    · exact plain_commentLines _
    · simp +decide only [plain_cons, plain_nil, Text.unbroken_toList_append,
        orderly.snakeCase.isWord.unbroken]
  simp +decide only [functionLines_eq, plain_append, plain_enclosed, Text.unbroken_toList_append,
    (isWord_recorder orderly).unbroken, args, comment, plain_bodyLines orderly]

theorem reads_functionLines (orderly : plan.Orderly) {m : PlannedMetric} (hm : m ∈ plan.metrics) :
    outline.Reads (functionLines m) [.recorder (naming.recorderOf m)] := by
  have orderlyMetric := orderly.metrics m hm
  have isSignature := signature?_line (isWord_recorder orderlyMetric)
    (isWord_metricType orderlyMetric) m.argsOptional
  have plain := plain_functionLines orderlyMetric
  have noOther : ∀ (rest : List Char) (body : List (List Char)),
      enumeration? ⟨"pub fn ".toList ++ rest, body⟩ = none ∧
      structure? ⟨"pub fn ".toList ++ rest, body⟩ = none := fun _ _ => ⟨rfl, rfl⟩
  rw [functionLines_eq] at plain ⊢
  generalize (if m.argsOptional then "Option<" ++ metricType m ++ ">" else metricType m) = args
    at isSignature plain ⊢
  refine (reads_functionComment orderlyMetric).append
    (Outline.Reads.block (plain_append.1 plain).2 ?_ ?_)
  · simp only [String.toList_append, List.append_assoc]
    rfl
  · have recorder := recorder?_block orderlyMetric isSignature
    simp only [String.toList_append, List.append_assoc] at recorder ⊢
    obtain ⟨noEnumeration, noStructure⟩ := noOther _ ((bodyLines m).map shown)
    show (enumeration? ⟨_, _⟩ <|> structure? ⟨_, _⟩ <|> recorder? ⟨_, _⟩).toList = _
    rw [noEnumeration, noStructure, recorder]
    rfl

/-! ### Artifacts -/

theorem plain_header : Plain header := by
  simp only [header, plain_cons, plain_nil, and_true]
  exact ⟨.ofList (by decide), .ofList (by decide), .ofList (by decide), .ofList (by decide),
    .ofList (by decide)⟩

/-- The lines of a plan declare what they should. -/
theorem reads_lines (orderly : plan.Orderly) :
    outline.Reads (lines plan) (naming.declarations plan) := by
  have opens : ∀ line ∈ header, outline.opens line.toList = none := by decide
  have nothing : ∀ line ∈ header, (outline.item? ⟨line.toList, []⟩).toList = [] := by decide
  have heading : outline.Reads header [] := Outline.Reads.ignored fun line there =>
    Outline.Reads.single (plain_header line there) (opens line there) (nothing line there)
  have beginning := ((heading.append reads_blank).append reads_supportLines).append reads_blank
  have events := beginning.append (reads_eventLines orderly)
  have enumerations := Outline.Reads.flatMap
    fun t ht => reads_blank.append (reads_constrainedLines (orderly.types t ht))
  have metrics := Outline.Reads.flatMap fun m hm =>
    ((reads_blank.append (reads_structLines orderly hm)).append reads_blank).append
      (reads_functionLines orderly hm)
  have all := (events.append enumerations).append metrics
  have items : naming.declarations plan = ([] ++ [] ++ support ++ []) ++ [naming.eventsOf plan]
      ++ plan.constrainedTypes.flatMap (fun t => [] ++ [naming.enumerationOf t])
      ++ plan.metrics.flatMap fun m =>
        [] ++ [naming.recordOf plan.constrainedTypes m] ++ []
          ++ [.recorder (naming.recorderOf m)] := by
    simp only [List.nil_append, List.append_nil, List.append_assoc]
    rfl
  rw [items]
  exact all

theorem classOf_eq_none {name : String} (reserved : name ∉ reservedTypes)
    (begins : startsLower name = false) : classOf name = none := by
  have other : ∀ k, startsLower k = true → (name == k) = false := by
    intro k lower
    refine beq_false_of_ne fun eq => ?_
    rw [← eq, begins] at lower
    cases lower
  have noString : (name == "String") = false := by
    refine beq_false_of_ne fun eq => reserved ?_
    rw [eq]
    decide
  rw [classOf, List.lookup_cons, noString]
  simp only
  rw [List.lookup_cons, other "i64" (by decide)]
  simp only
  rw [List.lookup_cons, other "f64" (by decide)]
  simp only
  rw [List.lookup_cons, other "bool" (by decide)]
  rfl

theorem classOf_enumName {t : ConstrainedType} (orderly : t.Orderly) :
    classOf (enumName t) = none := by
  rw [enumName, orderly.identifier]
  have isWord := isWord_asciiIdentifier t.source
  exact classOf_eq_none (typeName_notMem_reservedTypes _)
    (startsLower_typeName (startsLower_pascalCase isWord))

/-- The enumerations of a plan have distinct names, which no enumeration of the support has. -/
theorem nodup_enumerations (orderly : plan.Orderly) (passes : checkNames plan = .ok ()) :
    ("Unit" :: "TelemetryType" :: plan.constrainedTypes.map enumName).Nodup := by
  have names := ((checkNames_eq_ok_iff orderly).1 passes).1
  rw [typeNames, List.nodup_append, List.nodup_append] at names
  obtain ⟨-, ⟨-, types, -⟩, new⟩ := names
  have newName : ∀ name ∈ supportTypes, name ∉ plan.constrainedTypes.map enumName :=
    fun name there again => new name there name (List.mem_append_right _ again) rfl
  rw [List.nodup_cons, List.nodup_cons, List.mem_cons, not_or]
  exact ⟨⟨by decide, newName "Unit" (by decide)⟩, newName "TelemetryType" (by decide), types⟩

/-- The structures of a plan have distinct names, which no structure of the support has. -/
theorem nodup_records (orderly : plan.Orderly) (passes : checkNames plan = .ok ()) :
    ("MetadataEntry" :: "MetricDatum" :: plan.metrics.map metricType).Nodup := by
  have names := ((checkNames_eq_ok_iff orderly).1 passes).1
  rw [typeNames, List.nodup_append, List.nodup_append] at names
  obtain ⟨-, ⟨metrics, -⟩, new⟩ := names
  have newName : ∀ name ∈ supportTypes, name ∉ plan.metrics.map metricType :=
    fun name there again => new name there name (List.mem_append_left _ again) rfl
  rw [List.nodup_cons, List.nodup_cons, List.mem_cons, not_or]
  exact ⟨⟨by decide, newName "MetadataEntry" (by decide)⟩, newName "MetricDatum" (by decide),
    metrics⟩

/-- If the names of a plan pass, they do not coincide where they are looked up. -/
theorem fits (orderly : plan.Orderly) (passes : checkNames plan = .ok ()) : naming.Fits plan := by
  have enumerations := nodup_enumerations orderly passes
  have records := nodup_records orderly passes
  have properties := ((checkNames_eq_ok_iff orderly).1 passes).2.1
  have enumerationNames : (support.filterMap Declaration.enumeration?).map Prod.fst
    = ["Unit"] := rfl
  have recordNames : (support.filterMap Declaration.record?).map Prod.fst
    = ["MetadataEntry", "MetricDatum"] := rfl
  constructor
  case enumerations =>
    simp only [naming, enumerationNames]
    exact enumerations
  case records =>
    simp only [naming, recordNames]
    exact records
  case recorders => rfl
  case events =>
    simp only [naming]
    exact (List.nodup_cons.1 (List.nodup_cons.1 records).2).2
  case properties =>
    simp only [naming]
    exact properties
  case unit =>
    intro unit
    cases unit <;> rfl
  case constrained =>
    intro i t place
    have known := classOf_enumName (orderly.types t (List.mem_of_getElem? place))
    simp only [naming, fieldType, place, Option.map_some, Option.getD_some]
    exact ⟨trivial, known⟩
  case primitive =>
    intro kind
    cases kind with
    | text => rfl
    | integer => rfl
    | double => rfl
    | boolean => rfl

/-- A text is rendered if the names of the plan pass, and then it is made of the plan's lines. -/
theorem render_eq_ok_iff {text : String} :
    render plan = .ok text ↔ checkNames plan = .ok () ∧ text = joinLines (lines plan) := by
  rw [render, Checked.bind_eq_ok_iff]
  constructor
  · intro h
    obtain ⟨_, passes, rendered⟩ := h
    cases rendered
    exact ⟨passes, rfl⟩
  · intro h
    obtain ⟨passes, rfl⟩ := h
    exact ⟨(), passes, rfl⟩

/-- No text is rendered if the names of the plan do not pass. -/
theorem exists_render_eq_error_iff :
    (∃ fault, render plan = .error fault) ↔ ¬ checkNames plan = .ok () := by
  rw [Checked.exists_eq_error_iff]
  simp only [render_eq_ok_iff, exists_and_left, exists_eq, and_true]

/-- An artifact declares what it should. -/
theorem items_of_render (orderly : plan.Orderly) {text : String} (h : render plan = .ok text) :
    outline.items (text.toList.splitOn '\n') = naming.declarations plan := by
  have nothing : outline.items [[]] = [] := rfl
  rw [(render_eq_ok_iff.1 h).2, splitOn_joinLines, reads_lines orderly, nothing, List.append_nil]

/-- An artifact has the contract of its plan. -/
theorem read?_of_render (orderly : plan.Orderly) {text : String} (h : render plan = .ok text) :
    read? text = plan.contract? := by
  rw [read?, items_of_render orderly h]
  exact Naming.contract?_declarations (fits orderly (render_eq_ok_iff.1 h).1) orderly

end Telemetry.Artifact.Rust
