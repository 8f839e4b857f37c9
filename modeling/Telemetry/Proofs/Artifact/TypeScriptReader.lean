import Telemetry.Proofs.Artifact.Declarations
import Telemetry.Proofs.Artifact.Literal
import Telemetry.Proofs.Artifact.Names
import Telemetry.Proofs.Identifier.Forms

/-!
# Reading TypeScript artifacts

* `TypeScript.outline` says how a TypeScript artifact is read: which lines open a block, and what a
  line or a block declares;
* `TypeScript.naming` is how TypeScript artifacts name what a plan declares;
* `reads_declarationLines`: the lines of a plan declare what they should;
* `read?_of_render`: an artifact has the contract of its plan.
-/

namespace Telemetry.Artifact.TypeScript

/-! ### The reader -/

/-- The class of a built-in type. -/
def classOf (name : String) : Option WireType :=
  [("string", WireType.text), ("number", .number), ("boolean", .boolean)].lookup name

/-- Whether a type annotation is that of something optional, and the type behind it. -/
def annotation? (cs : List Char) : Option (Bool × List Char) :=
  match after? ": " cs with
  | some rest => some (false, rest)
  | none => (after? "?: " cs).map fun rest => (true, rest)

/-- A member of an enumeration with its text. -/
def member? (line : List Char) : Option (String × String) := do
  let (name, rest) := word line
  let rest ← after? " = " rest
  let (text, _) ← quoting.read? rest
  return (name, text)

/-- An enumeration. -/
def enumeration? (block : Block) : Option Declaration := do
  let rest ← after? "export enum " block.opening
  return .enumeration (word rest).1 (block.body.filterMap member?)

/-- Literals with a bar between each and the next. -/
def alternatives? : (fuel : Nat) → List Char → Option (List String)
  | 0, _ => none
  | fuel + 1, cs => do
    let (value, rest) ← quoting.read? cs
    match after? " | " rest with
    | some rest => (alternatives? fuel rest).map (value :: ·)
    | none => some [value]

/-- A union of literals; each is its own name. -/
def union? (block : Block) : Option Declaration := do
  let rest ← after? "export type " block.opening
  let (name, rest) := word rest
  let rest ← after? " = " rest
  let values ← alternatives? (rest.length + 1) rest
  return .enumeration name (values.map fun value => (value, value))

/-- A property of an interface. -/
def property? (line : List Char) : Option (String × Property) := do
  let (name, rest) := word line
  let (isOptional, type) ← annotation? rest
  return (name, ⟨!isOptional, .ofList type⟩)

/-- An interface. -/
def interface? (block : Block) : Option Declaration := do
  let rest ← after? "export interface " block.opening
  return .record (word rest).1 (block.body.filterMap property?)

/-- The event of a datum. -/
def event? (line : List Char) : Option TextExpression := do
  let rest ← after? "MetricName: " line
  let (enumeration, rest) := word rest
  let rest ← after? "." rest
  return .member enumeration (word rest).1

/-- The unit of a datum. -/
def unit? (line : List Char) : Option TextExpression := do
  let rest ← after? "Unit: " line
  let (text, _) ← quoting.read? rest
  return .literal text

/-- A metadata entry of a datum. -/
def metadata? (line : List Char) : Option (String × String) := do
  let rest ← after? "\x7b Key: " line
  let (key, rest) ← quoting.read? rest
  let rest ← after? ", Value: args?." rest
  return (key, (word rest).1)

/-- Whether the arguments of a function can be left out, and their type. -/
def signature? (line : List Char) : Option (Bool × String) := do
  let rest ← after? "export function " line
  let rest ← after? "(" (word rest).2
  let rest ← after? "args" rest
  let (omissible, rest) ← annotation? rest
  return (omissible, (word rest).1)

/-- A recording function. -/
def recorder? (block : Block) : Option Declaration := do
  let (omissible, record) ← signature? block.opening
  let event ← block.body.findSome? event?
  let unit ← block.body.findSome? unit?
  return .recorder { record, omissible, event, unit, entries := block.body.filterMap metadata? }

/-- The lines in which a recording function calls the sink. -/
def call (settings : Settings) : List String :=
  [settings.sink ++ "(\x7b"]

/-- How artifacts are read.  The lines in which a function calls the sink are passed over, since
they hold an expression of the settings. -/
def outline (settings : Settings) : Outline Declaration where
  opens line :=
    if (after? "export function " line).isSome then
      some ((indented (call settings)).flatMap physical).length
    else if (after? "export enum " line).isSome || (after? "export interface " line).isSome then
      some 0
    else none
  item? block := enumeration? block <|> union? block <|> interface? block <|> recorder? block

/-- The lines before the first declaration. -/
def preamble (settings : Settings) : List String :=
  header ++ match settings.sinkImport with
    | some line => ["", Text.trimEnd line]
    | none => []

/-- The contract of an artifact that was generated under the settings. -/
def read? (settings : Settings) (text : String) : Option WireContract :=
  contract? classOf <| (outline settings).items <|
    (text.toList.splitOn '\n').drop ((preamble settings).flatMap physical).length

/-- How artifacts name what a plan declares. -/
def naming : Naming where
  support := []
  events := eventEnum
  event := PlannedMetric.constantName
  unit unit := .literal unit.sinkName
  record := interfaceName
  enumeration t := typeName t.identifier
  member value := value
  property identifier := identifier
  fieldType := fieldType
  classOf := classOf

/-! ### Words and lines -/

theorem isWord_typeName {identifier : String} (h : IsWord identifier) :
    IsWord (typeName identifier) :=
  isWord_ite (isWord_append.2 ⟨h, by decide⟩) h

/-- What a block comment shows of a line stays on a line. -/
theorem unbroken_blockComment (line : String) : Text.Unbroken (blockComment line).toList := by
  have kept : ∀ cs : List Char, Text.Unbroken cs → Text.Unbroken (breakCommentEnds cs) := by
    intro cs
    induction cs using breakCommentEnds.induct with
    | case1 rest ih =>
      intro plain
      simp only [Text.unbroken_cons] at plain
      simp only [breakCommentEnds, Text.unbroken_cons]
      exact ⟨plain.1, by decide, plain.2.1, ih plain.2.2⟩
    | case2 c rest notEnd ih =>
      intro plain
      rw [Text.unbroken_cons] at plain
      rw [breakCommentEnds.eq_2 _ _ notEnd, Text.unbroken_cons]
      exact ⟨plain.1, ih plain.2⟩
    | case3 => exact id
  rw [blockComment, String.toList_ofList]
  exact kept _ (unbroken_commentLine line)

theorem plain_commentLines {mark : String} (h : Text.Unbroken mark.toList) (description : String) :
    Plain (commentLines mark description) := by
  rw [commentLines, plain_map]
  intro line _
  exact Text.unbroken_toList_append.2 ⟨h, unbroken_blockComment line⟩

/-! ### Enumerations -/

theorem member?_shown {name : String} (h : IsWord name) (notEmpty : name ≠ "") (text : String) :
    member? (shown (name ++ " = " ++ literal text ++ ",")) = some (name, text) := by
  rw [String.append_assoc, String.append_assoc, shown_word h notEmpty, member?]
  simp only [String.toList_append, word_before " = " (by decide) h, after?_append,
    read_literal, Option.bind_eq_bind, Option.bind_some, Option.pure_def]

/-- Literals with bars between them are read. -/
theorem alternatives?_literals {values : List String} (notEmpty : values ≠ []) {fuel : Nat}
    (enough : values.length ≤ fuel) :
    alternatives? fuel (" | ".intercalate (values.map literal)).toList = some values := by
  induction values generalizing fuel with
  | nil => exact absurd rfl notEmpty
  | cons value rest ih =>
    cases fuel with
    | zero => simp at enough
    | succ fuel =>
      cases rest with
      | nil =>
        have last := read_literal value []
        rw [List.append_nil] at last
        rw [List.map_singleton, String.intercalate_singleton, alternatives?, last]
        rfl
      | cons second rest =>
        have others := ih (List.cons_ne_nil _ _) (Nat.le_of_succ_le_succ enough)
        rw [List.map_cons, List.map_cons, String.intercalate_cons_cons, ← List.map_cons,
          alternatives?]
        simp only [String.toList_append, List.append_assoc, read_literal, after?_append, others,
          Option.bind_eq_bind, Option.bind_some, Option.map_some]

theorem enumeration?_block {name : String} (h : IsWord name) (body : List (List Char)) :
    enumeration? ⟨("export enum " ++ name ++ " \x7b").toList, body⟩
      = some (.enumeration name (body.filterMap member?)) := by
  simp only [enumeration?, String.toList_append, List.append_assoc, after?_append,
    word_before_last " \x7b" (by decide) h, Option.bind_eq_bind, Option.bind_some, Option.pure_def]

variable {settings : Settings} {plan : Plan}

theorem isWord_constant {m : PlannedMetric} {types : List ConstrainedType}
    (orderly : m.Orderly types) : IsWord m.constantName := by
  rw [orderly.constantName]
  exact isWord_constantName orderly.snakeCase.isWord

theorem plain_eventLines (orderly : plan.Orderly) : Plain (eventLines plan) := by
  rw [eventLines, plain_enclosed, plain_map]
  refine ⟨by decide, ?_, by decide⟩
  intro m hm
  have constant := (isWord_constant (orderly.metrics m hm)).unbroken
  simp +decide only [Text.unbroken_toList_append, constant, unbroken_literal]

theorem reads_eventLines (orderly : plan.Orderly) :
    (outline settings).Reads (eventLines plan) [naming.eventsOf plan] := by
  have notEmpty : ∀ m ∈ plan.metrics, m.constantName ≠ "" := by
    intro m hm
    rw [(orderly.metrics m hm).constantName]
    exact (orderly.metrics m hm).snakeCase.constantName_ne_empty
  have members := filterMap_shown_map member? _
    fun m hm => member?_shown (isWord_constant (orderly.metrics m hm)) (notEmpty m hm) m.name
  refine Outline.Reads.block (plain_eventLines orderly) ?_ ?_
  · rfl
  · show (enumeration? ⟨_, _⟩ <|> _).toList = _
    rw [enumeration?_block (by decide), members]
    rfl

theorem length_le_intercalate (texts : List String) :
    texts.length ≤ (" | ".intercalate texts).toList.length + 1 := by
  induction texts with
  | nil => decide
  | cons first rest ih =>
    cases rest with
    | nil =>
      rw [List.length_singleton]
      omega
    | cons second rest =>
      rw [String.intercalate_cons_cons, String.toList_append, String.toList_append,
        List.length_append, List.length_append, List.length_cons]
      have bar : " | ".toList.length = 3 := by decide
      omega

theorem unbroken_intercalate {texts : List String} (h : Plain texts) :
    Text.Unbroken (" | ".intercalate texts).toList := by
  induction texts with
  | nil => decide
  | cons first rest ih =>
    obtain ⟨plain, others⟩ := plain_cons.1 h
    cases rest with
    | nil =>
      rw [String.intercalate_singleton]
      exact plain
    | cons second rest =>
      rw [String.intercalate_cons_cons, Text.unbroken_toList_append, Text.unbroken_toList_append]
      exact ⟨⟨plain, by decide⟩, ih others⟩

theorem union?_line {name : String} (h : IsWord name) {values : List String}
    (notEmpty : values ≠ []) :
    union? ⟨("export type " ++ name ++ " = " ++ " | ".intercalate (values.map literal)).toList, []⟩
      = some (.enumeration name (values.map fun value => (value, value))) := by
  have enough := length_le_intercalate (values.map literal)
  rw [List.length_map] at enough
  simp only [union?, String.toList_append, List.append_assoc, after?_append,
    word_before " = " (by decide) h, alternatives?_literals notEmpty enough, Option.bind_eq_bind,
    Option.bind_some, Option.pure_def]

/-- A blank line declares nothing. -/
theorem reads_blank : (outline settings).Reads [""] [] :=
  Outline.Reads.single (by decide) (by rfl) (by rfl)

/-- A line of a comment declares nothing, whatever it says. -/
theorem reads_comment {line : String} (plain : Text.Unbroken line.toList)
    (marked : (after? " * " line.toList).isSome = true) :
    (outline settings).Reads [line] [] := by
  obtain ⟨rest, isLine⟩ := eq_append_of_isSome_after? marked
  refine Outline.Reads.single plain ?_ ?_
  · rw [isLine]
    rfl
  · rw [isLine]
    rfl

theorem isWord_unionName {t : ConstrainedType} (orderly : t.Orderly) :
    IsWord (typeName t.identifier) := by
  rw [orderly.identifier]
  exact isWord_typeName (isWord_asciiIdentifier t.source)

theorem unbroken_unionLine {t : ConstrainedType} (orderly : t.Orderly) :
    Text.Unbroken (unionLine t).toList := by
  have name := (isWord_unionName orderly).unbroken
  have literals : Plain (t.values.map literal) :=
    plain_map.2 fun value _ => unbroken_literal value
  simp +decide only [unionLine, Text.unbroken_toList_append, name, unbroken_intercalate literals]

theorem reads_unionLine {t : ConstrainedType} (orderly : t.Orderly) :
    (outline settings).Reads ["", unionLine t] [naming.enumerationOf t] := by
  have name := isWord_unionName orderly
  refine reads_blank.cons (Outline.Reads.single (unbroken_unionLine orderly) ?_ ?_)
  · rw [unionLine, String.toList_append, String.toList_append, String.toList_append]
    rfl
  · have noEnumeration : enumeration? ⟨(unionLine t).toList, []⟩ = none := by
      rw [unionLine, String.toList_append, String.toList_append, String.toList_append]
      rfl
    show (enumeration? ⟨(unionLine t).toList, []⟩ <|> union? ⟨(unionLine t).toList, []⟩
      <|> _).toList = _
    rw [noEnumeration, unionLine, union?_line name orderly.values]
    rfl

/-! ### Interfaces -/

theorem property?_shown {name : String} (h : IsWord name) (notEmpty : name ≠ "") (required : Bool)
    (type : String) :
    property? (shown (name ++ (if required then "" else "?") ++ ": " ++ type))
      = some (name, ⟨required, type⟩) := by
  rw [String.append_assoc, String.append_assoc, shown_word h notEmpty, property?]
  cases required with
  | true =>
    have mark : ((if true then "" else "?") ++ (": " ++ type)).toList
        = ": ".toList ++ type.toList := by
      rw [String.toList_append, String.toList_append]
      rfl
    rw [mark]
    simp only [word_before ": " (by decide) h, annotation?, after?_append, Option.bind_eq_bind,
      Option.bind_some, Option.pure_def, String.ofList_toList, Bool.not_false]
  | false =>
    have mark : ((if false then "" else "?") ++ (": " ++ type)).toList
        = "?: ".toList ++ type.toList := by
      rw [String.toList_append, String.toList_append]
      rfl
    have noColon : after? ": " ("?: ".toList ++ type.toList) = none := rfl
    rw [mark]
    simp only [word_before "?: " (by decide) h, annotation?, noColon, after?_append,
      Option.map_some, Option.bind_eq_bind, Option.bind_some, Option.pure_def,
      String.ofList_toList, Bool.not_true]

theorem interface?_block {name : String} (h : IsWord name) (body : List (List Char)) :
    interface? ⟨("export interface " ++ name ++ " \x7b").toList, body⟩
      = some (.record name (body.filterMap property?)) := by
  simp only [interface?, String.toList_append, List.append_assoc, after?_append,
    word_before_last " \x7b" (by decide) h, Option.bind_eq_bind, Option.bind_some, Option.pure_def]

theorem property?_comment (line : String) : property? (shown ("// " ++ line)) = none := by
  rw [shown, String.toList_append]
  rfl

/-- The lines of a field are its property, behind comments. -/
theorem filterMap_fieldLines (types : List ConstrainedType) {field : ArgumentField}
    (isIdentifier : field.identifier = asciiIdentifier field.key) :
    ((fieldLines types field).map shown).filterMap property?
      = [naming.propertyOf types field] := by
  have comments : (((field.description.map (commentLines "// ")).getD []).map shown).filterMap
      property? = [] := by
    cases field.description with
    | none => rfl
    | some description =>
      refine filterMap_shown_eq_nil property? fun line there => ?_
      obtain ⟨shownLine, -, rfl⟩ := List.mem_map.1 there
      exact property?_comment _
  have isWord : IsWord field.identifier := isIdentifier ▸ isWord_asciiIdentifier _
  have notEmpty : field.identifier ≠ "" := isIdentifier ▸ asciiIdentifier_ne_empty _
  rw [fieldLines, List.map_append, List.filterMap_append, comments, List.nil_append,
    List.map_singleton, List.filterMap_cons, property?_shown isWord notEmpty]
  rfl

theorem isWord_fieldType {types : List ConstrainedType} (orderly : ∀ t ∈ types, t.Orderly)
    (type : FieldType) : IsWord (fieldType types type) := by
  cases type with
  | constrained i =>
    rw [fieldType]
    cases place : types[i]? with
    | none => decide
    | some t =>
      exact isWord_unionName (orderly t (List.mem_of_getElem? place))
  | primitive kind =>
    cases kind with
    | text => exact (show IsWord "string" by decide)
    | integer => exact (show IsWord "number" by decide)
    | double => exact (show IsWord "number" by decide)
    | boolean => exact (show IsWord "boolean" by decide)
  | timestamp => exact (show IsWord "Date" by decide)

theorem isWord_interfaceName {m : PlannedMetric} {types : List ConstrainedType}
    (orderly : m.Orderly types) : IsWord (interfaceName m) := by
  rw [interfaceName, orderly.typeName]
  exact isWord_typeName (isWord_pascalCase orderly.snakeCase.isWord)

theorem plain_fieldLines {types : List ConstrainedType} (orderly : ∀ t ∈ types, t.Orderly)
    {field : ArgumentField} (isIdentifier : field.identifier = asciiIdentifier field.key) :
    Plain (fieldLines types field) := by
  have identifier : IsWord field.identifier := isIdentifier ▸ isWord_asciiIdentifier _
  have mark : Text.Unbroken (if field.required then "" else "?").toList := by
    cases field.required <;> decide
  rw [fieldLines, plain_append]
  constructor
  · cases field.description with
    | none => exact plain_nil
    | some description => exact plain_commentLines (by decide) description
  · simp only [plain_cons, plain_nil, Text.unbroken_toList_append, and_true]
    exact ⟨⟨⟨identifier.unbroken, mark⟩, by decide⟩, (isWord_fieldType orderly _).unbroken⟩

theorem plain_interfaceLines {types : List ConstrainedType} (orderly : ∀ t ∈ types, t.Orderly)
    {m : PlannedMetric} (orderlyMetric : m.Orderly types) : Plain (interfaceLines types m) := by
  have name := (isWord_interfaceName orderlyMetric).unbroken
  have fields : Plain (m.fields.flatMap (fieldLines types)) := by
    rw [plain_flatMap]
    exact fun field there => plain_fieldLines orderly (orderlyMetric.identifier field there)
  simp +decide only [interfaceLines, plain_enclosed, Text.unbroken_toList_append, name, fields]

theorem reads_interfaceLines (orderly : plan.Orderly) {m : PlannedMetric}
    (hm : m ∈ plan.metrics) :
    (outline settings).Reads (interfaceLines plan.constrainedTypes m)
      [naming.recordOf plan.constrainedTypes m] := by
  have orderlyMetric := orderly.metrics m hm
  have name := isWord_interfaceName orderlyMetric
  have properties := filterMap_shown_flatMap property?
    fun field there => filterMap_fieldLines plan.constrainedTypes
      (orderlyMetric.identifier field there)
  have noEnumeration : ∀ body, enumeration?
      ⟨("export interface " ++ interfaceName m ++ " \x7b").toList, body⟩ = none := by
    intro body
    rw [String.toList_append, String.toList_append]
    rfl
  have noUnion : ∀ body, union?
      ⟨("export interface " ++ interfaceName m ++ " \x7b").toList, body⟩ = none := by
    intro body
    rw [String.toList_append, String.toList_append]
    rfl
  refine Outline.Reads.block (plain_interfaceLines orderly.types orderlyMetric) ?_ ?_
  · rw [String.toList_append, String.toList_append]
    rfl
  · show (enumeration? ⟨_, _⟩ <|> union? ⟨_, _⟩ <|> interface? ⟨_, _⟩ <|> _).toList = _
    rw [noEnumeration, noUnion, interface?_block name, properties]
    rfl

/-! ### Recording functions -/

theorem event?_shown {name : String} (h : IsWord name) :
    event? (shown ("MetricName: " ++ eventEnum ++ "." ++ name ++ ","))
      = some (.member eventEnum name) := by
  have begins : shown ("MetricName: " ++ eventEnum ++ "." ++ name ++ ",")
      = ("MetricName: " ++ eventEnum ++ "." ++ name ++ ",").toList := by
    simp only [shown, String.toList_append, List.append_assoc]
    rfl
  rw [begins]
  simp only [event?, String.toList_append, List.append_assoc, after?_append,
    word_before "." (by decide) (show IsWord eventEnum by decide),
    word_before_last "," (by decide) h, Option.bind_eq_bind, Option.bind_some, Option.pure_def]

theorem unit?_shown (unit : MetricUnit) :
    unit? (shown ("Unit: '" ++ unit.sinkName ++ "',")) = some (.literal unit.sinkName) := by
  cases unit <;> rfl

theorem metadata?_shown {field : ArgumentField} (h : IsWord field.identifier) :
    metadata? (shown (metadataEntry field)) = some (field.key, field.identifier) := by
  have begins : shown (metadataEntry field) = (metadataEntry field).toList := by
    simp only [shown, metadataEntry, String.toList_append, List.append_assoc]
    rfl
  rw [begins, metadataEntry]
  simp only [metadata?, String.toList_append, List.append_assoc, after?_append, read_literal,
    word_before_last "?.toString() ?? '' \x7d," (by decide) h, Option.bind_eq_bind,
    Option.bind_some, Option.pure_def]

/-- The line that passes the time of the event to the sink. -/
def timeLine : String :=
  "createTime: " ++ implicitArgument .createTime "new Date()" ++ ","

/-- The lines of a recording function behind those that call the sink. -/
def argumentLines (m : PlannedMetric) : List String :=
  indented (timeLine :: enclosed "data: [" (datumLines m) "],") ++ ["\x7d)"]

theorem map_shown_argumentLines (m : PlannedMetric) :
    (argumentLines m).map shown = [timeLine, "data: [", "\x7b"].map shown
      ++ (shown ("MetricName: " ++ eventEnum ++ "." ++ m.constantName ++ ",")
        :: shown ("Value: " ++ implicitArgument .value "1" ++ ",")
        :: shown ("Unit: '" ++ m.unit.sinkName ++ "',")
        :: ((metadataLines m).map shown ++ ["\x7d,", "],", "\x7d)"].map shown)) := by
  simp only [argumentLines, datumLines, List.map_append, List.map_cons, List.map_nil,
    map_shown_indented, map_shown_enclosed, List.append_assoc, List.cons_append, List.nil_append]

theorem findSome?_event {m : PlannedMetric} (h : IsWord m.constantName) :
    ((argumentLines m).map shown).findSome? event?
      = some (.member eventEnum m.constantName) := by
  have before : ([timeLine, "data: [", "\x7b"].map shown).findSome? event? = none := by rfl
  rw [map_shown_argumentLines, List.findSome?_append, before, Option.none_or, List.findSome?_cons,
    event?_shown h]

theorem findSome?_unit (m : PlannedMetric) :
    ((argumentLines m).map shown).findSome? unit? = some (.literal m.unit.sinkName) := by
  have before : ([timeLine, "data: [", "\x7b"].map shown).findSome? unit? = none := by rfl
  have notEvent : unit? (shown ("MetricName: " ++ eventEnum ++ "." ++ m.constantName ++ ","))
      = none := by
    simp only [shown, String.toList_append, List.append_assoc]
    rfl
  have notValue : unit? (shown ("Value: " ++ implicitArgument .value "1" ++ ",")) = none := by rfl
  rw [map_shown_argumentLines, List.findSome?_append, before, Option.none_or, List.findSome?_cons,
    notEvent, List.findSome?_cons, notValue, List.findSome?_cons, unit?_shown]

/-- The lines of the metadata are an entry each, between brackets. -/
theorem filterMap_metadataLines {m : PlannedMetric}
    (h : ∀ field ∈ m.fields, IsWord field.identifier) :
    ((metadataLines m).map shown).filterMap metadata?
      = m.metadataFields.map fun field => (field.key, field.identifier) := by
  have words : ∀ field ∈ m.metadataFields, IsWord field.identifier :=
    fun field there => h field (List.mem_filter.1 there).1
  rw [metadataLines]
  cases isFields : m.metadataFields with
  | nil => rfl
  | cons field rest =>
    rw [isFields] at words
    have each := filterMap_shown_map metadata? metadataEntry
      fun field there => metadata?_shown (words field there)
    have opening : metadata? (shown "Metadata: [") = none := by rfl
    have closing : [shown "],"].filterMap metadata? = [] := by rfl
    show ((enclosed "Metadata: [" ((field :: rest).map metadataEntry) "],").map shown).filterMap
      metadata? = _
    rw [map_shown_enclosed, List.filterMap_cons, opening]
    simp only
    rw [List.filterMap_append, each, closing, List.append_nil]

theorem filterMap_metadata {m : PlannedMetric} (h : ∀ field ∈ m.fields, IsWord field.identifier) :
    ((argumentLines m).map shown).filterMap metadata?
      = m.metadataFields.map fun field => (field.key, field.identifier) := by
  have before : ([timeLine, "data: [", "\x7b"].map shown).filterMap metadata? = [] := by rfl
  have behind : (["\x7d,", "],", "\x7d)"].map shown).filterMap metadata? = [] := by rfl
  have notEvent : metadata? (shown ("MetricName: " ++ eventEnum ++ "." ++ m.constantName ++ ","))
      = none := by
    simp only [shown, String.toList_append, List.append_assoc]
    rfl
  have notValue : metadata? (shown ("Value: " ++ implicitArgument .value "1" ++ ",")) = none := by
    rfl
  have notUnit : metadata? (shown ("Unit: '" ++ m.unit.sinkName ++ "',")) = none := by
    simp only [shown, String.toList_append, List.append_assoc]
    rfl
  have entries := filterMap_metadataLines h
  rw [map_shown_argumentLines, List.filterMap_append, before, List.nil_append, List.filterMap_cons,
    notEvent, List.filterMap_cons, notValue, List.filterMap_cons, notUnit]
  simp only
  rw [List.filterMap_append, entries, behind, List.append_nil]

theorem isWord_functionName {m : PlannedMetric} {types : List ConstrainedType}
    (orderly : m.Orderly types) : IsWord m.functionName := by
  rw [orderly.functionName, recordingFunction, isWord_append]
  exact ⟨by decide, isWord_pascalCase orderly.snakeCase.isWord⟩

theorem isWord_identifier {m : PlannedMetric} {types : List ConstrainedType}
    (orderly : m.Orderly types) : ∀ field ∈ m.fields, IsWord field.identifier := by
  intro field there
  rw [orderly.identifier field there]
  exact isWord_asciiIdentifier field.key

theorem signature?_line {function record : String} (hFunction : IsWord function)
    (hRecord : IsWord record) (omissible : Bool) :
    signature? ("export function " ++ function ++ "(" ++ (if omissible then "args?" else "args")
      ++ ": " ++ record ++ ") \x7b").toList = some (omissible, record) := by
  have arguments : ∀ rest, (after? "args" ((if omissible then "args?" else "args").toList
      ++ (": ".toList ++ rest))).bind annotation? = some (omissible, rest) := by
    intro rest
    cases omissible with
    | true => rfl
    | false => rfl
  generalize (if omissible then "args?" else "args") = args at arguments
  simp only [signature?, String.toList_append, List.append_assoc, after?_append,
    word_before "(" (by decide) hFunction, Option.bind_eq_bind, Option.bind_some, Option.pure_def]
  rw [← Option.bind_assoc, arguments]
  simp only [Option.bind_some, word_before_last ") \x7b" (by decide) hRecord]

theorem recorder?_block {m : PlannedMetric} {types : List ConstrainedType}
    (orderly : m.Orderly types) {opening : List Char}
    (isSignature : signature? opening = some (m.argsOptional, interfaceName m)) :
    recorder? ⟨opening, (argumentLines m).map shown⟩ = some (.recorder (naming.recorderOf m)) := by
  simp only [recorder?, isSignature, findSome?_event (isWord_constant orderly), findSome?_unit,
    filterMap_metadata (isWord_identifier orderly), Option.bind_eq_bind, Option.bind_some,
    Option.pure_def]
  rfl

/-- The comment above a recording function declares nothing, whatever it says. -/
theorem reads_functionComment {m : PlannedMetric} {types : List ConstrainedType}
    (orderly : m.Orderly types) : (outline settings).Reads (functionComment m) [] := by
  have opening : (outline settings).Reads ["/**"] [] :=
    Outline.Reads.single (by decide) (by rfl) (by rfl)
  have parameter : (outline settings).Reads
      [" * @param args See the " ++ interfaceName m ++ " interface"] [] := by
    refine reads_comment ?_ ?_
    · simp +decide only [Text.unbroken_toList_append, (isWord_interfaceName orderly).unbroken]
    · simp only [String.toList_append, List.append_assoc]
      rfl
  have returns : (outline settings).Reads [" * @returns Nothing"] [] :=
    reads_comment (by decide) (by decide)
  have closing : (outline settings).Reads [" */"] [] :=
    Outline.Reads.single (by decide) (by rfl) (by rfl)
  have behind := parameter.cons (returns.cons closing)
  rw [functionComment]
  split
  · rename_i description _
    have body : (outline settings).Reads (commentLines " * " description) [] := by
      refine Outline.Reads.ignored fun line there => ?_
      obtain ⟨text, -, rfl⟩ := List.mem_map.1 there
      refine reads_comment ?_ ?_
      · exact Text.unbroken_toList_append.2 ⟨by decide, unbroken_blockComment text⟩
      · rw [String.toList_append, after?_append]
        rfl
    exact (opening.append body).append behind
  · have body : (outline settings).Reads [" * Records the '" ++ m.name ++ "' metric"] [] := by
      refine reads_comment ?_ ?_
      · simp +decide only [Text.unbroken_toList_append, orderly.snakeCase.isWord.unbroken]
      · simp only [String.toList_append, List.append_assoc]
        rfl
    exact (opening.append body).append behind

theorem plain_metadataLines {m : PlannedMetric} {types : List ConstrainedType}
    (orderly : m.Orderly types) : Plain (metadataLines m) := by
  rw [metadataLines]
  split
  · simp +decide only [plain_cons, plain_nil]
  · rw [plain_enclosed, plain_map]
    refine ⟨by decide, ?_, by decide⟩
    intro field there
    have identifier := (isWord_identifier orderly field (List.mem_filter.1 there).1).unbroken
    simp +decide only [metadataEntry, Text.unbroken_toList_append, unbroken_literal, identifier]

theorem plain_argumentLines {m : PlannedMetric} {types : List ConstrainedType}
    (orderly : m.Orderly types) : Plain (argumentLines m) := by
  have constant := (isWord_constant orderly).unbroken
  have unit : Text.Unbroken m.unit.sinkName.toList := by
    cases m.unit <;> decide
  simp +decide only [argumentLines, datumLines, plain_append, plain_indented, plain_cons,
    plain_enclosed, plain_nil, Text.unbroken_toList_append, constant, unit,
    plain_metadataLines orderly]

theorem unbroken_signature {m : PlannedMetric} {types : List ConstrainedType}
    (orderly : m.Orderly types) :
    Text.Unbroken ("export function " ++ m.functionName ++ "("
      ++ (if m.argsOptional then "args?" else "args") ++ ": " ++ interfaceName m
      ++ ") \x7b").toList := by
  have function := (isWord_functionName orderly).unbroken
  have interface := (isWord_interfaceName orderly).unbroken
  have arguments : Text.Unbroken (if m.argsOptional then "args?" else "args").toList := by
    cases m.argsOptional <;> decide
  simp +decide only [Text.unbroken_toList_append, function, interface, arguments]

theorem reads_functionLines (orderly : plan.Orderly) {m : PlannedMetric}
    (hm : m ∈ plan.metrics) :
    (outline settings).Reads (functionLines settings m) [.recorder (naming.recorderOf m)] := by
  have orderlyMetric := orderly.metrics m hm
  have function := isWord_functionName orderlyMetric
  have interface := isWord_interfaceName orderlyMetric
  have isSignature := signature?_line function interface m.argsOptional
  have noOther : ∀ (rest : List Char) (body : List (List Char)),
      enumeration? ⟨"export function ".toList ++ rest, body⟩ = none ∧
      union? ⟨"export function ".toList ++ rest, body⟩ = none ∧
      interface? ⟨"export function ".toList ++ rest, body⟩ = none := fun _ _ => ⟨rfl, rfl, rfl⟩
  refine (reads_functionComment orderlyMetric).append ?_
  show (outline settings).Reads (enclosed _ (call settings ++ argumentLines m) _) _
  refine Outline.Reads.enclosed (unbroken_signature orderlyMetric)
    (plain_argumentLines orderlyMetric) ?_ ?_
  · simp only [String.toList_append, List.append_assoc]
    rfl
  · have recorder := recorder?_block orderlyMetric isSignature
    simp only [String.toList_append, List.append_assoc] at recorder ⊢
    obtain ⟨noEnumeration, noUnion, noInterface⟩ := noOther _ ((argumentLines m).map shown)
    show (enumeration? ⟨_, _⟩ <|> union? ⟨_, _⟩ <|> interface? ⟨_, _⟩
      <|> recorder? ⟨_, _⟩).toList = _
    rw [noEnumeration, noUnion, noInterface, recorder]
    rfl

/-! ### Artifacts -/

/-- The lines of a plan behind the preamble. -/
def declarationLines (settings : Settings) (plan : Plan) : List String :=
  ([""] ++ eventLines plan)
    ++ (plan.constrainedTypes.flatMap (fun t => ["", unionLine t])
      ++ plan.metrics.flatMap fun m =>
        ([""] ++ interfaceLines plan.constrainedTypes m) ++ ([""] ++ functionLines settings m))

theorem lines_eq (settings : Settings) (plan : Plan) :
    lines settings plan = preamble settings ++ declarationLines settings plan := by
  cases isImport : settings.sinkImport with
  | none => simp only [lines, preamble, declarationLines, isImport, List.append_assoc]
  | some line => simp only [lines, preamble, declarationLines, isImport, List.append_assoc]

/-- The lines of a plan behind the preamble declare what they should. -/
theorem reads_declarationLines (orderly : plan.Orderly) :
    (outline settings).Reads (declarationLines settings plan) (naming.declarations plan) := by
  have events := Outline.Reads.append (o := outline settings) reads_blank (reads_eventLines orderly)
  have unions := Outline.Reads.flatMap (o := outline settings)
    fun t ht => reads_unionLine (orderly.types t ht)
  have metrics := Outline.Reads.flatMap (o := outline settings) fun m hm =>
    (reads_blank.append (reads_interfaceLines orderly hm)).append
      (reads_blank.append (reads_functionLines orderly hm))
  exact events.append (unions.append metrics)

theorem classOf_eq_none {name : String} (h : name ∉ keywords) : classOf name = none := by
  have builtIn : ∀ k ∈ ["string", "number", "boolean"], (name == k) = false := by
    intro k hk
    refine beq_false_of_ne fun eq => h ?_
    rw [eq]
    have all : ∀ k ∈ ["string", "number", "boolean"], k ∈ keywords := by decide
    exact all k hk
  rw [classOf, List.lookup_cons, builtIn "string" (by decide)]
  simp only
  rw [List.lookup_cons, builtIn "number" (by decide)]
  simp only
  rw [List.lookup_cons, builtIn "boolean" (by decide)]
  rfl

/-- If the names of a plan pass, they do not coincide where they are looked up. -/
theorem fits (orderly : plan.Orderly) (passes : checkNames plan = .ok ()) : naming.Fits plan := by
  have names := (checkNames_eq_ok_iff orderly).1 passes
  rw [typeNames, List.nodup_cons, List.nodup_append] at names
  obtain ⟨newEvents, interfaces, unions, -⟩ := names
  refine ⟨?_, interfaces, rfl, ?_, ?_, fun _ => rfl, ?_, ?_⟩
  · show (eventEnum :: plan.constrainedTypes.map fun t => typeName t.identifier).Nodup
    exact List.nodup_cons.2 ⟨fun there => newEvents (List.mem_append_right _ there), unions⟩
  · have constants : (plan.metrics.map fun m => constantName m.name).Nodup := by
      rw [List.Nodup, List.pairwise_map]
      refine (List.pairwise_map.1 orderly.names).imp_of_mem ?_
      intro m o hm ho differ same
      exact differ (constantName_inj (orderly.metrics m hm).snakeCase
        (orderly.metrics o ho).snakeCase same)
    have same : plan.metrics.map naming.event = plan.metrics.map fun m => constantName m.name :=
      List.map_congr_left fun m hm => (orderly.metrics m hm).constantName
    rw [same]
    exact constants
  · exact fun m hm => (orderly.metrics m hm).nodup
  · intro i t place
    refine ⟨?_, classOf_eq_none (typeName_notMem_keywords t.identifier)⟩
    show ((plan.constrainedTypes[i]?.map fun type => typeName type.identifier).getD "") = _
    rw [place]
    rfl
  · intro kind
    cases kind with
    | text => rfl
    | integer => rfl
    | double => rfl
    | boolean => rfl

/-- A text is rendered if the names of the plan pass, and then it is made of the plan's lines. -/
theorem render_eq_ok_iff {text : String} :
    render settings plan = .ok text ↔
      checkNames plan = .ok () ∧ text = joinLines (lines settings plan) := by
  rw [render, Checked.bind_eq_ok_iff]
  constructor
  · intro h
    obtain ⟨_, passes, rendered⟩ := h
    cases rendered
    exact ⟨passes, rfl⟩
  · intro h
    obtain ⟨passes, rfl⟩ := h
    exact ⟨(), passes, rfl⟩

/-- No text is rendered if the names of the plan do not pass. -/
theorem exists_render_eq_error_iff :
    (∃ fault, render settings plan = .error fault) ↔ ¬ checkNames plan = .ok () := by
  rw [Checked.exists_eq_error_iff]
  simp only [render_eq_ok_iff, exists_and_left, exists_eq, and_true]

/-- Behind the preamble, an artifact declares what it should. -/
theorem items_of_render (orderly : plan.Orderly) {text : String}
    (h : render settings plan = .ok text) :
    (outline settings).items
      ((text.toList.splitOn '\n').drop ((preamble settings).flatMap physical).length)
      = naming.declarations plan := by
  have nothing : (outline settings).items [[]] = [] := rfl
  rw [(render_eq_ok_iff.1 h).2, splitOn_joinLines, lines_eq, List.flatMap_append,
    List.append_assoc, List.drop_left, reads_declarationLines orderly, nothing, List.append_nil]

/-- An artifact has the contract of its plan. -/
theorem read?_of_render (orderly : plan.Orderly) {text : String}
    (h : render settings plan = .ok text) : read? settings text = plan.contract? := by
  rw [read?, items_of_render orderly h]
  exact Naming.contract?_declarations (fits orderly (render_eq_ok_iff.1 h).1) orderly

end Telemetry.Artifact.TypeScript
