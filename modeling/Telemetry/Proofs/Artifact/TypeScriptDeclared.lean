import Telemetry.Proofs.Artifact.Declared
import Telemetry.Proofs.Artifact.TypeScriptReader

/-!
# What TypeScript artifacts declare

The text of an artifact holds two texts of the settings as they are: what is imported, and in every
recording function the expression that calls the sink.  The lines of these may declare something of
their own.

* `TypeScript.passagesIn` are the declarations of a text with their bodies;
  `TypeScript.enumerationsOf` reads the members out of the bodies of enumerations, and
  `TypeScript.interfacesOf` the properties out of those of interfaces, and neither reads anything if
  some line of a body is nothing of the kind;
* `TypeScript.settingsDeclarations` are the declarations in the lines of the settings' texts;
* `TypeScript.shows_render`: an artifact declares what its plan comes to, and beside it what those
  lines declare; `TypeScript.passagesIn_of_render`: if they declare nothing, there is nothing else;
* `TypeScript.enumerationsOf_passagesOf` and `TypeScript.interfacesOf_passagesOf` say what is
  inside.
-/

namespace Telemetry.Artifact.TypeScript

variable {settings : Settings} {plan : Plan}

/-! ### The reader -/

/-- How a declaration begins. -/
def heading : Heading where
  marks := ["export ", "default ", "declare ", "abstract ", "async "]
  keywords :=
    ["class", "const enum", "const", "enum", "function", "interface", "let", "namespace", "type",
     "var"]
  worded := by decide

/-- The declarations of a text with their bodies. -/
def passagesIn (text : String) : List Passage :=
  heading.passages (text.toList.splitOn '\n')

/-- What the lines of a text declare. -/
def declarationsIn (text : String) : List (String × String) :=
  heading.declaredIn (text.toList.splitOn '\n')

/-- A member of an enumeration with its text.  Nothing else stands on its line. -/
def enumMember? (line : List Char) : Option (String × String) := do
  let (name, rest) := word (unindented line)
  let rest ← after? " = " rest
  let (text, rest) ← quoting.read? rest
  if rest = [','] then some (name, text) else none

/-- An enumeration with its members. -/
def members? (p : Passage) : Option (String × List (String × String)) :=
  (p.body.mapM enumMember?).map fun members => (p.name, members)

/-- A property on its line in the body of an interface. -/
def indentedProperty? (line : List Char) : Option (String × Property) :=
  property? (unindented line)

/-- An interface with its properties. -/
def properties? (p : Passage) : Option (String × List (String × Property)) :=
  (p.code.mapM indentedProperty?).map fun properties => (p.name, properties)

/-- The enumerations among declarations. -/
def enumerationsOf (ps : List Passage) : Option (List (String × List (String × String))) :=
  (Passage.withKeyword "enum" ps).mapM members?

/-- The interfaces among declarations. -/
def interfacesOf (ps : List Passage) : Option (List (String × List (String × Property))) :=
  (Passage.withKeyword "interface" ps).mapM properties?

/-! ### What a plan comes to -/

/-- The line of an event. -/
def eventLine (m : PlannedMetric) : String :=
  m.constantName ++ " = " ++ literal m.name ++ ","

/-- The interface of a metric's arguments, and the function that records the metric. -/
def metricPassages (settings : Settings) (types : List ConstrainedType) (m : PlannedMetric) :
    List Passage :=
  [.of "interface" (interfaceName m) (m.fields.flatMap (fieldLines types)),
   .of "function" m.functionName (call settings ++ argumentLines m)]

/-- The declarations of a plan. -/
def passagesOf (settings : Settings) (plan : Plan) : List Passage :=
  [.of "enum" eventEnum (plan.metrics.map eventLine)]
    ++ (plan.constrainedTypes.map (fun t => ⟨"type", typeName t.identifier, []⟩)
      ++ plan.metrics.flatMap (metricPassages settings plan.constrainedTypes))

/-- The enumeration of a plan, with the names and the texts of its members. -/
def enumerations (plan : Plan) : List (String × List (String × String)) :=
  [(eventEnum, plan.metrics.map fun m => (m.constantName, m.name))]

/-- The interfaces of a plan, with the names and the types of their properties. -/
def interfaces (plan : Plan) : List (String × List (String × Property)) :=
  plan.metrics.map fun m =>
    (interfaceName m, m.fields.map (naming.propertyOf plan.constrainedTypes))

/-! ### The texts of the settings -/

/-- The lines of what the settings import. -/
def imported (settings : Settings) : List String :=
  match settings.sinkImport with
  | some line => ["", Text.trimEnd line]
  | none => []

/-- What the lines declare that hold a text of the settings: those of the import, and those in which
the functions call the sink. -/
def settingsDeclarations (settings : Settings) (plan : Plan) : List (String × String) :=
  heading.declaredIn ((imported settings).flatMap physical)
    ++ plan.metrics.flatMap fun _ =>
      heading.declaredIn ((indented (call settings)).flatMap physical)

/-! ### The lines of a plan -/

theorem shows_blank : heading.Shows [""] [] [] :=
  .symbols (plain_cons.2 ⟨by decide, plain_nil⟩) (by decide)

/-- The lines that begin every artifact declare nothing. -/
theorem shows_header : heading.Shows header [] [] := by
  have plain : Plain header := by
    simp only [header, plain_cons, plain_nil, and_true]
    exact ⟨.ofList (by decide), .ofList (by decide), .ofList (by decide), .ofList (by decide)⟩
  exact .symbols plain (by decide)

theorem shows_eventLines (orderly : plan.Orderly) :
    heading.Shows (eventLines plan) [.of "enum" eventEnum (plan.metrics.map eventLine)] [] :=
  .block (plain_eventLines orderly) (by decide) (by decide)

theorem getLast?_intercalate {texts : List String} {c : Char} (notEmpty : texts ≠ [])
    (all : ∀ text ∈ texts, text.toList.getLast? = some c) :
    (" | ".intercalate texts).toList.getLast? = some c := by
  induction texts with
  | nil => exact absurd rfl notEmpty
  | cons first rest ih =>
    obtain ⟨here, others⟩ := List.forall_mem_cons.1 all
    cases rest with
    | nil =>
      rw [String.intercalate_singleton]
      exact here
    | cons second rest =>
      rw [String.intercalate_cons_cons, String.toList_append, List.getLast?_append,
        ih (List.cons_ne_nil _ _) others]
      rfl

theorem shows_unionLine {t : ConstrainedType} (orderly : t.Orderly) :
    heading.Shows ["", unionLine t] [⟨"type", typeName t.identifier, []⟩] [] := by
  have opening := Heading.declared?_opening (h := heading) "export type " "type" " = "
    (fun _ => rfl) (isWord_unionName orderly) (by decide)
  have quoted : ∀ text ∈ t.values.map literal, text.toList.getLast? = some '\'' := by
    refine List.forall_mem_map.2 fun value _ => ?_
    rw [literal, String.toList_ofList, ← List.cons_append, List.getLast?_concat]
  have last : (unionLine t).toList.getLast? ≠ some '\x7b' := by
    have notEmpty : t.values.map literal ≠ [] :=
      fun none => orderly.values (List.map_eq_nil_iff.1 none)
    rw [unionLine, String.toList_append, List.getLast?_append, getLast?_intercalate notEmpty quoted,
      Option.some_or]
    decide
  refine shows_blank.cons (.single (unbroken_unionLine orderly) ?_ last)
  simp only [unionLine, String.toList_append, List.append_assoc]
  exact opening _

theorem shows_interfaceLines (orderly : plan.Orderly) {m : PlannedMetric}
    (hm : m ∈ plan.metrics) :
    heading.Shows (interfaceLines plan.constrainedTypes m)
      [.of "interface" (interfaceName m) (m.fields.flatMap (fieldLines plan.constrainedTypes))]
      [] := by
  have isOrderly := orderly.metrics m hm
  have opening := Heading.declared?_line (h := heading) "export interface " "interface" " \x7b"
    (fun _ => rfl) (isWord_interfaceName isOrderly) (by decide)
  exact .block (plain_interfaceLines orderly.types isOrderly) opening
    (Heading.getLast?_append_brace _ (by decide))

theorem shows_functionComment {m : PlannedMetric} {types : List ConstrainedType}
    (orderly : m.Orderly types) : heading.Shows (functionComment m) [] [] := by
  have parameter : heading.Shows [" * @param args See the " ++ interfaceName m ++ " interface"]
      [] [] := by
    refine .symbols ?_ (List.forall_mem_singleton.2 ?_)
    · simp +decide only [plain_cons, plain_nil, Text.unbroken_toList_append,
        (isWord_interfaceName orderly).unbroken]
    · rw [String.toList_append, String.toList_append, List.append_assoc]
      rfl
  have opening : heading.Shows ["/**"] [] [] :=
    .symbols (plain_cons.2 ⟨by decide, plain_nil⟩) (by decide)
  have closing : heading.Shows [" * @returns Nothing", " */"] [] [] :=
    .symbols (plain_cons.2 ⟨by decide, plain_cons.2 ⟨by decide, plain_nil⟩⟩) (by decide)
  have behind := parameter.cons closing
  rw [functionComment]
  split
  · rename_i description _
    have body : heading.Shows (commentLines " * " description) [] [] := by
      refine .symbols (plain_commentLines (by decide) description) ?_
      rw [commentLines, List.forall_mem_map]
      intro line _
      rw [String.toList_append]
      rfl
    exact (opening.append body).append behind
  · have body : heading.Shows [" * Records the '" ++ m.name ++ "' metric"] [] [] := by
      refine .symbols ?_ (List.forall_mem_singleton.2 ?_)
      · simp +decide only [plain_cons, plain_nil, Text.unbroken_toList_append,
          orderly.snakeCase.isWord.unbroken]
      · rw [String.toList_append, String.toList_append, List.append_assoc]
        rfl
    exact (opening.append body).append behind

/-- A recording function is a declaration, and the lines in which it calls the sink may declare
something beside it. -/
theorem shows_functionLines (settings : Settings) {m : PlannedMetric} {types : List ConstrainedType}
    (orderly : m.Orderly types) :
    heading.Shows (functionLines settings m)
      [.of "function" m.functionName (call settings ++ argumentLines m)]
      (heading.declaredIn ((indented (call settings)).flatMap physical)) := by
  have opening := Heading.declared?_opening (h := heading) "export function " "function" "("
    (fun _ => rfl) (isWord_functionName orderly) (by decide)
  have declares : heading.declared? ("export function " ++ m.functionName ++ "("
      ++ (if m.argsOptional then "args?" else "args") ++ ": " ++ interfaceName m
      ++ ") \x7b").toList = some ("function", m.functionName) := by
    simp only [String.toList_append, List.append_assoc]
    exact opening _
  have shows := Heading.Shows.enclosed (call settings ++ argumentLines m)
    (unbroken_signature orderly) declares (Heading.getLast?_append_brace _ (by decide))
  have inner : heading.declaredIn ((indented (call settings ++ argumentLines m)).flatMap physical)
      = heading.declaredIn ((indented (call settings)).flatMap physical) := by
    have arguments := Heading.declaredIn_indented (h := heading) (plain_argumentLines orderly)
    rw [Heading.declaredIn] at arguments
    rw [indented_append, List.flatMap_append, Heading.declaredIn, List.filterMap_append, arguments,
      List.append_nil, Heading.declaredIn]
  rw [inner] at shows
  exact (shows_functionComment orderly).append shows

/-- What the lines of a plan show: the declarations of the plan, and beside them what the lines of
the settings' texts declare. -/
theorem shows_lines (settings : Settings) (orderly : plan.Orderly) :
    heading.Shows (lines settings plan) (passagesOf settings plan)
      (settingsDeclarations settings plan) := by
  have imports : heading.Shows (imported settings) []
      (heading.declaredIn ((imported settings).flatMap physical)) := .beside _
  have unions := Heading.Shows.flatMap_alone fun t ht => shows_unionLine (orderly.types t ht)
  have metrics := Heading.Shows.flatMap fun m hm =>
    (shows_blank.append (shows_interfaceLines orderly hm)).append
      (shows_blank.append (shows_functionLines settings (orderly.metrics m hm)))
  have declared := (shows_blank.append (shows_eventLines orderly)).append (unions.append metrics)
  have all := (shows_header.append imports).append declared
  rw [lines_eq]
  simp only [passagesOf, List.map_eq_flatMap (l := plan.constrainedTypes)]
  exact all

/-! ### Artifacts -/

/-- An artifact declares what its plan comes to, and beside it what the lines of the settings' texts
declare. -/
theorem shows_render (orderly : plan.Orderly) {text : String}
    (h : render settings plan = .ok text) :
    (passagesOf settings plan).Sublist (passagesIn text) ∧
      (declarationsIn text).Perm
        ((passagesOf settings plan).map Passage.head ++ settingsDeclarations settings plan) := by
  obtain ⟨shown, isShown, sub, heads⟩ := shows_lines settings orderly [[]]
  have last : heading.passages [[]] = [] := by rfl
  have cut : passagesIn text = shown := by
    rw [passagesIn, (render_eq_ok_iff.1 h).2, splitOn_joinLines, isShown, last, List.append_nil]
  refine ⟨cut ▸ sub, ?_⟩
  have same : declarationsIn text = shown.map Passage.head := by
    rw [← cut, passagesIn, Heading.map_head_passages]
    rfl
  rw [same]
  exact heads

/-- If the lines of the settings' texts declare nothing, an artifact declares what its plan comes to
and nothing else. -/
theorem passagesIn_of_render (orderly : plan.Orderly) {text : String}
    (h : render settings plan = .ok text) (nothing : settingsDeclarations settings plan = []) :
    passagesIn text = passagesOf settings plan := by
  obtain ⟨sub, heads⟩ := shows_render orderly h
  have length := heads.length_eq
  rw [nothing, List.append_nil, declarationsIn, ← Heading.map_head_passages, List.length_map,
    List.length_map] at length
  exact (sub.eq_of_length length.symm).symm

/-- An expression on one line declares nothing where it is called. -/
theorem settingsDeclarations_of_unbroken (plain : Text.Unbroken settings.sink.toList) :
    settingsDeclarations settings plan
      = heading.declaredIn ((imported settings).flatMap physical) := by
  have isPlain : Plain (call settings) := by
    simp +decide only [call, plain_cons, plain_nil, Text.unbroken_toList_append, plain]
  have calls : (plan.metrics.flatMap fun _ =>
      heading.declaredIn ((indented (call settings)).flatMap physical)) = [] :=
    List.flatMap_eq_nil_iff.2 fun _ _ => Heading.declaredIn_indented isPlain
  rw [settingsDeclarations, calls, List.append_nil]

example : settingsDeclarations {} plan = [] :=
  (settingsDeclarations_of_unbroken (by decide)).trans (by decide)

/-! ### Bodies -/

theorem enumMember?_line {name : String} (isWord : IsWord name) (notEmpty : name ≠ "")
    (text : String) :
    enumMember? (indentation ++ (name ++ " = " ++ literal text ++ ",")).toList
      = some (name, text) := by
  have begins : unindented (indentation ++ (name ++ " = " ++ literal text ++ ",")).toList
      = name.toList ++ (" = ".toList ++ ((literal text).toList ++ [','])) := by
    rw [← shown, shown_indentation, String.append_assoc, String.append_assoc,
      shown_word isWord notEmpty, String.toList_append, String.toList_append]
    rfl
  simp only [enumMember?, begins, word_before " = " (by decide) isWord, after?_append, read_literal,
    Option.bind_eq_bind, Option.bind_some, if_true]

/-- The enumeration of a plan has the members that it should have. -/
theorem enumerationsOf_passagesOf (settings : Settings) (orderly : plan.Orderly) :
    enumerationsOf (passagesOf settings plan) = some (enumerations plan) := by
  have events : Passage.withKeyword "enum"
      [Passage.of "enum" eventEnum (plan.metrics.map eventLine)]
      = [.of "enum" eventEnum (plan.metrics.map eventLine)] := by rfl
  have types : Passage.withKeyword "enum"
      (plan.constrainedTypes.map fun t => ⟨"type", typeName t.identifier, []⟩) = [] :=
    Passage.withKeyword_map_other fun _ _ => show "type" ≠ "enum" by decide
  have metrics : Passage.withKeyword "enum"
      (plan.metrics.flatMap (metricPassages settings plan.constrainedTypes)) = [] :=
    Passage.withKeyword_flatMap_other fun _ _ => rfl
  have plain := (plain_enclosed.1 (plain_eventLines orderly)).2.1
  have notEmpty : ∀ m ∈ plan.metrics, m.constantName ≠ "" := by
    intro m hm
    rw [(orderly.metrics m hm).constantName]
    exact (orderly.metrics m hm).snakeCase.constantName_ne_empty
  have body := mapM_body_of plain (fun m hm =>
    enumMember?_line (isWord_constant (orderly.metrics m hm)) (notEmpty m hm) m.name)
    "enum" eventEnum
  have members : members? (.of "enum" eventEnum (plan.metrics.map eventLine))
      = some (eventEnum, plan.metrics.map fun m => (m.constantName, m.name)) := by
    rw [members?]
    exact congrArg _ body
  rw [enumerationsOf, passagesOf, Passage.withKeyword_append, Passage.withKeyword_append, events,
    types, metrics, Related.mapM_eq_some_iff, enumerations]
  exact .cons members .nil

/-- The line of a property, behind its description. -/
def fieldLine (types : List ConstrainedType) (field : ArgumentField) : String :=
  field.identifier ++ (if field.required then "" else "?") ++ ": " ++ fieldType types field.type

theorem isComment_of_mem_commentLines (description : String) :
    ∀ line ∈ commentLines "// " description,
      Passage.isComment (indentation ++ line).toList = true := by
  refine List.forall_mem_map.2 fun line _ => ?_
  simp only [Passage.isComment, String.toList_append]
  rfl

theorem isComment_fieldLine (types : List ConstrainedType) {field : ArgumentField}
    (isWord : IsWord field.identifier) (notEmpty : field.identifier ≠ "") :
    Passage.isComment (indentation ++ fieldLine types field).toList = false := by
  have begins : unindented (indentation ++ fieldLine types field).toList
      = field.identifier.toList ++ ((if field.required then "" else "?") ++
        (": " ++ fieldType types field.type)).toList := by
    rw [← shown, shown_indentation, fieldLine, String.append_assoc, String.append_assoc,
      shown_word isWord notEmpty]
  rw [Passage.isComment, begins, after?, if_neg]
  · rfl
  · intro comment
    obtain ⟨rest, eq⟩ := List.isPrefixOf_iff_prefix.1 comment
    cases isList : field.identifier.toList with
    | nil => exact notEmpty (String.toList_inj.1 isList)
    | cons c cs =>
      rw [isList] at eq
      have slash : '/' = c := (List.cons.inj eq).1
      have letter := isWord c (isList ▸ List.mem_cons_self)
      rw [← slash] at letter
      cases letter

theorem properties?_metric (orderly : plan.Orderly) {m : PlannedMetric} (hm : m ∈ plan.metrics) :
    properties? (.of "interface" (interfaceName m)
      (m.fields.flatMap (fieldLines plan.constrainedTypes)))
      = some (interfaceName m, m.fields.map (naming.propertyOf plan.constrainedTypes)) := by
  have isOrderly := orderly.metrics m hm
  have isWord := isWord_identifier isOrderly
  have notEmpty : ∀ field ∈ m.fields, field.identifier ≠ "" := by
    intro field there
    rw [isOrderly.identifier field there]
    exact asciiIdentifier_ne_empty _
  have plain := (plain_enclosed.1 (plain_interfaceLines orderly.types isOrderly)).2.1
  have split : ∀ field ∈ m.fields, ∃ comments,
      fieldLines plan.constrainedTypes field
        = comments ++ [fieldLine plan.constrainedTypes field] ∧
      ∀ comment ∈ comments, Passage.isComment (indentation ++ comment).toList = true := by
    intro field _
    exact ⟨_, rfl, Passage.isComment_getD field.description isComment_of_mem_commentLines⟩
  have read : ∀ field ∈ m.fields,
      indentedProperty? (indentation ++ fieldLine plan.constrainedTypes field).toList
        = some (naming.propertyOf plan.constrainedTypes field) := by
    intro field there
    rw [indentedProperty?, ← shown, shown_indentation]
    exact property?_shown (isWord field there) (notEmpty field there) field.required _
  have code := mapM_code_of plain split
    (fun field there => isComment_fieldLine _ (isWord field there) (notEmpty field there)) read
    "interface" (interfaceName m)
  rw [properties?, code]
  rfl

/-- The interfaces of a plan have the properties that they should have. -/
theorem interfacesOf_passagesOf (settings : Settings) (orderly : plan.Orderly) :
    interfacesOf (passagesOf settings plan) = some (interfaces plan) := by
  have events : Passage.withKeyword "interface"
      [Passage.of "enum" eventEnum (plan.metrics.map eventLine)] = [] := by rfl
  have types : Passage.withKeyword "interface"
      (plan.constrainedTypes.map fun t => ⟨"type", typeName t.identifier, []⟩) = [] :=
    Passage.withKeyword_map_other fun _ _ => show "type" ≠ "interface" by decide
  have metrics : Passage.withKeyword "interface"
      (plan.metrics.flatMap (metricPassages settings plan.constrainedTypes))
      = plan.metrics.map fun m => .of "interface" (interfaceName m)
        (m.fields.flatMap (fieldLines plan.constrainedTypes)) :=
    Passage.withKeyword_flatMap fun _ _ => rfl
  rw [interfacesOf, passagesOf, Passage.withKeyword_append, Passage.withKeyword_append, events,
    types, metrics, List.nil_append, List.nil_append, List.mapM_map, Related.mapM_eq_some_iff,
    interfaces, List.forall₂_map_right_iff, List.forall₂_same]
  exact fun m hm => properties?_metric orderly hm

end Telemetry.Artifact.TypeScript
