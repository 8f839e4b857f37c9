import Telemetry.Proofs.Artifact.RustReader
import Telemetry.Proofs.Artifact.TypeScriptReader
import Telemetry.Proofs.Plan.Undescribed

/-!
# Descriptions stay in comments

The lines of an artifact that are no comments are its code.  A line is a comment if it begins,
behind blanks, with two slashes; in TypeScript also from a line `/**` through the next line ` */`.

* `codeLines` gives the code of an artifact;
* `Alike` says that lines have the same code, wherever they stand, and its lemmas follow the way in
  which artifacts are put together;
* `Rust.alike_lines` and `TypeScript.alike_lines`: the lines of a plan have the code of the plan
  without descriptions;
* `TypeScript.noCommentEnd_commentLines`: what a description leaves in a block comment does not end
  the comment;
* `Document.codeLines_of_undescribed`: documents that differ in descriptions only fail alike or have
  artifacts with the same code.
-/

namespace Telemetry.Artifact

/-! ### Code -/

/-- Whether the first characters of a line that are no blanks are two slashes. -/
def isLineComment (line : List Char) : Bool :=
  "//".toList.isPrefixOf (line.dropWhile Text.isBlank)

/-- The lines that are no comments.  `blocks` says whether the language has block comments, and
`inside` whether the first line stands in one. -/
def code (blocks : Bool) : (inside : Bool) → List (List Char) → List (List Char)
  | _, [] => []
  | true, line :: rest => code blocks (line != " */".toList) rest
  | false, line :: rest =>
    if blocks && line == "/**".toList then code blocks true rest
    else if isLineComment line then code blocks false rest
    else line :: code blocks false rest

/-- The lines of an artifact that are no comments. -/
def codeLines (target : Target) (text : String) : List (List Char) :=
  code (target == .typescript) false (text.toList.splitOn '\n')

section Code

variable {blocks : Bool}

/-- Lines that are followed by lines with the same code. -/
theorem code_append_congr {x y : List (List Char)}
    (same : ∀ inside, code blocks inside x = code blocks inside y) (lines : List (List Char))
    (inside : Bool) : code blocks inside (lines ++ x) = code blocks inside (lines ++ y) := by
  induction lines generalizing inside with
  | nil => exact same inside
  | cons line lines ih =>
    cases inside with
    | true => exact ih _
    | false =>
      simp only [List.cons_append, code]
      rw [ih true, ih false]

/-- A line behind two slashes is passed over, inside block comments as well. -/
theorem code_comment {line : List Char} (h : isLineComment line = true) (inside : Bool)
    (rest : List (List Char)) :
    code blocks inside (line :: rest) = code blocks inside rest := by
  have noEnd : line ≠ " */".toList := by
    rintro rfl
    exact absurd h (by decide)
  have noStart : (line == "/**".toList) = false := by
    refine beq_false_of_ne ?_
    rintro rfl
    exact absurd h (by decide)
  cases inside with
  | true => rw [code, bne_iff_ne.2 noEnd]
  | false => rw [code, noStart, Bool.and_false, if_neg Bool.false_ne_true, if_pos h]

/-- Whether lines of a list have the same code, wherever they stand in a text. -/
def Alike (blocks : Bool) (a b : List String) : Prop :=
  ∀ inside rest, code blocks inside (a.flatMap physical ++ rest)
    = code blocks inside (b.flatMap physical ++ rest)

namespace Alike

variable {α : Type} {a b c d : List String}

theorem refl (lines : List String) : Alike blocks lines lines := fun _ _ => rfl

theorem append (first : Alike blocks a b) (second : Alike blocks c d) :
    Alike blocks (a ++ c) (b ++ d) := by
  intro inside rest
  rw [List.flatMap_append, List.flatMap_append, List.append_assoc, List.append_assoc, first]
  exact code_append_congr (fun inside => second inside rest) _ inside

theorem cons (line : String) (h : Alike blocks a b) : Alike blocks (line :: a) (line :: b) :=
  (refl [line]).append h

theorem flatMap {f g : α → List String} {xs : List α} (h : ∀ x ∈ xs, Alike blocks (f x) (g x)) :
    Alike blocks (xs.flatMap f) (xs.flatMap g) := by
  induction xs with
  | nil => exact refl []
  | cons x xs ih =>
    obtain ⟨first, others⟩ := List.forall_mem_cons.1 h
    exact first.append (ih others)

/-- Blocks whose bodies are alike. -/
theorem enclosed (opening closing : String) (h : Alike blocks (indented a) (indented b)) :
    Alike blocks (Artifact.enclosed opening a closing) (Artifact.enclosed opening b closing) :=
  (h.append (refl [closing])).cons opening

end Alike

/-- Whether every line of a list is a comment behind two slashes. -/
structure Comments (lines : List String) : Prop where
  plain : Plain lines
  slashes : ∀ line ∈ lines, isLineComment line.toList = true

namespace Comments

variable {a b lines : List String}

theorem nil : Comments [] := ⟨plain_nil, List.forall_mem_nil _⟩

theorem indented (h : Comments lines) : Comments (indented lines) := by
  refine ⟨plain_indented.2 h.plain, ?_⟩
  rw [Artifact.indented, List.forall_mem_map]
  intro line there
  rw [String.toList_append]
  exact h.slashes line there

/-- The comments of a description, if there is one. -/
theorem getD {f : String → List String} (h : ∀ text, Comments (f text)) (text? : Option String) :
    Comments ((text?.map f).getD []) := by
  cases text? with
  | none => exact nil
  | some text => exact h text

/-- Comments have no code. -/
theorem alike_nil (h : Comments lines) : Alike blocks lines [] := by
  obtain ⟨plain, slashes⟩ := h
  intro inside rest
  rw [flatMap_physical plain]
  clear plain
  induction lines with
  | nil => rfl
  | cons line lines ih =>
    obtain ⟨first, others⟩ := List.forall_mem_cons.1 slashes
    rw [List.map_cons, List.cons_append, code_comment first, ih others]

/-- Comments are alike, whatever they say and however many they are. -/
theorem alike (ha : Comments a) (hb : Comments b) : Alike blocks a b :=
  fun inside rest => (ha.alike_nil inside rest).trans (hb.alike_nil inside rest).symm

end Comments

/-- The texts of lines that are alike have the same code. -/
theorem code_joinLines {a b : List String} (h : Alike blocks a b) :
    code blocks false ((joinLines a).toList.splitOn '\n')
      = code blocks false ((joinLines b).toList.splitOn '\n') := by
  rw [splitOn_joinLines, splitOn_joinLines, h]

theorem indented_flatMap {α : Type} (f : α → List String) (xs : List α) :
    indented (xs.flatMap f) = xs.flatMap fun x => indented (f x) :=
  List.map_flatMap

end Code

/-! ### Rust -/

namespace Rust

variable {plan : Plan}

theorem comments_commentLines (description : String) : Comments (commentLines description) := by
  refine ⟨plain_commentLines description, ?_⟩
  rw [commentLines, List.forall_mem_map]
  intro line _
  rw [String.toList_append]
  rfl

/-- The lines of a field are those of the field without its description, behind comments. -/
theorem alike_fieldLines (types : List ConstrainedType) (field : ArgumentField) :
    Alike false (indented (fieldLines types field))
      (indented (fieldLines types field.undescribed)) := by
  have comments := fun description => (Comments.getD comments_commentLines description).indented
  rw [fieldLines, fieldLines, indented_append, indented_append]
  exact ((comments field.description).alike (comments field.undescribed.description)).append
    (Alike.refl _)

theorem alike_structLines (types : List ConstrainedType) (m : PlannedMetric) :
    Alike false (structLines types m) (structLines types m.undescribed) := by
  have fields : Alike false (indented (m.fields.flatMap (fieldLines types)))
      (indented (m.undescribed.fields.flatMap (fieldLines types))) := by
    rw [PlannedMetric.undescribed, List.flatMap_map, indented_flatMap, indented_flatMap]
    exact Alike.flatMap fun field _ => alike_fieldLines types field
  rw [structLines, structLines, argsOptional_undescribed]
  exact (Alike.refl _).append (fields.enclosed _ _)

theorem comments_functionComment {m : PlannedMetric} {types : List ConstrainedType}
    (orderly : m.Orderly types) : Comments (functionComment m) := by
  rw [functionComment]
  split
  · exact comments_commentLines _
  · refine ⟨?_, ?_⟩
    · simp +decide only [plain_cons, plain_nil, Text.unbroken_toList_append,
        orderly.snakeCase.isWord.unbroken]
    · rw [List.forall_mem_singleton, String.toList_append, String.toList_append, List.append_assoc]
      rfl

theorem implicitName_undescribed (m : PlannedMetric) (implicit : ImplicitField) :
    implicitName m.undescribed implicit = implicitName m implicit := by
  have found : m.undescribed.fields.find? (fun field => field.implicit == some implicit)
      = (m.fields.find? fun field => field.implicit == some implicit).map
        ArgumentField.undescribed := List.find?_map
  rw [implicitName, implicitName, found]
  cases m.fields.find? fun field => field.implicit == some implicit with
  | none => rfl
  | some field => rfl

theorem metadataLines_undescribed (m : PlannedMetric) :
    metadataLines m.undescribed = metadataLines m := by
  rw [metadataLines, metadataLines, metadataFields_undescribed]
  cases m.metadataFields with
  | nil => rfl
  | cons field rest =>
    simp only [List.map_cons, List.map_map]
    rfl

theorem bodyLines_undescribed (m : PlannedMetric) : bodyLines m.undescribed = bodyLines m := by
  rw [bodyLines, bodyLines, unwrapLines, unwrapLines, argsOptional_undescribed,
    implicitName_undescribed, implicitName_undescribed, metadataLines_undescribed]
  rfl

theorem alike_functionLines {m : PlannedMetric} {types : List ConstrainedType}
    (orderly : m.Orderly types) (orderlyToo : m.undescribed.Orderly types) :
    Alike false (functionLines m) (functionLines m.undescribed) := by
  rw [functionLines_eq, functionLines_eq, bodyLines_undescribed, argsOptional_undescribed]
  exact ((comments_functionComment orderly).alike (comments_functionComment orderlyToo)).append
    (Alike.refl _)

/-- The lines of a plan have the code of the plan without descriptions. -/
theorem alike_lines (orderly : plan.Orderly) :
    Alike false (lines plan) (lines plan.undescribed) := by
  have events : eventLines plan.undescribed = eventLines plan := by
    rw [eventLines, eventLines, Plan.undescribed, List.map_map]
    rfl
  have metrics : Alike false
      (plan.metrics.flatMap fun m =>
        [""] ++ structLines plan.constrainedTypes m ++ [""] ++ functionLines m)
      (plan.undescribed.metrics.flatMap fun m =>
        [""] ++ structLines plan.constrainedTypes m ++ [""] ++ functionLines m) := by
    rw [Plan.undescribed, List.flatMap_map]
    refine Alike.flatMap fun m hm => ?_
    have isOrderly := orderly.metrics m hm
    refine (((Alike.refl _).append (alike_structLines _ m)).append (Alike.refl _)).append ?_
    exact alike_functionLines isOrderly isOrderly.undescribed
  rw [lines, lines, events]
  exact (Alike.refl _).append metrics

/-- Whether a plan passes has nothing to do with descriptions. -/
theorem checkNames_undescribed (plan : Plan) : checkNames plan.undescribed = checkNames plan := by
  have metric : ∀ scope (m : PlannedMetric),
      claimMetric scope m.undescribed = claimMetric scope m := by
    intro scope m
    rw [claimMetric, claimMetric, PlannedMetric.undescribed, List.map_map]
    rfl
  rw [checkNames, checkNames, Plan.undescribed]
  simp only [List.foldlM_map, metric]

end Rust

/-! ### TypeScript -/

namespace TypeScript

variable {settings : Settings} {plan : Plan}

/-- A block comment has no code, and no block comment goes on behind it. -/
theorem code_block {body : List String} (plain : Plain body)
    (noEnd : ∀ line ∈ body, line.toList ≠ " */".toList) (inside : Bool)
    (rest : List (List Char)) :
    code true inside ((["/**"] ++ body ++ [" */"]).flatMap physical ++ rest)
      = code true false rest := by
  have passed : code true true (body.map String.toList ++ (" */".toList :: rest))
      = code true false rest := by
    clear plain
    induction body with
    | nil => rfl
    | cons line body ih =>
      obtain ⟨first, others⟩ := List.forall_mem_cons.1 noEnd
      rw [List.map_cons, List.cons_append, code, bne_iff_ne.2 first, ih others]
  have opening : ["/**"].flatMap physical = ["/**".toList] := rfl
  have closing : [" */"].flatMap physical = [" */".toList] := rfl
  rw [List.flatMap_append, List.flatMap_append, flatMap_physical plain, opening, closing,
    List.append_assoc, List.append_assoc, List.singleton_append, List.singleton_append, ← passed]
  cases inside with
  | true => rfl
  | false => rfl

/-- The lines of the comment above a recording function between its marks. -/
def commentBody (m : PlannedMetric) : List String :=
  (match m.description with
    | some description => commentLines " * " description
    | none => [" * Records the '" ++ m.name ++ "' metric"])
  ++ [" * @param args See the " ++ interfaceName m ++ " interface", " * @returns Nothing"]

theorem functionComment_eq (m : PlannedMetric) :
    functionComment m = ["/**"] ++ commentBody m ++ [" */"] := by
  simp only [functionComment, commentBody, List.append_assoc]
  rfl

theorem plain_commentBody {m : PlannedMetric} {types : List ConstrainedType}
    (orderly : m.Orderly types) : Plain (commentBody m) := by
  rw [commentBody, plain_append]
  constructor
  · split
    · exact plain_commentLines (by decide) _
    · simp +decide only [plain_cons, plain_nil, Text.unbroken_toList_append,
        orderly.snakeCase.isWord.unbroken]
  · simp +decide only [plain_cons, plain_nil, Text.unbroken_toList_append,
      (isWord_interfaceName orderly).unbroken]

/-- Every line of the comment above a recording function begins with a star and a space. -/
theorem exists_of_mem_commentBody {m : PlannedMetric} :
    ∀ line ∈ commentBody m, ∃ text, line.toList = " * ".toList ++ text := by
  rw [commentBody, List.forall_mem_append]
  constructor
  · split
    · rw [commentLines, List.forall_mem_map]
      exact fun line _ => ⟨_, String.toList_append⟩
    · rw [List.forall_mem_singleton]
      simp only [String.toList_append, List.append_assoc]
      exact ⟨_, rfl⟩
  · rw [List.forall_mem_cons, List.forall_mem_singleton]
    constructor
    · simp only [String.toList_append, List.append_assoc]
      exact ⟨_, rfl⟩
    · exact ⟨_, rfl⟩

/-- The comments above recording functions are alike, whatever they say. -/
theorem alike_functionComment {m n : PlannedMetric} {types : List ConstrainedType}
    (hm : m.Orderly types) (hn : n.Orderly types) :
    Alike true (functionComment m) (functionComment n) := by
  have noEnd : ∀ o : PlannedMetric, ∀ line ∈ commentBody o, line.toList ≠ " */".toList := by
    intro o line there ends
    obtain ⟨text, eq⟩ := exists_of_mem_commentBody line there
    rw [eq] at ends
    cases ends
  intro inside rest
  rw [functionComment_eq, functionComment_eq, code_block (plain_commentBody hm) (noEnd m),
    code_block (plain_commentBody hn) (noEnd n)]

theorem comments_commentLines (description : String) :
    Comments (indented (commentLines "// " description)) := by
  refine ⟨plain_indented.2 (plain_commentLines (by decide) description), ?_⟩
  rw [commentLines, indented, List.map_map, List.forall_mem_map]
  intro line _
  show isLineComment (indentation ++ ("// " ++ blockComment line)).toList = true
  rw [String.toList_append, String.toList_append]
  rfl

/-- The lines of a field are those of the field without its description, behind comments. -/
theorem alike_fieldLines (types : List ConstrainedType) (field : ArgumentField) :
    Alike true (indented (fieldLines types field))
      (indented (fieldLines types field.undescribed)) := by
  have comments : ∀ description : Option String,
      Comments (indented ((description.map (commentLines "// ")).getD [])) := by
    intro description
    cases description with
    | none => exact Comments.nil
    | some text => exact comments_commentLines text
  rw [fieldLines, fieldLines, indented_append, indented_append]
  exact ((comments field.description).alike (comments field.undescribed.description)).append
    (Alike.refl _)

theorem alike_interfaceLines (types : List ConstrainedType) (m : PlannedMetric) :
    Alike true (interfaceLines types m) (interfaceLines types m.undescribed) := by
  have fields : Alike true (indented (m.fields.flatMap (fieldLines types)))
      (indented (m.undescribed.fields.flatMap (fieldLines types))) := by
    rw [PlannedMetric.undescribed, List.flatMap_map, indented_flatMap, indented_flatMap]
    exact Alike.flatMap fun field _ => alike_fieldLines types field
  exact fields.enclosed _ _

theorem metadataLines_undescribed (m : PlannedMetric) :
    metadataLines m.undescribed = metadataLines m := by
  rw [metadataLines, metadataLines, metadataFields_undescribed]
  cases m.metadataFields with
  | nil => rfl
  | cons field rest =>
    simp only [List.map_cons, List.map_map]
    rfl

theorem alike_functionLines (settings : Settings) {m : PlannedMetric}
    {types : List ConstrainedType} (orderly : m.Orderly types) :
    Alike true (functionLines settings m) (functionLines settings m.undescribed) := by
  have datum : datumLines m.undescribed = datumLines m := by
    rw [datumLines, datumLines, metadataLines_undescribed]
    rfl
  unfold functionLines
  extract_lets args argsToo
  have same : argsToo = args := by
    simp only [args, argsToo, argsOptional_undescribed]
  rw [same, datum]
  exact (alike_functionComment orderly orderly.undescribed).append (Alike.refl _)

/-- The lines of a plan have the code of the plan without descriptions. -/
theorem alike_lines (settings : Settings) (orderly : plan.Orderly) :
    Alike true (lines settings plan) (lines settings plan.undescribed) := by
  have events : eventLines plan.undescribed = eventLines plan := by
    rw [eventLines, eventLines, Plan.undescribed, List.map_map]
    rfl
  have metrics : Alike true
      (plan.metrics.flatMap fun m =>
        ([""] ++ interfaceLines plan.constrainedTypes m) ++ ([""] ++ functionLines settings m))
      (plan.undescribed.metrics.flatMap fun m =>
        ([""] ++ interfaceLines plan.constrainedTypes m)
          ++ ([""] ++ functionLines settings m)) := by
    rw [Plan.undescribed, List.flatMap_map]
    refine Alike.flatMap fun m hm => ?_
    exact ((Alike.refl _).append (alike_interfaceLines _ m)).append
      ((Alike.refl _).append (alike_functionLines settings (orderly.metrics m hm)))
  rw [lines_eq, lines_eq, declarationLines, declarationLines, events]
  exact (Alike.refl _).append ((Alike.refl _).append ((Alike.refl _).append metrics))

/-- Whether a plan passes has nothing to do with descriptions. -/
theorem checkNames_undescribed (plan : Plan) : checkNames plan.undescribed = checkNames plan := by
  have same : declarations plan.undescribed = declarations plan := by
    rw [declarations, declarations, Plan.undescribed, List.map_map]
    rfl
  rw [checkNames, checkNames, same]

/-! ### The ends of block comments -/

/-- Breaking the ends of comments keeps the first character. -/
theorem head?_breakCommentEnds (cs : List Char) : (breakCommentEnds cs).head? = cs.head? := by
  cases cs using breakCommentEnds.fun_cases with
  | case1 rest => rfl
  | case2 c rest other => rw [breakCommentEnds.eq_2 _ _ other]; rfl
  | case3 => rfl

/-- Where the ends of comments are broken there are none. -/
theorem noCommentEnd_breakCommentEnds (cs : List Char) :
    ¬ ['*', '/'] <:+: breakCommentEnds cs := by
  induction cs using breakCommentEnds.induct with
  | case1 rest ih =>
    rw [breakCommentEnds]
    intro there
    rcases List.infix_cons_iff.1 there with here | there
    · exact absurd (List.cons_prefix_cons.1 (List.cons_prefix_cons.1 here).2).1 (by decide)
    rcases List.infix_cons_iff.1 there with here | there
    · exact absurd (List.cons_prefix_cons.1 here).1 (by decide)
    rcases List.infix_cons_iff.1 there with here | there
    · exact absurd (List.cons_prefix_cons.1 here).1 (by decide)
    · exact ih there
  | case2 c rest other ih =>
    rw [breakCommentEnds.eq_2 _ _ other]
    intro there
    rcases List.infix_cons_iff.1 there with here | there
    · -- a slash behind the star stood there before breaking, too, and would have been broken off
      obtain ⟨star, tail, behind⟩ := List.cons_prefix_cons.1 here
      have slash : rest.head? = some '/' := by
        rw [← head?_breakCommentEnds, ← behind]
        rfl
      obtain ⟨more, eq⟩ := List.head?_eq_some_iff.1 slash
      exact other more star.symm eq
    · exact ih there
  | case3 =>
    intro there
    cases List.infix_nil.1 there

/-- No line that a description leaves in a block comment has an end of a comment. -/
theorem noCommentEnd_commentLines (description : String) :
    ∀ line ∈ commentLines " * " description, ¬ ['*', '/'] <:+: line.toList := by
  rw [commentLines, List.forall_mem_map]
  have mark : ∀ cs : List Char, " * ".toList ++ cs = ' ' :: '*' :: ' ' :: cs := fun _ => rfl
  intro line _ there
  rw [String.toList_append, mark, blockComment, String.toList_ofList] at there
  rcases List.infix_cons_iff.1 there with here | there
  · exact absurd (List.cons_prefix_cons.1 here).1 (by decide)
  rcases List.infix_cons_iff.1 there with here | there
  · exact absurd (List.cons_prefix_cons.1 (List.cons_prefix_cons.1 here).2).1 (by decide)
  rcases List.infix_cons_iff.1 there with here | there
  · exact absurd (List.cons_prefix_cons.1 here).1 (by decide)
  · exact noCommentEnd_breakCommentEnds _ there

end TypeScript

/-! ### Artifacts -/

/-- An orderly plan gives the code of the plan without descriptions, or its fault. -/
theorem codeLines_render (settings : Settings) {plan : Plan} (orderly : plan.Orderly) :
    codeLines settings.target <$> plan.render settings
      = codeLines settings.target <$> plan.undescribed.render settings := by
  rw [Plan.render, Plan.render]
  cases settings.target with
  | typescript =>
    show _ <$> TypeScript.render settings plan = _ <$> TypeScript.render settings plan.undescribed
    rw [TypeScript.render, TypeScript.render, TypeScript.checkNames_undescribed]
    cases TypeScript.checkNames plan with
    | error fault => rfl
    | ok _ => exact congrArg Except.ok (code_joinLines (TypeScript.alike_lines settings orderly))
  | rust =>
    show _ <$> Rust.render plan = _ <$> Rust.render plan.undescribed
    rw [Rust.render, Rust.render, Rust.checkNames_undescribed]
    cases Rust.checkNames plan with
    | error fault => rfl
    | ok _ => exact congrArg Except.ok (code_joinLines (Rust.alike_lines orderly))

end Telemetry.Artifact

namespace Telemetry.Document

open Artifact (codeLines)

/-- The code of a document's artifact, or the fault, is that of the plan without descriptions. -/
theorem codeLines_generate (settings : Settings) (document : Document) :
    codeLines settings.target <$> document.generate settings
      = (Plan.undescribed <$> document.plan settings) >>= fun plan =>
        codeLines settings.target <$> plan.render settings := by
  rw [generate_eq]
  cases planned : document.plan settings with
  | error fault => rfl
  | ok plan => exact Artifact.codeLines_render settings (orderly_of_plan planned)

/-- Documents that differ in descriptions only fail alike, or have artifacts with the same code; and
no description ends the block comment that it stands in. -/
theorem codeLines_of_undescribed {document other : Document}
    (same : document.undescribed = other.undescribed) (settings : Settings) :
    ((∃ fault, document.generate settings = .error fault ∧ other.generate settings = .error fault) ∨
      ∃ text otherText, document.generate settings = .ok text ∧
        other.generate settings = .ok otherText ∧
        codeLines settings.target text = codeLines settings.target otherText) ∧
    ∀ description, ∀ line ∈ Artifact.TypeScript.commentLines " * " description,
      ¬ ['*', '/'] <:+: line.toList := by
  refine ⟨?_, Artifact.TypeScript.noCommentEnd_commentLines⟩
  have results : codeLines settings.target <$> document.generate settings
      = codeLines settings.target <$> other.generate settings := by
    rw [codeLines_generate, codeLines_generate, plan_congr same]
  cases first : document.generate settings with
  | error fault =>
    cases second : other.generate settings with
    | error otherFault =>
      rw [first, second] at results
      cases results
      exact .inl ⟨fault, rfl, rfl⟩
    | ok otherText =>
      rw [first, second] at results
      cases results
  | ok text =>
    cases second : other.generate settings with
    | error otherFault =>
      rw [first, second] at results
      cases results
    | ok otherText =>
      rw [first, second] at results
      exact .inr ⟨text, otherText, rfl, rfl, Except.ok.inj results⟩

/-- A document with descriptions that try to get out of comments. -/
def intrusiveDocument : Document where
  metadata := [
    { name := "region", allowedValues := some ["eu"],
      description := some "*/ export enum A \x7b\n\x7d /**" }]
  metrics := [
    { name := "cache_hit", unit := "Count", metadata := [.reference "$region"],
      description := some "**/\r\n */\u2028pub fn f() \x7b\x7d" }]

theorem intrusiveDocument_generates : ∀ target,
    (intrusiveDocument.generate { target }).toOption.isSome = true := by
  intro target
  cases target <;> decide +kernel

/-- The document has an artifact for either target, with the code of the document without
descriptions. -/
theorem codeLines_of_intrusiveDocument :
    intrusiveDocument.undescribed = intrusiveDocument.undescribed.undescribed ∧
    (∀ target, ∃ text otherText, intrusiveDocument.generate { target } = .ok text ∧
      intrusiveDocument.undescribed.generate { target } = .ok otherText ∧
      codeLines target text = codeLines target otherText) ∧
    ∀ description, ∀ line ∈ Artifact.TypeScript.commentLines " * " description,
      ¬ ['*', '/'] <:+: line.toList := by
  have same : intrusiveDocument.undescribed = intrusiveDocument.undescribed.undescribed := by
    decide +kernel
  refine ⟨same, fun target => ?_, (codeLines_of_undescribed same {}).2⟩
  obtain ⟨text, isText⟩ := Checked.isSome_toOption_iff.1 (intrusiveDocument_generates target)
  rcases (codeLines_of_undescribed same { target }).1 with ⟨fault, failed, -⟩ | generated
  · rw [isText] at failed
    cases failed
  · exact generated

end Telemetry.Document
