import Mathlib.Data.List.Forall2
import Mathlib.Data.List.Nodup
import Telemetry.Proofs.Artifact.Outline
import Telemetry.Proofs.Related

/-!
# What the lines of an artifact declare

A line that begins with a keyword declares the name behind it; marks, such as that of what is
public, may stand in front.  If the line ends with an opening brace, what it declares has a body,
which goes up to the next line that is a closing brace.  An indented line declares nothing, nor does
a comment or a line that closes a body.

* `Heading.declared?` reads the declaration of a line, and `Heading.passages` those of a list of
  lines with their bodies;
* `Heading.Shows` says which passages some lines show, whatever lines follow, and what they declare
  beside them; its lemmas follow the way in which artifacts are put together;
* `namesOf` are the names that are declared with some keywords, and `mentions` those that stand in
  the text of a type.
-/

namespace Telemetry.Artifact

/-! ### Declarations of lines -/

/-- How a language begins a declaration. -/
structure Heading where
  /-- What may stand in front of a keyword, in this order, with what separates it. -/
  marks : List String
  /-- The keywords that declare something.  Of two that a line begins with, the first counts. -/
  keywords : List String
  worded : ∀ text ∈ marks ++ keywords, (text.toList.head?.any isIdentifierChar) = true

/-- A declaration as a text shows it. -/
structure Passage where
  keyword : String
  name : String
  /-- The lines between the line that opens a body and the next closing brace. -/
  body : List (List Char)
  deriving DecidableEq, Repr

namespace Passage

/-- What the first line declares. -/
def head (p : Passage) : String × String :=
  (p.keyword, p.name)

/-- Whether a line of a body is a comment. -/
def isComment (line : List Char) : Bool :=
  (after? "//" (unindented line)).isSome

/-- The lines of the body that are not comments. -/
def code (p : Passage) : List (List Char) :=
  p.body.filter fun line => !isComment line

/-- The passages that begin with a keyword. -/
def withKeyword (keyword : String) (ps : List Passage) : List Passage :=
  ps.filter fun p => p.keyword == keyword

/-- The passage with some lines for its body, as far as none of them closes it. -/
def of (keyword name : String) (body : List String) : Passage where
  keyword
  name
  body := ((indented body).flatMap physical).takeWhile (· != ['\x7d'])

@[simp] theorem head_of (keyword name : String) (body : List String) :
    (of keyword name body).head = (keyword, name) := rfl

end Passage

/-- The body of what a line declares, among the lines behind it. -/
def bodyBehind (line : List Char) (rest : List (List Char)) : List (List Char) :=
  if line.getLast? = some '\x7b' then rest.takeWhile (· != ['\x7d']) else []

namespace Heading

variable (h : Heading)

/-- The line without the marks that it begins with. -/
def unmarked (line : List Char) : List Char :=
  h.marks.foldl (fun line mark => (after? mark line).getD line) line

/-- The keyword and the name of the declaration that a line begins. -/
def declared? (line : List Char) : Option (String × String) :=
  h.keywords.findSome? fun keyword =>
    (after? (keyword ++ " ") (h.unmarked line)).map fun rest => (keyword, (word rest).1)

/-- What lines declare. -/
def declaredIn (lines : List (List Char)) : List (String × String) :=
  lines.filterMap h.declared?

/-- The declarations of lines with their bodies. -/
def passages : List (List Char) → List Passage
  | [] => []
  | line :: rest =>
    match h.declared? line with
    | none => passages rest
    | some (keyword, name) => ⟨keyword, name, bodyBehind line rest⟩ :: passages rest

/-- Whether some lines show the passages in their order, whatever lines follow, and beside them only
passages that declare the others. -/
def Shows (lines : List String) (ps : List Passage) (others : List (String × String)) : Prop :=
  ∀ rest, ∃ shown, h.passages (lines.flatMap physical ++ rest) = shown ++ h.passages rest ∧
    ps.Sublist shown ∧ (shown.map Passage.head).Perm (ps.map Passage.head ++ others)

variable {h}

theorem map_head_passages (lines : List (List Char)) :
    (h.passages lines).map Passage.head = h.declaredIn lines := by
  induction lines with
  | nil => rfl
  | cons line rest ih =>
    rw [passages, declaredIn, List.filterMap_cons]
    cases h.declared? line with
    | none => exact ih
    | some d => exact congrArg (d :: ·) ih

/-! ### Lines that declare nothing -/

/-- A line that begins with no letter, digit or underscore does not begin with a word. -/
theorem after?_symbol {text : String} {line : List Char}
    (worded : (text.toList.head?.any isIdentifierChar) = true)
    (symbol : (line.head?.all fun c => !isIdentifierChar c) = true) : after? text line = none := by
  rw [after?, if_neg]
  intro begins
  obtain ⟨rest, rfl⟩ := List.isPrefixOf_iff_prefix.1 begins
  cases isText : text.toList with
  | nil =>
    rw [isText] at worded
    cases worded
  | cons c cs =>
    simp only [isText, List.cons_append, List.head?_cons, Option.all_some, Option.any_some,
      Bool.not_eq_true'] at symbol worded
    rw [symbol] at worded
    cases worded

theorem unmarked_symbol {line : List Char}
    (symbol : (line.head?.all fun c => !isIdentifierChar c) = true) : h.unmarked line = line := by
  have worded : ∀ mark ∈ h.marks, (mark.toList.head?.any isIdentifierChar) = true :=
    fun mark there => h.worded mark (List.mem_append_left _ there)
  rw [unmarked]
  generalize h.marks = marks at worded
  induction marks with
  | nil => rfl
  | cons mark marks ih =>
    obtain ⟨here, others⟩ := List.forall_mem_cons.1 worded
    rw [List.foldl_cons, after?_symbol here symbol]
    exact ih others

/-- Such a line declares nothing. -/
theorem declared?_symbol {line : List Char}
    (symbol : (line.head?.all fun c => !isIdentifierChar c) = true) : h.declared? line = none := by
  rw [declared?, unmarked_symbol symbol, List.findSome?_eq_none_iff]
  intro keyword known
  have worded : ((keyword ++ " ").toList.head?.any isIdentifierChar) = true := by
    have here := h.worded keyword (List.mem_append_right _ known)
    rw [String.toList_append]
    cases isText : keyword.toList with
    | nil =>
      rw [isText] at here
      cases here
    | cons c cs =>
      rw [isText] at here
      exact here
  rw [after?_symbol worded symbol, Option.map_none]

theorem declared?_indented (line : String) : h.declared? (indentation ++ line).toList = none := by
  refine declared?_symbol ?_
  rw [String.toList_append]
  rfl

/-- Indented lines declare nothing. -/
theorem declaredIn_indented {body : List String} (plain : Plain body) :
    h.declaredIn ((indented body).flatMap physical) = [] := by
  rw [flatMap_physical (plain_indented.2 plain), indented, List.map_map, declaredIn,
    List.filterMap_map, List.filterMap_eq_nil_iff]
  exact fun line _ => declared?_indented line

/-! ### Lines that declare something -/

/-- A line that begins with a keyword and a name declares the name, whatever its marks are. -/
theorem declared?_opening (start keyword tail : String) {name : String}
    (begins : ∀ rest, h.declared? (start.toList ++ rest) = some (keyword, (word rest).1))
    (hName : IsWord name) (ends : (tail.toList.head?.any fun c => !isIdentifierChar c) = true)
    (rest : List Char) :
    h.declared? (start.toList ++ (name.toList ++ (tail.toList ++ rest)))
      = some (keyword, name) := by
  rw [begins, word_before tail ends hName]

/-- The same of a whole line. -/
theorem declared?_line (start keyword tail : String) {name : String}
    (begins : ∀ rest, h.declared? (start.toList ++ rest) = some (keyword, (word rest).1))
    (hName : IsWord name) (ends : (tail.toList.head?.any fun c => !isIdentifierChar c) = true) :
    h.declared? (start ++ name ++ tail).toList = some (keyword, name) := by
  have opening := declared?_opening start keyword tail begins hName ends []
  rw [List.append_nil] at opening
  rw [String.toList_append, String.toList_append, List.append_assoc, opening]

theorem getLast?_append_brace (front : String) {tail : String}
    (last : tail.toList.getLast? = some '\x7b') :
    (front ++ tail).toList.getLast? = some '\x7b' := by
  rw [String.toList_append, List.getLast?_append, last]
  rfl

/-! ### What lines show -/

/-- Lines in front of others show the passages that their declarations begin. -/
theorem exists_passages_append (h : Heading) (lines rest : List (List Char)) :
    ∃ shown, h.passages (lines ++ rest) = shown ++ h.passages rest ∧
      shown.map Passage.head = h.declaredIn lines := by
  induction lines with
  | nil => exact ⟨[], rfl, rfl⟩
  | cons line lines ih =>
    obtain ⟨shown, isShown, heads⟩ := ih
    rw [List.cons_append, passages, declaredIn, List.filterMap_cons]
    cases h.declared? line with
    | none => exact ⟨shown, isShown, heads⟩
    | some d =>
      refine ⟨⟨d.1, d.2, bodyBehind line (lines ++ rest)⟩ :: shown, ?_, congrArg (d :: ·) heads⟩
      simp only [isShown, List.cons_append]

namespace Shows

theorem nil : h.Shows [] [] [] := fun _ => ⟨[], rfl, List.Sublist.refl _, List.Perm.refl _⟩

theorem append {a b : List String} {ps qs : List Passage} {ds es : List (String × String)}
    (ha : h.Shows a ps ds) (hb : h.Shows b qs es) : h.Shows (a ++ b) (ps ++ qs) (ds ++ es) := by
  intro rest
  obtain ⟨first, isFirst, firstSub, firstHeads⟩ := ha (b.flatMap physical ++ rest)
  obtain ⟨second, isSecond, secondSub, secondHeads⟩ := hb rest
  refine ⟨first ++ second, ?_, firstSub.append secondSub, ?_⟩
  · rw [List.flatMap_append, List.append_assoc, isFirst, isSecond, List.append_assoc]
  · rw [List.map_append, List.map_append, List.append_assoc]
    refine (firstHeads.append secondHeads).trans ?_
    rw [List.append_assoc]
    exact (List.perm_append_comm_assoc ds (qs.map Passage.head) es).append_left _

theorem cons {line : String} {b : List String} {ps qs : List Passage}
    {ds es : List (String × String)} (ha : h.Shows [line] ps ds) (hb : h.Shows b qs es) :
    h.Shows (line :: b) (ps ++ qs) (ds ++ es) :=
  ha.append hb

theorem flatMap {α : Type} {lines : α → List String} {ps : α → List Passage}
    {ds : α → List (String × String)} {xs : List α}
    (all : ∀ x ∈ xs, h.Shows (lines x) (ps x) (ds x)) :
    h.Shows (xs.flatMap lines) (xs.flatMap ps) (xs.flatMap ds) := by
  induction xs with
  | nil => exact nil
  | cons x xs ih =>
    obtain ⟨first, others⟩ := List.forall_mem_cons.1 all
    exact first.append (ih others)

/-- The same, if nothing is declared beside what the lines of each item show. -/
theorem flatMap_alone {α : Type} {lines : α → List String} {ps : α → List Passage} {xs : List α}
    (all : ∀ x ∈ xs, h.Shows (lines x) (ps x) []) :
    h.Shows (xs.flatMap lines) (xs.flatMap ps) [] := by
  have none : (xs.flatMap fun _ => ([] : List (String × String))) = [] :=
    List.flatMap_eq_nil_iff.2 fun _ _ => rfl
  exact none ▸ flatMap all

/-- What any lines declare can count as declared beside what they show. -/
theorem beside (lines : List String) :
    h.Shows lines [] (h.declaredIn (lines.flatMap physical)) := by
  intro rest
  obtain ⟨shown, isShown, heads⟩ := h.exists_passages_append (lines.flatMap physical) rest
  exact ⟨shown, isShown, List.nil_sublist _, .of_eq heads⟩

/-- Lines that declare nothing one by one show nothing. -/
theorem silent {lines : List String} (plain : Plain lines)
    (nothing : ∀ line ∈ lines, h.declared? line.toList = none) : h.Shows lines [] [] := by
  have none : h.declaredIn (lines.flatMap physical) = [] := by
    rw [flatMap_physical plain, declaredIn, List.filterMap_map, List.filterMap_eq_nil_iff]
    exact nothing
  exact none ▸ beside lines

/-- The same of lines that begin with no letter, digit or underscore. -/
theorem symbols {lines : List String} (plain : Plain lines)
    (all : ∀ line ∈ lines, (line.toList.head?.all fun c => !isIdentifierChar c) = true) :
    h.Shows lines [] [] :=
  silent plain fun line there => declared?_symbol (all line there)

theorem append_silent {a b : List String} {ps : List Passage} {ds : List (String × String)}
    (ha : h.Shows a ps ds) (hb : h.Shows b [] []) : h.Shows (a ++ b) ps ds := by
  have both := ha.append hb
  rwa [List.append_nil, List.append_nil] at both

/-- A body behind a line that declares nothing shows nothing. -/
theorem passed {opening closing : String} {body : List String}
    (plain : Plain (enclosed opening body closing)) (noOpening : h.declared? opening.toList = none)
    (noClosing : h.declared? closing.toList = none) :
    h.Shows (enclosed opening body closing) [] [] := by
  refine silent plain fun line there => ?_
  rcases List.mem_cons.1 there with rfl | there
  · exact noOpening
  · rcases List.mem_append.1 there with there | there
    · obtain ⟨inner, -, rfl⟩ := List.mem_map.1 there
      exact declared?_indented inner
    · rw [List.mem_singleton.1 there]
      exact noClosing

/-- A declaration without a body. -/
theorem single {line keyword name : String} (plain : Text.Unbroken line.toList)
    (declares : h.declared? line.toList = some (keyword, name))
    (noBody : line.toList.getLast? ≠ some '\x7b') :
    h.Shows [line] [⟨keyword, name, []⟩] [] := by
  intro rest
  rw [List.flatMap_singleton, physical_of_plain plain, List.singleton_append]
  refine ⟨[⟨keyword, name, []⟩], ?_, List.Sublist.refl _, List.Perm.refl _⟩
  rw [passages, declares]
  simp only [bodyBehind, if_neg noBody, List.singleton_append]

/-- A declaration with a body.  What lines of the body declare is declared beside it. -/
theorem enclosed {opening keyword name : String} (body : List String)
    (plain : Text.Unbroken opening.toList)
    (declares : h.declared? opening.toList = some (keyword, name))
    (opens : opening.toList.getLast? = some '\x7b') :
    h.Shows (enclosed opening body "\x7d") [.of keyword name body]
      (h.declaredIn ((indented body).flatMap physical)) := by
  intro rest
  have noBrace : h.declared? ['\x7d'] = none := declared?_symbol (by decide)
  have cut : (Artifact.enclosed opening body "\x7d").flatMap physical ++ rest
      = opening.toList :: ((indented body).flatMap physical ++ ['\x7d'] :: rest) := by
    have brace : ["\x7d"].flatMap physical = [['\x7d']] := rfl
    rw [Artifact.enclosed, List.flatMap_cons, physical_of_plain plain, List.flatMap_append, brace]
    simp only [List.append_assoc, List.cons_append, List.nil_append]
  obtain ⟨shown, isShown, heads⟩ :=
    h.exists_passages_append ((indented body).flatMap physical) (['\x7d'] :: rest)
  have behind : h.passages (['\x7d'] :: rest) = h.passages rest := by rw [passages, noBrace]
  have inside : ((indented body).flatMap physical ++ ['\x7d'] :: rest).takeWhile (· != ['\x7d'])
      = (Passage.of keyword name body).body := by
    rw [Passage.of, List.takeWhile_append]
    split
    · rename_i whole
      rw [List.takeWhile_cons, bne_self_eq_false, (List.takeWhile_prefix _).eq_of_length whole]
      exact List.append_nil _
    · rfl
  refine ⟨Passage.of keyword name body :: shown, ?_, ?_, ?_⟩
  · rw [cut, passages, declares]
    simp only [bodyBehind, if_pos opens, inside, isShown, behind]
    rfl
  · exact (List.nil_sublist shown).cons_cons _
  · rw [List.map_cons, heads]
    exact List.Perm.refl _

/-- A declaration whose body declares nothing. -/
theorem block {opening keyword name : String} {body : List String}
    (plain : Plain (Artifact.enclosed opening body "\x7d"))
    (declares : h.declared? opening.toList = some (keyword, name))
    (opens : opening.toList.getLast? = some '\x7b') :
    h.Shows (Artifact.enclosed opening body "\x7d") [.of keyword name body] [] := by
  obtain ⟨plainOpening, plainBody, -⟩ := plain_enclosed.1 plain
  have shows := enclosed body plainOpening declares opens
  rwa [declaredIn_indented plainBody] at shows

/-- If nothing is declared beside what lines show, they show nothing else. -/
theorem passages_eq {lines : List String} {ps : List Passage} (all : h.Shows lines ps []) :
    h.passages (lines.flatMap physical) = ps := by
  obtain ⟨shown, isShown, sub, heads⟩ := all []
  have length := heads.length_eq
  rw [List.append_nil, List.length_map, List.length_map] at length
  rw [List.append_nil] at isShown
  rw [isShown, ← sub.eq_of_length length.symm]
  exact List.append_nil _

end Shows

end Heading

/-! ### Keywords -/

namespace Passage

variable {α : Type} {keyword : String} {xs : List α}

theorem withKeyword_append (ps qs : List Passage) :
    withKeyword keyword (ps ++ qs) = withKeyword keyword ps ++ withKeyword keyword qs :=
  List.filter_append ..

theorem withKeyword_map {f : α → Passage} (all : ∀ x ∈ xs, (f x).keyword = keyword) :
    withKeyword keyword (xs.map f) = xs.map f :=
  List.filter_eq_self.2 (List.forall_mem_map.2 fun x there => beq_iff_eq.2 (all x there))

theorem withKeyword_map_other {f : α → Passage} (all : ∀ x ∈ xs, (f x).keyword ≠ keyword) :
    withKeyword keyword (xs.map f) = [] :=
  List.filter_eq_nil_iff.2
    (List.forall_mem_map.2 fun x there same => all x there (beq_iff_eq.1 same))

/-- Of several passages for each item, the one with the keyword is kept. -/
theorem withKeyword_flatMap {ps : α → List Passage} {f : α → Passage}
    (one : ∀ x ∈ xs, withKeyword keyword (ps x) = [f x]) :
    withKeyword keyword (xs.flatMap ps) = xs.map f := by
  rw [withKeyword, List.filter_flatMap, List.map_eq_flatMap]
  exact List.flatMap_congr one

theorem withKeyword_flatMap_other {ps : α → List Passage}
    (none : ∀ x ∈ xs, withKeyword keyword (ps x) = []) :
    withKeyword keyword (xs.flatMap ps) = [] := by
  rw [withKeyword, List.filter_flatMap, List.flatMap_eq_nil_iff]
  exact none

end Passage

/-! ### Bodies -/

/-- A body of lines that stay on their lines is all of them. -/
theorem Passage.body_of {body : List String} (plain : Plain body) (keyword name : String) :
    (of keyword name body).body = (indented body).map String.toList := by
  rw [of, flatMap_physical (plain_indented.2 plain)]
  refine List.takeWhile_eq_self_iff.2 ?_
  rw [indented, List.map_map, List.forall_mem_map]
  exact fun line _ => bne_iff_ne.2 (Outline.indentation_ne_brace line)

/-- The lines of a description are comments, if there is one. -/
theorem Passage.isComment_getD {commentLines : String → List String} (description : Option String)
    (all : ∀ text, ∀ line ∈ commentLines text, isComment (indentation ++ line).toList = true) :
    ∀ line ∈ (description.map commentLines).getD [],
      isComment (indentation ++ line).toList = true := by
  cases description with
  | none => exact List.forall_mem_nil _
  | some text => exact all text

section Read

variable {α β : Type} {read : List Char → Option β} {g : α → β} {xs : List α} {line : α → String}

/-- A body with one line for each item is read line by line. -/
theorem mapM_body_of (plain : Plain (xs.map line))
    (one : ∀ x ∈ xs, read (indentation ++ line x).toList = some (g x)) (keyword name : String) :
    (Passage.of keyword name (xs.map line)).body.mapM read = some (xs.map g) := by
  rw [Passage.body_of plain, indented, List.map_map, List.map_map, List.mapM_map,
    Related.mapM_eq_some_iff, List.forall₂_map_right_iff, List.forall₂_same]
  exact one

/-- A body with one line for each item, behind comments, is read line by line. -/
theorem mapM_code_of {lines : α → List String} (plain : Plain (xs.flatMap lines))
    (split : ∀ x ∈ xs, ∃ comments, lines x = comments ++ [line x] ∧
      ∀ comment ∈ comments, Passage.isComment (indentation ++ comment).toList = true)
    (isCode : ∀ x ∈ xs, Passage.isComment (indentation ++ line x).toList = false)
    (one : ∀ x ∈ xs, read (indentation ++ line x).toList = some (g x)) (keyword name : String) :
    (Passage.of keyword name (xs.flatMap lines)).code.mapM read = some (xs.map g) := by
  have code : (Passage.of keyword name (xs.flatMap lines)).code
      = xs.map fun x => (indentation ++ line x).toList := by
    rw [Passage.code, Passage.body_of plain, indented, List.map_flatMap, List.map_flatMap,
      List.filter_flatMap, List.map_eq_flatMap]
    refine List.flatMap_congr fun x there => ?_
    obtain ⟨comments, isLines, marked⟩ := split x there
    have dropped : ((comments.map (indentation ++ ·)).map String.toList).filter
        (fun line => !Passage.isComment line) = [] := by
      rw [List.map_map, List.filter_eq_nil_iff, List.forall_mem_map]
      intro comment isComment
      rw [Function.comp_apply, marked comment isComment]
      exact Bool.noConfusion
    have kept : [(indentation ++ line x).toList].filter (fun line => !Passage.isComment line)
        = [(indentation ++ line x).toList] := by
      rw [List.filter_eq_self, List.forall_mem_singleton, isCode x there]
      rfl
    rw [isLines, List.map_append, List.map_append, List.filter_append, dropped, List.nil_append,
      List.map_singleton, List.map_singleton, kept]
  rw [code, List.mapM_map, Related.mapM_eq_some_iff, List.forall₂_map_right_iff,
    List.forall₂_same]
  exact one

end Read

/-! ### Names -/

/-- The names that are declared with some keyword among those given. -/
def namesOf (keywords : List String) (declared : List (String × String)) : List String :=
  (declared.filter fun d => keywords.contains d.1).map Prod.snd

theorem namesOf_append (keywords : List String) (a b : List (String × String)) :
    namesOf keywords (a ++ b) = namesOf keywords a ++ namesOf keywords b := by
  rw [namesOf, List.filter_append, List.map_append]
  rfl

theorem namesOf_perm {a b : List (String × String)} (perm : a.Perm b) (keywords : List String) :
    (namesOf keywords a).Perm (namesOf keywords b) :=
  (perm.filter _).map _

/-- Declarations with one of the keywords have the names that they are made with. -/
theorem namesOf_map {α : Type} {keywords : List String} {keyword : String}
    (known : keyword ∈ keywords) (name : α → String) (xs : List α) :
    namesOf keywords (xs.map fun x => (keyword, name x)) = xs.map name := by
  rw [namesOf, List.filter_eq_self.2, List.map_map]
  · rfl
  · simp [known]

/-- Of two declarations for each item, the one with one of the keywords counts. -/
theorem namesOf_flatMap {α : Type} {keywords : List String} {ds : α → List (String × String)}
    {name : α → String} (one : ∀ x, namesOf keywords (ds x) = [name x]) (xs : List α) :
    namesOf keywords (xs.flatMap ds) = xs.map name := by
  induction xs with
  | nil => rfl
  | cons x xs ih => rw [List.flatMap_cons, namesOf_append, one, ih]; rfl

/-- Declarations with another keyword do not count. -/
theorem namesOf_map_other {α : Type} {keywords : List String} {keyword : String}
    (other : keyword ∉ keywords) (name : α → String) (xs : List α) :
    namesOf keywords (xs.map fun x => (keyword, name x)) = [] := by
  rw [namesOf, List.filter_eq_nil_iff.2, List.map_nil]
  simp [other]

/-- A declaration whose keyword counts stands in a list once, if no name stands there twice. -/
theorem count_eq_one {keywords : List String} {declared : List (String × String)}
    (nodup : (namesOf keywords declared).Nodup) {d : String × String} (known : d.1 ∈ keywords)
    (there : d ∈ declared) : declared.count d = 1 := by
  have kept : (keywords.contains d.1) = true := List.contains_iff_mem.2 known
  rw [← List.count_filter (p := fun d => keywords.contains d.1) kept]
  exact List.count_eq_one_of_mem (List.Nodup.of_map _ nodup) (List.mem_filter.2 ⟨there, kept⟩)

/-- The identifiers that stand in the text of a type. -/
def mentions (type : String) : List String :=
  ((type.toList.splitOnP fun c => !isIdentifierChar c).filter fun run => !run.isEmpty).map .ofList

/-- An identifier mentions nothing but itself. -/
theorem eq_of_mem_mentions {s name : String} (isWord : IsWord s) (there : name ∈ mentions s) :
    name = s := by
  have whole : s.toList.splitOnP (fun c => !isIdentifierChar c) = [s.toList] :=
    List.splitOnP_eq_singleton fun c inside => by rw [isWord c inside]; rfl
  rw [mentions, whole] at there
  obtain ⟨run, isRun, rfl⟩ := List.mem_map.1 there
  rw [List.mem_singleton.1 (List.mem_filter.1 isRun).1, String.ofList_toList]

/-- A type between other texts is mentioned beside what these mention. -/
theorem mentions_around {type front s back : String} {opening closing : Char}
    (parts : type.toList = front.toList ++ opening :: (s.toList ++ closing :: back.toList))
    (noOpening : isIdentifierChar opening = false) (noClosing : isIdentifierChar closing = false) :
    mentions type = mentions front ++ (mentions s ++ mentions back) := by
  have separates {c : Char} (noLetter : isIdentifierChar c = false) (xs ys : List Char) :
      (xs ++ c :: ys).splitOnP (fun c => !isIdentifierChar c)
        = xs.splitOnP (fun c => !isIdentifierChar c)
          ++ ys.splitOnP fun c => !isIdentifierChar c :=
    List.splitOnP_append_cons _ _ (by rw [noLetter]; rfl)
  rw [mentions, parts, separates noOpening, separates noClosing]
  simp only [List.filter_append, List.map_append, mentions]

end Telemetry.Artifact
