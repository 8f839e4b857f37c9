import Mathlib.Data.List.Basic
import Telemetry.Artifact.Lines
import Telemetry.Proofs.Identifier.Words
import Telemetry.Proofs.Text.Runs
import Telemetry.Proofs.Text.Unbroken

/-!
# Reading artifacts by their outline

An artifact is read without knowing how it was put together.  Its text is cut at line feeds; a line
that opens a block is taken with the lines up to the next line that is a closing brace, every other
line by itself; and what a block declares is read off its lines.

* `after?` and `word` read the beginning of a line;
* `blocks` is the outline of a list of lines;
* `Outline` says which lines open a block, how many lines behind such a line are passed over, and
  what a block declares;
* `Outline.Reads` says what some lines declare, whatever lines follow, and its lemmas follow the way
  in which artifacts are put together.
-/

namespace Telemetry.Artifact

/-! ### The beginning of a line -/

/-- What stands behind a text, if some characters begin with it. -/
def after? (text : String) (cs : List Char) : Option (List Char) :=
  if text.toList.isPrefixOf cs then some (cs.drop text.toList.length) else none

/-- The identifier that some characters begin with, and what stands behind it. -/
def word (cs : List Char) : String × List Char :=
  (.ofList (cs.takeWhile isIdentifierChar), cs.dropWhile isIdentifierChar)

/-- The line without the spaces that it begins with. -/
def unindented (line : List Char) : List Char :=
  line.dropWhile (· == ' ')

theorem after?_append (text : String) (cs : List Char) :
    after? text (text.toList ++ cs) = some cs := by
  have begins : text.toList.isPrefixOf (text.toList ++ cs) = true :=
    List.isPrefixOf_iff_prefix.2 (List.prefix_append _ _)
  rw [after?, if_pos begins, List.drop_left]

theorem eq_append_of_isSome_after? {text : String} {cs : List Char}
    (h : (after? text cs).isSome = true) : ∃ rest, cs = text.toList ++ rest := by
  unfold after? at h
  split at h
  · rename_i begins
    obtain ⟨rest, eq⟩ := List.isPrefixOf_iff_prefix.1 begins
    exact ⟨rest, eq.symm⟩
  · cases h

theorem word_append {s : String} (h : IsWord s) {cs : List Char}
    (e : Text.Ends isIdentifierChar cs) : word (s.toList ++ cs) = (s, cs) := by
  rw [word, Text.takeWhile_run h e, Text.dropWhile_run h e, String.ofList_toList]

/-- An identifier ends before a text that cannot go on with it. -/
theorem word_before (text : String)
    (ends : (text.toList.head?.any fun c => !isIdentifierChar c) = true) {s : String}
    (h : IsWord s) (cs : List Char) :
    word (s.toList ++ (text.toList ++ cs)) = (s, text.toList ++ cs) := by
  refine word_append h ?_
  cases isList : text.toList with
  | nil =>
    rw [isList] at ends
    cases ends
  | cons c rest =>
    rw [isList] at ends
    exact Text.ends_cons (Bool.not_eq_true' _ ▸ ends) _

theorem word_before_last (text : String)
    (ends : (text.toList.head?.any fun c => !isIdentifierChar c) = true) {s : String}
    (h : IsWord s) : word (s.toList ++ text.toList) = (s, text.toList) := by
  have last := word_before text ends h []
  rwa [List.append_nil] at last

/-! ### Lines of a text -/

/-- The lines that a line takes up in a text. -/
def physical (line : String) : List (List Char) :=
  line.toList.splitOn '\n'

/-- Whether every line of a list is one line in a text, whatever a reader takes for the end of a
line. -/
def Plain (lines : List String) : Prop :=
  ∀ line ∈ lines, Text.Unbroken line.toList

/-- The line of a list as a block holds it. -/
def shown (line : String) : List Char :=
  unindented line.toList

theorem toList_joinLines (lines : List String) :
    (joinLines lines).toList = lines.flatMap fun line => line.toList ++ ['\n'] := by
  rw [joinLines, String.toList_join, List.flatMap_map]
  exact List.flatMap_congr fun line _ => String.toList_append

/-- A text is cut into the lines that it was joined of. -/
theorem splitOn_joinLines (lines : List String) :
    (joinLines lines).toList.splitOn '\n' = lines.flatMap physical ++ [[]] := by
  rw [toList_joinLines]
  induction lines with
  | nil => rfl
  | cons line rest ih =>
    rw [List.flatMap_cons, List.append_assoc, List.singleton_append,
      List.splitOn_append_cons_self, ih, List.flatMap_cons, List.append_assoc]
    rfl

theorem physical_of_plain {line : String} (h : Text.Unbroken line.toList) :
    physical line = [line.toList] :=
  List.splitOn_eq_singleton h.feed_notMem

theorem flatMap_physical {lines : List String} (h : Plain lines) :
    lines.flatMap physical = lines.map String.toList := by
  rw [List.map_eq_flatMap]
  exact List.flatMap_congr fun line hl => physical_of_plain (h line hl)

@[simp] theorem plain_nil : Plain [] := List.forall_mem_nil _

@[simp] theorem plain_cons {line : String} {lines : List String} :
    Plain (line :: lines) ↔ Text.Unbroken line.toList ∧ Plain lines :=
  List.forall_mem_cons

@[simp] theorem plain_append {a b : List String} : Plain (a ++ b) ↔ Plain a ∧ Plain b :=
  List.forall_mem_append

@[simp] theorem plain_map {α : Type} {f : α → String} {xs : List α} :
    Plain (xs.map f) ↔ ∀ x ∈ xs, Text.Unbroken (f x).toList :=
  List.forall_mem_map

@[simp] theorem plain_flatMap {α : Type} {f : α → List String} {xs : List α} :
    Plain (xs.flatMap f) ↔ ∀ x ∈ xs, Plain (f x) := by
  simp only [Plain, List.mem_flatMap]
  exact ⟨fun h x hx line hl => h line ⟨x, hx, hl⟩, fun h line ⟨x, hx, hl⟩ => h x hx line hl⟩

@[simp] theorem unbroken_indentation : Text.Unbroken indentation.toList := by
  decide

/-- What a comment shows of a line stays on a line. -/
theorem unbroken_commentLine (line : String) : Text.Unbroken (commentLine line).toList := by
  rw [commentLine, String.toList_ofList]
  intro d there
  obtain ⟨c, -, rfl⟩ := List.mem_map.1 there
  split
  · decide
  · rename_i stays
    exact Bool.eq_false_iff.2 stays

@[simp] theorem plain_indented {lines : List String} : Plain (indented lines) ↔ Plain lines := by
  rw [indented, plain_map]
  simp only [Text.unbroken_toList_append, unbroken_indentation, true_and, Plain]

@[simp] theorem plain_enclosed {opening closing : String} {body : List String} :
    Plain (enclosed opening body closing) ↔
      Text.Unbroken opening.toList ∧ Plain body ∧ Text.Unbroken closing.toList := by
  simp [enclosed]

theorem shown_indentation (line : String) : shown (indentation ++ line) = shown line := by
  rw [shown, String.toList_append]
  rfl

/-- A line that begins with a word has no indentation. -/
theorem shown_word {s : String} (h : IsWord s) (notEmpty : s ≠ "") (rest : String) :
    shown (s ++ rest) = s.toList ++ rest.toList := by
  rw [shown, String.toList_append]
  cases isList : s.toList with
  | nil => exact absurd (String.toList_inj.1 isList) notEmpty
  | cons c cs =>
    have noSpace : (c == ' ') = false := by
      refine beq_false_of_ne fun eq => ?_
      have letter := h c (isList ▸ List.mem_cons_self)
      rw [eq] at letter
      cases letter
    rw [List.cons_append, unindented, List.dropWhile_cons, noSpace]
    rfl

theorem map_shown_indented (lines : List String) :
    (indented lines).map shown = lines.map shown := by
  rw [indented, List.map_map]
  exact List.map_congr_left fun line _ => shown_indentation line

theorem map_shown_enclosed (opening : String) (body : List String) (closing : String) :
    (enclosed opening body closing).map shown
      = shown opening :: (body.map shown ++ [shown closing]) := by
  rw [enclosed, List.map_cons, List.map_append, map_shown_indented]
  rfl

section Shown

variable {α β : Type} (read : List Char → Option β) {g : α → β} {xs : List α}

/-- What is read off the lines of each item is read off the lines of all of them. -/
theorem filterMap_shown_flatMap {lines : α → List String}
    (h : ∀ x ∈ xs, ((lines x).map shown).filterMap read = [g x]) :
    ((xs.flatMap lines).map shown).filterMap read = xs.map g := by
  rw [List.map_flatMap, List.filterMap_flatMap, List.map_eq_flatMap]
  exact List.flatMap_congr h

/-- The same, if every item has one line. -/
theorem filterMap_shown_map (line : α → String)
    (h : ∀ x ∈ xs, read (shown (line x)) = some (g x)) :
    ((xs.map line).map shown).filterMap read = xs.map g := by
  rw [List.map_eq_flatMap (f := line)]
  refine filterMap_shown_flatMap read fun x hx => ?_
  rw [List.map_singleton, List.filterMap_cons, h x hx]
  rfl

/-- Nothing is read off lines that do not begin as they should. -/
theorem filterMap_shown_eq_nil {lines : List String}
    (h : ∀ line ∈ lines, read (shown line) = none) : (lines.map shown).filterMap read = [] := by
  rw [List.filterMap_map, List.filterMap_eq_nil_iff]
  exact h

end Shown

/-! ### Blocks -/

/-- A line, and the lines between it and the closing brace if it opens a block.  These stand there
without their indentation. -/
structure Block where
  opening : List Char
  body : List (List Char) := []

/-- Where a line of a list stands. -/
inductive Cursor where
  | outside
  /-- In a block that has been read so far, of which `skip` lines are still passed over. -/
  | inside (skip : Nat) (block : Block)

/-- The blocks of a list of lines.  `opens` gives the number of lines that are passed over behind a
line that opens a block. -/
def blocks (opens : List Char → Option Nat) : Cursor → List (List Char) → List Block
  | _, [] => []
  | .outside, line :: rest =>
    match opens line with
    | none => ⟨line, []⟩ :: blocks opens .outside rest
    | some skip => blocks opens (.inside skip ⟨line, []⟩) rest
  | .inside (skip + 1) block, _ :: rest => blocks opens (.inside skip block) rest
  | .inside 0 block, line :: rest =>
    if line = ['\x7d'] then block :: blocks opens .outside rest
    else blocks opens (.inside 0 ⟨block.opening, block.body ++ [unindented line]⟩) rest

section Blocks

variable {opens : List Char → Option Nat}

theorem blocks_skip {passed rest : List (List Char)} {block : Block} :
    blocks opens (.inside passed.length block) (passed ++ rest)
      = blocks opens (.inside 0 block) rest := by
  induction passed with
  | nil => rfl
  | cons line passed ih => exact ih

theorem blocks_body {body rest : List (List Char)} (inner : ∀ line ∈ body, line ≠ ['\x7d'])
    {block : Block} :
    blocks opens (.inside 0 block) (body ++ ['\x7d'] :: rest)
      = ⟨block.opening, block.body ++ body.map unindented⟩ :: blocks opens .outside rest := by
  induction body generalizing block with
  | nil =>
    rw [List.nil_append, blocks, if_pos rfl, List.map_nil, List.append_nil]
  | cons line body ih =>
    obtain ⟨first, others⟩ := List.forall_mem_cons.1 inner
    rw [List.cons_append, blocks, if_neg first, ih others, List.map_cons, List.append_assoc,
      List.singleton_append]

end Blocks

/-- How the artifacts of a language are read. -/
structure Outline (α : Type) where
  /-- Whether a line opens a block, and how many lines are passed over behind it. -/
  opens : List Char → Option Nat
  /-- What a block declares. -/
  item? : Block → Option α

namespace Outline

variable {α β : Type} (o : Outline α)

/-- What some lines declare. -/
def items (lines : List (List Char)) : List α :=
  (blocks o.opens .outside lines).filterMap o.item?

/-- Whether some lines declare the items, whatever lines follow. -/
def Reads (lines : List String) (items : List α) : Prop :=
  ∀ rest, o.items (lines.flatMap physical ++ rest) = items ++ o.items rest

variable {o}

theorem Reads.nil : o.Reads [] [] := fun _ => rfl

theorem Reads.append {a b : List String} {as bs : List α} (ha : o.Reads a as)
    (hb : o.Reads b bs) : o.Reads (a ++ b) (as ++ bs) := by
  intro rest
  rw [List.flatMap_append, List.append_assoc, ha, hb, List.append_assoc]

theorem Reads.cons {line : String} {b : List String} {as bs : List α} (ha : o.Reads [line] as)
    (hb : o.Reads b bs) : o.Reads (line :: b) (as ++ bs) :=
  ha.append hb

theorem Reads.flatMap {f : β → List String} {g : β → List α} {xs : List β}
    (h : ∀ x ∈ xs, o.Reads (f x) (g x)) : o.Reads (xs.flatMap f) (xs.flatMap g) := by
  induction xs with
  | nil => exact .nil
  | cons x xs ih =>
    obtain ⟨first, others⟩ := List.forall_mem_cons.1 h
    exact first.append (ih others)

/-- A line that opens no block declares what it declares by itself. -/
theorem Reads.single {line : String} (plain : Text.Unbroken line.toList)
    (opens : o.opens line.toList = none) {as : List α}
    (item : (o.item? ⟨line.toList, []⟩).toList = as) : o.Reads [line] as := by
  intro rest
  rw [List.flatMap_singleton, physical_of_plain plain, List.singleton_append, items, blocks, opens]
  simp only
  rw [List.filterMap_cons, ← item]
  cases o.item? ⟨line.toList, []⟩ with
  | none => rfl
  | some a => rfl

/-- Lines that declare nothing one by one declare nothing. -/
theorem Reads.ignored {lines : List String} (h : ∀ line ∈ lines, o.Reads [line] []) :
    o.Reads lines [] := by
  induction lines with
  | nil => exact .nil
  | cons line lines ih =>
    obtain ⟨first, others⟩ := List.forall_mem_cons.1 h
    exact first.cons (ih others)

theorem indentation_ne_brace (line : String) : (indentation ++ line).toList ≠ ['\x7d'] := by
  rw [String.toList_append]
  intro eq
  cases eq

/-- An indented body between a line that opens a block and a closing brace. -/
theorem Reads.enclosed {opening : String} {passed body : List String}
    (plain : Text.Unbroken opening.toList) (plainBody : Plain body)
    (opens : o.opens opening.toList = some ((indented passed).flatMap physical).length)
    {as : List α} (item : (o.item? ⟨opening.toList, body.map shown⟩).toList = as) :
    o.Reads (enclosed opening (passed ++ body) "\x7d") as := by
  intro rest
  have inner : ∀ line ∈ (indented body).map String.toList, line ≠ ['\x7d'] := by
    rw [indented, List.map_map, List.forall_mem_map]
    exact fun line _ => indentation_ne_brace line
  have body_shown : ((indented body).map String.toList).map unindented = body.map shown := by
    rw [List.map_map]
    exact map_shown_indented body
  have cut : (Artifact.enclosed opening (passed ++ body) "\x7d").flatMap physical ++ rest
      = opening.toList :: ((indented passed).flatMap physical
        ++ ((indented body).map String.toList ++ ['\x7d'] :: rest)) := by
    have brace : ["\x7d"].flatMap physical = [['\x7d']] := rfl
    rw [Artifact.enclosed, indented_append, List.flatMap_cons, physical_of_plain plain,
      List.flatMap_append, List.flatMap_append, flatMap_physical (plain_indented.2 plainBody),
      brace]
    simp only [List.append_assoc, List.cons_append, List.nil_append]
  rw [cut, items, blocks, opens]
  simp only
  rw [blocks_skip, blocks_body inner, List.nil_append, body_shown, List.filterMap_cons, ← item]
  cases o.item? ⟨opening.toList, body.map shown⟩ with
  | none => rfl
  | some a => rfl

/-- A body of which no line is passed over. -/
theorem Reads.block {opening : String} {body : List String}
    (plain : Plain (Artifact.enclosed opening body "\x7d"))
    (opens : o.opens opening.toList = some 0) {as : List α}
    (item : (o.item? ⟨opening.toList, body.map shown⟩).toList = as) :
    o.Reads (Artifact.enclosed opening body "\x7d") as := by
  obtain ⟨plainOpening, plainBody, -⟩ := plain_enclosed.1 plain
  show o.Reads (Artifact.enclosed opening ([] ++ body) "\x7d") as
  exact Reads.enclosed plainOpening plainBody opens item

end Outline

end Telemetry.Artifact
