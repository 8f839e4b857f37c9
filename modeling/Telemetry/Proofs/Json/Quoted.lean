import Telemetry.Proofs.Json.Literals

/-!
# Strings and their encodings

A string can be written in many ways, as each of its characters can be.  Reading undoes every one of
them, and whatever else stands between two quotes is reported.

* `Spelling` lists the ways to write one character, and `stringText_iff` says that the strings of
  the grammar are the spellings of their characters, one behind the other;
* `Passed` says that the scanner comes to some characters of a literal as the beginning of an item,
  whatever it has found wrong before, and `BrokenUnit` that what stands behind `\u` is neither a
  character nor a whole surrogate pair;
* `string_exact`: an encoding is read to its closing quote and gives its string; what is read
  without a defect is an encoding; and half a pair is reported at its backslash wherever it stands.
-/

namespace Telemetry.Json

open Grammar

/-! ### Spellings -/

namespace Grammar

/-- The ways to write a character between quotes. -/
inductive Spelling (c : Char) : List Char → Prop
  | raw : c ≠ '"' → c ≠ '\\' → 0x20 ≤ c.toNat → Spelling c [c]
  | short {e : Char} : (e, c) ∈ shortEscapes → Spelling c ['\\', e]
  | unit {digits : List Char} : CodeUnit digits c.toNat → Spelling c ('\\' :: 'u' :: digits)
  | pair {first second : List Char} {high low : Nat} : CodeUnit first high → CodeUnit second low →
      Paired high low c → Spelling c ('\\' :: 'u' :: (first ++ '\\' :: 'u' :: second))

/-- A spelling in front of a string makes a string. -/
theorem Spelling.stringText {c : Char} {written w s : List Char} (h : Spelling c written)
    (body : StringText w s) : StringText (written ++ w) (c :: s) := by
  cases h with
  | raw noQuote noBackslash printable => exact .raw noQuote noBackslash printable body
  | short isEscape => exact .short isEscape body
  | unit isUnit => exact .unit isUnit body
  | @pair first second _ _ isFirst isSecond paired =>
    have shape : '\\' :: 'u' :: (first ++ '\\' :: 'u' :: second) ++ w
        = '\\' :: 'u' :: (first ++ '\\' :: 'u' :: (second ++ w)) := by
      simp only [List.cons_append, List.append_assoc]
    rw [shape]
    exact .pair isFirst isSecond paired body

/-- A string is written character by character, each in a way of its own. -/
theorem stringText_iff {w s : List Char} :
    StringText w s ↔ ∃ spellings, List.Forall₂ Spelling s spellings ∧ w = spellings.flatten := by
  constructor
  · intro h
    induction h with
    | nil => exact ⟨[], .nil, rfl⟩
    | raw noQuote noBackslash printable _ ih =>
      obtain ⟨spellings, each, rfl⟩ := ih
      exact ⟨_ :: spellings, .cons (.raw noQuote noBackslash printable) each, rfl⟩
    | short isEscape _ ih =>
      obtain ⟨spellings, each, rfl⟩ := ih
      exact ⟨_ :: spellings, .cons (.short isEscape) each, rfl⟩
    | unit isUnit _ ih =>
      obtain ⟨spellings, each, rfl⟩ := ih
      exact ⟨_ :: spellings, .cons (.unit isUnit) each, rfl⟩
    | pair isFirst isSecond paired _ ih =>
      obtain ⟨spellings, each, rfl⟩ := ih
      refine ⟨_ :: spellings, .cons (.pair isFirst isSecond paired) each, ?_⟩
      simp only [List.flatten_cons, List.cons_append, List.append_assoc]
  · rintro ⟨spellings, each, rfl⟩
    induction each with
    | nil => exact .nil
    | cons spelling _ ih => exact spelling.stringText ih

/-- What can stand behind `\u` without denoting a character: fewer than four digits, the second half
of a surrogate pair, or a first half without the second half behind it. -/
inductive BrokenUnit : List Char → Prop
  | cutShort {rest : List Char} :
      (∀ digits unit more, CodeUnit digits unit → rest ≠ digits ++ more) → BrokenUnit rest
  | low {digits rest : List Char} {unit : Nat} : CodeUnit digits unit → 0xDC00 ≤ unit →
      unit < 0xE000 → BrokenUnit (digits ++ rest)
  | high {digits rest : List Char} {unit : Nat} : CodeUnit digits unit → 0xD800 ≤ unit →
      unit < 0xDC00 →
      (∀ second low more, CodeUnit second low → 0xDC00 ≤ low → low < 0xE000 →
        rest ≠ '\\' :: 'u' :: (second ++ more)) → BrokenUnit (digits ++ rest)

end Grammar

/-! ### Broken code units -/

namespace Escape

/-- A first half is completed by nothing but an escape of a second half. -/
theorem denoted_readLow {high : Nat} {rest : List Char}
    (h : ∀ second low more, CodeUnit second low → 0xDC00 ≤ low → low < 0xE000 →
      rest ≠ '\\' :: 'u' :: (second ++ more)) :
    (readLow high rest).denoted = .error .invalidUnicodeEscape := by
  cases read : (readLow high rest).denoted with
  | ok c =>
    obtain ⟨more, low, rfl, -, isUnit, isLow, -⟩ := low_of_readLow read
    obtain ⟨lower, upper⟩ := isLowSurrogate_iff.1 isLow
    refine absurd ?_ (h _ low (more.drop 4) isUnit lower upper)
    rw [List.take_append_drop]
  | error cause =>
    unfold readLow at read
    split at read
    · dsimp only at read
      split at read
      · cases read
      · exact read.symm
    · exact read.symm

/-- A code unit that is broken denotes nothing. -/
theorem denoted_of_brokenUnit {rest : List Char} (h : BrokenUnit rest) :
    (read 'u' rest).denoted = .error .invalidUnicodeEscape := by
  show (readUnicode rest).denoted = _
  cases h with
  | cutShort noUnit =>
    have short : (hexRun rest).length < 4 := by
      refine Nat.lt_of_le_of_ne (length_hexRun_le_four rest) fun four => ?_
      refine noUnit _ _ (rest.drop 4) (codeUnit_of_hexRun four) ?_
      rw [List.take_append_drop]
    simp only [readUnicode, short, if_true]
  | @low digits more unit isUnit lower upper =>
    obtain ⟨four, number⟩ := hexRun_of_codeUnit isUnit more
    have whole : ¬ (hexRun (digits ++ more)).length < 4 := by omega
    have notHigh : isHighSurrogate unit = false := by
      rw [Bool.eq_false_iff, ne_eq, isHighSurrogate_iff]
      omega
    have isLow : isLowSurrogate unit = true := isLowSurrogate_iff.2 ⟨lower, upper⟩
    simp only [readUnicode, number, whole, notHigh, isLow, Bool.false_eq_true, if_true, if_false]
  | @high digits more unit isUnit lower upper lone =>
    obtain ⟨four, number⟩ := hexRun_of_codeUnit isUnit more
    have whole : ¬ (hexRun (digits ++ more)).length < 4 := by omega
    have isHigh : isHighSurrogate unit = true := isHighSurrogate_iff.2 ⟨lower, upper⟩
    have left : (digits ++ more).drop 4 = more := by
      rw [← length_of_codeUnit isUnit, List.drop_left]
    simp only [readUnicode, number, whole, isHigh, left, if_true, if_false]
    exact denoted_readLow lone

end Escape

/-! ### Items of a literal -/

namespace StringLiteral

/-- Whether the scanner, having passed the characters `front` of a literal, comes to what stands
behind them as the beginning of an item: a character by itself, or a backslash and as much as is
read behind it, sound or broken. -/
inductive Passed : (front later : List Char) → Prop
  | nil {later : List Char} : Passed [] later
  | char {c : Char} {front later : List Char} : c ∉ ['"', '\\', '\n', '\r'] →
      Passed front later → Passed (c :: front) later
  | escape {e : Char} {taken front later : List Char} :
      (Escape.read e (taken ++ (front ++ later))).taken = taken.length → Passed front later →
      Passed ('\\' :: e :: (taken ++ front)) later

variable {opened place : Place} {d : Defect} {front later : List Char}

/-- What is wrong behind a character by itself is wrong with the literal. -/
theorem mem_defects_char {c : Char} (h : c ∉ ['"', '\\', '\n', '\r'])
    (isDefect : d ∈ (read opened 0 (place.after c) later).defects) :
    d ∈ (read opened 0 place (c :: later)).defects := by
  simp only [List.mem_cons, List.not_mem_nil, or_false, not_or] at h
  obtain ⟨noQuote, noBackslash, noFeed, noReturn⟩ := h
  rw [read.eq_def]
  dsimp only
  rw [if_neg noQuote, if_neg (not_or.2 ⟨noFeed, noReturn⟩), if_neg noBackslash]
  split
  · exact List.mem_cons_of_mem _ isDefect
  · exact isDefect

/-- What is wrong behind an escape is wrong with the literal. -/
theorem mem_defects_escape {e : Char} {taken : List Char}
    (h : (Escape.read e (taken ++ later)).taken = taken.length)
    (isDefect : d ∈ (read opened 0 (place.past ('\\' :: e :: taken)) later).defects) :
    d ∈ (read opened 0 place ('\\' :: e :: (taken ++ later))).defects := by
  have inside : taken.length + 1 ≤ (e :: (taken ++ later)).length := by
    rw [List.length_cons, List.length_append]
    omega
  have behind : d ∈ (read opened (taken.length + 1) (place.after '\\')
      (e :: (taken ++ later))).defects := by
    rw [read_skip _ _ _ _ inside, List.take_succ_cons, List.take_left, List.drop_succ_cons,
      List.drop_left]
    exact isDefect
  rw [read_escape, h]
  split
  · exact behind
  · exact List.mem_cons_of_mem _ behind

/-- What is wrong behind the characters passed is wrong with the literal. -/
theorem Passed.mem_defects (h : Passed front later)
    (isDefect : d ∈ (read opened 0 (place.past front) later).defects) :
    d ∈ (read opened 0 place (front ++ later)).defects := by
  induction h generalizing place with
  | nil => exact isDefect
  | char plain _ ih => exact mem_defects_char plain (ih isDefect)
  | @escape e taken front later count _ ih =>
    -- what belongs to the escape moves the place like any other characters
    have place_eq : place.past ('\\' :: e :: (taken ++ front))
        = (place.past ('\\' :: e :: taken)).past front :=
      place.past_append ('\\' :: e :: taken) front
    rw [place_eq] at isDefect
    rw [List.cons_append, List.cons_append, List.append_assoc]
    exact mem_defects_escape count (ih isDefect)

/-- The spelling of a character is passed as one item. -/
theorem Passed.spelling {c : Char} {written : List Char} (h : Spelling c written)
    (passed : Passed front later) : Passed (written ++ front) later := by
  cases h with
  | raw noQuote noBackslash printable =>
    refine .char ?_ passed
    simp only [List.mem_cons, List.not_mem_nil, or_false, not_or]
    refine ⟨noQuote, noBackslash, ?_, ?_⟩
    · rintro rfl
      exact absurd printable (by decide)
    · rintro rfl
      exact absurd printable (by decide)
  | @short e isEscape =>
    refine @Passed.escape e [] front later ?_ passed
    rw [Escape.read_of_mem_shortEscapes isEscape]
    rfl
  | @unit digits isUnit =>
    refine .escape ?_ passed
    rw [Escape.read_of_unit isUnit, length_of_codeUnit isUnit]
  | @pair first second high low isFirst isSecond paired =>
    refine .escape ?_ passed
    rw [List.append_assoc, List.cons_append, List.cons_append,
      Escape.read_of_pair isFirst isSecond paired, List.length_append, List.length_cons,
      List.length_cons, length_of_codeUnit isFirst, length_of_codeUnit isSecond]

/-- An encoding is passed item by item. -/
theorem passed_of_spellings {s : List Char} {spellings : List (List Char)}
    (h : List.Forall₂ Spelling s spellings) (later : List Char) :
    Passed spellings.flatten later := by
  induction h with
  | nil => exact .nil
  | cons spelling _ ih => exact ih.spelling spelling

/-- A broken code unit is reported at its backslash. -/
theorem mem_defects_brokenUnit {rest : List Char} (h : BrokenUnit rest) :
    ⟨place, .invalidUnicodeEscape⟩ ∈ (read opened 0 place ('\\' :: 'u' :: rest)).defects := by
  rw [read_escape, Escape.denoted_of_brokenUnit h]
  exact List.mem_cons_self

end StringLiteral

/-- Reading a string literal undoes every encoding of a string, whatever stands behind its closing
quote, and what is read without a defect is an encoding of the string that it gives.  A code unit
that is cut short, and half of a surrogate pair without the other half, is reported at its
backslash, whatever has been passed in front of it, an encoding or not. -/
theorem string_exact (place : Place) :
    (∀ (s : String) (spellings : List (List Char)) (rest : List Char),
      List.Forall₂ Spelling s.toList spellings →
      Item.string place (spellings.flatten ++ '"' :: rest)
        = .sound (.text s) (spellings.flatten.length + 1)) ∧
    (∀ cs, (Item.string place cs).defects = [] →
      ∃ (s : String) (spellings : List (List Char)) (rest : List Char),
        List.Forall₂ Spelling s.toList spellings ∧ cs = spellings.flatten ++ '"' :: rest ∧
        Item.string place cs = .sound (.text s) (spellings.flatten.length + 1)) ∧
    (∀ (s : String) (spellings : List (List Char)) (later : List Char),
      List.Forall₂ Spelling s.toList spellings →
      StringLiteral.Passed spellings.flatten later) ∧
    ∀ front rest, StringLiteral.Passed front ('\\' :: 'u' :: rest) → BrokenUnit rest →
      ⟨(place.after '"').past front, .invalidUnicodeEscape⟩
        ∈ (Item.string place (front ++ '\\' :: 'u' :: rest)).defects := by
  refine ⟨fun s spellings rest each => ?_, fun cs sound => ?_,
    fun s spellings later each => StringLiteral.passed_of_spellings each later,
    fun front rest passed broken => ?_⟩
  · have isText : StringText spellings.flatten s.toList := stringText_iff.2 ⟨spellings, each, rfl⟩
    rw [Item.string, StringLiteral.read_of_stringText isText, String.ofList_toList]
    rfl
  · obtain ⟨w, rest, split, isText, taken⟩ := StringLiteral.stringText_of_read sound
    obtain ⟨spellings, each, rfl⟩ := stringText_iff.1 isText
    have reads : Item.string place cs = .sound
        (.text (.ofList (StringLiteral.read place 0 (place.after '"') cs).content))
        (spellings.flatten.length + 1) := by
      rw [Item.string, Item.sound, taken]
      exact congrArg (Item.mk _ · _) sound
    rw [← String.toList_ofList
      (l := (StringLiteral.read place 0 (place.after '"') cs).content)] at each
    exact ⟨_, spellings, rest, each, split, reads⟩
  · exact passed.mem_defects (StringLiteral.mem_defects_brokenUnit broken)

/-- A character beyond U+FFFF is got back from its two halves in either letter case, and the halves
the other way round are reported. -/
theorem string_exact_of_halves :
    Item.string .start
        ['\\', 'u', 'D', '8', '3', 'd', '\\', 'u', 'D', 'e', '0', '0', '"', ' ']
      = .sound (.text (.singleton '😀')) 13 ∧
    ⟨⟨1, 3⟩, .invalidUnicodeEscape⟩ ∈ (Item.string .start
        ['a', '\\', 'u', 'D', 'e', '0', '0', '\\', 'u', 'D', '8', '3', 'd', '"']).defects := by
  have first : CodeUnit ['D', '8', '3', 'd'] (hexNumber [13, 8, 3, 13]) :=
    @codeUnit_of_hexRun ['D', '8', '3', 'd'] (by decide)
  have second : CodeUnit ['D', 'e', '0', '0'] (hexNumber [13, 14, 0, 0]) :=
    @codeUnit_of_hexRun ['D', 'e', '0', '0'] (by decide)
  have paired : Paired (hexNumber [13, 8, 3, 13]) (hexNumber [13, 14, 0, 0]) '😀' := by
    unfold Paired
    decide
  have isSpelling : List.Forall₂ Spelling (String.singleton '😀').toList
      [['\\', 'u', 'D', '8', '3', 'd', '\\', 'u', 'D', 'e', '0', '0']] := by
    rw [String.toList_singleton]
    exact .cons (.pair first second paired) .nil
  have passed : StringLiteral.Passed ['a']
      ['\\', 'u', 'D', 'e', '0', '0', '\\', 'u', 'D', '8', '3', 'd', '"'] :=
    .char (by decide) .nil
  have broken : BrokenUnit ['D', 'e', '0', '0', '\\', 'u', 'D', '8', '3', 'd', '"'] :=
    @BrokenUnit.low _ ['\\', 'u', 'D', '8', '3', 'd', '"'] _ second (by decide) (by decide)
  have reads := (string_exact .start).1 (.singleton '😀') _ [' '] isSpelling
  have reported := (string_exact .start).2.2.2 _ _ passed broken
  exact ⟨reads, reported⟩

end Telemetry.Json
