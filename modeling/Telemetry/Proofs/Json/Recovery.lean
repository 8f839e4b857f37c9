import Telemetry.Proofs.Json.Repair

/-!
# Recovery is exact

A text that is accepted and then damaged is refused with one defect for each thing that it has
suffered, and no other.

* `PartsOf` says that parts make up a text, behind a byte-order mark if it begins with one;
* `Damage.parse_eq_error`: the defects of the damaged text are those of its report;
* `report_of_parse` says so of every accepted text, and that it has parts.
-/

namespace Telemetry.Json

open Grammar

/-! ### Byte-order marks -/

/-- No item begins with a byte-order mark. -/
theorem Item.defects_read_mark (place : Place) (rest : List Char) :
    (Item.read place '\ufeff' rest).defects ≠ [] := by
  have noBlank : Text.isBlank '\ufeff' = false := by decide
  have noWord : isWordChar '\ufeff' = false := not_isWordChar_of_mem (by decide)
  rw [read_eq_readPlain noBlank (by decide), readPlain]
  dsimp only [Mark.ofChar?]
  rw [if_neg (by decide), if_neg (by decide), noWord, if_neg Bool.false_ne_true]
  exact List.cons_ne_nil _ _

theorem Damage.head_chars {parts : List Part} (h : Damage parts) :
    (parts.flatMap Part.chars).head? ≠ some '\ufeff' := by
  cases h with
  | nil =>
    intro isMark
    cases isMark
  | @cons p rest piece _ _ =>
    obtain ⟨c, more, isChars, read⟩ := Item.read_of_piece piece
    rw [List.flatMap_cons, isChars]
    intro isMark
    cases isMark
    exact Item.defects_read_mark .start _ (congrArg Item.defects (read .start))

theorem Damage.head_damaged {parts : List Part} (h : Damage parts) :
    (parts.flatMap Part.damaged).head? ≠ some '\ufeff' := by
  cases h with
  | nil =>
    intro isMark
    cases isMark
  | @cons p rest piece suffers damage =>
    have original := (Damage.cons piece suffers damage).head_chars
    obtain ⟨c, more, isChars⟩ := List.exists_cons_of_ne_nil (ne_nil_of_piece piece)
    rw [List.flatMap_cons, Part.damaged]
    rw [List.flatMap_cons, isChars] at original
    cases isFate : p.fate with
    | kept =>
      dsimp only
      rw [isChars]
      exact original
    | erased =>
      intro isMark
      cases isMark
    | broken word =>
      rw [isFate] at suffers
      obtain ⟨-, -, -, -, isName⟩ := suffers.of_broken
      obtain ⟨d, first, -⟩ := isName.first
      obtain ⟨others, rfl⟩ := List.head?_eq_some_iff.1 first
      intro isMark
      cases isMark
      have isWord := isName.chars _ List.mem_cons_self
      have noWord : isWordChar '\ufeff' = false := not_isWordChar_of_mem (by decide)
      rw [noWord] at isWord
      cases isWord

/-- What is read of a text is what stands behind its byte-order mark. -/
theorem contentChars_ofList {mark cs : List Char} (h : mark = [] ∨ mark = ['\ufeff'])
    (noMark : cs.head? ≠ some '\ufeff') : contentChars (.ofList (mark ++ cs)) = cs := by
  rw [contentChars, String.toList_ofList]
  rcases h with rfl | rfl
  · rw [List.nil_append]
    split
    · exact absurd rfl noMark
    · rfl
  · rfl

/-- A byte-order mark, if there is one, and the content make up the text. -/
theorem exists_mark (text : String) : ∃ mark, (mark = [] ∨ mark = ['\ufeff']) ∧
    text.toList = mark ++ contentChars text := by
  rw [contentChars]
  split
  · rename_i rest isText
    exact ⟨['\ufeff'], .inr rfl, isText⟩
  · exact ⟨[], .inl rfl, rfl⟩

/-! ### Damaged texts -/

/-- The parts of a text, behind a byte-order mark if it begins with one. -/
structure PartsOf (text : String) (mark : List Char) (parts : List Part) : Prop where
  isMark : mark = [] ∨ mark = ['\ufeff']
  damage : Damage parts
  chars : text.toList = mark ++ parts.flatMap Part.chars

/-- The text that is left of some parts. -/
def damagedText (mark : List Char) (parts : List Part) : String :=
  .ofList (mark ++ parts.flatMap Part.damaged)

/-- Every accepted text has parts. -/
theorem exists_partsOf_of_parse {text : String} {v : Value} (h : parse text = .ok v) :
    ∃ mark parts, PartsOf text mark parts ∧ ∀ p ∈ parts, p.fate = .kept := by
  obtain ⟨ls, tokens, -⟩ := spells_of_parse h
  obtain ⟨parts, damage, kept, isContent⟩ := Damage.exists_of_tokens tokens
  obtain ⟨mark, isMark, isText⟩ := exists_mark text
  rw [← isContent] at isText
  exact ⟨mark, parts, ⟨isMark, damage, isText⟩, kept⟩

/-- The parts of an accepted text leave the lexemes of its value. -/
theorem PartsOf.isValue {text : String} {mark : List Char} {parts : List Part} {v : Value}
    (h : PartsOf text mark parts) (accepted : parse text = .ok v) :
    IsValue 0 (parts.filterMap Part.lexeme) v := by
  have isText : text = .ofList (mark ++ parts.flatMap Part.chars) := by
    rw [← h.chars, String.ofList_toList]
  obtain ⟨ls, tokens, isValue⟩ := spells_of_parse accepted
  rw [isText, contentChars_ofList h.isMark h.damage.head_chars] at tokens
  have same := (scan_iff_tokens.2 tokens).2.symm.trans (scan_iff_tokens.2 h.damage.tokens).2
  rwa [← same]

namespace Damage

variable {parts : List Part} {v : Value}

theorem countP_slots (h : Damage parts) (place : Place) :
    (slots place parts).countP (·.fate ≠ .kept) = parts.countP (·.fate ≠ .kept) := by
  induction h generalizing place with
  | nil => rfl
  | @cons p rest _ suffers _ ih =>
    rw [slots, Part.slot, List.countP_append, ih, List.countP_cons]
    cases left : p.lexeme with
    | none =>
      rw [left] at suffers
      simp [suffers.eq_kept]
    | some lexeme => simp [Nat.add_comm]

/-- The damaged text is scanned to what is left in its slots. -/
theorem scan_damaged (h : Damage parts)
    (apart : (parts.filterMap Part.lexeme).IsChain Lexeme.Apart) :
    (scan (parts.flatMap Part.damaged)).tokens = (slots .start parts).flatMap Slot.tokens ∧
      (scan (parts.flatMap Part.damaged)).defects = (slots .start parts).flatMap Slot.defects := by
  obtain ⟨tokens, defects⟩ := Scan.run_of_damage h apart ⟨[], [], .start⟩
  refine ⟨?_, ?_⟩
  · rw [scan, tokens, List.append_nil, List.reverse_reverse]
  · rw [scan, defects, List.append_nil, List.reverse_reverse]

/-- What is left in the slots is read as a whole document, and the erased separators are missed. -/
theorem readDocument_slots (h : Damage parts) (isValue : IsValue 0 (parts.filterMap Part.lexeme) v)
    (stop : Place) : ∃ w, readDocument stop ((slots .start parts).flatMap Slot.tokens)
      = some ⟨w, missing none (slots .start parts), []⟩ := by
  rw [← map_lexeme_slots .start] at isValue
  obtain ⟨w, read⟩ := (Recovers.all stop _).value isValue (h.fit .start) (Nat.le_add_right _ 2) []
  rw [List.append_nil] at read
  refine ⟨w, ?_⟩
  rw [readDocument, read]
  rfl

/-- A damaged text has one defect for each part that was not kept. -/
theorem length_report (h : Damage parts) (isValue : IsValue 0 (parts.filterMap Part.lexeme) v) :
    (report none (slots .start parts)).length = parts.countP (·.fate ≠ .kept) := by
  have enclosed := enclosed_of_isValue isValue
  rw [← map_lexeme_slots .start] at enclosed
  have fit := h.fit .start
  have notNil : slots .start parts ≠ [] := fun nil => enclosed.notNil (by rw [nil]; rfl)
  rw [Json.length_report fit.chain notNil (fit.last enclosed), h.countP_slots]
  exact Nat.zero_add _

/-- The defects of the damaged text are those of its report, in the same order. -/
theorem parse_eq_error (h : Damage parts) (isValue : IsValue 0 (parts.filterMap Part.lexeme) v)
    (hurt : ∃ p ∈ parts, p.fate ≠ .kept) {mark : List Char}
    (isMark : mark = [] ∨ mark = ['\ufeff']) :
    parse (damagedText mark parts) = .error (report none (slots .start parts)) := by
  obtain ⟨isTokens, isDefects⟩ := h.scan_damaged (enclosed_of_isValue isValue).chain
  have sorted := inOrder_eq_report (h.pairwise_slots .start).1
  have some : (report none (slots .start parts)).length ≠ 0 := by
    rw [h.length_report isValue, Nat.ne_zero_iff_zero_lt, List.countP_pos_iff]
    obtain ⟨p, hp, notKept⟩ := hurt
    exact ⟨p, hp, decide_eq_true notKept⟩
  rw [(report_perm none _).length_eq] at some
  rw [damagedText, parse, contentChars_ofList isMark h.head_damaged]
  generalize scan (parts.flatMap Part.damaged) = s at isTokens isDefects
  obtain ⟨w, read⟩ := h.readDocument_slots isValue s.stop
  have found : ((slots .start parts).flatMap Slot.defects
      ++ missing none (slots .start parts)).isEmpty = false := by
    rw [List.isEmpty_eq_false_iff]
    rintro nil
    exact some (by rw [nil]; rfl)
  simp only [isTokens, isDefects, read, found, Bool.false_eq_true, if_false, sorted]

end Damage

/-- Recovery is exact.  An accepted text has parts, and if some of its parts are erased or broken,
the text is refused with one defect for each of them: a missing comma or colon at the token that
follows, an invalid symbol at a broken scalar, in the order of their places, and at one place the
invalid symbol first. -/
theorem report_of_parse {text : String} {v : Value} (accepted : parse text = .ok v) :
    (∃ mark parts, PartsOf text mark parts ∧ ∀ p ∈ parts, p.fate = .kept) ∧
      ∀ mark parts, PartsOf text mark parts → (∃ p ∈ parts, p.fate ≠ .kept) →
        parse (damagedText mark parts) = .error (report none (slots .start parts)) ∧
          (report none (slots .start parts)).length = parts.countP (·.fate ≠ .kept) ∧
          (report none (slots .start parts)).Pairwise Defect.Precedes := by
  refine ⟨exists_partsOf_of_parse accepted, fun mark parts partsOf hurt => ⟨?_, ?_, ?_⟩⟩
  · exact partsOf.damage.parse_eq_error (partsOf.isValue accepted) hurt partsOf.isMark
  · exact partsOf.damage.length_report (partsOf.isValue accepted)
  · exact pairwise_report (partsOf.damage.pairwise_slots .start).1 none

/-- The parts of a small text, of which a colon, two commas and two scalars suffer. -/
def damagedParts : List Part :=
  [⟨['\x7b'], some (.mark .openBrace), .kept⟩, ⟨['"', 'a', '"'], some (.text "a"), .kept⟩,
    ⟨[':'], some (.mark .colon), .erased⟩,
    ⟨['1'], some (.number (.integer 1)), .broken ['o', 'n', 'e']⟩,
    ⟨[','], some (.mark .comma), .erased⟩, ⟨['"', 'b', '"'], some (.text "b"), .kept⟩,
    ⟨[':'], some (.mark .colon), .kept⟩, ⟨['['], some (.mark .openBracket), .kept⟩,
    ⟨['t', 'r', 'u', 'e'], some (.bool true), .kept⟩, ⟨[','], some (.mark .comma), .erased⟩,
    ⟨['n', 'u', 'l', 'l'], some .null, .broken ['n', 'i', 'l']⟩,
    ⟨[']'], some (.mark .closeBracket), .kept⟩, ⟨['\x7d'], some (.mark .closeBrace), .kept⟩]

/-- What is reported of the text that is left of them. -/
theorem report_of_damagedParts :
    ∃ v defects, parse "\x7b\"a\":1,\"b\":[true,null]\x7d" = .ok v ∧
      damagedText [] damagedParts = "\x7b\"a\" one \"b\":[true nil]\x7d" ∧
      parse (damagedText [] damagedParts) = .error defects ∧
      defects.map Defect.message =
        ["1:6: invalid symbol 'one'", "1:6: colon expected", "1:10: comma expected",
          "1:20: invalid symbol 'nil'", "1:20: comma expected"] := by
  have isParts : PartsOf "\x7b\"a\":1,\"b\":[true,null]\x7d" [] damagedParts :=
    ⟨.inl rfl, by decide +kernel, by decide +kernel⟩
  have isOk : (parse "\x7b\"a\":1,\"b\":[true,null]\x7d").toOption.isSome = true := by
    decide +kernel
  cases accepted : parse "\x7b\"a\":1,\"b\":[true,null]\x7d" with
  | error defects =>
    rw [accepted] at isOk
    cases isOk
  | ok v =>
    obtain ⟨refused, -⟩ := (report_of_parse accepted).2 [] damagedParts isParts (by decide +kernel)
    exact ⟨v, _, rfl, by decide +kernel, refused, by decide +kernel⟩

end Telemetry.Json
