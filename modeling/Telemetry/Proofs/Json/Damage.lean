import Mathlib.Data.List.Chain
import Telemetry.Proofs.Json.Tokens

/-!
# Damaged texts

A text is damaged by writing something else for some of its items: a space for a comma between two
entries or for the colon behind a key, and a word that could be a name for a scalar in the place of
a value.

* `Part` is an item of a text with what becomes of it, and `Damage` says of the parts of a text that
  nothing else happens to it;
* `slots` lists the lexemes of the text as it was, each with its place in the damaged text;
* `Scan.run_of_damage`: where no scalar follows a scalar, the damaged text is scanned to what its
  slots still hold, with one defect at each broken scalar.
-/

namespace Telemetry.Json

open Text (Ends ends_nil ends_cons takeWhile_run)
open Grammar

namespace Lexeme

/-- Whether the lexeme is a value of its own. -/
def isScalar : Lexeme → Bool
  | .text _ | .number _ | .bool _ | .null => true
  | .mark _ | .broken => false

/-- Whether the lexeme is a comma or a colon. -/
def isSeparator (l : Lexeme) : Bool :=
  l == .mark .comma || l == .mark .colon

/-- Whether the second lexeme may follow the first: neither are both scalars nor both separators. -/
def Apart (a b : Lexeme) : Prop :=
  (a.isScalar && b.isScalar) = false ∧ (a.isSeparator && b.isSeparator) = false

end Lexeme

/-! ### Damage -/

/-- What becomes of an item: it is kept, or a space or a word is written for it. -/
inductive Fate where
  | kept
  | erased
  | broken (word : List Char)
  deriving DecidableEq, Repr

/-- An item of a text: its characters, the lexeme that it leaves, and what becomes of it. -/
structure Part where
  chars : List Char
  lexeme : Option Lexeme
  fate : Fate
  deriving DecidableEq, Repr

/-- The characters that the damaged text has for the part. -/
def Part.damaged (p : Part) : List Char :=
  match p.fate with
  | .kept => p.chars
  | .erased => [' ']
  | .broken word => word

/-- Whether a word could be a name, so that it is no number and none of the three words. -/
structure IsName (word : List Char) : Prop where
  first : ∃ c ∈ word.head?, c.isDigit = false
  chars : ∀ c ∈ word, isWordChar c = true
  unknown : word ∉ words.map Prod.fst

/-- What may become of an item, by the lexeme that it leaves and the one that comes next.  A comma
between two entries and a colon may be erased, and a scalar may be broken unless it is a key. -/
inductive Suffers : Option Lexeme → (next : Option Lexeme) → Fate → Prop
  | kept {left next : Option Lexeme} : Suffers left next .kept
  | comma {next : Lexeme} : next ≠ .mark .closeBrace → next ≠ .mark .closeBracket →
      Suffers (some (.mark .comma)) (some next) .erased
  | colon {next : Option Lexeme} : Suffers (some (.mark .colon)) next .erased
  | scalar {lexeme : Lexeme} {next : Option Lexeme} {word : List Char} :
      lexeme.isScalar = true → next ≠ some (.mark .colon) → IsName word →
      Suffers (some lexeme) next (.broken word)

namespace Suffers

variable {left next : Option Lexeme}

theorem eq_kept {fate : Fate} (h : Suffers none next fate) : fate = .kept := by
  cases h
  rfl

theorem of_broken {word : List Char} (h : Suffers left next (.broken word)) :
    ∃ lexeme, left = some lexeme ∧ lexeme.isScalar = true ∧ next ≠ some (.mark .colon) ∧
      IsName word := by
  cases h with
  | scalar isScalar noKey isName => exact ⟨_, rfl, isScalar, noKey, isName⟩

end Suffers

/-- Parts that make up a text, each suffering what it may. -/
inductive Damage : List Part → Prop
  | nil : Damage []
  | cons {p : Part} {rest : List Part} : Piece p.chars p.lexeme (rest.flatMap Part.chars) →
      Suffers p.lexeme (rest.findSome? Part.lexeme) p.fate → Damage rest → Damage (p :: rest)

namespace Damage

/-- The parts cut the text as it was. -/
theorem tokens {parts : List Part} (h : Damage parts) :
    Tokens (parts.flatMap Part.chars) (parts.filterMap Part.lexeme) := by
  induction h with
  | nil => exact .nil
  | @cons p rest piece _ _ ih =>
    have joined := Tokens.cons piece ih
    rw [List.flatMap_cons]
    cases left : p.lexeme with
    | none =>
      rw [left] at joined
      rwa [List.filterMap_cons_none left]
    | some lexeme =>
      rw [left] at joined
      rwa [List.filterMap_cons_some left]

/-- Every text of the grammar is cut into parts, none of which need suffer anything. -/
theorem exists_of_tokens {cs : List Char} {ls : List Lexeme} (h : Tokens cs ls) :
    ∃ parts, Damage parts ∧ (∀ p ∈ parts, p.fate = .kept) ∧ parts.flatMap Part.chars = cs := by
  induction h with
  | nil => exact ⟨[], .nil, List.forall_mem_nil _, rfl⟩
  | @cons cs rest left _ piece _ ih =>
    obtain ⟨parts, damage, kept, rfl⟩ := ih
    refine ⟨⟨cs, left, .kept⟩ :: parts, .cons piece .kept damage, ?_, rfl⟩
    exact List.forall_mem_cons.2 ⟨rfl, kept⟩

end Damage

/-! ### Deciding what is damage -/

/-- Whether characters are an item can be read off them. -/
theorem Item.piece_cons_iff {c : Char} {more rest : List Char} {left : Option Lexeme} :
    Piece (c :: more) left rest ↔ (Item.read .start c (more ++ rest)).lexeme = left ∧
      (Item.read .start c (more ++ rest)).defects = [] ∧
      (Item.read .start c (more ++ rest)).more = more.length := by
  constructor
  · intro h
    obtain ⟨d, others, same, read⟩ := read_of_piece h
    cases same
    rw [read]
    exact ⟨rfl, rfl, rfl⟩
  · rintro ⟨rfl, sound, length⟩
    have piece := piece_of_read sound
    rwa [length, List.take_left, List.drop_left] at piece

instance (cs rest : List Char) (left : Option Lexeme) : Decidable (Piece cs left rest) :=
  match cs with
  | [] => isFalse fun h => by
      obtain ⟨c, more, empty, -⟩ := Item.read_of_piece h
      cases empty
  | _ :: _ => decidable_of_iff _ Item.piece_cons_iff.symm

theorem isName_iff {word : List Char} :
    IsName word ↔ (word.head?.any fun c => !c.isDigit) = true ∧ word.all isWordChar = true ∧
      word ∉ words.map Prod.fst := by
  rw [List.all_eq_true, Option.any_eq_true]
  simp only [Bool.not_eq_eq_eq_not, Bool.not_true]
  exact ⟨fun h => ⟨h.first, h.chars, h.unknown⟩, fun ⟨first, chars, unknown⟩ =>
    ⟨first, chars, unknown⟩⟩

instance (word : List Char) : Decidable (IsName word) :=
  decidable_of_iff _ isName_iff.symm

theorem suffers_erased_iff {left next : Option Lexeme} :
    Suffers left next .erased ↔ left = some (.mark .colon) ∨ left = some (.mark .comma) ∧
      ∃ l ∈ next, l ≠ .mark .closeBrace ∧ l ≠ .mark .closeBracket := by
  constructor
  · intro h
    cases h with
    | colon => exact .inl rfl
    | comma noBrace noBracket => exact .inr ⟨rfl, _, rfl, noBrace, noBracket⟩
  · rintro (rfl | ⟨rfl, l, isNext, noBrace, noBracket⟩)
    · exact .colon
    · cases isNext
      exact .comma noBrace noBracket

theorem suffers_broken_iff {left next : Option Lexeme} {word : List Char} :
    Suffers left next (.broken word) ↔
      (∃ l ∈ left, l.isScalar = true) ∧ next ≠ some (.mark .colon) ∧ IsName word := by
  constructor
  · intro h
    obtain ⟨l, isLexeme, isScalar, rest⟩ := h.of_broken
    exact ⟨⟨l, isLexeme, isScalar⟩, rest⟩
  · rintro ⟨⟨l, isLexeme, isScalar⟩, noKey, isName⟩
    cases isLexeme
    exact .scalar isScalar noKey isName

instance (left next : Option Lexeme) (fate : Fate) : Decidable (Suffers left next fate) :=
  match fate with
  | .kept => isTrue .kept
  | .erased => decidable_of_iff _ suffers_erased_iff.symm
  | .broken _ => decidable_of_iff _ suffers_broken_iff.symm

theorem damage_cons_iff {p : Part} {rest : List Part} :
    Damage (p :: rest) ↔ Piece p.chars p.lexeme (rest.flatMap Part.chars) ∧
      Suffers p.lexeme (rest.findSome? Part.lexeme) p.fate ∧ Damage rest := by
  constructor
  · intro h
    cases h with
    | cons piece suffers damage => exact ⟨piece, suffers, damage⟩
  · rintro ⟨piece, suffers, damage⟩
    exact .cons piece suffers damage

instance decidableDamage : (parts : List Part) → Decidable (Damage parts)
  | [] => isTrue .nil
  | _ :: rest =>
    have := decidableDamage rest
    decidable_of_iff _ damage_cons_iff.symm

/-! ### Slots -/

/-- The slot of a lexeme: what becomes of it, and where the damaged text has what is left of it. -/
structure Slot where
  lexeme : Lexeme
  fate : Fate
  place : Place
  deriving DecidableEq, Repr

namespace Slot

/-- The token that is left in a slot, if one is. -/
def tokens (s : Slot) : List Token :=
  match s.fate with
  | .kept => [⟨s.lexeme, s.place⟩]
  | .erased => []
  | .broken _ => [⟨.broken, s.place⟩]

/-- The defect of the scanner at a slot, if there is one. -/
def defects (s : Slot) : List Defect :=
  match s.fate with
  | .broken word => [⟨s.place, .invalidSymbol (.ofList word)⟩]
  | _ => []

end Slot

/-- The slot of a part that begins at `place` in the damaged text, if the part leaves a lexeme. -/
def Part.slot (place : Place) (p : Part) : Option Slot :=
  p.lexeme.map fun lexeme => ⟨lexeme, p.fate, place⟩

/-- The slots of a damaged text whose parts begin at `place`. -/
def slots (place : Place) : List Part → List Slot
  | [] => []
  | p :: rest => (p.slot place).toList ++ slots (place.past p.damaged) rest

theorem map_lexeme_slots (place : Place) (parts : List Part) :
    (slots place parts).map Slot.lexeme = parts.filterMap Part.lexeme := by
  induction parts generalizing place with
  | nil => rfl
  | cons p rest ih =>
    rw [slots, List.map_append, ih, Part.slot]
    cases left : p.lexeme with
    | none => rw [List.filterMap_cons_none left]; rfl
    | some lexeme => rw [List.filterMap_cons_some left]; rfl

/-- What the slots of a damaged text keep to: each suffers what its lexeme may, seen the next. -/
structure Fit (slots : List Slot) : Prop where
  each : ∀ s ∈ slots, ∃ next, Suffers (some s.lexeme) next s.fate
  chain : slots.IsChain fun s t => Suffers (some s.lexeme) (some t.lexeme) s.fate

theorem Damage.fit {parts : List Part} (h : Damage parts) (place : Place) :
    Fit (slots place parts) := by
  induction h generalizing place with
  | nil => exact ⟨List.forall_mem_nil _, .nil⟩
  | @cons p rest _ suffers _ ih =>
    obtain ⟨each, chain⟩ := ih (place.past p.damaged)
    rw [slots, Part.slot]
    cases left : p.lexeme with
    | none => exact ⟨each, chain⟩
    | some lexeme =>
      rw [left] at suffers
      refine ⟨List.forall_mem_cons.2 ⟨⟨_, suffers⟩, each⟩, List.isChain_cons.2 ⟨?_, chain⟩⟩
      intro t first
      have next : rest.findSome? Part.lexeme = some t.lexeme := by
        rw [← List.head?_filterMap, ← map_lexeme_slots (place.past p.damaged), List.head?_map]
        exact congrArg (Option.map Slot.lexeme) first
      rwa [next] at suffers

/-! ### Scanning what is left -/

/-- A blank belongs to no word. -/
theorem not_isWordChar_of_isBlank {c : Char} (h : Text.isBlank c = true) :
    isWordChar c = false := by
  have blanks : ∀ range ∈ Text.blanks, ∀ i ∈ List.range (range.2 + 1 - range.1),
      isWordChar (Char.ofNat (range.1 + i)) = false := by
    decide +kernel
  obtain ⟨range, isRange, within⟩ := List.any_eq_true.1 h
  rw [Bool.and_eq_true, decide_eq_true_iff, decide_eq_true_iff] at within
  have found := blanks range isRange (c.toNat - range.1) (List.mem_range.2 (by omega))
  rwa [Nat.add_sub_cancel' within.1, Char.ofNat_toNat] at found

/-- Characters, other than blanks, that a text has between its words. -/
def betweenWords : List Char :=
  ['{', '}', '[', ']', ':', ',', '/', '"', '-', '\ufeff']

theorem not_isWordChar_of_mem {c : Char} (h : c ∈ betweenWords) : isWordChar c = false := by
  have none : (betweenWords.all fun c => !isWordChar c) = true := by decide +kernel
  simpa using List.all_eq_true.1 none c h

/-- A mark belongs to no word. -/
theorem not_isWordChar_of_ofChar? {c : Char} {m : Mark} (h : Mark.ofChar? c = some m) :
    isWordChar c = false := by
  unfold Mark.ofChar? at h
  split at h
  all_goals first | exact not_isWordChar_of_mem (by decide) | cases h

/-- An item that leaves no scalar begins with no character of a word. -/
theorem ends_of_piece {cs rest : List Char} {left : Option Lexeme} (h : Piece cs left rest)
    (noScalar : ∀ l ∈ left, l.isScalar = false) (more : List Char) :
    Ends isWordChar (cs ++ more) := by
  cases h with
  | blank isBlank => exact ends_cons (not_isWordChar_of_isBlank isBlank) _
  | lineComment | blockComment => exact ends_cons (not_isWordChar_of_mem (by decide)) _
  | mark isMark => exact ends_cons (not_isWordChar_of_ofChar? isMark) _
  | text => cases noScalar _ rfl
  | number => cases noScalar _ rfl
  | @word _ _ lexeme isWord =>
    have scalar : ∀ w ∈ words, w.2.isScalar = true := by decide
    have isScalar := scalar _ isWord
    rw [noScalar lexeme rfl] at isScalar
    cases isScalar

theorem ne_nil_of_piece {cs rest : List Char} {left : Option Lexeme} (h : Piece cs left rest) :
    cs ≠ [] := by
  obtain ⟨c, more, rfl, -⟩ := Item.read_of_piece h
  exact List.cons_ne_nil c more

/-- An item that begins with a line feed is a blank. -/
theorem eq_none_of_piece {more rest : List Char} {left : Option Lexeme}
    (h : Piece ('\n' :: more) left rest) : left = none := by
  obtain ⟨c, _, eq, read⟩ := Item.read_of_piece h
  obtain ⟨rfl, -⟩ := List.cons.inj eq
  have blank := read .start
  rw [Item.read, if_pos (by decide)] at blank
  exact (congrArg Item.lexeme blank).symm

namespace Damage

/-- What ends before a text ends before the damaged text, if a space ends it and the first item is
not broken. -/
theorem ends {p : Char → Bool} {parts : List Part} (h : Damage parts) (space : p ' ' = false)
    (whole : ∀ q ∈ parts.head?, ∀ word, q.fate ≠ .broken word)
    (e : Ends p (parts.flatMap Part.chars)) : Ends p (parts.flatMap Part.damaged) := by
  cases h with
  | nil => exact e
  | @cons q rest piece _ _ =>
    obtain ⟨c, more, isChars⟩ := List.exists_cons_of_ne_nil (ne_nil_of_piece piece)
    rw [List.flatMap_cons, isChars] at e
    rw [List.flatMap_cons, Part.damaged]
    cases fate : q.fate with
    | kept =>
      dsimp only
      rw [isChars]
      exact ends_cons e.head _
    | erased => exact ends_cons space _
    | broken word => exact absurd fate (whole q rfl word)

/-- A line that ends before a text ends before the damaged text. -/
theorem ends_line {parts : List Part} (h : Damage parts)
    (e : Ends (· != '\n') (parts.flatMap Part.chars)) :
    Ends (· != '\n') (parts.flatMap Part.damaged) := by
  cases h with
  | nil => exact e
  | @cons q rest piece suffers _ =>
    obtain ⟨c, more, isChars⟩ := List.exists_cons_of_ne_nil (ne_nil_of_piece piece)
    rw [List.flatMap_cons, isChars] at e
    have feed := bne_eq_false_iff_eq.1 e.head
    subst feed
    rw [isChars] at piece
    -- What ends a line is a blank, and nothing happens to blanks.
    have noLexeme := eq_none_of_piece piece
    rw [noLexeme] at suffers
    rw [List.flatMap_cons, Part.damaged, suffers.eq_kept]
    dsimp only
    rw [isChars]
    exact ends_cons rfl _

/-- Behind a scalar nothing is broken. -/
theorem whole_of_isScalar {lexeme : Lexeme} {parts : List Part} (h : Damage parts)
    (isScalar : lexeme.isScalar = true)
    (apart : (lexeme :: parts.filterMap Part.lexeme).IsChain Lexeme.Apart) :
    ∀ q ∈ parts.head?, ∀ word, q.fate ≠ .broken word := by
  intro q hq word isBroken
  cases h with
  | nil => cases hq
  | @cons p rest _ suffers _ =>
    cases hq
    rw [isBroken] at suffers
    obtain ⟨next, left, nextScalar, -⟩ := suffers.of_broken
    rw [List.filterMap_cons_some left, List.isChain_cons_cons] at apart
    have clash := apart.1.1
    rw [isScalar, nextScalar] at clash
    cases clash

/-- Behind a scalar no word goes on, in the damaged text either. -/
theorem ends_word_of_isScalar {lexeme : Lexeme} {parts : List Part} (h : Damage parts)
    (isScalar : lexeme.isScalar = true)
    (apart : (lexeme :: parts.filterMap Part.lexeme).IsChain Lexeme.Apart) :
    Ends isWordChar (parts.flatMap Part.damaged) := by
  refine h.ends (not_isWordChar_of_isBlank (by decide)) (h.whole_of_isScalar isScalar apart) ?_
  cases h with
  | nil => exact ends_nil _
  | @cons q rest piece _ _ =>
    rw [List.flatMap_cons]
    refine ends_of_piece piece (fun l isLexeme => ?_) _
    rw [List.filterMap_cons_some isLexeme, List.isChain_cons_cons] at apart
    have clash := apart.1.1
    rwa [isScalar, Bool.true_and] at clash

/-- An item that is kept is an item of the damaged text. -/
theorem piece {cs : List Char} {left : Option Lexeme} {parts : List Part} (h : Damage parts)
    (apart : (left.toList ++ parts.filterMap Part.lexeme).IsChain Lexeme.Apart)
    (whole : Piece cs left (parts.flatMap Part.chars)) :
    Piece cs left (parts.flatMap Part.damaged) := by
  cases whole with
  | blank isBlank => exact .blank isBlank
  | lineComment oneLine e => exact .lineComment oneLine (h.ends_line e)
  | blockComment inner => exact .blockComment inner
  | mark isMark => exact .mark isMark
  | text body => exact .text body
  | number literal denotes e =>
    exact .number literal denotes (h.ends (by decide) (h.whole_of_isScalar rfl apart) e)
  | word isWord _ =>
    have scalar : ∀ w ∈ words, w.2.isScalar = true := by decide
    exact .word isWord (h.ends_word_of_isScalar (scalar _ isWord) apart)

end Damage

/-- A word that could be a name is read as one item, and reported. -/
theorem Item.read_of_isName {word : List Char} (h : IsName word) {rest : List Char}
    (ends : Ends isWordChar rest) :
    ∃ c more, word = c :: more ∧ ∀ place, Item.read place c (more ++ rest)
      = Item.broken place (.invalidSymbol (.ofList word)) more.length := by
  obtain ⟨c, hc, noDigit⟩ := h.first
  obtain ⟨more, rfl⟩ := List.head?_eq_some_iff.1 hc
  obtain ⟨first, others⟩ := List.forall_mem_cons.1 h.chars
  refine ⟨c, more, rfl, fun place => ?_⟩
  have noBlank : Text.isBlank c = false := by
    rw [Bool.eq_false_iff]
    intro isBlank
    rw [not_isWordChar_of_isBlank isBlank] at first
    cases first
  have noMark : Mark.ofChar? c = none := by
    rw [Option.eq_none_iff_forall_ne_some]
    intro m isMark
    rw [not_isWordChar_of_ofChar? isMark] at first
    cases first
  have ne : ∀ d ∈ betweenWords, c ≠ d := by
    rintro d noWord rfl
    rw [not_isWordChar_of_mem noWord] at first
    cases first
  have unknown : Lexeme.ofWord (.ofList (c :: more)) = .broken := by
    by_contra known
    exact h.unknown (List.mem_map_of_mem (mem_words_of_ofWord rfl known))
  have noNumber : ¬ (c = '-' ∨ c.isDigit = true) := by
    rintro (minus | digit)
    · exact ne '-' (by decide) minus
    · rw [noDigit] at digit
      cases digit
  rw [Item.read_eq_readPlain noBlank (ne '/' (by decide)), Item.readPlain, noMark]
  dsimp only
  rw [if_neg (ne '"' (by decide)), if_neg noNumber, if_pos first, Item.word,
    takeWhile_run others ends, unknown]

namespace Scan

/-- An item that takes up the whole of `word` is passed. -/
theorem run_of_read {word rest : List Char} {s : Scan} {item : Item} {c : Char} {more : List Char}
    (isWord : word = c :: more) (read : Item.read s.stop c (more ++ rest) = item)
    (length : item.more = more.length) :
    run s 0 (word ++ rest) = run (s.pass item word) 0 rest := by
  subst isWord
  rw [List.cons_append, run_cons, read, length, List.take_left, List.drop_left]

theorem tokens_pass (s : Scan) (item : Item) (cs : List Char) :
    (s.pass item cs).tokens
      = (item.lexeme.map fun l => ⟨l, s.stop⟩).toList.reverse ++ s.tokens := by
  unfold pass add
  cases item.lexeme <;> rfl

/-- The first part of a damaged text is passed as one item, which leaves what its slot holds. -/
theorem run_part {p : Part} {rest : List Part} (h : Damage (p :: rest))
    (apart : (List.filterMap Part.lexeme (p :: rest)).IsChain Lexeme.Apart) (s : Scan) :
    ∃ item, run s 0 (p.damaged ++ rest.flatMap Part.damaged)
        = run (s.pass item p.damaged) 0 (rest.flatMap Part.damaged) ∧
      (item.lexeme.map fun l => ⟨l, s.stop⟩).toList
        = (p.slot s.stop).toList.flatMap Slot.tokens ∧
      item.defects = (p.slot s.stop).toList.flatMap Slot.defects := by
  obtain ⟨chars, left, fate⟩ := p
  cases h with
  | cons piece suffers damage =>
  dsimp only at piece suffers
  cases fate with
  | kept =>
    have apart : (left.toList ++ rest.filterMap Part.lexeme).IsChain Lexeme.Apart := by
      cases left with
      | none => exact apart
      | some lexeme => exact apart
    obtain ⟨c, more, isChars, read⟩ := Item.read_of_piece (damage.piece apart piece)
    refine ⟨⟨left, [], more.length⟩, run_of_read isChars (read s.stop) rfl, ?_, ?_⟩
    · cases left <;> rfl
    · cases left <;> rfl
  | erased =>
    refine ⟨Item.blank 0, run_of_read rfl (if_pos (by decide)) rfl, ?_, ?_⟩
    · cases left <;> rfl
    · cases left <;> rfl
  | broken word =>
    obtain ⟨lexeme, rfl, isScalar, -, isName⟩ := suffers.of_broken
    have ends := damage.ends_word_of_isScalar isScalar apart
    obtain ⟨c, more, isWord, read⟩ := Item.read_of_isName isName ends
    exact ⟨_, run_of_read isWord (read s.stop) rfl, rfl, rfl⟩

/-- The scan of a damaged text finds what its slots still hold. -/
theorem run_of_damage {parts : List Part} (h : Damage parts)
    (apart : (parts.filterMap Part.lexeme).IsChain Lexeme.Apart) (s : Scan) :
    (run s 0 (parts.flatMap Part.damaged)).tokens
        = ((slots s.stop parts).flatMap Slot.tokens).reverse ++ s.tokens ∧
      (run s 0 (parts.flatMap Part.damaged)).defects
        = ((slots s.stop parts).flatMap Slot.defects).reverse ++ s.defects := by
  induction parts generalizing s with
  | nil => exact ⟨rfl, rfl⟩
  | cons p rest ih =>
    obtain ⟨item, passed, isToken, isDefect⟩ := run_part h apart s
    have restApart : (rest.filterMap Part.lexeme).IsChain Lexeme.Apart := by
      cases left : p.lexeme with
      | none => rwa [List.filterMap_cons_none left] at apart
      | some lexeme =>
        rw [List.filterMap_cons_some left] at apart
        exact apart.of_cons
    cases h with
    | cons _ _ damage =>
    obtain ⟨tokens, defects⟩ := ih damage restApart (s.pass item p.damaged)
    rw [List.flatMap_cons, passed, tokens, defects, tokens_pass, defects_pass, isToken, isDefect,
      slots]
    simp only [List.flatMap_append, List.reverse_append, List.append_assoc]
    exact ⟨rfl, rfl⟩

end Scan

end Telemetry.Json
