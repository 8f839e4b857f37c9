import Telemetry.Json.Reader
import Telemetry.Proofs.Json.Grammar
import Telemetry.Proofs.Json.Members

/-!
# Values that have a text

Every text, truth value and `null` can be written, and so can lists and objects of what can be
written, as long as the containers are not too deep.  Lexemes are written with a space behind each.

* `StringText.exists_text`: any characters can stand in a string;
* `Lexeme.Writable` and `Value.Writable` say of lexemes and values that they have characters, and
  the lemmas about them follow the grammar;
* `Value.Writable.exists_spells`: a value that can be written has a text.
-/

namespace Telemetry.Json

open Grammar

/-! ### Lexemes -/

/-- Any characters can be written in a string: as they are, behind a backslash, or as a code unit
where they are control characters. -/
theorem Grammar.StringText.exists_text (s : List Char) : ∃ w, StringText w s := by
  induction s with
  | nil => exact ⟨[], .nil⟩
  | cons c s ih =>
    obtain ⟨w, written⟩ := ih
    by_cases escaped : ∃ e, (e, c) ∈ shortEscapes
    · obtain ⟨e, isEscape⟩ := escaped
      exact ⟨_, .short isEscape written⟩
    · have noQuote : c ≠ '"' := by
        rintro rfl
        exact escaped ⟨'"', by decide⟩
      have noBackslash : c ≠ '\\' := by
        rintro rfl
        exact escaped ⟨'\\', by decide⟩
      by_cases control : c.toNat < 0x20
      · have zero : HexDigit '0' 0 := .inl ⟨by decide, rfl⟩
        have digit : ∀ n < 16, HexDigit (Nat.digitChar n) n := by
          unfold HexDigit
          decide
        have isUnit : CodeUnit
            ['0', '0', Nat.digitChar (c.toNat / 16), Nat.digitChar (c.toNat % 16)] c.toNat := by
          have unit := CodeUnit.mk zero zero (digit (c.toNat / 16) (by omega))
            (digit (c.toNat % 16) (by omega))
          have same : 16 * (16 * (16 * 0 + 0) + c.toNat / 16) + c.toNat % 16 = c.toNat := by omega
          rwa [same] at unit
        exact ⟨_, .unit isUnit written⟩
      · exact ⟨_, .raw noQuote noBackslash (Nat.le_of_not_lt control) written⟩

/-- Whether a lexeme has characters, with a space behind them. -/
def Lexeme.Writable (l : Lexeme) : Prop :=
  ∀ rest, ∃ cs, Piece cs (some l) (' ' :: rest)

namespace Lexeme

theorem writable_mark (m : Mark) : (mark m).Writable := by
  have exists_char : ∃ c, Mark.ofChar? c = some m := by
    cases m with
    | openBrace => exact ⟨'\x7b', rfl⟩
    | closeBrace => exact ⟨'\x7d', rfl⟩
    | openBracket => exact ⟨'[', rfl⟩
    | closeBracket => exact ⟨']', rfl⟩
    | colon => exact ⟨':', rfl⟩
    | comma => exact ⟨',', rfl⟩
  obtain ⟨c, isMark⟩ := exists_char
  exact fun rest => ⟨[c], .mark isMark⟩

theorem writable_text (s : String) : (text s).Writable := by
  obtain ⟨w, written⟩ := StringText.exists_text s.toList
  intro rest
  have piece : Piece _ _ (' ' :: rest) := .text written
  rw [String.ofList_toList] at piece
  exact ⟨_, piece⟩

/-- The three words can be written. -/
theorem writable_of_mem_words {cs : List Char} {l : Lexeme} (h : (cs, l) ∈ words) :
    l.Writable := by
  have space : isWordChar ' ' = false := by decide +kernel
  exact fun rest => ⟨cs, .word h (Text.ends_cons space rest)⟩

end Lexeme

/-- Lexemes that can be written one by one can be written one after the other. -/
theorem exists_tokens {ls : List Lexeme} (h : ∀ l ∈ ls, l.Writable) : ∃ cs, Tokens cs ls := by
  induction ls with
  | nil => exact ⟨[], .nil⟩
  | cons l ls ih =>
    obtain ⟨first, others⟩ := List.forall_mem_cons.1 h
    obtain ⟨rest, tokens⟩ := ih others
    obtain ⟨cs, piece⟩ := first rest
    exact ⟨_, .cons piece (.cons (.blank (by decide)) tokens)⟩

/-! ### Values -/

/-- Whether a value inside `depth` containers has lexemes that can be written. -/
def Value.Writable (depth : Nat) (v : Value) : Prop :=
  ∃ ls, IsValue depth ls v ∧ ∀ l ∈ ls, l.Writable

namespace Value

variable {depth : Nat}

theorem writable_text (s : String) : Writable depth (.text s) :=
  ⟨[.text s], .text, List.forall_mem_singleton.2 (Lexeme.writable_text s)⟩

theorem writable_bool (b : Bool) : Writable depth (.bool b) := by
  refine ⟨[.bool b], .bool, List.forall_mem_singleton.2 ?_⟩
  cases b with
  | true =>
    have isWord : (['t', 'r', 'u', 'e'], .bool true) ∈ words := by decide
    exact Lexeme.writable_of_mem_words isWord
  | false =>
    have isWord : (['f', 'a', 'l', 's', 'e'], .bool false) ∈ words := by decide
    exact Lexeme.writable_of_mem_words isWord

/-- Items that can be written can be written with commas between them. -/
theorem exists_areItems {items : List Value} (h : ∀ item ∈ items, Writable depth item) :
    ∃ ls, AreItems depth ls items ∧ ∀ l ∈ ls, l.Writable := by
  induction items with
  | nil => exact ⟨[], .none, List.forall_mem_nil _⟩
  | cons item rest ih =>
    obtain ⟨⟨first, isValue, firstWritable⟩, others⟩ := List.forall_mem_cons.1 h
    obtain ⟨ls, areItems, writable⟩ := ih others
    cases rest with
    | nil =>
      refine ⟨first ++ [], .one isValue .none, ?_⟩
      rw [List.append_nil]
      exact firstWritable
    | cons second rest =>
      refine ⟨_, .more isValue areItems (List.cons_ne_nil _ _), ?_⟩
      exact List.forall_mem_append.2
        ⟨firstWritable, List.forall_mem_cons.2 ⟨Lexeme.writable_mark .comma, writable⟩⟩

/-- Members whose values can be written can be written with commas between them. -/
theorem exists_areMembers {members : Members} (h : ∀ m ∈ members, Writable depth m.2) :
    ∃ ls, AreMembers depth ls members ∧ ∀ l ∈ ls, l.Writable := by
  induction members with
  | nil => exact ⟨[], .none, List.forall_mem_nil _⟩
  | cons m rest ih =>
    obtain ⟨key, value⟩ := m
    obtain ⟨⟨first, isValue, firstWritable⟩, others⟩ := List.forall_mem_cons.1 h
    obtain ⟨ls, areMembers, writable⟩ := ih others
    have named : ∀ behind : List Lexeme, (∀ l ∈ behind, l.Writable) →
        ∀ l ∈ .text key :: .mark .colon :: (first ++ behind), l.Writable := fun behind h =>
      List.forall_mem_cons.2 ⟨Lexeme.writable_text key, List.forall_mem_cons.2
        ⟨Lexeme.writable_mark .colon, List.forall_mem_append.2 ⟨firstWritable, h⟩⟩⟩
    cases rest with
    | nil => exact ⟨_, .one isValue .none, named [] (List.forall_mem_nil _)⟩
    | cons second rest =>
      exact ⟨_, .more isValue areMembers (List.cons_ne_nil _ _),
        named _ (List.forall_mem_cons.2 ⟨Lexeme.writable_mark .comma, writable⟩)⟩

theorem writable_list {items : List Value} (shallow : depth < maxDepth)
    (h : ∀ item ∈ items, Writable (depth + 1) item) : Writable depth (.list items) := by
  obtain ⟨ls, areItems, writable⟩ := exists_areItems h
  refine ⟨_, .list shallow areItems, List.forall_mem_cons.2 ⟨Lexeme.writable_mark _, ?_⟩⟩
  exact List.forall_mem_append.2
    ⟨writable, List.forall_mem_singleton.2 (Lexeme.writable_mark _)⟩

theorem writable_object {members : Members} (shallow : depth < maxDepth)
    (ordered : members.Ordered) (h : ∀ m ∈ members, Writable (depth + 1) m.2) :
    Writable depth (.object members) := by
  obtain ⟨ls, areMembers, writable⟩ := exists_areMembers h
  have isValue := IsValue.object shallow areMembers ordered.nodup_keys (.refl _) ordered
  refine ⟨_, isValue, List.forall_mem_cons.2 ⟨Lexeme.writable_mark _, ?_⟩⟩
  exact List.forall_mem_append.2
    ⟨writable, List.forall_mem_singleton.2 (Lexeme.writable_mark _)⟩

/-- A value that can be written has a text. -/
theorem Writable.exists_spells {v : Value} (h : Writable 0 v) :
    ∃ text, Spells (contentChars text) v := by
  obtain ⟨ls, isValue, writable⟩ := h
  obtain ⟨cs, tokens⟩ := exists_tokens writable
  -- A byte-order mark in front keeps the characters from being taken for one.
  have content : contentChars (.ofList ('\ufeff' :: cs)) = cs := by
    rw [contentChars, String.toList_ofList]
    rfl
  exact ⟨_, ls, content.symm ▸ tokens, isValue⟩

end Value

end Telemetry.Json
