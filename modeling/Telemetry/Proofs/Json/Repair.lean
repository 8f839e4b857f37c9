import Telemetry.Proofs.Json.Acceptance
import Telemetry.Proofs.Json.Report

/-!
# Reading what is left of a value

The reader finds its way through the tokens that are left of a value: where a separator is erased,
the token behind it tells it to go on, and a broken scalar passes for a value.  So it misses exactly
the separators that were erased, and reads as far as the value went.
-/

namespace Telemetry.Json

open Grammar

/-! ### Neighbouring lexemes -/

/-- What the lexemes of a value keep to: no scalar follows a scalar and no separator a separator,
and no separator stands at either end. -/
structure Enclosed (ls : List Lexeme) : Prop where
  chain : ls.IsChain Lexeme.Apart
  notNil : ls ≠ []
  first : ∀ l ∈ ls.head?, l.isSeparator = false
  last : ∀ l ∈ ls.getLast?, l.isSeparator = false

namespace Enclosed

variable {ls rest : List Lexeme}

theorem single {l : Lexeme} (h : l.isSeparator = false) : Enclosed [l] where
  chain := .singleton l
  notNil := List.cons_ne_nil l []
  first := by simpa using h
  last := by simpa using h

/-- Behind a value anything may stand that begins with no scalar. -/
theorem append (h : Enclosed ls) (chain : rest.IsChain Lexeme.Apart)
    (noScalar : ∀ l ∈ rest.head?, l.isScalar = false) : (ls ++ rest).IsChain Lexeme.Apart := by
  refine List.isChain_append.2 ⟨h.chain, chain, fun a ha b hb => ⟨?_, ?_⟩⟩
  · rw [noScalar b hb, Bool.and_false]
  · rw [h.last a ha, Bool.false_and]

/-- A colon may stand before a value and what is behind it. -/
theorem cons_colon (h : Enclosed ls) (chain : (ls ++ rest).IsChain Lexeme.Apart) :
    (Lexeme.mark .colon :: (ls ++ rest)).IsChain Lexeme.Apart := by
  refine List.isChain_cons.2 ⟨fun l hl => ⟨rfl, ?_⟩, chain⟩
  rw [List.head?_append_of_ne_nil _ h.notNil] at hl
  exact h.first l hl

/-- A key may stand before a colon. -/
theorem cons_text {key : String} (chain : (Lexeme.mark .colon :: rest).IsChain Lexeme.Apart) :
    (Lexeme.text key :: .mark .colon :: rest).IsChain Lexeme.Apart :=
  List.isChain_cons_cons.2 ⟨⟨rfl, rfl⟩, chain⟩

/-- A comma may stand behind a value, and before what begins with no separator. -/
theorem append_comma (h : Enclosed ls) (chain : rest.IsChain Lexeme.Apart)
    (first : ∀ l ∈ rest.head?, l.isSeparator = false) :
    (ls ++ .mark .comma :: rest).IsChain Lexeme.Apart := by
  refine h.append (List.isChain_cons.2 ⟨fun l hl => ⟨rfl, first l hl⟩, chain⟩) fun l hl => ?_
  cases hl
  rfl

theorem append_trailing {trailing : List Lexeme} (h : Enclosed ls)
    (isTrailing : Trailing trailing) : (ls ++ trailing).IsChain Lexeme.Apart := by
  cases isTrailing with
  | none =>
    rw [List.append_nil]
    exact h.chain
  | comma => exact h.append_comma .nil (by simp)

/-- The marks of a container may stand around what begins with no separator. -/
theorem container {opening closing : Mark} (chain : ls.IsChain Lexeme.Apart)
    (neither : (Lexeme.mark opening).isSeparator = false ∧
      (Lexeme.mark closing).isSeparator = false) :
    Enclosed (.mark opening :: (ls ++ [.mark closing])) where
  chain := by
    refine List.isChain_cons.2 ⟨fun l _ => ⟨rfl, ?_⟩, ?_⟩
    · rw [neither.1, Bool.false_and]
    · refine List.isChain_append.2 ⟨chain, .singleton _, fun a _ b hb => ⟨?_, ?_⟩⟩
      · cases hb
        rw [Lexeme.isScalar, Bool.and_false]
      · cases hb
        rw [neither.2, Bool.and_false]
  notNil := List.cons_ne_nil _ _
  first := by simpa using neither.1
  last := by
    rw [← List.cons_append, List.getLast?_append_cons]
    simpa using neither.2

end Enclosed

mutual

theorem enclosed_of_isValue {depth : Nat} {ls : List Lexeme} {v : Value} :
    IsValue depth ls v → Enclosed ls
  | .null | .bool | .number | .text => .single rfl
  | .object _ areMembers _ _ _ => .container (chain_of_areMembers areMembers).1 ⟨rfl, rfl⟩
  | .list _ areItems => .container (chain_of_areItems areItems).1 ⟨rfl, rfl⟩

theorem chain_of_areMembers {depth : Nat} {ls : List Lexeme} {members : Members} :
    AreMembers depth ls members →
      ls.IsChain Lexeme.Apart ∧ ∀ l ∈ ls.head?, l.isSeparator = false
  | .none => ⟨.nil, by simp⟩
  | .one isValue isTrailing => by
    have enclosed := enclosed_of_isValue isValue
    have behind := enclosed.append_trailing isTrailing
    exact ⟨Enclosed.cons_text (enclosed.cons_colon behind), by simp [Lexeme.isSeparator]⟩
  | .more isValue areOthers _ => by
    have enclosed := enclosed_of_isValue isValue
    obtain ⟨chain, first⟩ := chain_of_areMembers areOthers
    have behind := enclosed.append_comma chain first
    exact ⟨Enclosed.cons_text (enclosed.cons_colon behind), by simp [Lexeme.isSeparator]⟩

theorem chain_of_areItems {depth : Nat} {ls : List Lexeme} {items : List Value} :
    AreItems depth ls items →
      ls.IsChain Lexeme.Apart ∧ ∀ l ∈ ls.head?, l.isSeparator = false
  | .none => ⟨.nil, by simp⟩
  | .one isValue isTrailing => by
    have enclosed := enclosed_of_isValue isValue
    rw [List.head?_append_of_ne_nil _ enclosed.notNil]
    exact ⟨enclosed.append_trailing isTrailing, enclosed.first⟩
  | .more isValue areOthers _ => by
    have enclosed := enclosed_of_isValue isValue
    obtain ⟨chain, first⟩ := chain_of_areItems areOthers
    rw [List.head?_append_of_ne_nil _ enclosed.notNil]
    exact ⟨enclosed.append_comma chain first, enclosed.first⟩

end

/-! ### What is left of a slot -/

namespace Suffers

variable {next : Option Lexeme} {fate : Fate}

/-- Only separators are erased. -/
theorem ne_erased {l : Lexeme} (h : Suffers (some l) next fate) (no : l.isSeparator = false) :
    fate ≠ .erased := by
  rintro rfl
  cases h <;> cases no

/-- Nothing happens to the marks of a container. -/
theorem kept_of_mark {m : Mark} (h : Suffers (some (.mark m)) next fate)
    (no : (Lexeme.mark m).isSeparator = false) : fate = .kept := by
  cases h with
  | kept => rfl
  | comma => cases no
  | colon => cases no
  | scalar isScalar => cases isScalar

/-- Nothing happens to a key. -/
theorem kept_of_key {l : Lexeme} (h : Suffers (some l) (some (.mark .colon)) fate)
    (no : l.isSeparator = false) : fate = .kept := by
  cases h with
  | kept => rfl
  | comma => cases no
  | colon => cases no
  | scalar _ noKey => exact absurd rfl noKey

/-- Nothing happens to a comma before a closing mark. -/
theorem kept_of_closing {container : Container}
    (h : Suffers (some (.mark .comma)) (some (.mark container.closing)) fate) : fate = .kept := by
  cases h with
  | kept => rfl
  | comma noBrace noBracket =>
    cases container with
    | braces => exact absurd rfl noBrace
    | brackets => exact absurd rfl noBracket
  | scalar isScalar => cases isScalar

/-- A mark is kept or erased. -/
theorem kept_or_erased {m : Mark} (h : Suffers (some (.mark m)) next fate) :
    fate = .kept ∨ fate = .erased := by
  cases h with
  | kept => exact .inl rfl
  | comma => exact .inr rfl
  | colon => exact .inr rfl
  | scalar isScalar => cases isScalar

end Suffers

namespace Slot

theorem tokens_of_kept {s : Slot} (h : s.fate = .kept) : s.tokens = [⟨s.lexeme, s.place⟩] := by
  rw [tokens, h]

theorem tokens_of_erased {s : Slot} (h : s.fate = .erased) : s.tokens = [] := by
  rw [tokens, h]

end Slot

namespace Fit

theorem append {front back : List Slot} (h : Fit (front ++ back)) : Fit front ∧ Fit back := by
  obtain ⟨frontEach, backEach⟩ := List.forall_mem_append.1 h.each
  obtain ⟨frontChain, backChain, -⟩ := List.isChain_append.1 h.chain
  exact ⟨⟨frontEach, frontChain⟩, ⟨backEach, backChain⟩⟩

theorem of_cons {s : Slot} {rest : List Slot} (h : Fit (s :: rest)) : Fit rest :=
  ⟨(List.forall_mem_cons.1 h.each).2, h.chain.of_cons⟩

/-- The last slot of a value is not erased. -/
theorem last {slots : List Slot} (h : Fit slots) (enclosed : Enclosed (slots.map Slot.lexeme)) :
    ∀ s ∈ slots.getLast?, s.fate ≠ .erased := by
  intro s isLast
  obtain ⟨next, suffers⟩ := h.each s (List.mem_of_getLast? isLast)
  refine suffers.ne_erased (enclosed.last s.lexeme ?_)
  rw [List.getLast?_map, Option.mem_def.1 isLast]
  rfl

end Fit

/-- Whether what is left of some slots begins with a token of the first, and an entry with that
token. -/
def Starts (container : Container) (slots : List Slot) : Prop :=
  ∃ s more t, slots = s :: more ∧ s.tokens = [t] ∧ t.place = s.place ∧
    container.startsEntry t = true

theorem Starts.append {container : Container} {slots : List Slot} (h : Starts container slots)
    (back : List Slot) : Starts container (slots ++ back) := by
  obtain ⟨s, more, t, rfl, found⟩ := h
  exact ⟨s, more ++ back, t, rfl, found⟩

theorem starts_of_isValue {depth : Nat} {slots : List Slot} {v : Value}
    (h : IsValue depth (slots.map Slot.lexeme) v) (fit : Fit slots) : Starts .brackets slots := by
  cases slots with
  | nil => cases h
  | cons s more =>
    obtain ⟨next, suffers⟩ := fit.each s List.mem_cons_self
    refine ⟨s, more, ?_⟩
    rw [List.map_cons] at h
    rw [Slot.tokens]
    generalize s.fate = fate at suffers
    generalize s.lexeme = lexeme at h suffers
    generalize more.map Slot.lexeme = others at h
    cases suffers with
    | kept =>
      refine ⟨_, rfl, rfl, rfl, ?_⟩
      cases h <;> rfl
    | comma => cases h
    | colon => cases h
    | scalar => exact ⟨_, rfl, rfl, rfl, rfl⟩

theorem isMark_of_startsValue {t : Token} (h : t.startsValue = true) {m : Mark}
    (no : m ≠ .openBrace ∧ m ≠ .openBracket) : t.isMark m = false := by
  rw [Bool.eq_false_iff]
  intro isMark
  rw [Token.startsValue, isMark_iff.1 isMark] at h
  simp [no.1, no.2] at h

theorem isMark_of_startsEntry {container : Container} {t : Token}
    (h : container.startsEntry t = true) {m : Mark} (no : m ≠ .openBrace ∧ m ≠ .openBracket) :
    t.isMark m = false := by
  cases container with
  | brackets => exact isMark_of_startsValue h no
  | braces =>
    rw [Bool.eq_false_iff]
    intro isMark
    rw [Container.startsEntry, Token.isText, isMark_iff.1 isMark] at h
    cases h

/-! ### Behind an entry -/

/-- Behind an entry that is not the last the reader goes on, and misses the comma if it is
erased. -/
theorem afterEntry_of_comma {container : Container} {comma : Slot} {behind : List Slot}
    (isComma : comma.lexeme = .mark .comma) (fit : Fit (comma :: behind))
    (starts : Starts container behind) (stop : Place) (rest : List Token) :
    ∃ missed, afterEntry stop container ((comma :: behind).flatMap Slot.tokens ++ rest)
        = ⟨true, missed, behind.flatMap Slot.tokens ++ rest⟩ ∧
      ∀ entry : List Slot, (∀ s ∈ entry.getLast?, s.fate ≠ .erased) →
        missing none (entry ++ comma :: behind)
          = missing none entry ++ (missed ++ missing none behind) := by
  obtain ⟨s, more, t, rfl, isToken, isPlace, startsEntry⟩ := starts
  obtain ⟨next, suffers⟩ := fit.each comma List.mem_cons_self
  rw [isComma] at suffers
  refine ⟨s.missed (some comma), ?_, fun entry last => ?_⟩
  · have noClose : t.isMark container.closing = false :=
      isMark_of_startsEntry startsEntry (by cases container <;> decide)
    rw [List.flatMap_cons, List.flatMap_cons, isToken, List.append_assoc, List.append_assoc,
      List.singleton_append]
    generalize more.flatMap Slot.tokens ++ rest = rest
    rcases suffers.kept_or_erased with kept | erased
    · have between : Between container (⟨comma.lexeme, comma.place⟩ :: t :: rest) true
          (t :: rest) := .comma isComma noClose
      rw [Slot.tokens_of_kept kept, List.singleton_append, afterEntry_of_between between,
        Slot.missed_of_kept kept]
    · have noComma : t.isMark .comma = false := isMark_of_startsEntry startsEntry (by decide)
      rw [Slot.tokens_of_erased erased, List.nil_append, afterEntry, noComma, noClose,
        Bool.or_false, if_neg Bool.false_ne_true, if_pos startsEntry, Slot.missed,
        Option.bind_some, Slot.lost, erased, isComma, isPlace]
      rfl
  · rw [missing_append, Option.or_none, missing, Slot.missed_of_ne_erased last]
    rfl

theorem map_lexeme_tokens {slots : List Slot} (h : ∀ s ∈ slots, s.fate = .kept) :
    lexemes (slots.flatMap Slot.tokens) = slots.map Slot.lexeme := by
  induction slots with
  | nil => rfl
  | cons s rest ih =>
    obtain ⟨kept, others⟩ := List.forall_mem_cons.1 h
    rw [List.flatMap_cons, Slot.tokens_of_kept kept, List.singleton_append, lexemes, List.map_cons,
      List.map_cons, ← ih others]
    rfl

/-- Nothing happens behind the last entry. -/
theorem kept_of_trailing {container : Container} {trailing : List Slot} {close : Slot}
    (h : Trailing (trailing.map Slot.lexeme)) (isClose : close.lexeme = .mark container.closing)
    (fit : Fit (trailing ++ [close])) : ∀ s ∈ trailing ++ [close], s.fate = .kept := by
  have closeKept : close.fate = .kept := by
    obtain ⟨next, suffers⟩ := fit.each close (by simp)
    rw [isClose] at suffers
    exact suffers.kept_of_mark (by cases container <;> decide)
  generalize isLexemes : trailing.map Slot.lexeme = ls at h
  cases h with
  | none =>
    obtain rfl := List.map_eq_nil_iff.1 isLexemes
    simpa using closeKept
  | comma =>
    obtain ⟨comma, rfl, isComma⟩ := List.map_eq_singleton_iff.1 isLexemes
    have suffers := (List.isChain_cons_cons.1 fit.chain).1
    rw [isComma, isClose] at suffers
    simpa using ⟨suffers.kept_of_closing, closeKept⟩

/-- Behind the last entry the reader ends the container, and misses nothing. -/
theorem afterEntry_of_closing {container : Container} {trailing : List Slot} {close : Slot}
    (h : Trailing (trailing.map Slot.lexeme)) (isClose : close.lexeme = .mark container.closing)
    (fit : Fit (trailing ++ [close])) (stop : Place) (rest : List Token) :
    afterEntry stop container ((trailing ++ [close]).flatMap Slot.tokens ++ rest)
      = ⟨false, [], rest⟩ := by
  have kept := kept_of_trailing h isClose fit
  obtain ⟨keptTrailing, keptClose⟩ := List.forall_mem_append.1 kept
  rw [← map_lexeme_tokens keptTrailing] at h
  have between : Between container
      (trailing.flatMap Slot.tokens ++ ⟨close.lexeme, close.place⟩ :: rest) false rest :=
    between_of_trailing container h isClose rest
  have last := Slot.tokens_of_kept (keptClose close List.mem_cons_self)
  rw [List.flatMap_append, List.flatMap_singleton, last, List.append_assoc, List.singleton_append]
  exact afterEntry_of_between between stop

/-! ### What is missed in a container -/

theorem missing_of_kept {before : Option Slot} {slots : List Slot}
    (first : ∀ b ∈ before, b.fate ≠ .erased) (h : ∀ s ∈ slots, s.fate = .kept) :
    missing before slots = [] := by
  induction slots generalizing before with
  | nil => rfl
  | cons s rest ih =>
    obtain ⟨kept, others⟩ := List.forall_mem_cons.1 h
    rw [missing, Slot.missed_of_ne_erased first, List.nil_append]
    refine ih (fun b hb => ?_) others
    cases hb
    rw [kept]
    exact Fate.noConfusion

/-- Behind the last entry nothing is missed. -/
theorem missing_append_closing {container : Container} {entry trailing : List Slot} {close : Slot}
    (last : ∀ s ∈ entry.getLast?, s.fate ≠ .erased) (h : Trailing (trailing.map Slot.lexeme))
    (isClose : close.lexeme = .mark container.closing) (fit : Fit (trailing ++ [close])) :
    missing none (entry ++ (trailing ++ [close])) = missing none entry := by
  rw [missing_append, Option.or_none, missing_of_kept last (kept_of_trailing h isClose fit),
    List.append_nil]

/-- The key of a member is kept. -/
theorem kept_of_member {t colon : Slot} {slots : List Slot} {key : String}
    (isText : t.lexeme = .text key) (isColon : colon.lexeme = .mark .colon)
    (fit : Fit (t :: colon :: slots)) : t.fate = .kept := by
  have suffers := (List.isChain_cons_cons.1 fit.chain).1
  rw [isText, isColon] at suffers
  exact suffers.kept_of_key rfl

/-- What is left of a member begins with its key. -/
theorem tokens_of_member {t colon : Slot} {slots : List Slot} {key : String}
    (isText : t.lexeme = .text key) (isColon : colon.lexeme = .mark .colon)
    (fit : Fit (t :: colon :: slots)) : (t :: colon :: slots).flatMap Slot.tokens
      = ⟨.text key, t.place⟩ :: (colon.tokens ++ slots.flatMap Slot.tokens) := by
  rw [List.flatMap_cons, List.flatMap_cons,
    Slot.tokens_of_kept (kept_of_member isText isColon fit), isText]
  rfl

/-- The last slot of a member is that of its value. -/
theorem last_of_member {depth : Nat} {t colon : Slot} {slots : List Slot} {v : Value}
    (h : IsValue depth (slots.map Slot.lexeme) v) (fit : Fit (t :: colon :: slots)) :
    ∀ s ∈ (t :: colon :: slots).getLast?, s.fate ≠ .erased := by
  have inner := fit.of_cons.of_cons
  obtain ⟨s, more, _, rfl, -⟩ := starts_of_isValue h inner
  rw [List.getLast?_cons_cons, List.getLast?_cons_cons]
  exact inner.last (enclosed_of_isValue h)

theorem starts_of_areMembers {depth : Nat} {slots : List Slot} {members : Members}
    (h : AreMembers depth (slots.map Slot.lexeme) members) (notNil : members ≠ [])
    (fit : Fit slots) : Starts .braces slots := by
  have first : ∀ {key : String} {others : List Lexeme},
      slots.map Slot.lexeme = .text key :: .mark .colon :: others → Starts .braces slots := by
    intro key others isLexemes
    obtain ⟨s, _, rfl, isText, isMore⟩ := List.map_eq_cons_iff.1 isLexemes
    obtain ⟨colon, more, rfl, isColon, -⟩ := List.map_eq_cons_iff.1 isMore
    have isToken := Slot.tokens_of_kept (kept_of_member isText isColon fit)
    refine ⟨s, colon :: more, _, rfl, isToken, rfl, ?_⟩
    rw [isText]
    rfl
  generalize isLexemes : slots.map Slot.lexeme = ls at h
  cases h with
  | none => exact absurd rfl notNil
  | one => exact first isLexemes
  | more => exact first isLexemes

theorem starts_of_areItems {depth : Nat} {slots : List Slot} {items : List Value}
    (h : AreItems depth (slots.map Slot.lexeme) items) (notNil : items ≠ []) (fit : Fit slots) :
    Starts .brackets slots := by
  generalize isLexemes : slots.map Slot.lexeme = ls at h
  cases h with
  | none => exact absurd rfl notNil
  | one isValue | more isValue =>
    obtain ⟨front, back, rfl, rfl, -⟩ := List.map_eq_append_iff.1 isLexemes
    exact (starts_of_isValue isValue fit.append.1).append back

/-! ### The reader -/

/-- What the reader keeps to with `fuel` where tokens are left of something of the grammar: it reads
as far as that went, and misses what was erased.  The bounds count the tokens that are left, since
`readDocument` does. -/
structure Recovers (stop : Place) (fuel : Nat) : Prop where
  value : ∀ {depth slots v}, IsValue depth (slots.map Slot.lexeme) v → Fit slots →
    2 * (slots.flatMap Slot.tokens).length ≤ fuel → ∀ rest, ∃ w,
      readValue stop fuel depth (slots.flatMap Slot.tokens ++ rest)
        = some ⟨w, missing none slots, rest⟩
  members : ∀ {depth slots written found close}, AreMembers depth (slots.map Slot.lexeme) written →
    close.lexeme = .mark .closeBrace → Fit (slots ++ [close]) → written.keys.Nodup →
    (∀ key ∈ written.keys, key ∉ found.keys) →
    2 * (slots.flatMap Slot.tokens).length + 1 ≤ fuel → ∀ rest, ∃ members,
      readMembers stop fuel depth found ((slots ++ [close]).flatMap Slot.tokens ++ rest)
        = some ⟨members, missing none (slots ++ [close]), rest⟩
  member : ∀ {depth key t colon slots v found}, IsValue depth (slots.map Slot.lexeme) v →
    t.lexeme = .text key → colon.lexeme = .mark .colon → Fit (t :: colon :: slots) →
    key ∉ found.keys → 2 * (slots.flatMap Slot.tokens).length + 1 ≤ fuel → ∀ rest, ∃ members,
      (∀ k ∈ members.keys, k = key ∨ k ∈ found.keys) ∧
      readMember stop fuel depth found ((t :: colon :: slots).flatMap Slot.tokens ++ rest)
        = some ⟨members, missing none (t :: colon :: slots), rest⟩
  items : ∀ {depth slots items close}, AreItems depth (slots.map Slot.lexeme) items →
    close.lexeme = .mark .closeBracket → Fit (slots ++ [close]) →
    2 * (slots.flatMap Slot.tokens).length + 1 ≤ fuel → ∀ rest, ∃ values,
      readItems stop fuel depth ((slots ++ [close]).flatMap Slot.tokens ++ rest)
        = some ⟨values, missing none (slots ++ [close]), rest⟩

namespace Recovers

variable {stop : Place} {fuel : Nat}

theorem zero (stop : Place) : Recovers stop 0 where
  value h fit bound := by
    obtain ⟨s, more, t, rfl, isToken, -⟩ := starts_of_isValue h fit
    rw [List.flatMap_cons, isToken, List.singleton_append, List.length_cons] at bound
    omega
  members _ _ _ _ _ bound := by omega
  member _ _ _ _ _ bound := by omega
  items _ _ _ bound := by omega

/-- A scalar is read as one token, broken or not. -/
theorem readValue_scalar {s : Slot} {next : Option Lexeme} (isScalar : s.lexeme.isScalar = true)
    (suffers : Suffers (some s.lexeme) next s.fate) (depth : Nat) (rest : List Token) :
    ∃ w, readValue stop (fuel + 1) depth ([s].flatMap Slot.tokens ++ rest)
      = some ⟨w, missing none [s], rest⟩ := by
  have broken : ∀ t : Token, t.lexeme = .broken →
      readValue stop (fuel + 1) depth (t :: rest) = some ⟨.null, [], rest⟩ := by
    intro t isBroken
    simp only [readValue, isBroken]
  have scalar : ∀ t : Token, t.lexeme.isScalar = true →
      ∃ w, readValue stop (fuel + 1) depth (t :: rest) = some ⟨w, [], rest⟩ := by
    intro t isScalar
    cases isLexeme : t.lexeme with
    | mark | broken =>
      rw [isLexeme] at isScalar
      cases isScalar
    | text | number | bool | null =>
      simp only [readValue, isLexeme, Option.some.injEq, Reading.mk.injEq, and_true,
        exists_eq']
  obtain ⟨lexeme, fate, place⟩ := s
  dsimp only at isScalar suffers
  cases suffers with
  | comma | colon => cases isScalar
  | scalar => exact ⟨.null, broken ⟨.broken, place⟩ rfl⟩
  | kept => exact scalar ⟨lexeme, place⟩ isScalar

theorem value_succ (ih : Recovers stop fuel) {depth : Nat} {slots : List Slot} {v : Value}
    (h : IsValue depth (slots.map Slot.lexeme) v) (fit : Fit slots)
    (bound : 2 * (slots.flatMap Slot.tokens).length ≤ fuel + 1) (rest : List Token) :
    ∃ w, readValue stop (fuel + 1) depth (slots.flatMap Slot.tokens ++ rest)
      = some ⟨w, missing none slots, rest⟩ := by
  have scalar : ∀ {l : Lexeme}, l.isScalar = true → slots.map Slot.lexeme = [l] →
      ∃ w, readValue stop (fuel + 1) depth (slots.flatMap Slot.tokens ++ rest)
        = some ⟨w, missing none slots, rest⟩ := by
    intro l isScalar single
    obtain ⟨s, rfl, rfl⟩ := List.map_eq_singleton_iff.1 single
    obtain ⟨next, suffers⟩ := fit.each s List.mem_cons_self
    exact readValue_scalar isScalar suffers depth rest
  have opening : ∀ {s : Slot} {m : Mark} {inner : List Slot}, slots = s :: inner →
      s.lexeme = .mark m → (Lexeme.mark m).isSeparator = false →
      s.tokens = [⟨.mark m, s.place⟩] ∧ missing none slots = missing none inner := by
    rintro s m inner rfl isMark noSeparator
    obtain ⟨next, suffers⟩ := fit.each s List.mem_cons_self
    rw [isMark] at suffers
    have kept := suffers.kept_of_mark noSeparator
    exact ⟨by rw [Slot.tokens_of_kept kept, isMark], missing_cons_of_kept kept inner⟩
  generalize isLexemes : slots.map Slot.lexeme = ls at h
  cases h with
  | null | bool | number | text => exact scalar rfl isLexemes
  | @object _ _ written members shallow areMembers distinct perm ordered =>
    obtain ⟨s, _, rfl, isOpen, isInner⟩ := List.map_eq_cons_iff.1 isLexemes
    obtain ⟨inner, _, rfl, rfl, isLast⟩ := List.map_eq_append_iff.1 isInner
    obtain ⟨close, rfl, isClose⟩ := List.map_eq_singleton_iff.1 isLast
    obtain ⟨isToken, isMissing⟩ := opening rfl isOpen rfl
    rw [List.flatMap_cons, List.flatMap_append, isToken, List.length_append, List.length_append,
      List.length_singleton] at bound
    have new : ∀ key ∈ written.keys, key ∉ Members.keys [] := fun _ _ => List.not_mem_nil
    obtain ⟨found, read⟩ := ih.members areMembers isClose fit.of_cons distinct new (by omega) rest
    refine ⟨.object found, ?_⟩
    rw [isMissing, List.flatMap_cons, isToken, List.append_assoc, List.singleton_append]
    simp only [readValue, if_neg (Nat.not_le.2 shallow), read, Option.map_some, Reading.map]
  | list shallow areItems =>
    obtain ⟨s, _, rfl, isOpen, isInner⟩ := List.map_eq_cons_iff.1 isLexemes
    obtain ⟨inner, _, rfl, rfl, isLast⟩ := List.map_eq_append_iff.1 isInner
    obtain ⟨close, rfl, isClose⟩ := List.map_eq_singleton_iff.1 isLast
    obtain ⟨isToken, isMissing⟩ := opening rfl isOpen rfl
    rw [List.flatMap_cons, List.flatMap_append, isToken, List.length_append, List.length_append,
      List.length_singleton] at bound
    obtain ⟨values, read⟩ := ih.items areItems isClose fit.of_cons (by omega) rest
    refine ⟨.list values, ?_⟩
    rw [isMissing, List.flatMap_cons, isToken, List.append_assoc, List.singleton_append]
    simp only [readValue, if_neg (Nat.not_le.2 shallow), read, Option.map_some, Reading.map]

theorem member_succ (ih : Recovers stop fuel) {depth : Nat} {key : String} {t colon : Slot}
    {slots : List Slot} {v : Value} {found : Members}
    (h : IsValue depth (slots.map Slot.lexeme) v) (isText : t.lexeme = .text key)
    (isColon : colon.lexeme = .mark .colon) (fit : Fit (t :: colon :: slots))
    (new : key ∉ found.keys) (bound : 2 * (slots.flatMap Slot.tokens).length + 1 ≤ fuel + 1)
    (rest : List Token) :
    ∃ members : Members, (∀ k ∈ members.keys, k = key ∨ k ∈ found.keys) ∧
      readMember stop (fuel + 1) depth found ((t :: colon :: slots).flatMap Slot.tokens ++ rest)
        = some ⟨members, missing none (t :: colon :: slots), rest⟩ := by
  have isTokens := tokens_of_member isText isColon fit
  obtain ⟨w, read⟩ := ih.value h fit.of_cons.of_cons (by omega) rest
  obtain ⟨s, more, u, rfl, isToken, isPlace, starts⟩ :=
    starts_of_isValue h fit.of_cons.of_cons
  have isMissing : missing none (t :: colon :: s :: more)
      = s.missed (some colon) ++ missing none (s :: more) := by
    rw [missing_cons_of_kept (kept_of_member isText isColon fit)]
    rfl
  obtain ⟨next, suffers⟩ := fit.of_cons.each colon List.mem_cons_self
  rw [isColon] at suffers
  rw [isMissing, isTokens, List.cons_append, List.append_assoc]
  generalize missing none (s :: more) = defects at read
  rcases suffers.kept_or_erased with kept | erased
  · refine ⟨found.insert key w, fun k hk => ?_, ?_⟩
    · have added := ((Members.insert_perm new w).map Prod.fst).mem_iff.1 hk
      exact List.mem_cons.1 added
    · have isColonToken : colon.tokens = [⟨.mark .colon, colon.place⟩] := by
        rw [Slot.tokens_of_kept kept, isColon]
      rw [isColonToken, List.singleton_append, Slot.missed_of_kept kept, List.nil_append]
      have colonNext : ∀ tokens, nextIs .colon (⟨.mark .colon, colon.place⟩ :: tokens) = true :=
        fun _ => rfl
      simp only [readMember, colonNext, if_true, List.drop_succ_cons, List.drop_zero, read,
        Members.has_eq_false_iff.2 new, Bool.false_eq_true, if_false, Option.bind_eq_bind,
        Option.bind_some, Option.pure_def]
  · refine ⟨found, fun k hk => .inr hk, ?_⟩
    have startsValue : u.startsValue = true := starts
    have noColon : u.isMark .colon = false := isMark_of_startsValue starts (by decide)
    have isMissed : s.missed (some colon) = [⟨u.place, .colonExpected⟩] := by
      rw [Slot.missed, Option.bind_some, Slot.lost, erased, isColon, isPlace]
      rfl
    rw [Slot.tokens_of_erased erased, List.nil_append, isMissed]
    rw [List.flatMap_cons, isToken, List.append_assoc, List.singleton_append] at read ⊢
    simp only [readMember, nextIs, noColon, Bool.false_eq_true, if_false, List.head?_cons,
      Option.map_some, Option.getD_some, startsValue, if_true, read, Option.bind_eq_bind,
      Option.bind_some, Option.pure_def, nextPlace, List.singleton_append]

theorem members_succ (ih : Recovers stop fuel) {depth : Nat} {slots : List Slot}
    {written found : Members} {close : Slot} (h : AreMembers depth (slots.map Slot.lexeme) written)
    (isClose : close.lexeme = .mark .closeBrace) (fit : Fit (slots ++ [close]))
    (distinct : written.keys.Nodup) (new : ∀ key ∈ written.keys, key ∉ found.keys)
    (bound : 2 * (slots.flatMap Slot.tokens).length + 1 ≤ fuel + 1) (rest : List Token) :
    ∃ members, readMembers stop (fuel + 1) depth found
        ((slots ++ [close]).flatMap Slot.tokens ++ rest)
      = some ⟨members, missing none (slots ++ [close]), rest⟩ := by
  generalize isLexemes : slots.map Slot.lexeme = ls at h
  cases h with
  | none =>
    obtain rfl := List.map_eq_nil_iff.1 isLexemes
    obtain ⟨next, suffers⟩ := fit.each close List.mem_cons_self
    rw [isClose] at suffers
    have kept := suffers.kept_of_mark rfl
    refine ⟨found, ?_⟩
    rw [List.nil_append, List.flatMap_singleton, Slot.tokens_of_kept kept, isClose,
      missing_cons_of_kept kept, List.singleton_append]
    simp only [readMembers]
    rfl
  | @one _ key _ trailing value isValue isTrailing =>
    obtain ⟨t, _, rfl, isText, isMore⟩ := List.map_eq_cons_iff.1 isLexemes
    obtain ⟨colon, _, rfl, isColon, isInner⟩ := List.map_eq_cons_iff.1 isMore
    obtain ⟨inner, behind, rfl, rfl, rfl⟩ := List.map_eq_append_iff.1 isInner
    have shape : (t :: colon :: (inner ++ behind)) ++ [close]
        = (t :: colon :: inner) ++ (behind ++ [close]) := by simp
    rw [shape] at fit ⊢
    obtain ⟨entryFit, closingFit⟩ := fit.append
    have isClosing : close.lexeme = .mark Container.braces.closing := isClose
    have next := afterEntry_of_closing isTrailing isClosing closingFit stop rest
    have isTokens := tokens_of_member isText isColon entryFit
    rw [missing_append_closing (last_of_member isValue entryFit) isTrailing isClosing closingFit]
    have shorter : 2 * (inner.flatMap Slot.tokens).length + 1 ≤ fuel := by
      rw [← List.cons_append, ← List.cons_append, List.flatMap_append, isTokens] at bound
      simp only [List.length_append, List.length_cons] at bound
      omega
    obtain ⟨members, -, read⟩ := ih.member isValue isText isColon entryFit
      (new key List.mem_cons_self) shorter ((behind ++ [close]).flatMap Slot.tokens ++ rest)
    refine ⟨members, ?_⟩
    have noClose : Token.isMark ⟨.text key, t.place⟩ .closeBrace = false := rfl
    rw [List.flatMap_append, List.append_assoc]
    rw [isTokens, List.cons_append] at read ⊢
    simp only [readMembers, noClose, Bool.false_eq_true, if_false, read, Option.bind_eq_bind,
      Option.bind_some, next, Option.pure_def, List.append_nil]
  | @more _ key _ _ value others isValue areOthers notNil =>
    obtain ⟨t, _, rfl, isText, isMore⟩ := List.map_eq_cons_iff.1 isLexemes
    obtain ⟨colon, _, rfl, isColon, isInner⟩ := List.map_eq_cons_iff.1 isMore
    obtain ⟨inner, _, rfl, rfl, isBehind⟩ := List.map_eq_append_iff.1 isInner
    obtain ⟨comma, behind, rfl, isComma, rfl⟩ := List.map_eq_cons_iff.1 isBehind
    have shape : (t :: colon :: (inner ++ comma :: behind)) ++ [close]
        = (t :: colon :: inner) ++ comma :: (behind ++ [close]) := by simp
    rw [shape] at fit ⊢
    obtain ⟨entryFit, behindFit⟩ := fit.append
    have isTokens := tokens_of_member isText isColon entryFit
    have bounds : 2 * (inner.flatMap Slot.tokens).length + 1 ≤ fuel ∧
        2 * (behind.flatMap Slot.tokens).length + 1 ≤ fuel := by
      rw [← List.cons_append, ← List.cons_append, List.flatMap_append, isTokens,
        List.flatMap_cons] at bound
      simp only [List.length_append, List.length_cons] at bound
      omega
    obtain ⟨members, added, read⟩ := ih.member isValue isText isColon entryFit
      (new key List.mem_cons_self) bounds.1
      ((comma :: (behind ++ [close])).flatMap Slot.tokens ++ rest)
    -- A member without its colon is dropped, so its key may be missing, but no other key is new.
    have newOthers : ∀ k ∈ Members.keys others, k ∉ members.keys := by
      intro k hk there
      rcases added k there with rfl | before
      · exact (List.nodup_cons.1 distinct).1 hk
      · exact new k (List.mem_cons_of_mem _ hk) before
    obtain ⟨all, readOthers⟩ := ih.members areOthers isClose behindFit.of_cons
      (List.nodup_cons.1 distinct).2 newOthers bounds.2 rest
    have starts := starts_of_areMembers areOthers notNil behindFit.of_cons.append.1
    obtain ⟨missed, next, isMissing⟩ :=
      afterEntry_of_comma isComma behindFit (starts.append [close]) stop rest
    refine ⟨all, ?_⟩
    have noClose : Token.isMark ⟨.text key, t.place⟩ .closeBrace = false := rfl
    rw [List.flatMap_append, List.append_assoc]
    rw [isTokens, List.cons_append] at read ⊢
    simp only [readMembers, noClose, Bool.false_eq_true, if_false, read, Option.bind_eq_bind,
      Option.bind_some, next, if_true, readOthers, Option.pure_def, Reading.behind]
    rw [isMissing _ (last_of_member isValue entryFit), List.append_assoc]

theorem items_succ (ih : Recovers stop fuel) {depth : Nat} {slots : List Slot}
    {items : List Value} {close : Slot} (h : AreItems depth (slots.map Slot.lexeme) items)
    (isClose : close.lexeme = .mark .closeBracket) (fit : Fit (slots ++ [close]))
    (bound : 2 * (slots.flatMap Slot.tokens).length + 1 ≤ fuel + 1) (rest : List Token) :
    ∃ values, readItems stop (fuel + 1) depth ((slots ++ [close]).flatMap Slot.tokens ++ rest)
      = some ⟨values, missing none (slots ++ [close]), rest⟩ := by
  generalize isLexemes : slots.map Slot.lexeme = ls at h
  cases h with
  | none =>
    obtain rfl := List.map_eq_nil_iff.1 isLexemes
    obtain ⟨next, suffers⟩ := fit.each close List.mem_cons_self
    rw [isClose] at suffers
    have kept := suffers.kept_of_mark rfl
    refine ⟨[], ?_⟩
    rw [List.nil_append, List.flatMap_singleton, Slot.tokens_of_kept kept, isClose,
      missing_cons_of_kept kept, List.singleton_append]
    simp only [readItems]
    rfl
  | @one _ _ trailing value isValue isTrailing =>
    obtain ⟨first, behind, rfl, rfl, rfl⟩ := List.map_eq_append_iff.1 isLexemes
    rw [List.append_assoc] at fit ⊢
    obtain ⟨entryFit, closingFit⟩ := fit.append
    have isClosing : close.lexeme = .mark Container.brackets.closing := isClose
    have next := afterEntry_of_closing isTrailing isClosing closingFit stop rest
    have last := entryFit.last (enclosed_of_isValue isValue)
    rw [List.flatMap_append, List.length_append] at bound
    obtain ⟨w, read⟩ := ih.value isValue entryFit (by omega)
      ((behind ++ [close]).flatMap Slot.tokens ++ rest)
    obtain ⟨s, more, t, rfl, isToken, -, starts⟩ := starts_of_isValue isValue entryFit
    have noClose : t.isMark .closeBracket = false := isMark_of_startsValue starts (by decide)
    refine ⟨[w], ?_⟩
    rw [missing_append_closing last isTrailing isClosing closingFit]
    generalize missing none (s :: more) = defects at read ⊢
    rw [List.flatMap_append, List.append_assoc]
    rw [List.flatMap_cons, isToken, List.append_assoc, List.singleton_append] at read ⊢
    simp only [readItems, noClose, Bool.false_eq_true, if_false, read, Option.bind_eq_bind,
      Option.bind_some, next, Option.pure_def, List.append_nil]
  | @more _ _ _ value others isValue areOthers notNil =>
    obtain ⟨first, _, rfl, rfl, isBehind⟩ := List.map_eq_append_iff.1 isLexemes
    obtain ⟨comma, behind, rfl, isComma, rfl⟩ := List.map_eq_cons_iff.1 isBehind
    rw [List.append_assoc, List.cons_append] at fit ⊢
    obtain ⟨entryFit, behindFit⟩ := fit.append
    have last := entryFit.last (enclosed_of_isValue isValue)
    rw [List.flatMap_append, List.flatMap_cons, List.length_append, List.length_append] at bound
    obtain ⟨w, read⟩ := ih.value isValue entryFit (by omega)
      ((comma :: (behind ++ [close])).flatMap Slot.tokens ++ rest)
    have starts := starts_of_areItems areOthers notNil behindFit.of_cons.append.1
    obtain ⟨missed, next, isMissing⟩ :=
      afterEntry_of_comma isComma behindFit (starts.append [close]) stop rest
    obtain ⟨s, more, t, rfl, isToken, -, startsHere⟩ := starts_of_isValue isValue entryFit
    have noClose : t.isMark .closeBracket = false := isMark_of_startsValue startsHere (by decide)
    obtain ⟨values, readOthers⟩ := ih.items areOthers isClose behindFit.of_cons
      (by rw [List.flatMap_cons, isToken, List.singleton_append, List.length_cons] at bound; omega)
      rest
    refine ⟨w :: values, ?_⟩
    rw [isMissing _ last]
    generalize missing none (s :: more) = defects at read ⊢
    rw [List.flatMap_append, List.append_assoc]
    rw [List.flatMap_cons, isToken, List.append_assoc, List.singleton_append] at read ⊢
    simp only [readItems, noClose, Bool.false_eq_true, if_false, read, Option.bind_eq_bind,
      Option.bind_some, next, Option.pure_def, if_true, readOthers, List.append_assoc]

/-- The reader keeps to it with every fuel. -/
theorem all (stop : Place) (fuel : Nat) : Recovers stop fuel := by
  induction fuel with
  | zero => exact zero stop
  | succ fuel ih => exact ⟨ih.value_succ, ih.members_succ, ih.member_succ, ih.items_succ⟩

end Recovers

end Telemetry.Json
