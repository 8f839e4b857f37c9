import Telemetry.Json.Progress
import Telemetry.Proofs.Json.Members
import Telemetry.Proofs.Json.Tokens

/-!
# The reader accepts the language

The reader goes on behind every defect, so soundness is about the readings in which none was found:
`Sound` says of each part of the reader that such a reading has used up the tokens of what it gives.
Completeness is by recursion on the grammar, with a bound on the depth of calls that `readDocument`
grants.

`spells_of_parse` and `parse_of_spells` join both with the scanner, and `parse_eq_ok_iff` says in
one that a text is accepted exactly if its characters spell a value, and that the result is that
value.
-/

namespace Telemetry.Json

open Grammar

/-- The lexemes of a list of tokens. -/
def lexemes (tokens : List Token) : List Lexeme :=
  tokens.map Token.lexeme

/-- Whether no token of a list is broken. -/
def Unbroken (tokens : List Token) : Prop :=
  ∀ t ∈ tokens, t.lexeme ≠ .broken

theorem Unbroken.of_append {used rest : List Token} (h : Unbroken (used ++ rest)) :
    Unbroken rest := fun t ht => h t (List.mem_append_right _ ht)

theorem Unbroken.of_cons {t : Token} {rest : List Token} (h : Unbroken (t :: rest)) :
    Unbroken rest := fun u hu => h u (List.mem_cons_of_mem _ hu)

theorem isMark_iff {t : Token} {m : Mark} : t.isMark m = true ↔ t.lexeme = .mark m := by
  rw [Token.isMark, beq_iff_eq]

theorem nextIs_iff {tokens : List Token} {m : Mark} :
    nextIs m tokens = true ↔ ∃ t rest, tokens = t :: rest ∧ t.lexeme = .mark m := by
  cases tokens with
  | nil =>
    constructor
    · intro h
      cases h
    · rintro ⟨t, rest, h, -⟩
      cases h
  | cons t rest =>
    rw [nextIs, isMark_iff]
    constructor
    · intro h
      exact ⟨t, rest, rfl, h⟩
    · rintro ⟨_, _, h, mark⟩
      cases h
      exact mark

/-! ### Between two entries -/

/-- What stands behind an entry where nothing is wrong: the closing mark, with or without a comma
before it, or a comma and another entry. -/
inductive Between (container : Container) : List Token → Bool → List Token → Prop
  | close {t : Token} {rest : List Token} : t.lexeme = .mark container.closing →
      Between container (t :: rest) false rest
  | trailing {c t : Token} {rest : List Token} : c.lexeme = .mark .comma →
      t.lexeme = .mark container.closing → Between container (c :: t :: rest) false rest
  | comma {c : Token} {rest : List Token} : c.lexeme = .mark .comma →
      nextIs container.closing rest = false → Between container (c :: rest) true rest

theorem closing_ne_comma (container : Container) : container.closing ≠ .comma := by
  cases container <;> decide

theorem between_of_afterEntry {stop : Place} {container : Container} {tokens : List Token}
    (h : (afterEntry stop container tokens).defects = []) :
    Between container tokens (afterEntry stop container tokens).result
      (afterEntry stop container tokens).rest := by
  cases tokens with
  | nil => cases h
  | cons t rest =>
    by_cases comma : t.lexeme = .mark .comma
    · have step : afterEntry stop container (t :: rest)
          = if nextIs container.closing rest then ⟨false, [], rest.drop 1⟩
            else ⟨true, [], rest⟩ := by
        have isComma := isMark_iff.2 comma
        simp only [afterEntry, isComma, Bool.true_or, if_true, stepOver]
      rw [step]
      split
      · rename_i next
        obtain ⟨u, more, rfl, close⟩ := nextIs_iff.1 next
        exact .trailing comma close
      · rename_i next
        exact .comma comma (Bool.eq_false_iff.2 next)
    · have noComma : t.isMark .comma = false :=
        Bool.eq_false_iff.2 fun is => comma (isMark_iff.1 is)
      by_cases close : t.lexeme = .mark container.closing
      · have step : afterEntry stop container (t :: rest) = ⟨false, [], rest⟩ := by
          simp only [afterEntry, noComma, isMark_iff.2 close, Bool.or_true, if_true, stepOver,
            Bool.false_eq_true, if_false]
        rw [step]
        exact .close close
      · have noClose : t.isMark container.closing = false :=
          Bool.eq_false_iff.2 fun is => close (isMark_iff.1 is)
        simp only [afterEntry, noComma, noClose, Bool.or_self, Bool.false_eq_true, if_false] at h
        split at h
        · cases h
        · cases h

theorem afterEntry_of_between {container : Container} {tokens rest : List Token} {more : Bool}
    (h : Between container tokens more rest) (stop : Place) :
    afterEntry stop container tokens = ⟨more, [], rest⟩ := by
  cases h with
  | @close t rest close =>
    have noComma : t.isMark .comma = false := Bool.eq_false_iff.2 fun is => by
      rw [isMark_iff, close, Lexeme.mark.injEq] at is
      exact closing_ne_comma container is
    simp only [afterEntry, noComma, isMark_iff.2 close, Bool.or_true, if_true, stepOver,
      Bool.false_eq_true, if_false]
  | @trailing c t rest comma close =>
    have next : nextIs container.closing (t :: rest) = true := nextIs_iff.2 ⟨t, rest, rfl, close⟩
    simp only [afterEntry, isMark_iff.2 comma, Bool.true_or, if_true, stepOver, next,
      List.drop_succ_cons, List.drop_zero]
  | @comma c rest comma next =>
    simp only [afterEntry, isMark_iff.2 comma, Bool.true_or, if_true, stepOver, next,
      Bool.false_eq_true, if_false]

/-! ### Soundness -/

/-- Whether a list of tokens is used up to the tokens left, with lexemes that satisfy `p`. -/
def Uses (tokens rest : List Token) (p : List Lexeme → Prop) : Prop :=
  ∃ used, tokens = used ++ rest ∧ p (lexemes used)

theorem Uses.nil {tokens : List Token} {p : List Lexeme → Prop} (h : p []) :
    Uses tokens tokens p :=
  ⟨[], rfl, h⟩

theorem Uses.cons {t : Token} {tokens rest : List Token} {lexeme : Lexeme}
    {p : List Lexeme → Prop} (isLexeme : t.lexeme = lexeme)
    (h : Uses tokens rest fun ls => p (lexeme :: ls)) : Uses (t :: tokens) rest p := by
  obtain ⟨used, rfl, holds⟩ := h
  refine ⟨t :: used, rfl, ?_⟩
  rw [← isLexeme] at holds
  exact holds

theorem Uses.append {tokens middle rest : List Token} {p q : List Lexeme → Prop}
    (h : Uses tokens middle p) (k : Uses middle rest fun ls => ∀ first, p first → q (first ++ ls)) :
    Uses tokens rest q := by
  obtain ⟨first, rfl, holds⟩ := h
  obtain ⟨used, rfl, behind⟩ := k
  refine ⟨first ++ used, (List.append_assoc _ _ _).symm, ?_⟩
  have both := behind _ holds
  rwa [lexemes, lexemes, ← List.map_append] at both

theorem Uses.imp {tokens rest : List Token} {p q : List Lexeme → Prop} (h : Uses tokens rest p)
    (implies : ∀ ls, p ls → q ls) : Uses tokens rest q := by
  obtain ⟨used, isList, holds⟩ := h
  exact ⟨used, isList, implies _ holds⟩

theorem Uses.unbroken {tokens rest : List Token} {p : List Lexeme → Prop} (h : Uses tokens rest p)
    (unbroken : Unbroken tokens) : Unbroken rest := by
  obtain ⟨used, rfl, -⟩ := h
  exact unbroken.of_append

/-- If the closing mark is not next, something is used up before it. -/
theorem Uses.ne_nil {tokens rest : List Token} {close : Token} {p : List Lexeme → Prop}
    (h : Uses tokens (close :: rest) p) (container : Container)
    (isClose : close.lexeme = .mark container.closing)
    (next : nextIs container.closing tokens = false) : ¬ ∀ ls, p ls → ls = [] := by
  obtain ⟨used, rfl, holds⟩ := h
  intro nil
  have none : used = [] := List.map_eq_nil_iff.1 (nil _ holds)
  rw [none, List.nil_append, nextIs, isMark_iff.2 isClose] at next
  cases next

/-- Behind the last entry there is the closing mark, with or without a comma before it. -/
theorem uses_of_between {container : Container} {tokens rest : List Token}
    (h : Between container tokens false rest) :
    ∃ close, close.lexeme = .mark container.closing ∧ Uses tokens (close :: rest) Trailing := by
  cases h with
  | @close t _ isClose => exact ⟨t, isClose, [], rfl, .none⟩
  | @trailing c t _ isComma isClose =>
    refine ⟨t, isClose, [c], rfl, ?_⟩
    have shape : lexemes [c] = [.mark .comma] := by
      simp only [lexemes, List.map_cons, List.map_nil, isComma]
    rw [shape]
    exact .comma

theorem eq_nil_of_areMembers {depth : Nat} {ls : List Lexeme} (h : AreMembers depth ls []) :
    ls = [] := by
  cases h
  rfl

theorem eq_nil_of_areItems {depth : Nat} {ls : List Lexeme} (h : AreItems depth ls []) :
    ls = [] := by
  cases h
  rfl

/-- What the reader keeps to with `fuel` where no token is broken and no defect is found: the tokens
that it uses up are those of what it gives. -/
structure Sound (stop : Place) (fuel : Nat) : Prop where
  value : ∀ {depth tokens r}, readValue stop fuel depth tokens = some r → r.defects = [] →
    Unbroken tokens → Uses tokens r.rest (IsValue depth · r.result)
  members : ∀ {depth found tokens r}, readMembers stop fuel depth found tokens = some r →
    r.defects = [] → Unbroken tokens → found.Ordered →
    ∃ close written, close.lexeme = .mark .closeBrace ∧
      Uses tokens (close :: r.rest) (AreMembers depth · written) ∧
      r.result.Ordered ∧ r.result.Perm (written ++ found)
  member : ∀ {depth found t rest r}, readMember stop fuel depth found (t :: rest) = some r →
    r.defects = [] → Unbroken (t :: rest) →
    ∃ key value colon more, t.lexeme = .text key ∧ rest = colon :: more ∧
      colon.lexeme = .mark .colon ∧ Uses more r.rest (IsValue depth · value) ∧
      key ∉ found.keys ∧ r.result = found.insert key value
  items : ∀ {depth tokens r}, readItems stop fuel depth tokens = some r → r.defects = [] →
    Unbroken tokens → ∃ close, close.lexeme = .mark .closeBracket ∧
      Uses tokens (close :: r.rest) (AreItems depth · r.result)

namespace Sound

variable {stop : Place} {fuel : Nat}

theorem zero (stop : Place) : Sound stop 0 where
  value h := by
    simp only [readValue] at h
    cases h
  members h := by
    simp only [readMembers] at h
    cases h
  member h := by
    simp only [readMember] at h
    cases h
  items h := by
    simp only [readItems] at h
    cases h

theorem value_succ (ih : Sound stop fuel) {depth : Nat} {tokens : List Token} {r : Reading Value}
    (h : readValue stop (fuel + 1) depth tokens = some r) (sound : r.defects = [])
    (unbroken : Unbroken tokens) : Uses tokens r.rest (IsValue depth · r.result) := by
  cases tokens with
  | nil =>
    simp only [readValue] at h
    cases h
    cases sound
  | cons t rest =>
    obtain ⟨lexeme, place⟩ := t
    cases lexeme with
    | mark m =>
      cases m with
      | openBrace =>
        simp only [readValue] at h
        split at h
        · cases h
          cases sound
        · rename_i shallow
          obtain ⟨inner, read, rfl⟩ := Option.map_eq_some_iff.1 h
          obtain ⟨close, written, isClose, uses, ordered, perm⟩ :=
            ih.members read sound unbroken.of_cons List.Pairwise.nil
          rw [List.append_nil] at perm
          have nodup := (perm.map Prod.fst).nodup_iff.1 ordered.nodup_keys
          have closed : Uses (close :: inner.rest) inner.rest fun ls => ∀ first,
              AreMembers (depth + 1) first written →
              IsValue depth (.mark .openBrace :: (first ++ ls)) (.object inner.result) :=
            .cons isClose (.nil fun _ members =>
              .object (Nat.lt_of_not_le shallow) members nodup perm ordered)
          exact .cons rfl (uses.append closed)
      | openBracket =>
        simp only [readValue] at h
        split at h
        · cases h
          cases sound
        · rename_i shallow
          obtain ⟨inner, read, rfl⟩ := Option.map_eq_some_iff.1 h
          obtain ⟨close, isClose, uses⟩ := ih.items read sound unbroken.of_cons
          have closed : Uses (close :: inner.rest) inner.rest fun ls => ∀ first,
              AreItems (depth + 1) first inner.result →
              IsValue depth (.mark .openBracket :: (first ++ ls)) (.list inner.result) :=
            .cons isClose (.nil fun _ items => .list (Nat.lt_of_not_le shallow) items)
          exact .cons rfl (uses.append closed)
      | closeBrace | closeBracket | colon | comma =>
        simp only [readValue] at h
        cases h
        cases sound
    | text s =>
      simp only [readValue] at h
      cases h
      exact ⟨[_], rfl, .text⟩
    | number n =>
      simp only [readValue] at h
      cases h
      exact ⟨[_], rfl, .number⟩
    | bool b =>
      simp only [readValue] at h
      cases h
      exact ⟨[_], rfl, .bool⟩
    | null =>
      simp only [readValue] at h
      cases h
      exact ⟨[_], rfl, .null⟩
    | broken => exact absurd rfl (unbroken _ List.mem_cons_self)

theorem member_succ (ih : Sound stop fuel) {depth : Nat} {found : Members} {t : Token}
    {rest : List Token} {r : Reading Members}
    (h : readMember stop (fuel + 1) depth found (t :: rest) = some r) (sound : r.defects = [])
    (unbroken : Unbroken (t :: rest)) :
    ∃ key value colon more, t.lexeme = .text key ∧ rest = colon :: more ∧
      colon.lexeme = .mark .colon ∧ Uses more r.rest (IsValue depth · value) ∧
      key ∉ found.keys ∧ r.result = found.insert key value := by
  simp only [readMember] at h
  split at h
  · rename_i key isText
    split at h
    · rename_i next
      obtain ⟨colon, more, rfl, isColon⟩ := nextIs_iff.1 next
      obtain ⟨value, read, h⟩ := Option.bind_eq_some_iff.1 h
      split at h
      · cases h
        exact absurd sound (List.append_ne_nil_of_right_ne_nil _ (List.cons_ne_nil _ _))
      · rename_i new
        cases h
        have uses := ih.value read sound unbroken.of_cons.of_cons
        exact ⟨key, value.result, colon, more, isText, rfl, isColon, uses,
          Members.has_eq_false_iff.1 (Bool.eq_false_iff.2 new), rfl⟩
    · split at h
      · obtain ⟨value, read, h⟩ := Option.bind_eq_some_iff.1 h
        cases h
        cases sound
      · cases h
        cases sound
  · split at h
    · obtain ⟨value, read, h⟩ := Option.bind_eq_some_iff.1 h
      cases h
      cases sound
    · cases h
      cases sound

theorem members_succ (ih : Sound stop fuel) {depth : Nat} {found : Members} {tokens : List Token}
    {r : Reading Members} (h : readMembers stop (fuel + 1) depth found tokens = some r)
    (sound : r.defects = []) (unbroken : Unbroken tokens) (ordered : found.Ordered) :
    ∃ close written, close.lexeme = .mark .closeBrace ∧
      Uses tokens (close :: r.rest) (AreMembers depth · written) ∧
      r.result.Ordered ∧ r.result.Perm (written ++ found) := by
  cases tokens with
  | nil =>
    simp only [readMembers] at h
    cases h
    cases sound
  | cons t rest =>
    simp only [readMembers] at h
    split at h
    · rename_i close
      cases h
      exact ⟨t, [], isMark_iff.1 close, ⟨[], rfl, .none⟩, ordered, List.Perm.refl _⟩
    · obtain ⟨entry, read, h⟩ := Option.bind_eq_some_iff.1 h
      split at h
      · rename_i goesOn
        obtain ⟨others, readOthers, h⟩ := Option.bind_eq_some_iff.1 h
        cases h
        obtain ⟨soundHere, soundOthers⟩ := List.append_eq_nil_iff.1 sound
        obtain ⟨soundEntry, soundNext⟩ := List.append_eq_nil_iff.1 soundHere
        obtain ⟨key, value, colon, more, isText, rfl, isColon, uses, new, result⟩ :=
          ih.member read soundEntry unbroken
        have between := between_of_afterEntry soundNext
        rw [goesOn] at between
        have left := uses.unbroken unbroken.of_cons.of_cons
        generalize (afterEntry stop .braces entry.rest).rest = after at between readOthers
        generalize entry.rest = behind at between left uses
        cases between with
        | @comma comma _ isComma opening =>
        rw [result] at readOthers
        obtain ⟨close, written, isClose, usesOthers, orderedAll, perm⟩ :=
          ih.members readOthers soundOthers left.of_cons (ordered.insert new value)
        have notNil : written ≠ [] := by
          rintro rfl
          exact usesOthers.ne_nil .braces isClose opening fun ls h => eq_nil_of_areMembers h
        have usesBehind : Uses (comma :: _) (close :: others.rest) fun ls => ∀ first,
            IsValue depth first value →
            AreMembers depth (.text key :: .mark .colon :: (first ++ ls))
              ((key, value) :: written) :=
          .cons isComma (usesOthers.imp fun _ members _ isValue => .more isValue members notNil)
        refine ⟨close, (key, value) :: written, isClose, ?_, orderedAll, ?_⟩
        · exact .cons isText (.cons isColon (uses.append usesBehind))
        · exact perm.trans (((Members.insert_perm new value).append_left written).trans
            List.perm_middle)
      · rename_i ends
        cases h
        obtain ⟨soundEntry, soundNext⟩ := List.append_eq_nil_iff.1 sound
        obtain ⟨key, value, colon, more, isText, rfl, isColon, uses, new, result⟩ :=
          ih.member read soundEntry unbroken
        have between := between_of_afterEntry soundNext
        rw [Bool.eq_false_iff.2 ends] at between
        obtain ⟨close, isClose, trailing⟩ := uses_of_between between
        have usesBehind : Uses entry.rest _ fun ls => ∀ first, IsValue depth first value →
            AreMembers depth (.text key :: .mark .colon :: (first ++ ls)) [(key, value)] :=
          trailing.imp fun _ isTrailing _ isValue => .one isValue isTrailing
        refine ⟨close, [(key, value)], isClose, ?_, ?_, ?_⟩
        · exact .cons isText (.cons isColon (uses.append usesBehind))
        · rw [result]
          exact ordered.insert new value
        · rw [result]
          exact Members.insert_perm new value

theorem items_succ (ih : Sound stop fuel) {depth : Nat} {tokens : List Token}
    {r : Reading (List Value)} (h : readItems stop (fuel + 1) depth tokens = some r)
    (sound : r.defects = []) (unbroken : Unbroken tokens) :
    ∃ close, close.lexeme = .mark .closeBracket ∧
      Uses tokens (close :: r.rest) (AreItems depth · r.result) := by
  cases tokens with
  | nil =>
    simp only [readItems] at h
    cases h
    cases sound
  | cons t rest =>
    simp only [readItems] at h
    split at h
    · rename_i close
      cases h
      exact ⟨t, isMark_iff.1 close, ⟨[], rfl, .none⟩⟩
    · obtain ⟨entry, read, h⟩ := Option.bind_eq_some_iff.1 h
      split at h
      · rename_i goesOn
        obtain ⟨others, readOthers, h⟩ := Option.bind_eq_some_iff.1 h
        cases h
        obtain ⟨soundHere, soundOthers⟩ := List.append_eq_nil_iff.1 sound
        obtain ⟨soundEntry, soundNext⟩ := List.append_eq_nil_iff.1 soundHere
        have uses := ih.value read soundEntry unbroken
        have between := between_of_afterEntry soundNext
        rw [goesOn] at between
        have left := uses.unbroken unbroken
        generalize (afterEntry stop .brackets entry.rest).rest = after at between readOthers
        generalize entry.rest = behind at between left uses
        cases between with
        | @comma comma _ isComma opening =>
        obtain ⟨close, isClose, usesOthers⟩ := ih.items readOthers soundOthers left.of_cons
        have notNil : others.result ≠ [] := by
          intro nil
          rw [nil] at usesOthers
          exact usesOthers.ne_nil .brackets isClose opening fun ls h => eq_nil_of_areItems h
        have usesBehind : Uses (comma :: _) (close :: others.rest) fun ls => ∀ first,
            IsValue depth first entry.result →
            AreItems depth (first ++ ls) (entry.result :: others.result) :=
          .cons isComma (usesOthers.imp fun _ items _ isValue => .more isValue items notNil)
        exact ⟨close, isClose, uses.append usesBehind⟩
      · rename_i ends
        cases h
        obtain ⟨soundEntry, soundNext⟩ := List.append_eq_nil_iff.1 sound
        have uses := ih.value read soundEntry unbroken
        have between := between_of_afterEntry soundNext
        rw [Bool.eq_false_iff.2 ends] at between
        obtain ⟨close, isClose, trailing⟩ := uses_of_between between
        have usesBehind : Uses entry.rest _ fun ls => ∀ first, IsValue depth first entry.result →
            AreItems depth (first ++ ls) [entry.result] :=
          trailing.imp fun _ isTrailing _ isValue => .one isValue isTrailing
        exact ⟨close, isClose, uses.append usesBehind⟩

/-- The reader keeps to it with every fuel. -/
theorem all (stop : Place) (fuel : Nat) : Sound stop fuel := by
  induction fuel with
  | zero => exact zero stop
  | succ fuel ih => exact ⟨ih.value_succ, ih.members_succ, ih.member_succ, ih.items_succ⟩

end Sound

/-! ### Completeness -/

/-- What the reader keeps to with `fuel` where tokens spell something of the grammar: it reads it,
and finds nothing wrong. -/
structure Complete (stop : Place) (fuel : Nat) : Prop where
  value : ∀ {depth used v}, IsValue depth (lexemes used) v → 2 * used.length ≤ fuel →
    ∀ rest, readValue stop fuel depth (used ++ rest) = some ⟨v, [], rest⟩
  members : ∀ {depth used written found close}, AreMembers depth (lexemes used) written →
    close.lexeme = .mark .closeBrace → (Members.keys (written ++ found)).Nodup →
    2 * used.length + 1 ≤ fuel → ∀ rest,
      readMembers stop fuel depth found (used ++ close :: rest)
        = some ⟨found.addAll written, [], rest⟩
  member : ∀ {depth key colon t used v found}, IsValue depth (lexemes used) v →
    t.lexeme = .text key → colon.lexeme = .mark .colon → key ∉ found.keys →
    2 * used.length + 1 ≤ fuel → ∀ rest,
      readMember stop fuel depth found (t :: colon :: (used ++ rest))
        = some ⟨found.insert key v, [], rest⟩
  items : ∀ {depth used items close}, AreItems depth (lexemes used) items →
    close.lexeme = .mark .closeBracket → 2 * used.length + 1 ≤ fuel → ∀ rest,
      readItems stop fuel depth (used ++ close :: rest) = some ⟨items, [], rest⟩

/-- A value has a first token, which ends no container. -/
theorem exists_cons_of_isValue {depth : Nat} {used : List Token} {v : Value}
    (h : IsValue depth (lexemes used) v) :
    ∃ t more, used = t :: more ∧ ∀ container : Container, t.isMark container.closing = false := by
  cases used with
  | nil => cases h
  | cons t more =>
    refine ⟨t, more, rfl, ?_⟩
    intro container
    rw [lexemes, List.map_cons] at h
    generalize isLexeme : t.lexeme = lexeme at h
    generalize List.map Token.lexeme more = others at h
    rw [Token.isMark, isLexeme]
    cases h <;> cases container <;> rfl

theorem exists_cons_of_areMembers {depth : Nat} {used : List Token} {written : Members}
    (h : AreMembers depth (lexemes used) written) (notNil : written ≠ []) :
    ∃ t more, used = t :: more ∧ t.isMark .closeBrace = false := by
  generalize isLexemes : lexemes used = ls at h
  have isText : ∀ {key : String} {others : List Lexeme}, lexemes used = .text key :: others →
      ∃ t more, used = t :: more ∧ t.isMark .closeBrace = false := by
    intro key others eq
    obtain ⟨t, more, rfl, isText, -⟩ := List.map_eq_cons_iff.1 eq
    refine ⟨t, more, rfl, ?_⟩
    rw [Token.isMark, isText]
    rfl
  cases h with
  | none => exact absurd rfl notNil
  | one => exact isText isLexemes
  | more => exact isText isLexemes

theorem exists_cons_of_areItems {depth : Nat} {used : List Token} {items : List Value}
    (h : AreItems depth (lexemes used) items) (notNil : items ≠ []) :
    ∃ t more, used = t :: more ∧ t.isMark .closeBracket = false := by
  generalize isLexemes : lexemes used = ls at h
  cases h with
  | none => exact absurd rfl notNil
  | one isValue =>
    obtain ⟨first, behind, rfl, rfl, -⟩ := List.map_eq_append_iff.1 isLexemes
    obtain ⟨t, more, rfl, noClose⟩ := exists_cons_of_isValue isValue
    exact ⟨t, more ++ behind, rfl, noClose .brackets⟩
  | more isValue =>
    obtain ⟨first, behind, rfl, rfl, -⟩ := List.map_eq_append_iff.1 isLexemes
    obtain ⟨t, more, rfl, noClose⟩ := exists_cons_of_isValue isValue
    exact ⟨t, more ++ behind, rfl, noClose .brackets⟩

theorem between_of_trailing (container : Container) {trailing : List Token} {close : Token}
    (h : Trailing (lexemes trailing)) (isClose : close.lexeme = .mark container.closing)
    (rest : List Token) : Between container (trailing ++ close :: rest) false rest := by
  generalize isLexemes : lexemes trailing = ls at h
  cases h with
  | none =>
    obtain rfl := List.map_eq_nil_iff.1 isLexemes
    exact .close isClose
  | comma =>
    obtain ⟨c, rfl, isComma⟩ := List.map_eq_singleton_iff.1 isLexemes
    exact .trailing isComma isClose

namespace Complete

variable {stop : Place} {fuel : Nat}

theorem zero (stop : Place) : Complete stop 0 where
  value h bound := by
    obtain ⟨t, more, rfl, -⟩ := exists_cons_of_isValue h
    rw [List.length_cons] at bound
    omega
  members _ _ _ bound := by omega
  member _ _ _ _ bound := by omega
  items _ _ bound := by omega

theorem value_succ (ih : Complete stop fuel) {depth : Nat} {used : List Token} {v : Value}
    (h : IsValue depth (lexemes used) v) (bound : 2 * used.length ≤ fuel + 1)
    (rest : List Token) :
    readValue stop (fuel + 1) depth (used ++ rest) = some ⟨v, [], rest⟩ := by
  generalize isLexemes : lexemes used = ls at h
  cases h with
  | null =>
    obtain ⟨t, rfl, isNull⟩ := List.map_eq_singleton_iff.1 isLexemes
    rw [List.singleton_append]
    simp only [readValue, isNull]
  | bool =>
    obtain ⟨t, rfl, isBool⟩ := List.map_eq_singleton_iff.1 isLexemes
    rw [List.singleton_append]
    simp only [readValue, isBool]
  | number =>
    obtain ⟨t, rfl, isNumber⟩ := List.map_eq_singleton_iff.1 isLexemes
    rw [List.singleton_append]
    simp only [readValue, isNumber]
  | text =>
    obtain ⟨t, rfl, isText⟩ := List.map_eq_singleton_iff.1 isLexemes
    rw [List.singleton_append]
    simp only [readValue, isText]
  | @object _ _ written members shallow areMembers distinct perm ordered =>
    obtain ⟨t, _, rfl, isOpen, isInner⟩ := List.map_eq_cons_iff.1 isLexemes
    obtain ⟨inner, _, rfl, rfl, isLast⟩ := List.map_eq_append_iff.1 isInner
    obtain ⟨close, rfl, isClose⟩ := List.map_eq_singleton_iff.1 isLast
    rw [List.length_cons, List.length_append, List.length_singleton] at bound
    rw [List.cons_append, List.append_assoc, List.singleton_append]
    have new : (Members.keys (written ++ [])).Nodup := by
      rw [List.append_nil]
      exact distinct
    have read := ih.members areMembers isClose new (by omega) rest
    obtain ⟨sorted, same⟩ := Members.ordered_addAll List.Pairwise.nil new
    rw [List.append_nil] at same
    have isSorted := sorted.eq_of_perm ordered (same.trans perm.symm)
    simp only [readValue, isOpen, if_neg (Nat.not_le.2 shallow), read, Option.map_some, Reading.map,
      isSorted]
  | list shallow items =>
    obtain ⟨t, _, rfl, isOpen, isInner⟩ := List.map_eq_cons_iff.1 isLexemes
    obtain ⟨inner, _, rfl, rfl, isLast⟩ := List.map_eq_append_iff.1 isInner
    obtain ⟨close, rfl, isClose⟩ := List.map_eq_singleton_iff.1 isLast
    rw [List.length_cons, List.length_append, List.length_singleton] at bound
    rw [List.cons_append, List.append_assoc, List.singleton_append]
    have read := ih.items items isClose (by omega) rest
    simp only [readValue, isOpen, if_neg (Nat.not_le.2 shallow), read, Option.map_some, Reading.map]

theorem member_succ (ih : Complete stop fuel) {depth : Nat} {key : String} {colon t : Token}
    {used : List Token} {v : Value} {found : Members} (h : IsValue depth (lexemes used) v)
    (isText : t.lexeme = .text key) (isColon : colon.lexeme = .mark .colon)
    (new : key ∉ found.keys) (bound : 2 * used.length + 1 ≤ fuel + 1) (rest : List Token) :
    readMember stop (fuel + 1) depth found (t :: colon :: (used ++ rest))
      = some ⟨found.insert key v, [], rest⟩ := by
  have next : nextIs .colon (colon :: (used ++ rest)) = true := nextIs_iff.2 ⟨_, _, rfl, isColon⟩
  have read := ih.value h (by omega) rest
  simp only [readMember, isText, next, if_true, List.drop_succ_cons, List.drop_zero, read,
    Members.has_eq_false_iff.2 new, Bool.false_eq_true, if_false, Option.bind_eq_bind,
    Option.bind_some, Option.pure_def]

theorem members_succ (ih : Complete stop fuel) {depth : Nat} {used : List Token}
    {written found : Members} {close : Token} (h : AreMembers depth (lexemes used) written)
    (isClose : close.lexeme = .mark .closeBrace) (new : (Members.keys (written ++ found)).Nodup)
    (bound : 2 * used.length + 1 ≤ fuel + 1) (rest : List Token) :
    readMembers stop (fuel + 1) depth found (used ++ close :: rest)
      = some ⟨found.addAll written, [], rest⟩ := by
  generalize isLexemes : lexemes used = ls at h
  cases h with
  | none =>
    obtain rfl := List.map_eq_nil_iff.1 isLexemes
    rw [List.nil_append]
    simp only [readMembers, isMark_iff.2 isClose, if_true]
    rfl
  | @one _ key _ trailing value isValue isTrailing =>
    obtain ⟨t, _, rfl, isText, isMore⟩ := List.map_eq_cons_iff.1 isLexemes
    obtain ⟨colon, _, rfl, isColon, isInner⟩ := List.map_eq_cons_iff.1 isMore
    obtain ⟨inner, behind, rfl, rfl, rfl⟩ := List.map_eq_append_iff.1 isInner
    simp only [List.length_cons, List.length_append] at bound
    have noClose : t.isMark .closeBrace = false := by
      rw [Token.isMark, isText]
      rfl
    have absent : key ∉ found.keys := (List.nodup_cons.1 new).1
    have read := ih.member isValue isText isColon absent (by omega) (behind ++ close :: rest)
    have between := between_of_trailing .braces isTrailing isClose rest
    rw [List.cons_append, List.cons_append, List.append_assoc]
    simp only [readMembers, noClose, Bool.false_eq_true, if_false, read, Option.bind_eq_bind,
      Option.bind_some, afterEntry_of_between between stop, Option.pure_def, List.append_nil]
    rfl
  | @more _ key _ _ value others isValue areOthers notNil =>
    obtain ⟨t, _, rfl, isText, isMore⟩ := List.map_eq_cons_iff.1 isLexemes
    obtain ⟨colon, _, rfl, isColon, isInner⟩ := List.map_eq_cons_iff.1 isMore
    obtain ⟨inner, _, rfl, rfl, isBehind⟩ := List.map_eq_append_iff.1 isInner
    obtain ⟨comma, behind, rfl, isComma, rfl⟩ := List.map_eq_cons_iff.1 isBehind
    simp only [List.length_cons, List.length_append] at bound
    have noClose : t.isMark .closeBrace = false := by
      rw [Token.isMark, isText]
      rfl
    have absent : key ∉ found.keys := fun there =>
      (List.nodup_cons.1 new).1 (List.map_append ▸ List.mem_append_right _ there)
    have newOthers : (Members.keys (others ++ found.insert key value)).Nodup :=
      (((Members.insert_perm absent value).append_left others).trans
        List.perm_middle |>.map Prod.fst).nodup_iff.2 new
    have read := ih.member isValue isText isColon absent (by omega)
      (comma :: (behind ++ close :: rest))
    have readOthers := ih.members areOthers isClose newOthers (by omega) rest
    have between : Between .braces (comma :: (behind ++ close :: rest)) true
        (behind ++ close :: rest) := by
      refine .comma isComma ?_
      obtain ⟨u, more, rfl, first⟩ := exists_cons_of_areMembers areOthers notNil
      exact first
    rw [List.cons_append, List.cons_append, List.append_assoc, List.cons_append]
    simp only [readMembers, noClose, Bool.false_eq_true, if_false, read, Option.bind_eq_bind,
      Option.bind_some, afterEntry_of_between between stop, Option.pure_def, List.append_nil,
      if_true, readOthers]
    rfl

theorem items_succ (ih : Complete stop fuel) {depth : Nat} {used : List Token}
    {items : List Value} {close : Token} (h : AreItems depth (lexemes used) items)
    (isClose : close.lexeme = .mark .closeBracket) (bound : 2 * used.length + 1 ≤ fuel + 1)
    (rest : List Token) :
    readItems stop (fuel + 1) depth (used ++ close :: rest) = some ⟨items, [], rest⟩ := by
  generalize isLexemes : lexemes used = ls at h
  cases h with
  | none =>
    obtain rfl := List.map_eq_nil_iff.1 isLexemes
    rw [List.nil_append]
    simp only [readItems, isMark_iff.2 isClose, if_true]
  | @one _ _ trailing value isValue isTrailing =>
    obtain ⟨first, behind, rfl, rfl, rfl⟩ := List.map_eq_append_iff.1 isLexemes
    rw [List.length_append] at bound
    have read := ih.value isValue (by omega) (behind ++ close :: rest)
    have between := between_of_trailing .brackets isTrailing isClose rest
    obtain ⟨t, more, rfl, noClose⟩ := exists_cons_of_isValue isValue
    have opening : t.isMark .closeBracket = false := noClose .brackets
    rw [List.append_assoc, List.cons_append]
    rw [List.cons_append] at read
    simp only [readItems, opening, Bool.false_eq_true, if_false, read, Option.bind_eq_bind,
      Option.bind_some, afterEntry_of_between between stop, Option.pure_def, List.append_nil]
  | @more _ _ _ value others isValue areOthers notNil =>
    obtain ⟨first, _, rfl, rfl, isBehind⟩ := List.map_eq_append_iff.1 isLexemes
    obtain ⟨comma, behind, rfl, isComma, rfl⟩ := List.map_eq_cons_iff.1 isBehind
    rw [List.length_append, List.length_cons] at bound
    have read := ih.value isValue (by omega) (comma :: (behind ++ close :: rest))
    have readOthers := ih.items areOthers isClose (by omega) rest
    have between : Between .brackets (comma :: (behind ++ close :: rest)) true
        (behind ++ close :: rest) := by
      refine .comma isComma ?_
      obtain ⟨u, more, rfl, next⟩ := exists_cons_of_areItems areOthers notNil
      exact next
    obtain ⟨t, more, rfl, noClose⟩ := exists_cons_of_isValue isValue
    have opening : t.isMark .closeBracket = false := noClose .brackets
    rw [List.append_assoc, List.cons_append, List.cons_append]
    rw [List.cons_append] at read
    simp only [readItems, opening, Bool.false_eq_true, if_false, read, Option.bind_eq_bind,
      Option.bind_some, afterEntry_of_between between stop, Option.pure_def, List.append_nil,
      if_true, readOthers]

/-- The reader keeps to it with every fuel. -/
theorem all (stop : Place) (fuel : Nat) : Complete stop fuel := by
  induction fuel with
  | zero => exact zero stop
  | succ fuel ih => exact ⟨ih.value_succ, ih.members_succ, ih.member_succ, ih.items_succ⟩

end Complete

/-! ### Whole texts -/

/-- Tokens without a broken one are read without a defect exactly if they spell a value. -/
theorem readDocument_iff {stop : Place} {tokens : List Token} (unbroken : Unbroken tokens)
    {v : Value} :
    (∃ r, readDocument stop tokens = some r ∧ r.defects = [] ∧ r.result = v) ↔
      IsValue 0 (lexemes tokens) v := by
  constructor
  · rintro ⟨r, h, sound, rfl⟩
    obtain ⟨inner, read, rfl⟩ := Option.map_eq_some_iff.1 h
    by_cases ends : (inner.rest.isEmpty || inner.rest.length == tokens.length) = true
    · simp only [ends, if_true] at sound ⊢
      obtain ⟨used, all, isValue⟩ := (Sound.all stop _).value read sound unbroken
      obtain ⟨t, more, rfl, -⟩ := exists_cons_of_isValue isValue
      have shorter : inner.rest.length ≠ tokens.length := by
        rw [all, List.length_append, List.length_cons]
        omega
      rw [beq_false_of_ne shorter, Bool.or_false, List.isEmpty_iff] at ends
      rw [ends, List.append_nil] at all
      rw [all]
      exact isValue
    · rw [if_neg ends] at sound
      exact absurd sound (List.append_ne_nil_of_right_ne_nil _ (List.cons_ne_nil _ _))
  · intro h
    have read := (Complete.all stop (2 * tokens.length + 2)).value h (by omega) []
    rw [List.append_nil] at read
    refine ⟨⟨v, [], []⟩, ?_, rfl, rfl⟩
    rw [readDocument, read]
    rfl

/-- No item of the grammar leaves a broken lexeme. -/
theorem ne_broken_of_tokens {cs : List Char} {ls : List Lexeme} (h : Tokens cs ls) :
    ∀ l ∈ ls, l ≠ .broken := by
  induction h with
  | nil =>
    intro l hl
    cases hl
  | cons piece _ ih =>
    intro l hl
    rcases List.mem_append.1 hl with here | there
    · cases piece with
      | blank | lineComment | blockComment => cases here
      | mark | text | number =>
        rw [List.mem_singleton.1 here]
        exact Lexeme.noConfusion
      | word isWord =>
        rw [List.mem_singleton.1 here]
        intro eq
        rw [eq] at isWord
        simp [words] at isWord
    · exact ih l there

/-- A text is accepted exactly if neither the scanner nor the reader finds a defect. -/
theorem parse_eq_ok_iff_sound (text : String) (v : Value) :
    parse text = .ok v ↔ (scan (contentChars text)).defects = [] ∧
      ∃ r, readDocument (scan (contentChars text)).stop (scan (contentChars text)).tokens = some r ∧
        r.defects = [] ∧ r.result = v := by
  rw [parse]
  generalize scan (contentChars text) = s
  cases isRead : readDocument s.stop s.tokens with
  | none =>
    have isSome := readDocument_isSome s.stop s.tokens
    rw [isRead] at isSome
    cases isSome
  | some r =>
    by_cases sound : s.defects ++ r.defects = []
    · obtain ⟨scanned, read⟩ := List.append_eq_nil_iff.1 sound
      simp [scanned, read]
    · have found : (s.defects ++ r.defects).isEmpty = false :=
        Bool.eq_false_iff.2 fun nil => sound (List.isEmpty_iff.1 nil)
      simp only [found, Bool.false_eq_true, if_false, reduceCtorEq, false_iff]
      rintro ⟨scanned, _, same, read, -⟩
      rw [← Option.some.inj same] at read
      exact sound (List.append_eq_nil_iff.2 ⟨scanned, read⟩)

/-- The characters of an accepted text spell its value. -/
theorem spells_of_parse {text : String} {v : Value} (h : parse text = .ok v) :
    Spells (contentChars text) v := by
  rw [parse_eq_ok_iff_sound] at h
  generalize contentChars text = cs at h ⊢
  obtain ⟨scanned, reading⟩ := h
  have tokens : Tokens cs (lexemes (scan cs).tokens) := scan_iff_tokens.1 ⟨scanned, rfl⟩
  have unbroken : Unbroken (scan cs).tokens := fun t ht =>
    ne_broken_of_tokens tokens _ (List.mem_map_of_mem ht)
  exact ⟨_, tokens, (readDocument_iff unbroken).1 reading⟩

/-- A text whose characters spell a value is accepted, and gives that value. -/
theorem parse_of_spells {text : String} {v : Value} (h : Spells (contentChars text) v) :
    parse text = .ok v := by
  rw [parse_eq_ok_iff_sound]
  generalize contentChars text = cs at h ⊢
  obtain ⟨ls, tokens, isValue⟩ := h
  obtain ⟨scanned, rfl⟩ := scan_iff_tokens.2 tokens
  have unbroken : Unbroken (scan cs).tokens := fun t ht =>
    ne_broken_of_tokens tokens _ (List.mem_map_of_mem ht)
  exact ⟨scanned, (readDocument_iff unbroken).2 isValue⟩

end Telemetry.Json
