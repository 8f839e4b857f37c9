import Telemetry.Proofs.Json.Phrase

/-!
# The reader finds the flaws of a phrase

Where a text has the form of a value, the reader never has to find its way back.  It passes over a
container that lies too deep to its closing mark, and reports a key that comes again behind the
flaws of its value; sorting puts them into the order of the text.

* `Balanced.skipContainer_container`: counting marks ends at the mark that closes the container;
* `Finds` says what each part of the reader finds, by induction on the bound of its calls;
* `report_of_isPhrase` says what is reported of a whole text.
-/

namespace Telemetry.Json

open Grammar Phrase

/-! ### Passing over a container -/

theorem Token.opens_of_lexeme {t : Token} {m : Mark} (h : t.lexeme = .mark m) :
    t.opens = (m == .openBrace || m == .openBracket) := by
  rw [opens, isMark, isMark, h]
  cases m <;> rfl

theorem Token.closes_of_lexeme {t : Token} {m : Mark} (h : t.lexeme = .mark m) :
    t.closes = (m == .closeBrace || m == .closeBracket) := by
  rw [closes, isMark, isMark, h]
  cases m <;> rfl

/-- Whether counting marks leaves the number of open containers as it was. -/
def Balanced (used : List Token) : Prop :=
  ∀ nesting rest, skipContainer (nesting + 1) (used ++ rest) = skipContainer (nesting + 1) rest

namespace Balanced

variable {front back : List Token}

theorem nil : Balanced [] := fun _ _ => rfl

theorem append (h : Balanced front) (h' : Balanced back) : Balanced (front ++ back) := by
  intro nesting rest
  rw [List.append_assoc, h, h']

theorem single {t : Token} (opens : t.opens = false) (closes : t.closes = false) :
    Balanced [t] := by
  intro nesting rest
  rw [List.singleton_append, skipContainer, opens, closes]
  rfl

theorem scalar {t : Token} (h : t.lexeme.isScalar = true) : Balanced [t] := by
  refine single ?_ ?_
  · rw [Token.opens, Token.isMark, Token.isMark]
    cases isLexeme : t.lexeme <;> rw [isLexeme] at h <;> first | rfl | cases h
  · rw [Token.closes, Token.isMark, Token.isMark]
    cases isLexeme : t.lexeme <;> rw [isLexeme] at h <;> first | rfl | cases h

theorem separator {t : Token} {m : Mark} (h : t.lexeme = .mark m)
    (isSeparator : m = .colon ∨ m = .comma) : Balanced [t] := by
  rcases isSeparator with rfl | rfl
  all_goals exact single (Token.opens_of_lexeme h) (Token.closes_of_lexeme h)

theorem trailing {tokens : List Token} (h : Trailing (lexemes tokens)) : Balanced tokens := by
  generalize isLexemes : lexemes tokens = ls at h
  cases h with
  | none =>
    obtain rfl := List.map_eq_nil_iff.1 isLexemes
    exact nil
  | comma =>
    obtain ⟨t, rfl, isComma⟩ := List.map_eq_singleton_iff.1 isLexemes
    exact separator isComma (.inr rfl)

/-- A container is passed over from its opening mark to its closing mark. -/
theorem skipContainer_container {first last : Token} (h : Balanced back)
    (opens : first.opens = true) (closes : last.closes = true) (noOpen : last.opens = false)
    (nesting : Nat) (rest : List Token) :
    skipContainer nesting (first :: (back ++ last :: rest)) =
      if nesting = 0 then rest else skipContainer nesting rest := by
  rw [skipContainer, if_pos opens, h, skipContainer, noOpen, closes, if_neg Bool.false_ne_true,
    if_pos rfl, Nat.add_sub_cancel]
  cases nesting with
  | zero => rfl
  | succ nesting => rw [if_neg (by omega), if_neg (by omega)]

theorem container {first last : Token} (h : Balanced back) (opens : first.opens = true)
    (closes : last.closes = true) (noOpen : last.opens = false) :
    Balanced (first :: (back ++ [last])) := by
  intro nesting rest
  rw [List.cons_append, List.append_assoc, List.singleton_append,
    h.skipContainer_container opens closes noOpen, if_neg (Nat.succ_ne_zero _)]

end Balanced

mutual

theorem balanced_of_isPhrase {used : List Token} {p : Phrase} : IsPhrase used p → Balanced used
  | .scalar isScalar => .scalar isScalar
  | .object first members last =>
    (balanced_of_areMemberPhrases members).container (Token.opens_of_lexeme first)
      (Token.closes_of_lexeme last) (Token.opens_of_lexeme last)
  | .list first items last =>
    (balanced_of_areItemPhrases items).container (Token.opens_of_lexeme first)
      (Token.closes_of_lexeme last) (Token.opens_of_lexeme last)

theorem balanced_of_areMemberPhrases {used : List Token} {members : List (Key × Phrase)} :
    AreMemberPhrases used members → Balanced used
  | .none => .nil
  | .one isText isColon isPhrase isTrailing => by
    have key : Balanced [_] := .scalar (by rw [isText]; rfl)
    have colon := Balanced.separator isColon (.inl rfl)
    have value := (balanced_of_isPhrase isPhrase).append (.trailing isTrailing)
    exact key.append (colon.append value)
  | .more isText isColon isPhrase isComma others _ => by
    have key : Balanced [_] := .scalar (by rw [isText]; rfl)
    have colon := Balanced.separator isColon (.inl rfl)
    have behind := (Balanced.separator isComma (.inr rfl)).append
      (balanced_of_areMemberPhrases others)
    exact key.append (colon.append ((balanced_of_isPhrase isPhrase).append behind))

theorem balanced_of_areItemPhrases {used : List Token} {items : List Phrase} :
    AreItemPhrases used items → Balanced used
  | .none => .nil
  | .one isPhrase isTrailing => (balanced_of_isPhrase isPhrase).append (.trailing isTrailing)
  | .more isPhrase isComma others _ =>
    (balanced_of_isPhrase isPhrase).append
      ((Balanced.separator isComma (.inr rfl)).append (balanced_of_areItemPhrases others))

end

/-! ### First tokens -/

theorem exists_cons_of_isPhrase {used : List Token} {p : Phrase} (h : IsPhrase used p) :
    ∃ t more, used = t :: more ∧ ∀ container : Container, t.isMark container.closing = false := by
  have noClosing : ∀ {t : Token} {m : Mark}, t.lexeme = .mark m →
      m = .openBrace ∨ m = .openBracket →
      ∀ container : Container, t.isMark container.closing = false := by
    intro t m isMark opening container
    rw [Token.isMark, isMark]
    rcases opening with rfl | rfl <;> cases container <;> rfl
  cases h with
  | @scalar t isScalar =>
    refine ⟨t, [], rfl, fun container => ?_⟩
    rw [Token.isMark]
    cases isLexeme : t.lexeme with
    | mark => rw [isLexeme] at isScalar; cases isScalar
    | _ => rfl
  | object first => exact ⟨_, _, rfl, noClosing first (.inl rfl)⟩
  | list first => exact ⟨_, _, rfl, noClosing first (.inr rfl)⟩

theorem exists_cons_of_areMemberPhrases {used : List Token} {members : List (Key × Phrase)}
    (h : AreMemberPhrases used members) (notNil : members ≠ []) :
    ∃ t more, used = t :: more ∧ t.isMark .closeBrace = false := by
  cases h with
  | none => exact absurd rfl notNil
  | one isText => exact ⟨_, _, rfl, by rw [Token.isMark, isText]; rfl⟩
  | more isText => exact ⟨_, _, rfl, by rw [Token.isMark, isText]; rfl⟩

theorem exists_cons_of_areItemPhrases {used : List Token} {items : List Phrase}
    (h : AreItemPhrases used items) (notNil : items ≠ []) :
    ∃ t more, used = t :: more ∧ t.isMark .closeBracket = false := by
  cases h with
  | none => exact absurd rfl notNil
  | one isPhrase =>
    obtain ⟨t, more, rfl, noClose⟩ := exists_cons_of_isPhrase isPhrase
    exact ⟨t, _, rfl, noClose .brackets⟩
  | more isPhrase =>
    obtain ⟨t, more, rfl, noClose⟩ := exists_cons_of_isPhrase isPhrase
    exact ⟨t, _, rfl, noClose .brackets⟩

/-! ### What the reader finds -/

/-- A key is there once it is added, and no other is added. -/
theorem Members.has_insert {found : Members} {name : String} (new : found.has name = false)
    (value : Value) (key : String) :
    (found.insert name value).has key = true ↔ key = name ∨ found.has key = true := by
  have perm := insert_perm (has_eq_false_iff.1 new) value
  have isKey : ∀ members : Members, members.has key = true ↔ ∃ m ∈ members, m.1 = key := by
    intro members
    simp [has]
  rw [isKey, isKey]
  simp only [perm.mem_iff, List.mem_cons, exists_eq_or_imp, eq_comm]

/-- What the reader keeps to with `fuel` where tokens are those of a phrase: it reads them all, and
finds what is wrong with the phrase, in some order. -/
structure Finds (stop : Place) (fuel : Nat) : Prop where
  value : ∀ (depth) {used p}, IsPhrase used p → 2 * used.length ≤ fuel → ∀ rest,
    ∃ v found, readValue stop fuel depth (used ++ rest) = some ⟨v, found, rest⟩ ∧
      found.Perm (p.flaws depth)
  members : ∀ (depth) {used members read seen last}, AreMemberPhrases used members →
    last.lexeme = .mark .closeBrace → (∀ key, Members.has read key = true ↔ key ∈ seen) →
    2 * used.length + 1 ≤ fuel → ∀ rest,
      ∃ all found, readMembers stop fuel depth read (used ++ last :: rest)
          = some ⟨all, found, rest⟩ ∧ found.Perm (memberFlaws depth seen members)
  member : ∀ (depth) {used p name t colon read seen}, IsPhrase used p → t.lexeme = .text name →
    colon.lexeme = .mark .colon → (∀ key, Members.has read key = true ↔ key ∈ seen) →
    2 * used.length + 1 ≤ fuel → ∀ rest,
      ∃ more found, readMember stop fuel depth read (t :: colon :: (used ++ rest))
          = some ⟨more, found, rest⟩ ∧
        found.Perm (Key.flaws seen ⟨t.place, name⟩ ++ p.flaws depth) ∧
        ∀ key, more.has key = true ↔ key ∈ name :: seen
  items : ∀ (depth) {used items last}, AreItemPhrases used items →
    last.lexeme = .mark .closeBracket → 2 * used.length + 1 ≤ fuel → ∀ rest,
      ∃ values found, readItems stop fuel depth (used ++ last :: rest)
          = some ⟨values, found, rest⟩ ∧ found.Perm (itemFlaws depth items)

namespace Finds

variable {stop : Place} {fuel : Nat}

theorem zero (stop : Place) : Finds stop 0 where
  value _ _ _ h bound := by
    obtain ⟨t, more, rfl, -⟩ := exists_cons_of_isPhrase h
    rw [List.length_cons] at bound
    omega
  members _ _ _ _ _ _ _ _ _ bound := by omega
  member _ _ _ _ _ _ _ _ _ _ _ _ bound := by omega
  items _ _ _ _ _ _ bound := by omega

theorem value_succ (ih : Finds stop fuel) (depth : Nat) {used : List Token} {p : Phrase}
    (h : IsPhrase used p) (bound : 2 * used.length ≤ fuel + 1) (rest : List Token) :
    ∃ v found, readValue stop (fuel + 1) depth (used ++ rest) = some ⟨v, found, rest⟩ ∧
      found.Perm (p.flaws depth) := by
  cases h with
  | @scalar t isScalar =>
    rw [List.singleton_append]
    cases isLexeme : t.lexeme <;> rw [isLexeme] at isScalar
    case mark => cases isScalar
    case broken => cases isScalar
    all_goals
      simp only [readValue, isLexeme]
      exact ⟨_, _, rfl, .refl _⟩
  | @object first last inner members isFirst areMembers isLast =>
    rw [List.length_cons, List.length_append, List.length_singleton] at bound
    rw [List.cons_append, List.append_assoc, List.singleton_append]
    simp only [readValue, isFirst, flaws]
    split
    · have skipped := (balanced_of_areMemberPhrases areMembers).skipContainer_container
        (Token.opens_of_lexeme isFirst) (Token.closes_of_lexeme isLast)
        (Token.opens_of_lexeme isLast) 0 rest
      rw [skipped, if_pos rfl]
      exact ⟨_, _, rfl, .refl _⟩
    · obtain ⟨all, found, read, perm⟩ := ih.members (depth + 1) areMembers isLast
        (show ∀ key, Members.has [] key = true ↔ key ∈ [] by simp [Members.has]) (by omega) rest
      rw [read]
      exact ⟨_, _, rfl, perm⟩
  | @list first last inner items isFirst areItems isLast =>
    rw [List.length_cons, List.length_append, List.length_singleton] at bound
    rw [List.cons_append, List.append_assoc, List.singleton_append]
    simp only [readValue, isFirst, flaws]
    split
    · have skipped := (balanced_of_areItemPhrases areItems).skipContainer_container
        (Token.opens_of_lexeme isFirst) (Token.closes_of_lexeme isLast)
        (Token.opens_of_lexeme isLast) 0 rest
      rw [skipped, if_pos rfl]
      exact ⟨_, _, rfl, .refl _⟩
    · obtain ⟨values, found, read, perm⟩ := ih.items (depth + 1) areItems isLast
        (by omega) rest
      rw [read]
      exact ⟨_, _, rfl, perm⟩

theorem member_succ (ih : Finds stop fuel) (depth : Nat) {used : List Token} {p : Phrase}
    {name : String} {t colon : Token} {read : Members} {seen : List String}
    (h : IsPhrase used p) (isText : t.lexeme = .text name) (isColon : colon.lexeme = .mark .colon)
    (isSeen : ∀ key, read.has key = true ↔ key ∈ seen) (bound : 2 * used.length + 1 ≤ fuel + 1)
    (rest : List Token) :
    ∃ more found, readMember stop (fuel + 1) depth read (t :: colon :: (used ++ rest))
        = some ⟨more, found, rest⟩ ∧
      found.Perm (Key.flaws seen ⟨t.place, name⟩ ++ p.flaws depth) ∧
      ∀ key, more.has key = true ↔ key ∈ name :: seen := by
  obtain ⟨v, found, isRead, perm⟩ := ih.value depth h (by omega) rest
  have next : nextIs .colon (colon :: (used ++ rest)) = true := nextIs_iff.2 ⟨_, _, rfl, isColon⟩
  simp only [readMember, isText, next, if_true, List.drop_succ_cons, List.drop_zero, isRead,
    Option.bind_eq_bind, Option.bind_some]
  by_cases again : name ∈ seen
  · rw [if_pos ((isSeen name).2 again), Key.flaws, if_pos again]
    refine ⟨_, _, rfl, (List.perm_append_singleton _ _).trans (perm.cons _), fun key => ?_⟩
    rw [isSeen, List.mem_cons]
    exact ⟨.inr, fun h => h.elim (fun same => same ▸ again) id⟩
  · have new : read.has name = false := Bool.eq_false_iff.2 fun has => again ((isSeen name).1 has)
    rw [new, if_neg Bool.false_ne_true, Key.flaws, if_neg again]
    refine ⟨_, _, rfl, perm, fun key => ?_⟩
    rw [Members.has_insert new, isSeen, List.mem_cons]

theorem members_succ (ih : Finds stop fuel) (depth : Nat) {used : List Token}
    {members : List (Key × Phrase)} {read : Members} {seen : List String} {last : Token}
    (h : AreMemberPhrases used members) (isLast : last.lexeme = .mark .closeBrace)
    (isSeen : ∀ key, read.has key = true ↔ key ∈ seen) (bound : 2 * used.length + 1 ≤ fuel + 1)
    (rest : List Token) :
    ∃ all found, readMembers stop (fuel + 1) depth read (used ++ last :: rest)
        = some ⟨all, found, rest⟩ ∧ found.Perm (memberFlaws depth seen members) := by
  have noClose : ∀ {t : Token} {name : String}, t.lexeme = .text name →
      t.isMark .closeBrace = false := by
    intro t name isText
    rw [Token.isMark, isText]
    rfl
  cases h with
  | none =>
    rw [List.nil_append]
    simp only [readMembers, isMark_iff.2 isLast, if_true]
    exact ⟨_, _, rfl, .refl _⟩
  | @one t colon name tokens trailing p isText isColon isPhrase isTrailing =>
    simp only [List.length_cons, List.length_append] at bound
    obtain ⟨more, found, isRead, perm, -⟩ := ih.member depth isPhrase isText isColon
      isSeen (by omega) (trailing ++ last :: rest)
    have between := between_of_trailing .braces isTrailing isLast rest
    rw [List.cons_append, List.cons_append, List.append_assoc]
    simp only [readMembers, noClose isText, Bool.false_eq_true, if_false, isRead,
      Option.bind_eq_bind, Option.bind_some, afterEntry_of_between between stop]
    refine ⟨_, _, rfl, ?_⟩
    rw [List.append_nil, memberFlaws, memberFlaws, List.append_nil]
    exact perm
  | @more t colon comma name tokens behind p others isText isColon isPhrase isComma areOthers
      notNil =>
    simp only [List.length_cons, List.length_append] at bound
    obtain ⟨more, found, isRead, perm, isMore⟩ := ih.member depth isPhrase isText
      isColon isSeen (by omega) (comma :: (behind ++ last :: rest))
    obtain ⟨all, later, readOthers, permOthers⟩ := ih.members depth areOthers isLast
      isMore (by omega) rest
    have between : Between .braces (comma :: (behind ++ last :: rest)) true
        (behind ++ last :: rest) := by
      refine .comma isComma ?_
      obtain ⟨u, _, rfl, first⟩ := exists_cons_of_areMemberPhrases areOthers notNil
      exact first
    rw [List.cons_append, List.cons_append, List.append_assoc, List.cons_append]
    simp only [readMembers, noClose isText, Bool.false_eq_true, if_false, isRead,
      Option.bind_eq_bind, Option.bind_some, afterEntry_of_between between stop, if_true,
      readOthers]
    refine ⟨_, _, rfl, ?_⟩
    rw [List.append_nil, memberFlaws, ← List.append_assoc]
    exact perm.append permOthers

theorem items_succ (ih : Finds stop fuel) (depth : Nat) {used : List Token}
    {items : List Phrase} {last : Token} (h : AreItemPhrases used items)
    (isLast : last.lexeme = .mark .closeBracket) (bound : 2 * used.length + 1 ≤ fuel + 1)
    (rest : List Token) :
    ∃ values found, readItems stop (fuel + 1) depth (used ++ last :: rest)
        = some ⟨values, found, rest⟩ ∧ found.Perm (itemFlaws depth items) := by
  cases h with
  | none =>
    rw [List.nil_append]
    simp only [readItems, isMark_iff.2 isLast, if_true]
    exact ⟨_, _, rfl, .refl _⟩
  | @one tokens trailing p isPhrase isTrailing =>
    rw [List.length_append] at bound
    obtain ⟨v, found, read, perm⟩ := ih.value depth isPhrase (by omega)
      (trailing ++ last :: rest)
    have between := between_of_trailing .brackets isTrailing isLast rest
    obtain ⟨t, more, rfl, noClose⟩ := exists_cons_of_isPhrase isPhrase
    have opening : t.isMark .closeBracket = false := noClose .brackets
    rw [List.append_assoc, List.cons_append]
    rw [List.cons_append] at read
    simp only [readItems, opening, Bool.false_eq_true, if_false, read, Option.bind_eq_bind,
      Option.bind_some, afterEntry_of_between between stop]
    refine ⟨_, _, rfl, ?_⟩
    rw [List.append_nil, itemFlaws, itemFlaws, List.append_nil]
    exact perm
  | @more comma tokens behind p others isPhrase isComma areOthers notNil =>
    rw [List.length_append, List.length_cons] at bound
    obtain ⟨v, found, read, perm⟩ := ih.value depth isPhrase (by omega)
      (comma :: (behind ++ last :: rest))
    obtain ⟨values, later, readOthers, permOthers⟩ := ih.items depth areOthers isLast
      (by omega) rest
    have between : Between .brackets (comma :: (behind ++ last :: rest)) true
        (behind ++ last :: rest) := by
      refine .comma isComma ?_
      obtain ⟨u, _, rfl, next⟩ := exists_cons_of_areItemPhrases areOthers notNil
      exact next
    obtain ⟨t, more, rfl, noClose⟩ := exists_cons_of_isPhrase isPhrase
    have opening : t.isMark .closeBracket = false := noClose .brackets
    rw [List.append_assoc, List.cons_append, List.cons_append]
    rw [List.cons_append] at read
    simp only [readItems, opening, Bool.false_eq_true, if_false, read, Option.bind_eq_bind,
      Option.bind_some, afterEntry_of_between between stop, if_true, readOthers]
    refine ⟨_, _, rfl, ?_⟩
    rw [List.append_nil, itemFlaws]
    exact perm.append permOthers

/-- The reader keeps to it with every fuel. -/
theorem all (stop : Place) (fuel : Nat) : Finds stop fuel := by
  induction fuel with
  | zero => exact zero stop
  | succ fuel ih => exact ⟨ih.value_succ, ih.members_succ, ih.member_succ, ih.items_succ⟩

end Finds

/-! ### The order of the flaws -/

theorem keyFlaws_sublist (seen : List String) (key : Key) :
    ((key.flaws seen).map Defect.place).Sublist [key.place] := by
  rw [Key.flaws]
  split
  · exact List.Sublist.refl _
  · exact List.nil_sublist _

mutual

/-- The flaws of a phrase stand at tokens of it, in the order of these. -/
theorem flaws_sublist {used : List Token} {p : Phrase} (depth : Nat) :
    IsPhrase used p → ((p.flaws depth).map Defect.place).Sublist (used.map Token.place)
  | .scalar _ => by
    rw [flaws]
    exact List.nil_sublist _
  | .object first members last => by
    rw [flaws]
    split
    · exact (List.nil_sublist _).cons_cons _
    · rw [List.map_cons, List.map_append]
      exact ((memberFlaws_sublist (depth + 1) [] members).trans
        (List.sublist_append_left _ _)).cons _
  | .list first items last => by
    rw [flaws]
    split
    · exact (List.nil_sublist _).cons_cons _
    · rw [List.map_cons, List.map_append]
      exact ((itemFlaws_sublist (depth + 1) items).trans (List.sublist_append_left _ _)).cons _

theorem memberFlaws_sublist {used : List Token} {members : List (Key × Phrase)} (depth : Nat)
    (seen : List String) : AreMemberPhrases used members →
      ((memberFlaws depth seen members).map Defect.place).Sublist (used.map Token.place)
  | .none => .slnil
  | .one _ _ isPhrase _ => by
    rw [memberFlaws, memberFlaws, List.append_nil, List.map_append, List.map_cons, List.map_cons,
      List.map_append]
    exact (keyFlaws_sublist seen _).append
      (((flaws_sublist depth isPhrase).trans (List.sublist_append_left _ _)).cons _)
  | .more _ _ isPhrase _ others _ => by
    rw [memberFlaws, List.map_append, List.map_append, List.map_cons, List.map_cons,
      List.map_append]
    exact (keyFlaws_sublist seen _).append
      (((flaws_sublist depth isPhrase).append ((memberFlaws_sublist depth _ others).cons _)).cons _)

theorem itemFlaws_sublist {used : List Token} {items : List Phrase} (depth : Nat) :
    AreItemPhrases used items →
      ((itemFlaws depth items).map Defect.place).Sublist (used.map Token.place)
  | .none => .slnil
  | .one isPhrase _ => by
    rw [itemFlaws, itemFlaws, List.append_nil, List.map_append]
    exact (flaws_sublist depth isPhrase).trans (List.sublist_append_left _ _)
  | .more isPhrase _ others _ => by
    rw [itemFlaws, List.map_append, List.map_append]
    exact (flaws_sublist depth isPhrase).append ((itemFlaws_sublist depth others).cons _)

end

theorem Place.before_of_notAfter {p q : Place} (h : p.notAfter q = true) (ne : p ≠ q) :
    p.Before q := by
  rcases notAfter_iff.1 h with line | ⟨line, column⟩
  · exact .inl line
  · refine .inr ⟨line, Nat.lt_of_le_of_ne column fun same => ne ?_⟩
    cases p
    cases q
    exact Place.mk.injEq .. ▸ ⟨line, same⟩

theorem Place.Before.ne {p q : Place} (h : p.Before q) : p ≠ q := by
  rintro rfl
  exact h.not_notAfter p.notAfter_refl

theorem Defect.inOrder_perm (ds : List Defect) : (inOrder ds).Perm ds :=
  List.mergeSort_perm ds _

theorem Defect.pairwise_inOrder (ds : List Defect) :
    (inOrder ds).Pairwise fun d e => d.place.notAfter e.place = true :=
  List.pairwise_mergeSort (fun d e f => Place.notAfter_trans d.place e.place f.place)
    (fun d e => Place.notAfter_total d.place e.place) ds

/-- Sorting defects that are found in some order gives them as they stand in the text. -/
theorem Defect.inOrder_eq_of_perm {found ordered : List Defect} (h : found.Perm ordered)
    (isOrdered : ordered.Pairwise fun d e => d.place.Before e.place) :
    inOrder found = ordered := by
  have perm : (inOrder found).Perm ordered := (inOrder_perm found).trans h
  have apart : (inOrder found).Pairwise fun d e => d.place ≠ e.place :=
    (perm.pairwise_iff Ne.symm).2 (isOrdered.imp Place.Before.ne)
  have strict := ((pairwise_inOrder found).and apart).imp
    fun {d e} both => Place.before_of_notAfter both.1 both.2
  refine perm.eq_of_pairwise (fun d e _ _ de ed => ?_) strict isOrdered
  exact absurd ed.notAfter de.not_notAfter

/-! ### Whole texts -/

/-- The tokens of a phrase are read as a whole document, and its flaws are found. -/
theorem readDocument_of_isPhrase {tokens : List Token} {p : Phrase} (h : IsPhrase tokens p)
    (stop : Place) :
    ∃ v found, readDocument stop tokens = some ⟨v, found, []⟩ ∧ found.Perm (p.flaws 0) := by
  obtain ⟨v, found, read, perm⟩ := (Finds.all stop (2 * tokens.length + 2)).value 0 h
    (Nat.le_add_right _ 2) []
  rw [List.append_nil] at read
  refine ⟨v, found, ?_, perm⟩
  rw [readDocument, read]
  rfl

/-- The report on a text that has the form of a value.  Its containers at the first depth that is
too great are reported, each once at its opening mark, and in its objects at lesser depths every
key that has come before, and nothing else; the report is in the order of the text, and the text is
accepted exactly if it is empty. -/
theorem report_of_isPhrase {text : String} {tokens : List Token} {p : Phrase}
    (placed : PlacedTokens .start (contentChars text) tokens) (isPhrase : IsPhrase tokens p) :
    (∀ d, d ∈ p.flaws 0 ↔ Flaw 0 p d) ∧
      (p.flaws 0).Pairwise (fun d e => d.place.Before e.place) ∧
      ((∃ v, parse text = .ok v) ↔ p.flaws 0 = []) ∧
      (p.flaws 0 ≠ [] → parse text = .error (p.flaws 0)) := by
  have ordered : (p.flaws 0).Pairwise fun d e => d.place.Before e.place := by
    have places := List.pairwise_map.2 placed.pairwise.1
    exact List.pairwise_map.1 (places.sublist (flaws_sublist 0 isPhrase))
  obtain ⟨isTokens, isDefects⟩ := scan_of_placedTokens placed
  refine ⟨fun d => p.mem_flaws_iff (Nat.zero_le _), ordered, ?_⟩
  rw [parse]
  generalize scan (contentChars text) = s at isTokens isDefects
  obtain ⟨v, found, read, perm⟩ := readDocument_of_isPhrase isPhrase s.stop
  simp only [isTokens, isDefects, read, List.nil_append, Defect.inOrder_eq_of_perm perm ordered]
  have isEmpty : found.isEmpty = true ↔ p.flaws 0 = [] := by
    rw [List.isEmpty_iff, ← List.length_eq_zero_iff, perm.length_eq, List.length_eq_zero_iff]
  refine ⟨⟨?_, fun none => ⟨v, if_pos (isEmpty.2 none)⟩⟩, fun some => if_neg (some ∘ isEmpty.1)⟩
  rintro ⟨w, accepted⟩
  by_contra some
  rw [if_neg (some ∘ isEmpty.1)] at accepted
  cases accepted

/-! ### A deep text -/

/-- A phrase inside lists of one item each. -/
def Phrase.nested : (openings : List Place) → Phrase → Phrase
  | [], p => p
  | opening :: rest, p => .list opening [nested rest p]

/-- A phrase may stand between as many closing brackets as opening ones. -/
theorem isPhrase_nested {openings closings : List Place} {tokens : List Token} {p : Phrase}
    (h : IsPhrase tokens p) (length : openings.length = closings.length) :
    IsPhrase (openings.map (⟨.mark .openBracket, ·⟩) ++ tokens
      ++ closings.reverse.map (⟨.mark .closeBracket, ·⟩)) (p.nested openings) := by
  induction openings generalizing closings with
  | nil =>
    obtain rfl := List.length_eq_zero_iff.1 length.symm
    rw [List.map_nil, List.nil_append, List.reverse_nil, List.map_nil, List.append_nil]
    exact h
  | cons opening openings ih =>
    cases closings with
    | nil => cases length
    | cons closing closings =>
      have inner := ih (Nat.succ.inj length)
      have items := @AreItemPhrases.one _ [] _ inner .none
      have outer := @IsPhrase.list ⟨.mark .openBracket, opening⟩ ⟨.mark .closeBracket, closing⟩
        _ _ rfl items rfl
      simpa [Phrase.nested] using outer

/-- A text with a key that comes again and sixty-six containers inside each other.  The last but one
of these is too deep, so the keys of the last are not looked at. -/
def deepText : String :=
  "\x7b\"a\":1,\"a\":" ++ .ofList (List.replicate 64 '[') ++ "\x7b\"b\":1,\"b\":2\x7d"
    ++ .ofList (List.replicate 64 ']') ++ "\x7d"

/-- The two flaws of this text. -/
theorem report_of_deepText :
    ∃ tokens p, PlacedTokens .start (contentChars deepText) tokens ∧ IsPhrase tokens p ∧
      ∃ defects, parse deepText = .error defects ∧ defects.map Defect.message =
        ["1:8: duplicate key 'a'", "1:75: maximum nesting depth exceeded (64)"] := by
  have inner := @IsPhrase.object ⟨.mark .openBrace, ⟨1, 76⟩⟩ ⟨.mark .closeBrace, ⟨1, 88⟩⟩ _ _ rfl
    (@AreMemberPhrases.more ⟨.text "b", ⟨1, 77⟩⟩ ⟨.mark .colon, ⟨1, 80⟩⟩ ⟨.mark .comma, ⟨1, 82⟩⟩
      "b" _ _ _ _ rfl rfl (@IsPhrase.scalar ⟨.number (.integer 1), ⟨1, 81⟩⟩ rfl) rfl
      (@AreMemberPhrases.one ⟨.text "b", ⟨1, 83⟩⟩ ⟨.mark .colon, ⟨1, 86⟩⟩ "b" _ [] _ rfl rfl
        (@IsPhrase.scalar ⟨.number (.integer 2), ⟨1, 87⟩⟩ rfl) .none) (List.cons_ne_nil _ _)) rfl
  have lists := isPhrase_nested inner
    (show ((List.range 64).map fun i => (⟨1, 12 + i⟩ : Place)).length
      = ((List.range 64).map fun i => (⟨1, 152 - i⟩ : Place)).length by simp)
  have outer := @IsPhrase.object ⟨.mark .openBrace, ⟨1, 1⟩⟩ ⟨.mark .closeBrace, ⟨1, 153⟩⟩ _ _ rfl
    (@AreMemberPhrases.more ⟨.text "a", ⟨1, 2⟩⟩ ⟨.mark .colon, ⟨1, 5⟩⟩ ⟨.mark .comma, ⟨1, 7⟩⟩
      "a" _ _ _ _ rfl rfl (@IsPhrase.scalar ⟨.number (.integer 1), ⟨1, 6⟩⟩ rfl) rfl
      (@AreMemberPhrases.one ⟨.text "a", ⟨1, 8⟩⟩ ⟨.mark .colon, ⟨1, 11⟩⟩ "a" _ [] _ rfl rfl
        lists .none) (List.cons_ne_nil _ _)) rfl
  refine ⟨_, _, ?placed, outer, _, (report_of_isPhrase ?placed outer).2.2.2 ?flawed, ?messages⟩
  case placed => exact placedTokens_iff.2 ⟨by decide +kernel, by decide +kernel⟩
  case flawed => decide +kernel
  case messages => decide +kernel

end Telemetry.Json
