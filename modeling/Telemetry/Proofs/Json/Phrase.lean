import Telemetry.Proofs.Json.Repair

/-!
# Values as written

A text may have the form of a value and still be refused: its containers may lie too deep, and the
keys of an object may come again.  A phrase is what such a text says, with the places that these
flaws are reported at.

* `PlacedTokens` cuts a text into items and gives the tokens that these leave, each at its place;
* `IsPhrase` is the grammar of values, with neither a bound on the depth nor a rule about keys;
* `Phrase.Flaw` says what is wrong with a phrase, `Phrase.flaws` lists it in the order of the text.
-/

namespace Telemetry.Json

open Grammar

/-! ### Tokens at their places -/

/-- A text that begins at a place cut into items, with the tokens that these leave. -/
inductive PlacedTokens : Place → List Char → List Token → Prop
  | nil {place : Place} : PlacedTokens place [] []
  | cons {place : Place} {cs rest : List Char} {left : Option Lexeme} {tokens : List Token} :
      Piece cs left rest → PlacedTokens (place.past cs) rest tokens →
      PlacedTokens place (cs ++ rest) ((left.map fun lexeme => ⟨lexeme, place⟩).toList ++ tokens)

/-- A text that can be cut into items is scanned to the tokens that these leave. -/
theorem Scan.run_of_placedTokens {place : Place} {cs : List Char} {tokens : List Token}
    (h : PlacedTokens place cs tokens) (s : Scan) (isPlace : s.stop = place) :
    (run s 0 cs).tokens = tokens.reverse ++ s.tokens ∧ (run s 0 cs).defects = s.defects := by
  induction h generalizing s with
  | nil => exact ⟨rfl, rfl⟩
  | @cons place cs rest left tokens piece _ ih =>
    obtain ⟨c, more, rfl, read⟩ := Item.read_of_piece piece
    rw [List.cons_append, run_cons, read s.stop, List.take_left, List.drop_left]
    obtain ⟨isTokens, defects⟩ := ih (s.pass ⟨left, [], more.length⟩ (c :: more))
      (by rw [pass, isPlace])
    refine ⟨?_, defects⟩
    rw [isTokens, List.reverse_append, List.append_assoc]
    cases left with
    | none => rfl
    | some lexeme => rw [← isPlace]; rfl

theorem scan_of_placedTokens {cs : List Char} {tokens : List Token}
    (h : PlacedTokens .start cs tokens) : (scan cs).tokens = tokens ∧ (scan cs).defects = [] := by
  obtain ⟨isTokens, isDefects⟩ := Scan.run_of_placedTokens h ⟨[], [], .start⟩ rfl
  refine ⟨?_, ?_⟩
  · rw [scan, isTokens, List.append_nil, List.reverse_reverse]
  · rw [scan, isDefects, List.reverse_nil]

theorem exists_placedTokens {cs : List Char} {ls : List Lexeme} (h : Tokens cs ls)
    (place : Place) : ∃ tokens, PlacedTokens place cs tokens := by
  induction h generalizing place with
  | nil => exact ⟨[], .nil⟩
  | @cons cs rest left ls piece _ ih =>
    obtain ⟨tokens, placed⟩ := ih (place.past cs)
    exact ⟨_, .cons piece placed⟩

/-- The tokens of a text are those that it is scanned to, if it is scanned without a defect. -/
theorem placedTokens_iff {cs : List Char} {tokens : List Token} :
    PlacedTokens .start cs tokens ↔ (scan cs).tokens = tokens ∧ (scan cs).defects = [] := by
  refine ⟨scan_of_placedTokens, ?_⟩
  rintro ⟨rfl, sound⟩
  obtain ⟨tokens, placed⟩ := exists_placedTokens (scan_iff_tokens.1 ⟨sound, rfl⟩) .start
  rwa [(scan_of_placedTokens placed).1]

/-- The tokens of a text stand one after the other. -/
theorem PlacedTokens.pairwise {place : Place} {cs : List Char} {tokens : List Token}
    (h : PlacedTokens place cs tokens) :
    tokens.Pairwise (fun s t => s.place.Before t.place) ∧
      ∀ t ∈ tokens, t.place = place ∨ place.Before t.place := by
  induction h with
  | nil => exact ⟨.nil, List.forall_mem_nil _⟩
  | @cons place cs rest left tokens piece _ ih =>
    obtain ⟨ordered, behind⟩ := ih
    have moved := place.before_past (ne_nil_of_piece piece)
    have later : ∀ t ∈ tokens, place.Before t.place := by
      intro t ht
      rcases behind t ht with at' | further
      · rwa [at']
      · exact moved.trans further
    cases left with
    | none => exact ⟨ordered, fun t ht => .inr (later t ht)⟩
    | some lexeme =>
      refine ⟨List.pairwise_cons.2 ⟨later, ordered⟩, List.forall_mem_cons.2 ⟨.inl rfl, ?_⟩⟩
      exact fun t ht => .inr (later t ht)

/-! ### Phrases -/

/-- A key as written. -/
structure Key where
  place : Place
  name : String
  deriving DecidableEq, Repr

/-- What is wrong with a key behind those that have been `seen` in its object. -/
def Key.flaws (seen : List String) (key : Key) : List Defect :=
  if key.name ∈ seen then [⟨key.place, .duplicateKey key.name⟩] else []

/-- A value as written.  A container has the place of its opening mark and everything that stands in
it, keys that come again too. -/
inductive Phrase where
  | scalar
  | object (opening : Place) (members : List (Key × Phrase))
  | list (opening : Place) (items : List Phrase)

mutual

/-- The tokens of a phrase. -/
inductive IsPhrase : List Token → Phrase → Prop
  | scalar {t : Token} : t.lexeme.isScalar = true → IsPhrase [t] .scalar
  | object {first last : Token} {tokens : List Token} {members : List (Key × Phrase)} :
      first.lexeme = .mark .openBrace → AreMemberPhrases tokens members →
      last.lexeme = .mark .closeBrace →
      IsPhrase (first :: (tokens ++ [last])) (.object first.place members)
  | list {first last : Token} {tokens : List Token} {items : List Phrase} :
      first.lexeme = .mark .openBracket → AreItemPhrases tokens items →
      last.lexeme = .mark .closeBracket →
      IsPhrase (first :: (tokens ++ [last])) (.list first.place items)

/-- The tokens between two braces. -/
inductive AreMemberPhrases : List Token → List (Key × Phrase) → Prop
  | none : AreMemberPhrases [] []
  | one {t colon : Token} {name : String} {tokens trailing : List Token} {p : Phrase} :
      t.lexeme = .text name → colon.lexeme = .mark .colon → IsPhrase tokens p →
      Trailing (lexemes trailing) →
      AreMemberPhrases (t :: colon :: (tokens ++ trailing)) [(⟨t.place, name⟩, p)]
  | more {t colon comma : Token} {name : String} {tokens rest : List Token} {p : Phrase}
      {others : List (Key × Phrase)} :
      t.lexeme = .text name → colon.lexeme = .mark .colon → IsPhrase tokens p →
      comma.lexeme = .mark .comma → AreMemberPhrases rest others → others ≠ [] →
      AreMemberPhrases (t :: colon :: (tokens ++ comma :: rest)) ((⟨t.place, name⟩, p) :: others)

/-- The tokens between two brackets. -/
inductive AreItemPhrases : List Token → List Phrase → Prop
  | none : AreItemPhrases [] []
  | one {tokens trailing : List Token} {p : Phrase} :
      IsPhrase tokens p → Trailing (lexemes trailing) → AreItemPhrases (tokens ++ trailing) [p]
  | more {comma : Token} {tokens rest : List Token} {p : Phrase} {others : List Phrase} :
      IsPhrase tokens p → comma.lexeme = .mark .comma → AreItemPhrases rest others →
      others ≠ [] → AreItemPhrases (tokens ++ comma :: rest) (p :: others)

end

/-! ### Flaws -/

namespace Phrase

/-- The place of the opening mark of a container. -/
def opening? : Phrase → Option Place
  | .scalar => none
  | .object opening _ => some opening
  | .list opening _ => some opening

/-- Whether `q` stands in the phrase, inside `depth` of its containers. -/
inductive Within : Phrase → (depth : Nat) → (q : Phrase) → Prop
  | self {p : Phrase} : Within p 0 p
  | member {opening : Place} {members : List (Key × Phrase)} {m : Key × Phrase} {depth : Nat}
      {q : Phrase} : m ∈ members → Within m.2 depth q →
      Within (.object opening members) (depth + 1) q
  | item {opening : Place} {items : List Phrase} {p : Phrase} {depth : Nat} {q : Phrase} :
      p ∈ items → Within p depth q → Within (.list opening items) (depth + 1) q

/-- What is wrong with a phrase that stands inside `outer` containers.  A container is too deep if
exactly `maxDepth` others are around it, and inside fewer containers a key is wrong if it has come
before in its object. -/
inductive Flaw (outer : Nat) (p : Phrase) : Defect → Prop
  | tooDeep {depth : Nat} {q : Phrase} {place : Place} : p.Within depth q →
      outer + depth = maxDepth → q.opening? = some place → Flaw outer p ⟨place, .tooDeep⟩
  | duplicate {depth : Nat} {opening : Place} {before after : List (Key × Phrase)} {key : Key}
      {q : Phrase} : p.Within depth (.object opening (before ++ (key, q) :: after)) →
      outer + depth < maxDepth → (∃ m ∈ before, m.1.name = key.name) →
      Flaw outer p ⟨key.place, .duplicateKey key.name⟩

mutual

/-- What is wrong with a phrase inside `depth` containers, in the order of the text. -/
def flaws (depth : Nat) : Phrase → List Defect
  | .scalar => []
  | .object opening members =>
    if maxDepth ≤ depth then [⟨opening, .tooDeep⟩] else memberFlaws (depth + 1) [] members
  | .list opening items =>
    if maxDepth ≤ depth then [⟨opening, .tooDeep⟩] else itemFlaws (depth + 1) items

/-- What is wrong with the members of an object whose keys have been `seen` so far. -/
def memberFlaws (depth : Nat) (seen : List String) : List (Key × Phrase) → List Defect
  | [] => []
  | (key, p) :: rest =>
    key.flaws seen ++ (flaws depth p ++ memberFlaws depth (key.name :: seen) rest)

/-- What is wrong with the items of a list. -/
def itemFlaws (depth : Nat) : List Phrase → List Defect
  | [] => []
  | p :: rest => flaws depth p ++ itemFlaws depth rest

end

theorem mem_keyFlaws_iff {seen : List String} {key : Key} {d : Defect} :
    d ∈ key.flaws seen ↔ key.name ∈ seen ∧ d = ⟨key.place, .duplicateKey key.name⟩ := by
  rw [Key.flaws]
  split
  · rename_i again
    simp [again]
  · rename_i new
    simp [new]

theorem mem_itemFlaws_iff {depth : Nat} {items : List Phrase} {d : Defect} :
    d ∈ itemFlaws depth items ↔ ∃ p ∈ items, d ∈ p.flaws depth := by
  induction items with
  | nil => simp [itemFlaws]
  | cons p rest ih => simp [itemFlaws, ih]

theorem mem_memberFlaws_iff {depth : Nat} {seen : List String} {members : List (Key × Phrase)}
    {d : Defect} :
    d ∈ memberFlaws depth seen members ↔
      (∃ before key q after, members = before ++ (key, q) :: after ∧
        (key.name ∈ seen ∨ ∃ m ∈ before, m.1.name = key.name) ∧
        d = ⟨key.place, .duplicateKey key.name⟩) ∨
      ∃ m ∈ members, d ∈ m.2.flaws depth := by
  induction members generalizing seen with
  | nil => simp [memberFlaws]
  | cons m rest ih =>
    obtain ⟨key, p⟩ := m
    rw [memberFlaws, List.mem_append, List.mem_append, mem_keyFlaws_iff, ih]
    constructor
    · rintro (⟨again, here⟩ | inside | ⟨before, key', q, after, rfl, again, rfl⟩ | ⟨m, hm, inside⟩)
      · exact .inl ⟨[], key, p, rest, rfl, .inl again, here⟩
      · exact .inr ⟨(key, p), List.mem_cons_self, inside⟩
      · refine .inl ⟨(key, p) :: before, key', q, after, rfl, ?_, rfl⟩
        rcases again with again | ⟨m, hm, same⟩
        · rcases List.mem_cons.1 again with same | again
          · exact .inr ⟨(key, p), List.mem_cons_self, same.symm⟩
          · exact .inl again
        · exact .inr ⟨m, List.mem_cons_of_mem _ hm, same⟩
      · exact .inr ⟨m, List.mem_cons_of_mem _ hm, inside⟩
    · rintro (⟨before, key', q, after, split, again, rfl⟩ | ⟨m, hm, inside⟩)
      · cases before with
        | nil =>
          obtain ⟨⟨rfl, rfl⟩, rfl⟩ : (key = key' ∧ p = q) ∧ rest = after := by simpa using split
          rcases again with again | ⟨m, hm, -⟩
          · exact .inl ⟨again, rfl⟩
          · cases hm
        | cons m before =>
          obtain ⟨rfl, rfl⟩ := List.cons.inj split
          refine .inr (.inr (.inl ⟨before, key', q, after, rfl, ?_, rfl⟩))
          rcases again with again | ⟨m, hm, same⟩
          · exact .inl (List.mem_cons_of_mem _ again)
          · rcases List.mem_cons.1 hm with rfl | hm
            · exact .inl (same ▸ List.mem_cons_self)
            · exact .inr ⟨m, hm, same⟩
      · rcases List.mem_cons.1 hm with rfl | hm
        · exact .inr (.inl inside)
        · exact .inr (.inr (.inr ⟨m, hm, inside⟩))

variable {outer : Nat} {opening : Place} {d : Defect}

/-- The only flaw of a container at the depth that is too great is that it is there. -/
theorem flaw_maxDepth_iff {p : Phrase} :
    Flaw maxDepth p d ↔ ∃ place, p.opening? = some place ∧ d = ⟨place, .tooDeep⟩ := by
  constructor
  · intro h
    cases h with
    | @tooDeep depth q place within isDepth isOpening =>
      obtain rfl : depth = 0 := by omega
      cases within
      exact ⟨place, isOpening, rfl⟩
    | duplicate _ isDepth => omega
  · rintro ⟨place, isOpening, rfl⟩
    exact .tooDeep .self rfl isOpening

theorem flaw_scalar : ¬ Flaw outer .scalar d := by
  intro h
  cases h with
  | tooDeep within _ isOpening =>
    cases within
    cases isOpening
  | duplicate within => cases within

theorem flaw_list_iff {items : List Phrase} (shallow : outer < maxDepth) :
    Flaw outer (.list opening items) d ↔ ∃ p ∈ items, Flaw (outer + 1) p d := by
  constructor
  · intro h
    cases h with
    | tooDeep within isDepth isOpening =>
      cases within with
      | self => omega
      | item hp within => exact ⟨_, hp, .tooDeep within (by omega) isOpening⟩
    | duplicate within isDepth again =>
      cases within with
      | item hp within => exact ⟨_, hp, .duplicate within (by omega) again⟩
  · rintro ⟨p, hp, h⟩
    cases h with
    | tooDeep within isDepth isOpening => exact .tooDeep (.item hp within) (by omega) isOpening
    | duplicate within isDepth again => exact .duplicate (.item hp within) (by omega) again

theorem flaw_object_iff {members : List (Key × Phrase)} (shallow : outer < maxDepth) :
    Flaw outer (.object opening members) d ↔
      (∃ before key q after, members = before ++ (key, q) :: after ∧
        (∃ m ∈ before, m.1.name = key.name) ∧ d = ⟨key.place, .duplicateKey key.name⟩) ∨
      ∃ m ∈ members, Flaw (outer + 1) m.2 d := by
  constructor
  · intro h
    cases h with
    | tooDeep within isDepth isOpening =>
      cases within with
      | self => omega
      | member hm within => exact .inr ⟨_, hm, .tooDeep within (by omega) isOpening⟩
    | duplicate within isDepth again =>
      cases within with
      | self => exact .inl ⟨_, _, _, _, rfl, again, rfl⟩
      | member hm within => exact .inr ⟨_, hm, .duplicate within (by omega) again⟩
  · rintro (⟨before, key, q, after, rfl, again, rfl⟩ | ⟨m, hm, h⟩)
    · exact .duplicate .self shallow again
    · cases h with
      | tooDeep within isDepth isOpening =>
        exact .tooDeep (.member hm within) (by omega) isOpening
      | duplicate within isDepth again => exact .duplicate (.member hm within) (by omega) again

/-- The list of flaws is complete, and holds nothing else. -/
theorem mem_flaws_iff (p : Phrase) {outer : Nat} (shallow : outer ≤ maxDepth) {d : Defect} :
    d ∈ p.flaws outer ↔ Flaw outer p d := by
  rcases Nat.lt_or_eq_of_le shallow with less | rfl
  · match p with
    | .scalar => exact ⟨fun h => (List.not_mem_nil h).elim, fun h => (flaw_scalar h).elim⟩
    | .object opening members =>
      have each : ∀ m ∈ members, d ∈ m.2.flaws (outer + 1) ↔ Flaw (outer + 1) m.2 d :=
        fun m hm => mem_flaws_iff m.2 less
      rw [flaws, if_neg (Nat.not_le.2 less), mem_memberFlaws_iff, flaw_object_iff less]
      simp only [List.not_mem_nil, false_or]
      exact or_congr_right (exists_congr fun m => and_congr_right fun hm => each m hm)
    | .list opening items =>
      have each : ∀ p ∈ items, d ∈ p.flaws (outer + 1) ↔ Flaw (outer + 1) p d :=
        fun p hp => mem_flaws_iff p less
      rw [flaws, if_neg (Nat.not_le.2 less), mem_itemFlaws_iff, flaw_list_iff less]
      exact exists_congr fun p => and_congr_right fun hp => each p hp
  · rw [flaw_maxDepth_iff]
    cases p with
    | scalar => simp [flaws, opening?]
    | object opening members => simp [flaws, opening?]
    | list opening items => simp [flaws, opening?]
termination_by p
decreasing_by
  · have inside := List.sizeOf_lt_of_mem hm
    obtain ⟨key, q⟩ := m
    simp only [Prod.mk.sizeOf_spec] at inside
    simp only [object.sizeOf_spec]
    omega
  · have inside := List.sizeOf_lt_of_mem hp
    simp only [list.sizeOf_spec]
    omega

end Phrase

end Telemetry.Json
