import Telemetry.Proofs.Json.Walk

/-!
# Reading advances

The reader never goes back, and every turn of its loops that is not the last one uses up a token.
So its steps are bounded by the tokens that it uses up.

* `skipTo_suffix`, `skipContainer_suffix` and `afterEntry_suffix`: what is left is what the tokens
  end with;
* `Thrifty` says of a walk how many steps it may take for the tokens that it uses up, and
  `Thrifty.all` that every walk keeps to it;
* `advances` puts this together for every list of tokens.
-/

namespace Telemetry.Json

/-! ### Passing over tokens -/

/-- What is left of a list that does not begin as it did is left of its tail. -/
theorem suffix_tail {α : Type} {xs ys : List α} (h : xs <:+ ys) (shorter : xs.length < ys.length) :
    xs <:+ ys.tail := by
  cases ys with
  | nil => cases shorter
  | cons y ys =>
    rcases List.suffix_cons_iff.1 h with same | behind
    · rw [same] at shorter
      exact absurd shorter (Nat.lt_irrefl _)
    · exact behind

theorem skipTo_suffix (stops : List Mark) (nesting : Nat) (tokens : List Token) :
    skipTo stops nesting tokens <:+ tokens := by
  fun_induction skipTo stops nesting tokens with
  | case1 => exact List.suffix_refl _
  | case2 => exact List.suffix_refl _
  | case3 _ t rest _ _ ih | case4 _ t rest _ _ _ ih | case5 _ t rest _ _ _ ih =>
    exact ih.trans (List.suffix_cons t rest)

theorem skipContainer_suffix (nesting : Nat) (tokens : List Token) :
    skipContainer nesting tokens <:+ tokens := by
  fun_induction skipContainer nesting tokens with
  | case1 => exact List.suffix_refl _
  | case3 _ t rest => exact List.suffix_cons t rest
  | case2 _ t rest _ ih | case4 _ t rest _ _ _ ih | case5 _ t rest _ _ ih =>
    exact ih.trans (List.suffix_cons t rest)

/-- Where the next token is none of the marks, it is passed over. -/
theorem skipTo_cons_suffix {stops : List Mark} {t : Token} (noStop : stops.any t.isMark = false)
    (rest : List Token) : skipTo stops 0 (t :: rest) <:+ rest := by
  rw [skipTo, noStop, if_neg (by simp)]
  split
  · exact skipTo_suffix _ _ _
  · split
    · exact skipTo_suffix _ _ _
    · exact skipTo_suffix _ _ _

/-- A container that begins here is passed over with its opening mark. -/
theorem skipContainer_cons_suffix {t : Token} (h : t.opens = true) (nesting : Nat)
    (rest : List Token) : skipContainer nesting (t :: rest) <:+ rest := by
  rw [skipContainer, if_pos h]
  exact skipContainer_suffix _ _

theorem skipToTurns_add_length (stops : List Mark) (nesting : Nat) (tokens : List Token) :
    skipToTurns stops nesting tokens + (skipTo stops nesting tokens).length = tokens.length := by
  fun_induction skipTo stops nesting tokens with
  | case1 => rfl
  | case2 _ _ _ stands => rw [skipToTurns, if_pos stands, Nat.zero_add]
  | case3 _ t rest notStop opens ih =>
    rw [skipToTurns, if_neg notStop, if_pos opens, List.length_cons, ← ih]
    omega
  | case4 _ t rest notStop opens closes ih =>
    rw [skipToTurns, if_neg notStop, if_neg opens, if_pos closes, List.length_cons, ← ih]
    omega
  | case5 _ t rest notStop opens closes ih =>
    rw [skipToTurns, if_neg notStop, if_neg opens, if_neg closes, List.length_cons, ← ih]
    omega

theorem skipContainerTurns_add_length (nesting : Nat) (tokens : List Token) :
    skipContainerTurns nesting tokens + (skipContainer nesting tokens).length =
      tokens.length := by
  fun_induction skipContainer nesting tokens with
  | case1 => rfl
  | case2 _ t rest opens ih =>
    rw [skipContainerTurns, if_pos opens, List.length_cons, ← ih]
    omega
  | case3 _ t rest opens closes outermost =>
    rw [skipContainerTurns, if_neg opens, if_pos closes, if_pos outermost, List.length_cons,
      Nat.add_comm]
  | case4 _ t rest opens closes inner ih =>
    rw [skipContainerTurns, if_neg opens, if_pos closes, if_neg inner, List.length_cons, ← ih]
    omega
  | case5 _ t rest opens closes ih =>
    rw [skipContainerTurns, if_neg opens, if_neg closes, List.length_cons, ← ih]
    omega

/-! ### Between two entries -/

theorem stepOver_suffix (stop : Place) (container : Container) (tokens : List Token) :
    (stepOver stop container tokens).rest <:+ tokens := by
  cases tokens with
  | nil => exact List.suffix_refl _
  | cons t rest =>
    rw [stepOver]
    split
    · split
      · exact (List.drop_suffix 1 rest).trans (List.suffix_cons t rest)
      · exact List.suffix_cons t rest
    · exact List.suffix_cons t rest

/-- No entry begins with a comma or the closing mark. -/
theorem startsEntry_eq_false_of_any {container : Container} {t : Token}
    (h : [Mark.comma, container.closing].any t.isMark = true) :
    container.startsEntry t = false := by
  obtain ⟨lexeme, place⟩ := t
  simp only [List.any_cons, List.any_nil, Bool.or_false, Bool.or_eq_true, Token.isMark,
    beq_iff_eq] at h
  rcases h with rfl | rfl <;> cases container <;> rfl

/-- Where neither a comma, nor the closing mark, nor an entry stands, at least one token is passed
over, and then it goes on as before. -/
theorem afterEntry_cons (stop : Place) {container : Container} {t : Token}
    (noMark : (t.isMark .comma || t.isMark container.closing) = false)
    (noEntry : container.startsEntry t = false) (rest : List Token) :
    skipTo [.comma, container.closing] 0 (t :: rest) <:+ rest ∧
      afterEntry stop container (t :: rest) =
        (afterEntry stop container (skipTo [.comma, container.closing] 0 (t :: rest))).behind
          [⟨t.place, .commaExpected⟩] := by
  have noStop : [Mark.comma, container.closing].any t.isMark = false := by simpa using noMark
  refine ⟨skipTo_cons_suffix noStop rest, ?_⟩
  have stands := @any_of_mem_head?_skipTo [.comma, container.closing] 0 (t :: rest)
  rw [afterEntry, noMark, noEntry]
  dsimp only
  rw [if_neg Bool.false_ne_true, if_neg Bool.false_ne_true]
  congr 1
  cases isRest : skipTo [.comma, container.closing] 0 (t :: rest) with
  | nil => rfl
  | cons u others =>
    rw [isRest] at stands
    have isStop : (u.isMark .comma || u.isMark container.closing) = true := by
      simpa using stands rfl
    rw [afterEntry, isStop, if_pos rfl]

theorem afterEntry_suffix (stop : Place) (container : Container) (tokens : List Token) :
    (afterEntry stop container tokens).rest <:+ tokens := by
  cases tokens with
  | nil => exact stepOver_suffix stop container []
  | cons t rest =>
    rw [afterEntry]
    split
    · exact stepOver_suffix stop container (t :: rest)
    · dsimp only
      split
      · exact List.suffix_refl _
      · exact (stepOver_suffix stop container _).trans (skipTo_suffix _ 0 _)

/-- If another entry follows, a token has gone, unless the entry begins with the next token. -/
theorem afterEntry_suffix_tail {stop : Place} {container : Container} {tokens : List Token}
    (h : (afterEntry stop container tokens).result = true)
    (first : ∀ t ∈ tokens.head?, container.startsEntry t = false) :
    (afterEntry stop container tokens).rest <:+ tokens.tail :=
  suffix_tail (afterEntry_suffix stop container tokens) (length_afterEntry_lt h first)

/-- The turns behind an entry are paid for by the tokens that they use up, but for one; if another
entry follows a comma, five steps more are paid for. -/
theorem afterEntryTurns_le (stop : Place) (container : Container) (tokens : List Token) :
    afterEntryTurns container tokens + 6 * (afterEntry stop container tokens).rest.length ≤
        6 * tokens.length + 1 ∧
      ((afterEntry stop container tokens).result = true →
        (∀ t ∈ tokens.head?, container.startsEntry t = false) →
        afterEntryTurns container tokens + 6 * (afterEntry stop container tokens).rest.length + 5 ≤
          6 * tokens.length) := by
  have shorter := length_afterEntry_le stop container tokens
  have short := @length_afterEntry_lt stop container tokens
  by_cases once : afterEntryTurns container tokens = 1
  · rw [once]
    refine ⟨by omega, fun goesOn first => ?_⟩
    have := short goesOn first
    omega
  · cases tokens with
    | nil => exact absurd rfl once
    | cons t rest =>
      have passing : ¬ (t.isMark .comma || t.isMark container.closing ||
          container.startsEntry t) = true := by
        intro stands
        rw [afterEntryTurns, if_pos stands] at once
        exact once rfl
      simp only [Bool.or_eq_true, not_or, Bool.not_eq_true] at passing
      obtain ⟨⟨noComma, noClosing⟩, noEntry⟩ := passing
      have noMark : (t.isMark .comma || t.isMark container.closing) = false := by
        rw [noComma, noClosing]
        rfl
      obtain ⟨passed, goesOn⟩ := afterEntry_cons stop noMark noEntry rest
      have turns : afterEntryTurns container (t :: rest) =
          1 + skipToTurns [.comma, container.closing] 0 (t :: rest) + 1 := by
        simp [afterEntryTurns, noComma, noClosing, noEntry]
      have paid := skipToTurns_add_length [.comma, container.closing] 0 (t :: rest)
      have stands := @any_of_mem_head?_skipTo [.comma, container.closing] 0 (t :: rest)
      have atLeastOne := passed.length_le
      rw [turns, goesOn, Reading.rest_behind, Reading.result_behind]
      generalize skipTo [.comma, container.closing] 0 (t :: rest) = skipped at *
      have left := length_afterEntry_le stop container skipped
      rw [List.length_cons] at paid ⊢
      refine ⟨by omega, fun another _ => ?_⟩
      have used := length_afterEntry_lt another fun u isHead =>
        startsEntry_eq_false_of_any (stands isHead)
      omega

/-! ### The steps of a walk -/

/-- What a walk with `fuel` keeps to: it leaves what the tokens end with, and takes no more than six
steps for each token that it uses up, but for a few.  A value uses a token up unless none can begin
here, and a member unless it is missing. -/
structure Thrifty (stop : Place) (fuel : Nat) : Prop where
  value : ∀ depth tokens w, walkValue stop fuel depth tokens = some w →
    w.deepest ≤ max depth maxDepth + 1 ∧
      (w.rest <:+ tokens.tail ∧ w.steps + 6 * w.rest.length + 2 ≤ 6 * tokens.length ∨
        w.rest = tokens ∧ w.steps = 1 ∧ ∀ t ∈ tokens.head?, t.startsValue = false)
  members : ∀ depth tokens w, walkMembers stop fuel depth tokens = some w →
    w.deepest ≤ max depth maxDepth + 1 ∧ w.rest <:+ tokens ∧
      w.steps + 6 * w.rest.length ≤ 6 * tokens.length + 3
  member : ∀ depth t rest w, walkMember stop fuel depth (t :: rest) = some w →
    w.deepest ≤ max depth maxDepth + 1 ∧
      (w.rest <:+ rest ∧ w.steps + 6 * w.rest.length + 5 ≤ 6 * (rest.length + 1) ∨
        w.rest <:+ t :: rest ∧ w.steps + w.rest.length = rest.length + 1 ∧
          ∀ u ∈ w.rest.head?, u.isText = false)
  items : ∀ depth tokens w, walkItems stop fuel depth tokens = some w →
    w.deepest ≤ max depth maxDepth + 1 ∧ w.rest <:+ tokens ∧
      w.steps + 6 * w.rest.length ≤ 6 * tokens.length + 3

namespace Thrifty

variable {stop : Place} {fuel : Nat}

/-- What is inside a container is paid for with its opening mark. -/
theorem of_inside {depth : Nat} (shallow : ¬ maxDepth ≤ depth) {t : Token} {rest : List Token}
    {inside w : Walk} (deep : inside.deepest ≤ max (depth + 1) maxDepth + 1)
    (suffix : inside.rest <:+ rest)
    (paid : inside.steps + 6 * inside.rest.length ≤ 6 * rest.length + 3)
    (isWalk : inside.behind 1 (depth + 1) = w) :
    w.deepest ≤ max depth maxDepth + 1 ∧
      (w.rest <:+ rest ∧ w.steps + 6 * w.rest.length + 2 ≤ 6 * (t :: rest).length) := by
  subst isWalk
  refine ⟨Nat.max_le.2 ⟨by omega, by omega⟩, suffix, ?_⟩
  simp only [Walk.behind, List.length_cons]
  omega

/-- A container that is too deep is passed over with its opening mark. -/
theorem of_tooDeep {depth : Nat} {t : Token} (opens : t.opens = true)
    {rest : List Token} {w : Walk}
    (isWalk : some (Walk.mk (skipContainer 0 (t :: rest)) (1 + skipContainerTurns 0 (t :: rest))
      (depth + 1)) = some w) :
    w.deepest ≤ max depth maxDepth + 1 ∧
      (w.rest <:+ rest ∧ w.steps + 6 * w.rest.length + 2 ≤ 6 * (t :: rest).length) := by
  cases isWalk
  have suffix := skipContainer_cons_suffix opens 0 rest
  have shorter := suffix.length_le
  have turns := skipContainerTurns_add_length 0 (t :: rest)
  rw [List.length_cons] at turns
  refine ⟨Nat.succ_le_succ (Nat.le_max_left _ _), suffix, ?_⟩
  simp only [List.length_cons]
  omega

theorem value_succ (ih : Thrifty stop fuel) (depth : Nat)
    (tokens : List Token) (w : Walk) (h : walkValue stop (fuel + 1) depth tokens = some w) :
    w.deepest ≤ max depth maxDepth + 1 ∧
      (w.rest <:+ tokens.tail ∧ w.steps + 6 * w.rest.length + 2 ≤ 6 * tokens.length ∨
        w.rest = tokens ∧ w.steps = 1 ∧ ∀ t ∈ tokens.head?, t.startsValue = false) := by
  cases tokens with
  | nil =>
    rw [walkValue] at h
    cases h
    refine ⟨Nat.zero_le _, .inr ⟨rfl, rfl, fun t isHead => ?_⟩⟩
    cases isHead
  | cons t rest =>
    obtain ⟨lexeme, place⟩ := t
    cases lexeme with
    | mark m =>
      cases m with
      | openBrace =>
        simp only [walkValue] at h
        split at h
        · exact (of_tooDeep rfl h).imp_right .inl
        · rename_i deeper
          obtain ⟨inside, isInside, isWalk⟩ := Option.map_eq_some_iff.1 h
          obtain ⟨deep, suffix, paid⟩ := ih.members (depth + 1) rest inside isInside
          exact (of_inside deeper deep suffix paid isWalk).imp_right .inl
      | openBracket =>
        simp only [walkValue] at h
        split at h
        · exact (of_tooDeep rfl h).imp_right .inl
        · rename_i deeper
          obtain ⟨inside, isInside, isWalk⟩ := Option.map_eq_some_iff.1 h
          obtain ⟨deep, suffix, paid⟩ := ih.items (depth + 1) rest inside isInside
          exact (of_inside deeper deep suffix paid isWalk).imp_right .inl
      | closeBrace | closeBracket | colon | comma =>
        simp only [walkValue] at h
        cases h
        exact ⟨Nat.zero_le _, .inr ⟨rfl, rfl, fun t isHead => by cases isHead; rfl⟩⟩
    | text | number | bool | null | broken =>
      simp only [walkValue] at h
      cases h
      refine ⟨Nat.zero_le _, .inl ⟨List.suffix_refl _, ?_⟩⟩
      simp only [List.length_cons]
      omega

theorem member_succ (ih : Thrifty stop fuel) (depth : Nat) (t : Token)
    (rest : List Token) (w : Walk) (h : walkMember stop (fuel + 1) depth (t :: rest) = some w) :
    w.deepest ≤ max depth maxDepth + 1 ∧
      (w.rest <:+ rest ∧ w.steps + 6 * w.rest.length + 5 ≤ 6 * (rest.length + 1) ∨
        w.rest <:+ t :: rest ∧ w.steps + w.rest.length = rest.length + 1 ∧
          ∀ u ∈ w.rest.head?, u.isText = false) := by
  -- A value behind some of the tokens is paid for by these.
  have value {tokens : List Token} {w : Walk} (isWalk : walkValue stop fuel depth tokens = some w) :
      w.deepest ≤ max depth maxDepth + 1 ∧ w.rest <:+ tokens ∧
        w.steps + 6 * w.rest.length ≤ 6 * tokens.length + 1 := by
    obtain ⟨deep, ⟨suffix, paid⟩ | ⟨same, once, -⟩⟩ := ih.value depth tokens w isWalk
    · exact ⟨deep, suffix.trans (List.tail_suffix tokens), by omega⟩
    · rw [same, once]
      exact ⟨deep, List.suffix_refl _, by omega⟩
  rw [walkMember] at h
  split at h
  · split at h
    · obtain ⟨deep, suffix, paid⟩ := value h
      have dropped := List.drop_suffix 1 rest
      have shorter := dropped.length_le
      exact ⟨deep, .inl ⟨suffix.trans dropped, by omega⟩⟩
    · split at h
      · obtain ⟨deep, suffix, paid⟩ := value h
        exact ⟨deep, .inl ⟨suffix, by omega⟩⟩
      · cases h
        exact ⟨Nat.zero_le _, .inl ⟨List.suffix_refl _, by dsimp only; omega⟩⟩
  · have passed := skipTo_suffix [.colon, .comma, .closeBrace] 0 (t :: rest)
    have turns := skipToTurns_add_length [.colon, .comma, .closeBrace] 0 (t :: rest)
    have stands := @any_of_mem_head?_skipTo [.colon, .comma, .closeBrace] 0 (t :: rest)
    dsimp only at h
    generalize skipTo [.colon, .comma, .closeBrace] 0 (t :: rest) = skipped at *
    split at h
    · rename_i isColon
      obtain ⟨inside, isInside, rfl⟩ := Option.map_eq_some_iff.1 h
      obtain ⟨deep, suffix, paid⟩ := value isInside
      cases skipped with
      | nil => cases isColon
      | cons u behind =>
        rw [List.length_cons, List.length_cons] at turns
        refine ⟨Nat.max_le.2 ⟨Nat.zero_le _, deep⟩, .inl ⟨suffix.trans ?_, ?_⟩⟩
        · exact suffix_tail ((List.suffix_cons u behind).trans passed)
            (Nat.lt_of_lt_of_le (Nat.lt_succ_self _) passed.length_le)
        · simp only [Walk.behind]
          rw [List.drop_one, List.tail_cons] at paid
          omega
    · cases h
      exact ⟨Nat.zero_le _, .inr ⟨passed, turns, fun u isHead =>
        isText_eq_false_of_any (stands isHead)⟩⟩

/-- A turn of the loop over entries is paid for by the tokens that it uses up, but for the last
turn, which may take three steps more. -/
theorem paid_turn (stop : Place) (container : Container) {tokens : List Token} {entry : Walk}
    (used : entry.steps + 6 * entry.rest.length + 2 ≤ 6 * tokens.length ∨
      entry.steps + 6 * entry.rest.length ≤ 6 * tokens.length + 1 ∧
        ∀ t ∈ entry.rest.head?, container.startsEntry t = false) :
    1 + entry.steps + afterEntryTurns container entry.rest +
          6 * (afterEntry stop container entry.rest).rest.length ≤ 6 * tokens.length + 3 ∧
      ((afterEntry stop container entry.rest).result = true →
        1 + entry.steps + afterEntryTurns container entry.rest +
          6 * (afterEntry stop container entry.rest).rest.length ≤ 6 * tokens.length) := by
  obtain ⟨paidNext, paidMore⟩ := afterEntryTurns_le stop container entry.rest
  rcases used with used | ⟨missing, first⟩
  · exact ⟨by omega, fun _ => by omega⟩
  · refine ⟨by omega, fun goesOn => ?_⟩
    have := paidMore goesOn first
    omega

theorem members_succ (ih : Thrifty stop fuel) (depth : Nat)
    (tokens : List Token) (w : Walk) (h : walkMembers stop (fuel + 1) depth tokens = some w) :
    w.deepest ≤ max depth maxDepth + 1 ∧ w.rest <:+ tokens ∧
      w.steps + 6 * w.rest.length ≤ 6 * tokens.length + 3 := by
  cases tokens with
  | nil =>
    rw [walkMembers] at h
    cases h
    exact ⟨Nat.zero_le _, List.suffix_refl _, by simp⟩
  | cons t rest =>
    rw [walkMembers] at h
    split at h
    · cases h
      exact ⟨Nat.zero_le _, List.suffix_cons t rest, by simp only [List.length_cons]; omega⟩
    · obtain ⟨entry, isEntry, h⟩ := Option.bind_eq_some_iff.1 h
      obtain ⟨deep, used⟩ := ih.member depth t rest entry isEntry
      have suffix := (afterEntry_suffix stop .braces entry.rest).trans (used.elim
        (fun used => used.1.trans (List.suffix_cons t rest)) (fun missing => missing.1))
      obtain ⟨paidLast, paid⟩ := @paid_turn stop .braces (t :: rest) entry
        (used.imp (fun used => by rw [List.length_cons]; omega)
          fun missing => ⟨by rw [List.length_cons]; omega, missing.2.2⟩)
      dsimp only at h
      split at h
      · rename_i goesOn
        obtain ⟨others, isOthers, h⟩ := Option.bind_eq_some_iff.1 h
        cases h
        obtain ⟨deepOthers, suffixOthers, paidOthers⟩ := ih.members depth _ others isOthers
        refine ⟨Nat.max_le.2 ⟨deep, deepOthers⟩, suffixOthers.trans suffix, ?_⟩
        have := paid goesOn
        simp only [Walk.behind]
        omega
      · cases h
        exact ⟨deep, suffix, paidLast⟩

theorem items_succ (ih : Thrifty stop fuel) (depth : Nat)
    (tokens : List Token) (w : Walk) (h : walkItems stop (fuel + 1) depth tokens = some w) :
    w.deepest ≤ max depth maxDepth + 1 ∧ w.rest <:+ tokens ∧
      w.steps + 6 * w.rest.length ≤ 6 * tokens.length + 3 := by
  cases tokens with
  | nil =>
    rw [walkItems] at h
    cases h
    exact ⟨Nat.zero_le _, List.suffix_refl _, by simp⟩
  | cons t rest =>
    rw [walkItems] at h
    split at h
    · cases h
      exact ⟨Nat.zero_le _, List.suffix_cons t rest, by simp only [List.length_cons]; omega⟩
    · obtain ⟨entry, isEntry, h⟩ := Option.bind_eq_some_iff.1 h
      obtain ⟨deep, used⟩ := ih.value depth (t :: rest) entry isEntry
      have suffix := (afterEntry_suffix stop .brackets entry.rest).trans (used.elim
        (fun used => used.1.trans (List.suffix_cons t rest))
        (fun missing => missing.1 ▸ List.suffix_refl _))
      obtain ⟨paidLast, paid⟩ := @paid_turn stop .brackets (t :: rest) entry (by
        rcases used with ⟨-, paid⟩ | ⟨same, once, first⟩
        · exact .inl paid
        · rw [same, once]
          exact .inr ⟨by omega, first⟩)
      dsimp only at h
      split at h
      · rename_i goesOn
        obtain ⟨others, isOthers, h⟩ := Option.bind_eq_some_iff.1 h
        cases h
        obtain ⟨deepOthers, suffixOthers, paidOthers⟩ := ih.items depth _ others isOthers
        refine ⟨Nat.max_le.2 ⟨deep, deepOthers⟩, suffixOthers.trans suffix, ?_⟩
        have := paid goesOn
        simp only [Walk.behind]
        omega
      · cases h
        exact ⟨deep, suffix, paidLast⟩

/-- Every walk keeps to it. -/
theorem all (stop : Place) (fuel : Nat) : Thrifty stop fuel := by
  induction fuel with
  | zero =>
    refine ⟨fun _ _ _ h => ?_, fun _ _ _ h => ?_, fun _ _ _ _ h => ?_, fun _ _ _ h => ?_⟩
    · rw [walkValue] at h
      cases h
    · rw [walkMembers] at h
      cases h
    · rw [walkMember] at h
      cases h
    · rw [walkItems] at h
      cases h
  | succ fuel ih => exact ⟨ih.value_succ, ih.members_succ, ih.member_succ, ih.items_succ⟩

end Thrifty

/-! ### The reader -/

theorem Token.startsValue_of_opens {t : Token} (h : t.opens = true) : t.startsValue = true := by
  obtain ⟨lexeme, place⟩ := t
  cases lexeme with
  | mark m => cases m <;> first | rfl | cases h
  | _ => rfl

section

variable {stop : Place} {fuel depth : Nat}

/-- What the reader leaves of the tokens, at the cost of its walk. -/
theorem exists_walkValue {tokens : List Token} {r : Reading Value}
    (read : readValue stop fuel depth tokens = some r) :
    ∃ w, walkValue stop fuel depth tokens = some w ∧ w.rest = r.rest := by
  have erased := (Erases.all stop fuel).value depth tokens
  rw [read] at erased
  exact Option.map_eq_some_iff.1 erased

theorem readValue_suffix {tokens : List Token} {r : Reading Value}
    (read : readValue stop fuel depth tokens = some r) :
    r.rest <:+ tokens.tail ∨ r.rest = tokens ∧ ∀ t ∈ tokens.head?, t.startsValue = false := by
  obtain ⟨w, isWalk, same⟩ := exists_walkValue read
  rw [← same]
  obtain ⟨-, used⟩ := (Thrifty.all stop fuel).value depth tokens w isWalk
  exact used.imp (·.1) fun missing => ⟨missing.1, missing.2.2⟩

theorem readMember_suffix {found : Members} {t : Token} {rest : List Token} {r : Reading Members}
    (read : readMember stop fuel depth found (t :: rest) = some r) :
    r.rest <:+ rest ∨ r.rest <:+ t :: rest ∧ ∀ u ∈ r.rest.head?, u.isText = false := by
  have erased := (Erases.all stop fuel).member depth found (t :: rest)
  rw [read] at erased
  obtain ⟨w, isWalk, same⟩ := Option.map_eq_some_iff.1 erased
  rw [← same]
  obtain ⟨-, used⟩ := (Thrifty.all stop fuel).member depth t rest w isWalk
  exact used.imp (·.1) fun missing => ⟨missing.1, missing.2.2⟩

/-- What is left behind a value is the end of the tokens. -/
theorem rest_suffix_of_readValue {tokens : List Token} {r : Reading Value}
    (read : readValue stop fuel depth tokens = some r) : r.rest <:+ tokens := by
  rcases readValue_suffix read with used | ⟨rfl, -⟩
  · exact used.trans tokens.tail_suffix
  · exact List.suffix_refl _

/-- What is left behind a member is the end of the tokens. -/
theorem rest_suffix_of_readMember {found : Members} {t : Token} {rest : List Token}
    {r : Reading Members} (read : readMember stop fuel depth found (t :: rest) = some r) :
    r.rest <:+ t :: rest := by
  rcases readMember_suffix read with used | ⟨left, -⟩
  · exact used.trans (List.suffix_cons t rest)
  · exact left

end

/-- How the reader gets on.  A place among the tokens is given by the tokens from there on. -/
structure Advances (stop : Place) : Prop where
  /-- Passing over tokens never goes back or past the end. -/
  skipTo : ∀ stops nesting tokens, Json.skipTo stops nesting tokens <:+ tokens
  skipContainer : ∀ nesting tokens, Json.skipContainer nesting tokens <:+ tokens
  /-- A value that begins here uses a token up, and so does a container. -/
  value : ∀ fuel depth t rest, t.startsValue = true ∨ t.opens = true →
    2 * (t :: rest).length + 1 ≤ fuel →
    ∃ r, readValue stop fuel depth (t :: rest) = some r ∧ r.rest <:+ rest
  /-- A turn of the loop over members uses a token up, if it is not the last one. -/
  members : ∀ fuel depth found t rest entry,
    readMember stop fuel depth found (t :: rest) = some entry →
    (afterEntry stop .braces entry.rest).result = true →
    (afterEntry stop .braces entry.rest).rest <:+ rest
  /-- A turn of the loop over items uses a token up, if it is not the last one. -/
  items : ∀ fuel depth t rest entry, readValue stop fuel depth (t :: rest) = some entry →
    (afterEntry stop .brackets entry.rest).result = true →
    (afterEntry stop .brackets entry.rest).rest <:+ rest
  /-- A turn of the loop behind an entry uses a token up, if it is not the last one. -/
  between : ∀ container t rest, t.isMark .comma = false → t.isMark container.closing = false →
    container.startsEntry t = false →
    Json.skipTo [.comma, container.closing] 0 (t :: rest) <:+ rest ∧
      afterEntry stop container (t :: rest) =
        (afterEntry stop container
          (Json.skipTo [.comma, container.closing] 0 (t :: rest))).behind
            [⟨t.place, .commaExpected⟩]
  /-- The fuel that suffices is bounded by the tokens, and so are the steps; calls for containers
  are not nested deeper than `maxDepth` and one. -/
  bounded : ∀ tokens, ∀ fuel ≥ 2 * tokens.length + 1, ∃ r w,
    readValue stop fuel 0 tokens = some r ∧ walkValue stop fuel 0 tokens = some w ∧
      w.rest = r.rest ∧ w.steps + 6 * r.rest.length ≤ 6 * tokens.length + 1 ∧
      w.deepest ≤ maxDepth + 1
  /-- So every list of tokens is read. -/
  document : ∀ tokens, ∃ r, readDocument stop tokens = some r

/-- The reader gets on, however malformed the tokens are. -/
theorem advances (stop : Place) : Advances stop where
  skipTo := skipTo_suffix
  skipContainer := skipContainer_suffix
  value fuel depth t rest starts enough := by
    obtain ⟨r, read, -⟩ := (Progress.all stop fuel).value depth (t :: rest) enough
    refine ⟨r, read, (readValue_suffix read).resolve_right fun missing => ?_⟩
    have noStart := missing.2 t rfl
    rw [starts.elim id Token.startsValue_of_opens] at noStart
    cases noStart
  members fuel depth found t rest entry read goesOn := by
    rcases readMember_suffix read with used | ⟨suffix, first⟩
    · exact (afterEntry_suffix stop .braces entry.rest).trans used
    · refine suffix_tail ((afterEntry_suffix stop .braces entry.rest).trans suffix) ?_
      exact Nat.lt_of_lt_of_le (length_afterEntry_lt goesOn first) suffix.length_le
  items fuel depth t rest entry read goesOn := by
    rcases readValue_suffix read with used | ⟨same, first⟩
    · exact (afterEntry_suffix stop .brackets entry.rest).trans used
    · rw [← same] at first
      have isTail : entry.rest.tail = rest := by rw [same]; rfl
      exact isTail ▸ afterEntry_suffix_tail goesOn first
  between container t rest noComma noClosing noEntry :=
    afterEntry_cons stop (by rw [noComma, noClosing]; rfl) noEntry rest
  bounded tokens fuel enough := by
    obtain ⟨r, read, -⟩ := (Progress.all stop fuel).value 0 tokens enough
    obtain ⟨w, isWalk, same⟩ := exists_walkValue read
    obtain ⟨deep, used⟩ := (Thrifty.all stop fuel).value 0 tokens w isWalk
    refine ⟨r, w, read, isWalk, same, ?_, deep⟩
    rw [← same]
    rcases used with ⟨-, paid⟩ | ⟨rest, once, -⟩
    · omega
    · rw [rest, once]
      omega
  document tokens := Option.isSome_iff_exists.1 (readDocument_isSome stop tokens)

end Telemetry.Json
