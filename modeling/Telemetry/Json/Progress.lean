import Telemetry.Json.Reader

/-!
# Reading makes progress

No part of the reader gives back more tokens than it was given, and every turn of its loops uses one
up.  So the depth that `readDocument` grants always suffices, and every list of tokens is read.

* `length_skipTo_le`, `length_skipContainer_le` and `length_stepOver_le` bound what is left;
* `length_afterEntry_lt`: if another entry follows, it begins behind the one before it;
* `readDocument_isSome`: every list of tokens has a reading.
-/

namespace Telemetry.Json

variable {α : Type}

@[simp] theorem Reading.rest_behind (defects : List Defect) (r : Reading α) :
    (r.behind defects).rest = r.rest := rfl

@[simp] theorem Reading.result_behind (defects : List Defect) (r : Reading α) :
    (r.behind defects).result = r.result := rfl

@[simp] theorem Reading.rest_map {β : Type} (f : α → β) (r : Reading α) :
    (r.map f).rest = r.rest := rfl

/-! ### Passing over tokens -/

theorem length_skipTo_le (stops : List Mark) (nesting : Nat) (tokens : List Token) :
    (skipTo stops nesting tokens).length ≤ tokens.length := by
  induction tokens generalizing nesting with
  | nil => simp [skipTo]
  | cons t rest ih =>
    have := ih (nesting + 1)
    have := ih (nesting - 1)
    have := ih nesting
    unfold skipTo
    repeat' split
    all_goals simp only [List.length_cons]; omega

theorem length_skipContainer_le (nesting : Nat) (tokens : List Token) :
    (skipContainer nesting tokens).length ≤ tokens.length := by
  induction tokens generalizing nesting with
  | nil => simp [skipContainer]
  | cons t rest ih =>
    have := ih (nesting + 1)
    have := ih (nesting - 1)
    have := ih nesting
    unfold skipContainer
    repeat' split
    all_goals simp only [List.length_cons]; omega

/-- A container that begins here is passed over with its opening mark. -/
theorem length_skipContainer_lt {t : Token} (h : t.opens = true) (nesting : Nat)
    (rest : List Token) : (skipContainer nesting (t :: rest)).length < (t :: rest).length := by
  have := length_skipContainer_le (nesting + 1) rest
  simp only [skipContainer, h, if_true, List.length_cons]
  omega

/-- Passing over ends at one of the marks, or at the end. -/
theorem any_of_mem_head?_skipTo {stops : List Mark} {nesting : Nat} {tokens : List Token}
    {t : Token} (h : t ∈ (skipTo stops nesting tokens).head?) : stops.any t.isMark = true := by
  induction tokens generalizing nesting with
  | nil => simp [skipTo] at h
  | cons u rest ih =>
    unfold skipTo at h
    split at h
    · rename_i hit
      simp only [List.head?_cons, Option.mem_def, Option.some.injEq] at h
      exact h ▸ hit.2
    · repeat' split at h
      all_goals exact ih h

/-- A mark is no key. -/
theorem isText_eq_false_of_any {stops : List Mark} {t : Token} (h : stops.any t.isMark = true) :
    t.isText = false := by
  obtain ⟨m, _, h⟩ := List.any_eq_true.1 h
  simp only [Token.isMark, beq_iff_eq] at h
  simp [Token.isText, h]

/-! ### Between two entries -/

theorem length_stepOver_le (stop : Place) (container : Container) (tokens : List Token) :
    (stepOver stop container tokens).rest.length ≤ tokens.length := by
  unfold stepOver
  repeat' split
  all_goals simp only [List.length_nil, List.length_cons, List.length_drop]; omega

/-- If another entry follows, there was a comma. -/
theorem length_stepOver_lt {stop : Place} {container : Container} {tokens : List Token}
    (h : (stepOver stop container tokens).result = true) :
    (stepOver stop container tokens).rest.length < tokens.length := by
  unfold stepOver at h ⊢
  split
  · simp at h
  · repeat' split
    all_goals simp_all

theorem length_afterEntry_le (stop : Place) (container : Container) (tokens : List Token) :
    (afterEntry stop container tokens).rest.length ≤ tokens.length := by
  cases tokens with
  | nil => exact length_stepOver_le stop container []
  | cons t rest =>
    simp only [afterEntry]
    split
    · exact length_stepOver_le stop container (t :: rest)
    · split
      · exact Nat.le_refl _
      · exact Nat.le_trans (length_stepOver_le stop container _) (length_skipTo_le _ 0 _)

/-- If another entry follows, a token has gone, unless the entry begins with the next token. -/
theorem length_afterEntry_lt {stop : Place} {container : Container} {tokens : List Token}
    (h : (afterEntry stop container tokens).result = true)
    (first : ∀ t ∈ tokens.head?, container.startsEntry t = false) :
    (afterEntry stop container tokens).rest.length < tokens.length := by
  cases tokens with
  | nil => exact length_stepOver_lt h
  | cons t rest =>
    have opening : container.startsEntry t = false := first t rfl
    simp only [afterEntry] at h ⊢
    split at h
    · rename_i ends
      rw [if_pos ends]
      exact length_stepOver_lt h
    · rename_i ends
      rw [if_neg ends]
      simp only [opening, Bool.false_eq_true, if_false] at h ⊢
      exact Nat.lt_of_lt_of_le (length_stepOver_lt h) (length_skipTo_le _ 0 _)

/-! ### The reader -/

/-- What the reader keeps to with `fuel`: it reads every list of tokens that is short enough, and
what it leaves is no longer than what it is given.  A value uses a token up unless none can begin
here, and a member unless it is missing. -/
structure Progress (stop : Place) (fuel : Nat) : Prop where
  value : ∀ depth tokens, 2 * tokens.length + 1 ≤ fuel →
    ∃ r, readValue stop fuel depth tokens = some r ∧
      (r.rest.length < tokens.length ∨
        r.rest = tokens ∧ ∀ t ∈ tokens.head?, t.startsValue = false)
  members : ∀ depth found tokens, 2 * tokens.length + 1 ≤ fuel →
    ∃ r, readMembers stop fuel depth found tokens = some r ∧ r.rest.length ≤ tokens.length
  member : ∀ depth found t rest, 2 * rest.length + 2 ≤ fuel →
    ∃ r, readMember stop fuel depth found (t :: rest) = some r ∧
      (r.rest.length ≤ rest.length ∨
        r.rest.length = rest.length + 1 ∧ ∀ u ∈ r.rest.head?, u.isText = false)
  items : ∀ depth tokens, 2 * tokens.length + 2 ≤ fuel →
    ∃ r, readItems stop fuel depth tokens = some r ∧ r.rest.length ≤ tokens.length

namespace Progress

variable {stop : Place} {fuel : Nat}

theorem zero (stop : Place) : Progress stop 0 where
  value _ _ h := by omega
  members _ _ _ h := by omega
  member _ _ _ _ h := by omega
  items _ _ h := by omega

theorem value_succ (ih : Progress stop fuel) (depth : Nat) (tokens : List Token)
    (h : 2 * tokens.length + 1 ≤ fuel + 1) :
    ∃ r, readValue stop (fuel + 1) depth tokens = some r ∧
      (r.rest.length < tokens.length ∨
        r.rest = tokens ∧ ∀ t ∈ tokens.head?, t.startsValue = false) := by
  cases tokens with
  | nil => simp [readValue]
  | cons t rest =>
    simp only [List.length_cons] at h
    obtain ⟨lexeme, place⟩ := t
    cases lexeme with
    | mark m =>
      cases m with
      | openBrace =>
        simp only [readValue]
        split
        · refine ⟨_, rfl, .inl ?_⟩
          exact length_skipContainer_lt
            (show (Token.mk (.mark .openBrace) place).opens = true from rfl) 0 rest
        · obtain ⟨r, read, left⟩ := ih.members (depth + 1) [] rest (by omega)
          exact ⟨_, by rw [read]; rfl, .inl (Nat.lt_succ_of_le left)⟩
      | openBracket =>
        simp only [readValue]
        split
        · refine ⟨_, rfl, .inl ?_⟩
          exact length_skipContainer_lt
            (show (Token.mk (.mark .openBracket) place).opens = true from rfl) 0 rest
        · obtain ⟨r, read, left⟩ := ih.items (depth + 1) rest (by omega)
          exact ⟨_, by rw [read]; rfl, .inl (Nat.lt_succ_of_le left)⟩
      | closeBrace | closeBracket | colon | comma => simp [readValue, Token.startsValue]
    | text | number | bool | null | broken => simp [readValue]

theorem member_succ (ih : Progress stop fuel) (depth : Nat) (found : Members) (t : Token)
    (rest : List Token) (h : 2 * rest.length + 2 ≤ fuel + 1) :
    ∃ r, readMember stop (fuel + 1) depth found (t :: rest) = some r ∧
      (r.rest.length ≤ rest.length ∨
        r.rest.length = rest.length + 1 ∧ ∀ u ∈ r.rest.head?, u.isText = false) := by
  have value : ∀ tokens : List Token, tokens.length ≤ rest.length →
      ∃ r, readValue stop fuel depth tokens = some r ∧ r.rest.length ≤ rest.length := by
    intro tokens short
    obtain ⟨r, read, left⟩ := ih.value depth tokens (by omega)
    refine ⟨r, read, ?_⟩
    rcases left with left | ⟨left, _⟩
    · omega
    · rw [left]
      exact short
  by_cases text : ∃ key, t.lexeme = .text key
  · obtain ⟨key, text⟩ := text
    simp only [readMember, text]
    split
    · obtain ⟨r, read, left⟩ := value (rest.drop 1) (by simp)
      simp only [read, Option.bind_eq_bind, Option.bind_some]
      split
      · exact ⟨_, rfl, .inl left⟩
      · exact ⟨_, rfl, .inl left⟩
    · split
      · obtain ⟨r, read, left⟩ := value rest (Nat.le_refl _)
        exact ⟨_, by rw [read]; rfl, .inl left⟩
      · exact ⟨_, rfl, .inl (Nat.le_refl _)⟩
  · have short := length_skipTo_le [.colon, .comma, .closeBrace] 0 (t :: rest)
    simp only [List.length_cons] at short
    unfold readMember
    split
    · rename_i key found
      exact absurd ⟨key, found⟩ text
    · simp only
      split
      · obtain ⟨r, read, left⟩ := value
          ((skipTo [.colon, .comma, .closeBrace] 0 (t :: rest)).drop 1)
          (by rw [List.length_drop]; omega)
        exact ⟨_, by rw [read]; rfl, .inl left⟩
      · refine ⟨_, rfl, ?_⟩
        by_cases same : (skipTo [.colon, .comma, .closeBrace] 0 (t :: rest)).length
            ≤ rest.length
        · exact .inl same
        · exact .inr ⟨by simp only; omega, fun u stands =>
            isText_eq_false_of_any (any_of_mem_head?_skipTo stands)⟩

theorem members_succ (ih : Progress stop fuel) (depth : Nat) (found : Members)
    (tokens : List Token) (h : 2 * tokens.length + 1 ≤ fuel + 1) :
    ∃ r, readMembers stop (fuel + 1) depth found tokens = some r ∧
      r.rest.length ≤ tokens.length := by
  cases tokens with
  | nil => simp [readMembers]
  | cons t rest =>
    simp only [List.length_cons] at h
    simp only [readMembers]
    split
    · exact ⟨_, rfl, Nat.le_succ _⟩
    · obtain ⟨entry, read, left⟩ := ih.member depth found t rest (by omega)
      have shorter := length_afterEntry_le stop .braces entry.rest
      simp only [read, Option.bind_eq_bind, Option.bind_some]
      split
      · rename_i goesOn
        have used : (afterEntry stop .braces entry.rest).rest.length ≤ rest.length := by
          rcases left with left | ⟨left, first⟩
          · exact Nat.le_trans shorter left
          · have := length_afterEntry_lt goesOn first
            omega
        obtain ⟨others, readOthers, leftOthers⟩ :=
          ih.members depth entry.result (afterEntry stop .braces entry.rest).rest (by omega)
        refine ⟨_, by rw [readOthers]; rfl, ?_⟩
        simp only [Reading.rest_behind, List.length_cons]
        omega
      · refine ⟨_, rfl, ?_⟩
        simp only [List.length_cons]
        omega

theorem items_succ (ih : Progress stop fuel) (depth : Nat) (tokens : List Token)
    (h : 2 * tokens.length + 2 ≤ fuel + 1) :
    ∃ r, readItems stop (fuel + 1) depth tokens = some r ∧ r.rest.length ≤ tokens.length := by
  cases tokens with
  | nil => simp [readItems]
  | cons t rest =>
    simp only [List.length_cons] at h
    simp only [readItems]
    split
    · exact ⟨_, rfl, Nat.le_succ _⟩
    · obtain ⟨entry, read, left⟩ := ih.value depth (t :: rest) (by
        simp only [List.length_cons]; omega)
      have shorter := length_afterEntry_le stop .brackets entry.rest
      simp only [read, Option.bind_eq_bind, Option.bind_some]
      have bound : entry.rest.length ≤ rest.length + 1 := by
        rcases left with left | ⟨left, _⟩
        · exact Nat.le_of_lt left
        · simp [left]
      split
      · rename_i goesOn
        have used : (afterEntry stop .brackets entry.rest).rest.length ≤ rest.length := by
          rcases left with left | ⟨left, first⟩
          · simp only [List.length_cons] at left
            omega
          · have := length_afterEntry_lt goesOn (left ▸ first)
            omega
        obtain ⟨others, readOthers, leftOthers⟩ :=
          ih.items depth (afterEntry stop .brackets entry.rest).rest (by omega)
        refine ⟨_, by rw [readOthers]; rfl, ?_⟩
        simp only [List.length_cons]
        omega
      · refine ⟨_, rfl, ?_⟩
        simp only [List.length_cons]
        omega

/-- The reader keeps to it with every fuel. -/
theorem all (stop : Place) (fuel : Nat) : Progress stop fuel := by
  induction fuel with
  | zero => exact zero stop
  | succ fuel ih => exact ⟨ih.value_succ, ih.members_succ, ih.member_succ, ih.items_succ⟩

end Progress

/-- Every list of tokens is read: the depth that the reader is granted suffices. -/
theorem readDocument_isSome (stop : Place) (tokens : List Token) :
    (readDocument stop tokens).isSome = true := by
  obtain ⟨r, read, _⟩ := (Progress.all stop (2 * tokens.length + 2)).value 0 tokens (by omega)
  simp [readDocument, read]

end Telemetry.Json
