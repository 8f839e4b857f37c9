import Mathlib.Data.List.TakeDrop
import Mathlib.Data.List.TakeWhile

/-!
# Runs of characters

A run of characters of one class reaches up to the first character outside of the class, or to the
end.  `Ends p rest` says that a run of class `p` ends before `rest`; with it, `takeWhile` and
`dropWhile` cut a text at the end of its run.

`mem_of_mem_splitOnP`, `eq_false_of_mem_splitOnP` and `flatten_splitOnP` are about the pieces
between the characters of one class.
-/

namespace Telemetry.Text

variable {p : Char → Bool} {run rest : List Char}

/-- Whether a run of characters that satisfy `p` has to end before `rest`. -/
def Ends (p : Char → Bool) (rest : List Char) : Prop :=
  ∀ c ∈ rest.head?, p c = false

theorem ends_nil (p : Char → Bool) : Ends p [] := by
  intro c hc
  cases hc

theorem ends_cons {c : Char} (h : p c = false) (rest : List Char) : Ends p (c :: rest) := by
  intro d hd
  cases hd
  exact h

theorem Ends.head {c : Char} (h : Ends p (c :: rest)) : p c = false :=
  h c rfl

/-- A run that ends here is empty. -/
theorem Ends.takeWhile (h : Ends p rest) : rest.takeWhile p = [] := by
  cases rest with
  | nil => rfl
  | cons c rest => rw [List.takeWhile_cons, h.head]; rfl

theorem Ends.dropWhile (h : Ends p rest) : rest.dropWhile p = rest := by
  cases rest with
  | nil => rfl
  | cons c rest => rw [List.dropWhile_cons, h.head]; rfl

theorem takeWhile_run (h : ∀ c ∈ run, p c = true) (e : Ends p rest) :
    (run ++ rest).takeWhile p = run := by
  rw [List.takeWhile_append_of_pos h, e.takeWhile, List.append_nil]

theorem dropWhile_run (h : ∀ c ∈ run, p c = true) (e : Ends p rest) :
    (run ++ rest).dropWhile p = rest := by
  rw [List.dropWhile_append_of_pos h, e.dropWhile]

theorem span_run (h : ∀ c ∈ run, p c = true) (e : Ends p rest) :
    (run ++ rest).span p = (run, rest) := by
  rw [List.span_eq_takeWhile_dropWhile, takeWhile_run h e, dropWhile_run h e]

/-- What a run leaves begins outside of the class. -/
theorem ends_dropWhile (p : Char → Bool) (cs : List Char) : Ends p (cs.dropWhile p) := by
  intro c hc
  have h := List.head?_dropWhile_not p cs
  rw [Option.mem_def.1 hc] at h
  simpa using h

theorem drop_length_takeWhile (p : Char → Bool) (cs : List Char) :
    cs.drop (cs.takeWhile p).length = cs.dropWhile p := by
  have h := congrArg (List.drop (cs.takeWhile p).length)
    (List.takeWhile_append_dropWhile (p := p) (l := cs))
  rw [List.drop_left] at h
  exact h.symm

theorem take_length_takeWhile (p : Char → Bool) (cs : List Char) :
    cs.take (cs.takeWhile p).length = cs.takeWhile p := by
  have h := congrArg (List.take (cs.takeWhile p).length)
    (List.takeWhile_append_dropWhile (p := p) (l := cs))
  rw [List.take_left] at h
  exact h.symm

/-! ### Pieces of a text -/

/-- The pieces of a text consist of its characters. -/
theorem mem_of_mem_splitOnP {cs piece : List Char} (h : piece ∈ cs.splitOnP p)
    {c : Char} (hc : c ∈ piece) : c ∈ cs := by
  induction cs generalizing piece with
  | nil =>
    rw [List.splitOnP_nil] at h
    rw [List.mem_singleton.1 h] at hc
    cases hc
  | cons d cs ih =>
    rw [List.splitOnP_cons_eq_if_modifyHead] at h
    split at h
    · rcases List.mem_cons.1 h with rfl | h
      · cases hc
      · exact List.mem_cons_of_mem _ (ih h hc)
    · cases isList : cs.splitOnP p with
      | nil => exact absurd isList (List.splitOnP_ne_nil p cs)
      | cons head tail =>
        rw [isList] at h ih
        rcases List.mem_cons.1 h with rfl | h
        · rcases List.mem_cons.1 hc with rfl | hc
          · exact List.mem_cons_self
          · exact List.mem_cons_of_mem _ (ih List.mem_cons_self hc)
        · exact List.mem_cons_of_mem _ (ih (List.mem_cons_of_mem _ h) hc)

/-- The pieces of a text do not hold what it was cut at. -/
theorem eq_false_of_mem_splitOnP {cs piece : List Char}
    (h : piece ∈ cs.splitOnP p) {c : Char} (hc : c ∈ piece) : p c = false := by
  induction cs generalizing piece with
  | nil =>
    rw [List.splitOnP_nil] at h
    rw [List.mem_singleton.1 h] at hc
    cases hc
  | cons d cs ih =>
    rw [List.splitOnP_cons_eq_if_modifyHead] at h
    split at h
    · rcases List.mem_cons.1 h with rfl | h
      · cases hc
      · exact ih h hc
    · rename_i other
      cases isList : cs.splitOnP p with
      | nil => exact absurd isList (List.splitOnP_ne_nil p cs)
      | cons head tail =>
        rw [isList] at h ih
        rcases List.mem_cons.1 h with rfl | h
        · rcases List.mem_cons.1 hc with rfl | hc
          · exact Bool.eq_false_iff.2 other
          · exact ih List.mem_cons_self hc
        · exact ih (List.mem_cons_of_mem _ h) hc

/-- The pieces of a text, one behind the other, are the text without what it was cut at. -/
theorem flatten_splitOnP (p : Char → Bool) (cs : List Char) :
    (cs.splitOnP p).flatten = cs.filter fun c => !p c := by
  induction cs with
  | nil => rfl
  | cons c cs ih =>
    rw [List.splitOnP_cons_eq_if_modifyHead]
    by_cases separates : p c = true
    · rw [if_pos separates, List.filter_cons_of_neg (by rw [separates]; decide), ← ih]
      rfl
    · rw [if_neg separates,
        List.filter_cons_of_pos (by rwa [Bool.not_eq_true', ← Bool.not_eq_true]), ← ih]
      obtain ⟨piece, pieces, split⟩ := List.exists_cons_of_ne_nil (List.splitOnP_ne_nil p cs)
      rw [split]
      rfl

end Telemetry.Text
