import Telemetry.Proofs.Text.Ascii
import Telemetry.Text.Printable

/-!
# Characters that stay on a line

`Unbroken cs` says that no reader can take one of the characters `cs` for the end of a line: none is
a control character, the line separator or the paragraph separator.  It holds of some characters
piece by piece (`unbroken_append`), and of every printable character
(`isLineBreaking_of_isPrintable`).
-/

namespace Telemetry.Text

/-- Whether no control character and neither of the two Unicode separators is among some
characters. -/
def Unbroken (cs : List Char) : Prop :=
  ∀ c ∈ cs, isLineBreaking c = false

instance (cs : List Char) : Decidable (Unbroken cs) :=
  List.decidableBAll (fun c => isLineBreaking c = false) cs

variable {a b cs : List Char} {c : Char}

theorem unbroken_iff :
    Unbroken cs ↔ ∀ c ∈ cs, isControl c = false ∧ c ≠ '\u2028' ∧ c ≠ '\u2029' := by
  refine forall₂_congr fun c _ => ?_
  rw [isLineBreaking, Bool.or_eq_false_iff, Bool.or_eq_false_iff, beq_eq_false_iff_ne,
    beq_eq_false_iff_ne, and_assoc]

theorem unbroken_nil : Unbroken [] := List.forall_mem_nil _

theorem unbroken_cons : Unbroken (c :: cs) ↔ isLineBreaking c = false ∧ Unbroken cs :=
  List.forall_mem_cons

theorem unbroken_append : Unbroken (a ++ b) ↔ Unbroken a ∧ Unbroken b :=
  List.forall_mem_append

@[simp] theorem unbroken_toList_append {a b : String} :
    Unbroken (a ++ b).toList ↔ Unbroken a.toList ∧ Unbroken b.toList := by
  rw [String.toList_append, unbroken_append]

/-- A text that is given by its characters.  For a text that is spelled out this spares taking its
characters out of it. -/
theorem Unbroken.ofList (h : Unbroken cs) : Unbroken (String.ofList cs).toList := by
  rw [String.toList_ofList]
  exact h

/-- There is no line feed on a line. -/
theorem Unbroken.feed_notMem (h : Unbroken cs) : '\n' ∉ cs := by
  intro there
  exact absurd (h _ there) (by decide)

/-- Neither a line feed nor a carriage return is on a line. -/
theorem Unbroken.ends_notMem (h : Unbroken cs) : '\n' ∉ cs ∧ '\r' ∉ cs := by
  refine ⟨h.feed_notMem, fun there => ?_⟩
  exact absurd (h _ there) (by decide)

/-- What is left of a line is on the line. -/
theorem Unbroken.of_subset (h : Unbroken cs) (part : a ⊆ cs) : Unbroken a :=
  fun c there => h c (part there)

theorem CharRanges.holds_of_mem {ranges : CharRanges} {range : Nat × Nat} (h : range ∈ ranges)
    (lower : range.1 ≤ c.toNat) (upper : c.toNat ≤ range.2) : ranges.holds c = true := by
  rw [CharRanges.holds, List.any_eq_true]
  exact ⟨range, h, by rw [decide_eq_true lower, decide_eq_true upper]; rfl⟩

/-- What could end a line is not printable. -/
theorem holds_unprintable (h : isLineBreaking c = true) : unprintable.holds c = true := by
  simp only [isLineBreaking, isControl, Bool.or_eq_true, Bool.and_eq_true, decide_eq_true_eq,
    beq_iff_eq] at h
  have separators : ((0x2028, 0x202f) : Nat × Nat) ∈ unprintable := by decide +kernel
  have delete : ((0x7f, 0xa0) : Nat × Nat) ∈ unprintable := by decide +kernel
  rcases h with ((low | high) | rfl) | rfl
  · exact CharRanges.holds_of_mem List.mem_cons_self (Nat.zero_le _) (Nat.le_of_lt_succ low)
  · exact CharRanges.holds_of_mem delete high.1 (Nat.le_trans high.2 (by decide))
  · exact CharRanges.holds_of_mem separators (by decide) (by decide)
  · exact CharRanges.holds_of_mem separators (by decide) (by decide)

theorem isLineBreaking_of_isPrintable (h : isPrintable c = true) : isLineBreaking c = false := by
  rw [Bool.eq_false_iff]
  intro breaks
  rw [isPrintable, holds_unprintable breaks] at h
  cases h

end Telemetry.Text
