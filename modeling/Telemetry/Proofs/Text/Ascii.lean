/-!
# ASCII characters

What can be computed of a character below U+0080 holds of all of them if it holds of the first 128
code points.
-/

namespace Telemetry.Text

/-- A property of all ASCII characters is a property of the first 128 code points. -/
theorem of_ascii {p : Char → Prop} (h : ∀ n < 128, p (Char.ofNat n)) {c : Char}
    (ascii : c.toNat < 128) : p c := by
  have at_c := h c.toNat ascii
  rwa [Char.ofNat_toNat] at at_c

theorem toNat_lt_of_isAlphanum {c : Char} (h : c.isAlphanum = true) : c.toNat < 128 := by
  delta Char.isAlphanum Char.isAlpha Char.isUpper Char.isLower Char.isDigit at h
  simp only [Bool.or_eq_true, Bool.and_eq_true, decide_eq_true_eq, ge_iff_le,
    UInt32.le_iff_toNat_le] at h
  show c.val.toNat < 128
  rcases h with (h | h) | h
  · exact Nat.lt_of_le_of_lt h.2 (by decide)
  · exact Nat.lt_of_le_of_lt h.2 (by decide)
  · exact Nat.lt_of_le_of_lt h.2 (by decide)

/-- A letter is of upper or of lower case. -/
theorem isAlphanum_eq_or (c : Char) : c.isAlphanum = ((c.isUpper || c.isLower) || c.isDigit) :=
  rfl

/-- Upper case does not change what lower case makes of a character. -/
theorem toLower_toUpper_of_ascii {c : Char} (ascii : c.toNat < 128) :
    c.toUpper.toLower = c.toLower :=
  of_ascii (p := fun c => c.toUpper.toLower = c.toLower) (by decide +kernel) ascii

end Telemetry.Text
