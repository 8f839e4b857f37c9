import Mathlib.Data.List.Forall2
import Telemetry.Proofs.Text.Trim

/-!
# Letter case

Putting a text into lower case changes its upper-case ASCII letters and nothing else, so two texts
come to the same exactly if they agree up to the case of ASCII letters.

* `sameLetter_iff` says this of two characters, `sameLetters_iff` of two texts.
-/

namespace Telemetry.Text

/-- Whether `c` is an upper-case ASCII letter and `d` the same letter in lower case. -/
def IsUpperOf (c d : Char) : Prop :=
  'A'.toNat ≤ c.toNat ∧ c.toNat ≤ 'Z'.toNat ∧ d.toNat = c.toNat + 32

/-- Whether two characters are equal or the two cases of one ASCII letter. -/
def SameLetter (c d : Char) : Prop :=
  c = d ∨ IsUpperOf c d ∨ IsUpperOf d c

/-- Whether two texts agree, character by character, up to the case of ASCII letters. -/
def SameLetters (x y : String) : Prop :=
  List.Forall₂ SameLetter x.toList y.toList

/-- What lower case does to the code point of a character. -/
theorem toNat_toLower (c : Char) :
    c.toLower.toNat = if 65 ≤ c.toNat ∧ c.toNat ≤ 90 then c.toNat + 32 else c.toNat := by
  have upper : c.val ≥ 'A'.val ∧ c.val ≤ 'Z'.val ↔ 65 ≤ c.toNat ∧ c.toNat ≤ 90 := by
    rw [ge_iff_le, UInt32.le_iff_toNat_le, UInt32.le_iff_toNat_le]
    rfl
  unfold Char.toLower
  by_cases isUpper : 65 ≤ c.toNat ∧ c.toNat ≤ 90
  · rw [dif_pos (upper.2 isUpper), if_pos isUpper]
    show (c.val + 32).toNat = c.val.toNat + 32
    have bound : c.val.toNat ≤ 90 := isUpper.2
    rw [UInt32.toNat_add]
    exact Nat.mod_eq_of_lt (Nat.lt_of_le_of_lt (Nat.add_le_add_right bound 32) (by decide))
  · rw [dif_neg fun h => isUpper (upper.1 h), if_neg isUpper]

theorem sameLetter_iff {c d : Char} : SameLetter c d ↔ c.toLower = d.toLower := by
  rw [← Char.toNat_inj, toNat_toLower, toNat_toLower, SameLetter, IsUpperOf, IsUpperOf,
    ← Char.toNat_inj]
  show c.toNat = d.toNat ∨ (65 ≤ c.toNat ∧ c.toNat ≤ 90 ∧ d.toNat = c.toNat + 32) ∨
    (65 ≤ d.toNat ∧ d.toNat ≤ 90 ∧ c.toNat = d.toNat + 32) ↔ _
  split_ifs <;> omega

theorem sameLetters_iff {x y : String} : SameLetters x y ↔ x.toLower = y.toLower := by
  have letters : SameLetter = fun c d => c.toLower = d.toLower := by
    funext c d
    exact propext sameLetter_iff
  rw [← String.toList_inj, toList_toLower, toList_toLower, ← List.forall₂_eq_eq_eq,
    List.forall₂_map_left_iff, List.forall₂_map_right_iff, SameLetters, letters]

end Telemetry.Text
