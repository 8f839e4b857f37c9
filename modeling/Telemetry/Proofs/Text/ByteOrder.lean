import Mathlib.Data.String.Basic

/-!
# The order of texts and of their bytes

Comparing two texts by their bytes in UTF-8 is the same as comparing them character by character:
the encoding of a character begins with a byte that grows with the code point and settles the number
of bytes behind it, and these are the digits of the code point in base 64.

* `utf8EncodeChar_eq` takes the encoding of a character apart in this way;
* `encode_append_lt`: of two characters, the smaller one has the smaller encoding, whatever follows;
* `utf8Bytes_lt_iff`, `scalarValues_lt_iff`: bytes and code points order texts as their characters
  do.
-/

namespace Telemetry.Text

/-- The bytes of a text in UTF-8. -/
def utf8Bytes (text : String) : List UInt8 :=
  text.toUTF8.data.toList

/-- The code points of the characters of a text. -/
def scalarValues (text : String) : List Nat :=
  text.toList.map Char.toNat

/-! ### One character -/

/-- How many bytes follow the first one in the encoding of a code point. -/
def trailWidth (n : Nat) : Nat :=
  if n ≤ 127 then 0 else if n ≤ 2047 then 1 else if n ≤ 65535 then 2 else 3

/-- The first byte in the encoding of a code point. -/
def leadByte (n : Nat) : Nat :=
  if n ≤ 127 then n else if n ≤ 2047 then n / 64 + 192 else if n ≤ 65535 then n / 4096 + 224
  else n / 262144 + 240

/-- The last digits of a number in base 64, the highest first, as bytes that go on a character. -/
def trail : Nat → Nat → List UInt8
  | 0, _ => []
  | k + 1, n => UInt8.ofNat (n / 64 ^ k % 64 + 128) :: trail k n

theorem toNat_lt (c : Char) : c.toNat < 1114112 := by
  have valid := c.valid
  rcases valid with low | high
  · exact Nat.lt_trans low (by decide)
  · exact high.2

theorem utf8EncodeChar_eq (c : Char) :
    String.utf8EncodeChar c =
      UInt8.ofNat (leadByte c.toNat) :: trail (trailWidth c.toNat) c.toNat := by
  have bound := toNat_lt c
  simp only [String.utf8EncodeChar, leadByte, trailWidth, Char.toNat_val]
  split_ifs
  · rfl
  · simp only [trail, Nat.pow_zero, Nat.div_one]
    rw [Nat.mod_eq_of_lt (by omega)]
  · simp only [trail, Nat.pow_zero, Nat.div_one, Nat.pow_one]
    rw [Nat.mod_eq_of_lt (b := 16) (by omega)]
  · simp only [trail, Nat.pow_zero, Nat.div_one, Nat.reducePow]
    rw [Nat.mod_eq_of_lt (b := 8) (by omega)]

/-- A smaller first byte decides, and so does the rest behind equal ones. -/
theorem cons_lt_cons_of_le {a b : Nat} {xs ys : List UInt8} (ha : a < 256) (hb : b < 256)
    (le : a ≤ b) (rest : a = b → xs < ys) : UInt8.ofNat a :: xs < UInt8.ofNat b :: ys := by
  rw [List.cons_lt_cons_iff, UInt8.ofNat_lt_iff_lt ha hb]
  rcases Nat.lt_or_eq_of_le le with lt | eq
  · exact .inl lt
  · exact .inr ⟨congrArg UInt8.ofNat eq, rest eq⟩

theorem trail_append_lt {k m n : Nat} (h : m % 64 ^ k < n % 64 ^ k) (xs ys : List UInt8) :
    trail k m ++ xs < trail k n ++ ys := by
  induction k with
  | zero =>
    rw [Nat.pow_zero, Nat.mod_one, Nat.mod_one] at h
    exact absurd h (Nat.lt_irrefl 0)
  | succ k ih =>
    rw [Nat.mod_pow_succ, Nat.mod_pow_succ] at h
    have bound := Nat.mod_lt n (Nat.pow_pos (n := k) (show 0 < 64 by decide))
    have le : m / 64 ^ k % 64 ≤ n / 64 ^ k % 64 := by
      by_contra gt
      have gap := Nat.mul_le_mul_left (64 ^ k) (Nat.lt_of_not_le gt)
      rw [Nat.succ_eq_add_one, Nat.mul_add, Nat.mul_one] at gap
      omega
    have hm := Nat.mod_lt (m / 64 ^ k) (show 0 < 64 by decide)
    have hn := Nat.mod_lt (n / 64 ^ k) (show 0 < 64 by decide)
    refine cons_lt_cons_of_le (by omega) (by omega) (by omega) fun eq => ih ?_
    have same : m / 64 ^ k % 64 = n / 64 ^ k % 64 := by omega
    rw [same] at h
    omega

/-- First bytes grow with code points. -/
theorem leadByte_le {m n : Nat} (h : m < n) : leadByte m ≤ leadByte n := by
  unfold leadByte
  split_ifs <;> omega

theorem leadByte_lt {n : Nat} (bound : n < 1114112) : leadByte n < 256 := by
  unfold leadByte
  split_ifs <;> omega

/-- Code points with the same first byte have the same number of bytes behind it, and differ in the
digits that these hold. -/
theorem mod_lt_of_leadByte_eq {m n : Nat} (h : m < n) (same : leadByte m = leadByte n) :
    trailWidth m = trailWidth n ∧ m % 64 ^ trailWidth n < n % 64 ^ trailWidth n := by
  unfold leadByte at same
  unfold trailWidth
  refine ⟨?_, ?_⟩
  · split_ifs at same ⊢ <;> omega
  · split_ifs at same ⊢ <;> omega

/-- The smaller of two characters has the smaller encoding, whatever follows. -/
theorem encode_append_lt {c d : Char} (h : c < d) (xs ys : List UInt8) :
    String.utf8EncodeChar c ++ xs < String.utf8EncodeChar d ++ ys := by
  have lt : c.toNat < d.toNat := h
  rw [utf8EncodeChar_eq, utf8EncodeChar_eq, List.cons_append, List.cons_append]
  have first := leadByte_lt (toNat_lt c)
  have second := leadByte_lt (toNat_lt d)
  refine cons_lt_cons_of_le first second (leadByte_le lt) fun same => ?_
  obtain ⟨width, digits⟩ := mod_lt_of_leadByte_eq lt same
  rw [width]
  exact trail_append_lt digits xs ys

/-! ### Texts -/

theorem utf8Bytes_eq (text : String) :
    utf8Bytes text = text.toList.flatMap String.utf8EncodeChar := by
  rw [utf8Bytes, String.toUTF8_eq_toByteArray, ← String.utf8Encode_toList, List.utf8Encode,
    List.data_toByteArray]

/-- Lists of characters are ordered as their encodings are. -/
theorem flatMap_encode_lt {xs ys : List Char} (h : xs < ys) :
    xs.flatMap String.utf8EncodeChar < ys.flatMap String.utf8EncodeChar := by
  induction xs generalizing ys with
  | nil =>
    cases ys with
    | nil => exact absurd h (List.lt_irrefl [])
    | cons d ys =>
      rw [List.flatMap_nil, List.flatMap_cons, utf8EncodeChar_eq, List.cons_append]
      exact List.nil_lt_cons _ _
  | cons c xs ih =>
    cases ys with
    | nil => exact absurd h (List.not_lt_nil _)
    | cons d ys =>
      rw [List.flatMap_cons, List.flatMap_cons]
      rcases List.cons_lt_cons_iff.1 h with lt | ⟨rfl, rest⟩
      · exact encode_append_lt lt _ _
      · exact List.append_left_lt (ih rest)

/-- What keeps the strict order of texts reflects it. -/
theorem lt_iff_of_mono {α : Type} [LT α] [Std.Asymm (α := α) (· < ·)] {f : String → List α}
    (mono : ∀ {x y}, x < y → f x < f y) {x y : String} : f x < f y ↔ x < y := by
  refine ⟨?_, mono⟩
  intro h
  rcases lt_trichotomy x y with lt | rfl | gt
  · exact lt
  · exact absurd h (List.lt_asymm h)
  · exact absurd h (List.lt_asymm (mono gt))

/-- Texts are ordered as their bytes are. -/
theorem utf8Bytes_lt_iff {x y : String} : utf8Bytes x < utf8Bytes y ↔ x < y := by
  refine lt_iff_of_mono fun {x y} h => ?_
  rw [utf8Bytes_eq, utf8Bytes_eq]
  exact flatMap_encode_lt h

/-- Texts are ordered as their code points are. -/
theorem scalarValues_lt_iff {x y : String} : scalarValues x < scalarValues y ↔ x < y := by
  refine lt_iff_of_mono fun {x y} h => ?_
  rw [scalarValues, scalarValues]
  exact List.map_lt (fun _ _ lt => lt) h

end Telemetry.Text
