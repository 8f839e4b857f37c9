import Mathlib.Data.List.TakeWhile
import Mathlib.Data.String.Basic
import Telemetry.Proofs.Text.Ascii
import Telemetry.Text.Blank

/-!
# What trimming does not see

Blanks around a text are trimmed with those that it has itself, and the case of letters has nothing
to do with blanks.
-/

namespace Telemetry.Text

/-- Whether a text holds nothing but blanks. -/
def Blank (s : String) : Prop :=
  ∀ c ∈ s.toList, isBlank c = true

theorem dropBlanksAtEnd_append {back : List Char} (blank : ∀ c ∈ back, isBlank c = true)
    (cs : List Char) : dropBlanksAtEnd (cs ++ back) = dropBlanksAtEnd cs := by
  have blankBack : ∀ c ∈ back.reverse, isBlank c = true := fun c there =>
    blank c (List.mem_reverse.1 there)
  rw [dropBlanksAtEnd, dropBlanksAtEnd, List.reverse_append,
    List.dropWhile_append_of_pos blankBack]

/-- Blanks around a text are trimmed. -/
theorem trim_append {front back : String} (blankFront : Blank front) (blankBack : Blank back)
    (s : String) : trim (front ++ s ++ back) = trim s := by
  rw [trim, trim, String.toList_append, String.toList_append, List.append_assoc,
    List.dropWhile_append_of_pos blankFront, List.dropWhile_append]
  congr 1
  split
  · rename_i nothing
    have none : back.toList.dropWhile isBlank = [] := List.dropWhile_eq_nil_iff.2 blankBack
    rw [none, List.isEmpty_iff.1 nothing]
  · exact dropBlanksAtEnd_append blankBack _

theorem trim_eq_empty {s : String} (blank : Blank s) : trim s = "" := by
  have nothing : Blank "" := fun _ there => (List.not_mem_nil there).elim
  have inside : trim ("" ++ "" ++ s) = trim "" :=
    trim_append nothing blank ""
  rw [String.append_empty, String.empty_append] at inside
  rw [inside]
  rfl

theorem trimmed?_eq_none {s : String} (blank : Blank s) : trimmed? s = none := by
  rw [trimmed?, trim_eq_empty blank]
  rfl

/-! ### Letter case -/

theorem isBlank_toLower (c : Char) : isBlank c.toLower = isBlank c := by
  by_cases upper : c.isUpper = true
  · have ascii : c.toNat < 128 := toNat_lt_of_isAlphanum (by
      rw [isAlphanum_eq_or, upper]
      rfl)
    have each : ∀ n < 128, isBlank (Char.ofNat n).toLower = isBlank (Char.ofNat n) := by
      decide +kernel
    exact of_ascii (p := fun c => isBlank c.toLower = isBlank c) each ascii
  · have same : c.toLower = c := dif_neg fun between => upper (decide_eq_true between)
    rw [same]

theorem dropWhile_isBlank_map_toLower (cs : List Char) :
    (cs.map Char.toLower).dropWhile isBlank = (cs.dropWhile isBlank).map Char.toLower := by
  have same : isBlank ∘ Char.toLower = isBlank := funext isBlank_toLower
  rw [List.dropWhile_map, same]

theorem toList_toLower (s : String) : s.toLower.toList = s.toList.map Char.toLower :=
  String.toList_map

/-- A text is trimmed in the same place whatever the case of its letters. -/
theorem toLower_trim (s : String) : (trim s).toLower = trim s.toLower := by
  rw [← String.toList_inj]
  simp only [toList_toLower, trim, String.toList_ofList, dropBlanksAtEnd, List.map_reverse,
    ← dropWhile_isBlank_map_toLower]

end Telemetry.Text
