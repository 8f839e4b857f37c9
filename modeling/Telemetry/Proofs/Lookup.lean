import Mathlib.Data.List.Basic

/-!
# Looking up keys

What is found under a key in a list of pairs, also when a pair is put in front or those of one key
are taken out.
-/

namespace Telemetry

variable {α β : Type} [BEq α] [LawfulBEq α]

theorem lookup_cons_of_ne {key first : α} (ne : key ≠ first) (value : β) (rest : List (α × β)) :
    ((first, value) :: rest).lookup key = rest.lookup key := by
  rw [List.lookup_cons, beq_eq_false_iff_ne.2 ne]

/-- Nothing is found exactly under the keys that are not there. -/
theorem lookup_eq_none_iff_notMem {key : α} {pairs : List (α × β)} :
    pairs.lookup key = none ↔ key ∉ pairs.map Prod.fst := by
  rw [List.lookup_eq_none_iff, List.mem_map]
  constructor
  · rintro absent ⟨pair, there, rfl⟩
    exact bne_iff_ne.1 (absent pair there) rfl
  · intro absent pair there
    exact bne_iff_ne.2 fun same => absent ⟨pair, there, same.symm⟩

theorem lookup_filter_self (key : α) (pairs : List (α × β)) :
    (pairs.filter fun pair => pair.1 != key).lookup key = none := by
  rw [List.lookup_eq_none_iff]
  intro pair isPair
  exact bne_iff_ne.2 (Ne.symm (bne_iff_ne.1 (List.mem_filter.1 isPair).2))

theorem lookup_filter_of_ne {key other : α} (ne : key ≠ other) (pairs : List (α × β)) :
    (pairs.filter fun pair => pair.1 != other).lookup key = pairs.lookup key := by
  induction pairs with
  | nil => rfl
  | cons pair rest ih =>
    obtain ⟨first, value⟩ := pair
    by_cases same : first = other
    · rw [List.filter_cons_of_neg (by simpa using same), ih, lookup_cons_of_ne (same ▸ ne)]
    · rw [List.filter_cons_of_pos (by simpa using same), List.lookup_cons, List.lookup_cons, ih]

end Telemetry
