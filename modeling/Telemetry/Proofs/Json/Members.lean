import Mathlib.Data.String.Basic
import Telemetry.Json.Value
import Telemetry.Proofs.Lookup

/-!
# Members in ascending order

* `insert_perm` and `Ordered.insert`: a member with a new key is added to those that are there, and
  the ascending order of the keys is kept;
* `ordered_addAll`: so adding members one after the other sorts them;
* `eq_of_perm`: ordered members are determined by which members they are;
* `split_of_get?` and `without_eq_self`: what is there with a key, and without it.
-/

namespace Telemetry.Json.Members

/-- Whether members stand in ascending order of their keys, which are then distinct. -/
def Ordered (members : Members) : Prop :=
  members.Pairwise fun m n => m.1 < n.1

/-- Adds members one after the other. -/
def addAll (found written : Members) : Members :=
  written.foldl (fun members m => members.insert m.1 m.2) found

theorem has_eq_false_iff {members : Members} {key : String} :
    members.has key = false ↔ key ∉ members.keys := by
  rw [has, List.any_eq_false, keys, List.mem_map]
  constructor
  · rintro h ⟨m, hm, rfl⟩
    exact h m hm (beq_self_eq_true _)
  · intro h m hm eq
    exact h ⟨m, hm, beq_iff_eq.1 eq⟩

theorem get?_eq_none_iff {members : Members} {key : String} :
    members.get? key = none ↔ key ∉ members.keys := by
  rw [get?, keys]
  exact lookup_eq_none_iff_notMem

theorem has_eq_isSome_get? (members : Members) (key : String) :
    members.has key = (members.get? key).isSome := by
  rw [Bool.eq_iff_iff, ← not_iff_not, Bool.not_eq_true, Bool.not_eq_true, has_eq_false_iff,
    Option.isSome_eq_false_iff, Option.isNone_iff_eq_none, get?_eq_none_iff]

theorem without_eq_self {members : Members} {key : String} (h : members.get? key = none) :
    members.without key = members := by
  rw [get?_eq_none_iff] at h
  exact List.filter_eq_self.2 fun m hm =>
    bne_iff_ne.2 fun eq => h (List.mem_map.2 ⟨m, hm, eq⟩)

theorem fst_ne_of_mem_without {members : Members} {key : String} {m : String × Value}
    (h : m ∈ members.without key) : m.1 ≠ key :=
  bne_iff_ne.1 (List.mem_filter.1 h).2

theorem Nodup.keys_without {members : Members} (h : members.keys.Nodup) (key : String) :
    (members.without key).keys.Nodup :=
  h.sublist (List.filter_sublist.map Prod.fst)

theorem get?_without_of_ne {key other : String} (ne : key ≠ other) (members : Members) :
    (members.without other).get? key = members.get? key :=
  lookup_filter_of_ne ne members

/-- A key with a value has one place among distinct keys. -/
theorem split_of_get? {members : Members} {key : String} {value : Value}
    (distinct : members.keys.Nodup) (h : members.get? key = some value) :
    ∃ front back, members = front ++ (key, value) :: back ∧
      members.without key = front ++ back := by
  obtain ⟨front, back, rfl, before⟩ := List.lookup_eq_some_iff.1 h
  have after : key ∉ keys back := by
    rw [keys, List.map_append, List.map_cons, List.nodup_append] at distinct
    exact (List.nodup_cons.1 distinct.2.1).1
  refine ⟨front, back, rfl, ?_⟩
  rw [without, List.filter_append, List.filter_cons_of_neg (by simp)]
  congr 1
  · exact List.filter_eq_self.2 fun m hm => bne_iff_ne.2 (bne_iff_ne.1 (before m hm)).symm
  · exact without_eq_self (get?_eq_none_iff.2 after)

theorem insert_perm {members : Members} {key : String} (h : key ∉ members.keys) (value : Value) :
    (insert key value members).Perm ((key, value) :: members) := by
  induction members with
  | nil => exact List.Perm.refl _
  | cons m rest ih =>
    have new : key ≠ m.1 := fun eq => h (eq ▸ List.mem_cons_self)
    have inner : key ∉ keys rest := fun inside => h (List.mem_cons_of_mem _ inside)
    rw [insert]
    split
    · exact List.Perm.refl _
    · exact ((ih inner).cons m).trans (List.Perm.swap _ _ _)

theorem Ordered.insert {members : Members} {key : String} (h : Ordered members)
    (new : key ∉ members.keys) (value : Value) : Ordered (insert key value members) := by
  induction members with
  | nil => exact List.pairwise_singleton _ _
  | cons m rest ih =>
    obtain ⟨first, ordered⟩ := List.pairwise_cons.1 h
    have ne : key ≠ m.1 := fun eq => new (eq ▸ List.mem_cons_self)
    have inner : key ∉ keys rest := fun inside => new (List.mem_cons_of_mem _ inside)
    rw [Members.insert]
    split
    · rename_i lt
      refine List.pairwise_cons.2 ⟨?_, h⟩
      intro n hn
      rcases List.mem_cons.1 hn with rfl | hn
      · exact lt
      · exact lt_trans lt (first n hn)
    · rename_i notLt
      refine List.pairwise_cons.2 ⟨?_, ih ordered inner⟩
      intro n hn
      rcases List.mem_cons.1 ((insert_perm inner value).subset hn) with rfl | hn
      · exact lt_of_le_of_ne (not_lt.1 notLt) ne.symm
      · exact first n hn

theorem Ordered.nodup_keys {members : Members} (h : Ordered members) : members.keys.Nodup := by
  rw [keys, List.Nodup, List.pairwise_map]
  exact h.imp fun lt => ne_of_lt lt

/-- Members with distinct new keys are sorted into those that are there. -/
theorem ordered_addAll {found written : Members} (h : Ordered found)
    (new : (written ++ found).keys.Nodup) :
    Ordered (found.addAll written) ∧ (found.addAll written).Perm (written ++ found) := by
  induction written generalizing found with
  | nil => exact ⟨h, List.Perm.refl _⟩
  | cons m rest ih =>
    obtain ⟨key, value⟩ := m
    obtain ⟨fresh, distinct⟩ := List.nodup_cons.1 new
    have absent : key ∉ found.keys := by
      intro inside
      obtain ⟨m, hm, eq⟩ := List.mem_map.1 inside
      exact fresh (List.mem_map.2 ⟨m, List.mem_append_right _ hm, eq⟩)
    have moved : (rest ++ found.insert key value).Perm ((key, value) :: (rest ++ found)) :=
      ((insert_perm absent value).append_left rest).trans List.perm_middle
    obtain ⟨ordered, perm⟩ := ih (h.insert absent value) ((moved.map Prod.fst).nodup_iff.2 new)
    exact ⟨ordered, perm.trans moved⟩

/-- The order of members is determined by the members. -/
theorem Ordered.eq_of_perm {m n : Members} (hm : Ordered m) (hn : Ordered n) (h : m.Perm n) :
    m = n := by
  refine h.eq_of_pairwise ?_ hm hn
  intro a b _ _ lt gt
  exact absurd (lt_trans lt gt) (lt_irrefl _)

end Telemetry.Json.Members
