import Mathlib.Data.List.Forall2

/-!
# Lists related item by item

What `List.Forall₂` carries over from one list to the other: members, equal images, also of
functions that may fail, and relations between pairs.
-/

namespace Telemetry.Related

variable {α β γ : Type} {R : α → β → Prop} {xs : List α} {ys : List β}

theorem exists_right (h : List.Forall₂ R xs ys) {x : α} (hx : x ∈ xs) : ∃ y ∈ ys, R x y := by
  induction h with
  | nil => cases hx
  | cons related _ ih =>
    rcases List.mem_cons.1 hx with rfl | hx
    · exact ⟨_, List.mem_cons_self, related⟩
    · obtain ⟨y, hy, related⟩ := ih hx
      exact ⟨y, List.mem_cons_of_mem _ hy, related⟩

theorem exists_left (h : List.Forall₂ R xs ys) {y : β} (hy : y ∈ ys) : ∃ x ∈ xs, R x y := by
  obtain ⟨x, hx, related⟩ := exists_right h.flip hy
  exact ⟨x, hx, related⟩

/-- A list has a related one if each of its items has. -/
theorem exists_forall₂_iff : (∃ ys, List.Forall₂ R xs ys) ↔ ∀ x ∈ xs, ∃ y, R x y := by
  constructor
  · intro h x hx
    obtain ⟨ys, h⟩ := h
    obtain ⟨y, -, related⟩ := exists_right h hx
    exact ⟨y, related⟩
  · intro h
    induction xs with
    | nil => exact ⟨[], .nil⟩
    | cons x xs ih =>
      obtain ⟨first, others⟩ := List.forall_mem_cons.1 h
      obtain ⟨y, related⟩ := first
      obtain ⟨ys, rest⟩ := ih others
      exact ⟨y :: ys, .cons related rest⟩

/-- Two relations, one after the other. -/
theorem exists_forall₂_trans_iff {S : β → γ → Prop} {zs : List γ} :
    (∃ ys, List.Forall₂ R xs ys ∧ List.Forall₂ S ys zs) ↔
      List.Forall₂ (fun x z => ∃ y, R x y ∧ S y z) xs zs := by
  constructor
  · intro h
    obtain ⟨ys, first, second⟩ := h
    induction first generalizing zs with
    | nil =>
      cases second
      exact .nil
    | cons related _ ih =>
      cases second with
      | cons next rest => exact .cons ⟨_, related, next⟩ (ih rest)
  · intro h
    induction h with
    | nil => exact ⟨[], .nil, .nil⟩
    | cons related _ ih =>
      obtain ⟨y, first, second⟩ := related
      obtain ⟨ys, firsts, seconds⟩ := ih
      exact ⟨y :: ys, .cons first firsts, .cons second seconds⟩

/-- Functions that agree on related items have the same images. -/
theorem map_eq_map {f : α → γ} {g : β → γ} (h : List.Forall₂ R xs ys)
    (agree : ∀ x y, R x y → f x = g y) : xs.map f = ys.map g := by
  induction h with
  | nil => rfl
  | cons related _ ih => rw [List.map_cons, List.map_cons, agree _ _ related, ih]

/-- Equal images of two lists are equal images of their items. -/
theorem forall₂_of_map_eq {f : α → γ} {ys : List α} (h : xs.map f = ys.map f) :
    List.Forall₂ (fun x y => f x = f y) xs ys := by
  rw [← List.forall₂_eq_eq_eq, List.forall₂_map_left_iff, List.forall₂_map_right_iff] at h
  exact h

/-- Functions that agree on the items of a list give the same list. -/
theorem mapM_congr {f g : α → Option β} (same : ∀ x ∈ xs, f x = g x) :
    xs.mapM f = xs.mapM g := by
  induction xs with
  | nil => rfl
  | cons x xs ih =>
    obtain ⟨first, others⟩ := List.forall_mem_cons.1 same
    rw [List.mapM_cons, List.mapM_cons, first, ih others]

/-- A function that may fail gives a list item by item. -/
theorem mapM_eq_some_iff {f : α → Option β} :
    xs.mapM f = some ys ↔ List.Forall₂ (fun x y => f x = some y) xs ys := by
  induction xs generalizing ys with
  | nil =>
    rw [List.mapM_nil, List.forall₂_nil_left_iff]
    show some [] = some ys ↔ ys = []
    rw [Option.some.injEq]
    exact eq_comm
  | cons x xs ih =>
    rw [List.mapM_cons, List.forall₂_cons_left_iff]
    simp only [Option.bind_eq_bind, Option.bind_eq_some_iff, Option.pure_def, Option.some.injEq,
      ih]
    constructor
    · intro h
      obtain ⟨y, first, others, rest, rfl⟩ := h
      exact ⟨y, others, first, rest, rfl⟩
    · intro h
      obtain ⟨y, others, first, rest, rfl⟩ := h
      exact ⟨y, first, others, rest, rfl⟩

/-- Functions that may fail give the same list if they give the same on related items. -/
theorem exists_mapM_eq {f : α → Option γ} {g : β → Option γ} (h : List.Forall₂ R xs ys)
    (same : ∀ x y, R x y → ∃ z, f x = some z ∧ g y = some z) :
    ∃ zs, xs.mapM f = some zs ∧ ys.mapM g = some zs := by
  induction h with
  | nil => exact ⟨[], rfl, rfl⟩
  | cons related _ ih =>
    obtain ⟨z, left, right⟩ := same _ _ related
    obtain ⟨zs, lefts, rights⟩ := ih
    refine ⟨z :: zs, ?_, ?_⟩
    · rw [List.mapM_cons, left, lefts]
      rfl
    · rw [List.mapM_cons, right, rights]
      rfl

/-- A relation between the pairs of one list is a relation between the pairs of the other. -/
theorem pairwise_iff {P : α → α → Prop} {Q : β → β → Prop} (h : List.Forall₂ R xs ys)
    (agree : ∀ a b x y, R a x → R b y → (P a b ↔ Q x y)) : xs.Pairwise P ↔ ys.Pairwise Q := by
  induction h with
  | nil => exact iff_of_true .nil .nil
  | @cons a x as bs related rest ih =>
    rw [List.pairwise_cons, List.pairwise_cons, ih]
    refine and_congr_left fun _ => ?_
    constructor
    · intro all y hy
      obtain ⟨b, hb, pair⟩ := exists_left rest hy
      exact (agree a b x y related pair).1 (all b hb)
    · intro all b hb
      obtain ⟨y, hy, pair⟩ := exists_right rest hb
      exact (agree a b x y related pair).2 (all y hy)

end Telemetry.Related
