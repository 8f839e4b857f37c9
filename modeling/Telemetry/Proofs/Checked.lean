import Mathlib.Data.List.Basic
import Mathlib.Data.List.Forall2
import Telemetry.Fault

/-!
# Steps that may fail

* `bind_eq_ok_iff`, `mapM_eq_ok_iff`, `forM_eq_ok_iff`: when a sequence of steps succeeds;
* `exists_eq_error_iff`, `bind_eq_error_iff`, `mapM_eq_error_iff`, `forM_eq_error_iff`,
  `foldlM_eq_error_iff`, `of_foldlM_eq_error`: when and how it fails;
* `isSome_toOption_iff`, `any_toOption_iff`, `toOption_eq_none_iff`: whether it succeeds, as
  something to compute;
* `bind_comm`, `mapM_comm`, `foldlM_comm`: steps that commute with functions can be put together;
* `keeps_foldlM`: what one step keeps, a run keeps;
* `exists_foldlM_iff`: if a step succeeds exactly when its item is sound in itself and beside every
  item before it, then a run succeeds exactly when all items are sound in themselves and in pairs.

`keeps_foldlM` and `exists_foldlM_iff` are about a state that is described by the items it has come
from.
-/

namespace Telemetry.Checked

variable {ε α β σ : Type}

theorem bind_eq_ok_iff {x : Except ε α} {f : α → Except ε β} {b : β} :
    (x >>= f) = .ok b ↔ ∃ a, x = .ok a ∧ f a = .ok b := by
  constructor
  · intro h
    cases x with
    | error fault => cases h
    | ok a => exact ⟨a, rfl, h⟩
  · intro h
    obtain ⟨a, rfl, h⟩ := h
    exact h

/-- A step fails unless it succeeds. -/
theorem exists_eq_error_iff {x : Except ε α} :
    (∃ fault, x = .error fault) ↔ ¬ ∃ a, x = .ok a := by
  cases x with
  | error fault => simp
  | ok a => simp

theorem bind_eq_error_iff {x : Except ε α} {f : α → Except ε β} {fault : ε} :
    (x >>= f) = .error fault ↔ x = .error fault ∨ ∃ a, x = .ok a ∧ f a = .error fault := by
  cases x with
  | error other => simp [bind, Except.bind]
  | ok a => simp [bind, Except.bind]

theorem map_eq_ok_iff {x : Except ε α} {f : α → β} {b : β} :
    f <$> x = .ok b ↔ ∃ a, x = .ok a ∧ f a = b := by
  cases x with
  | error fault => simp [Functor.map, Except.map]
  | ok a => simp [Functor.map, Except.map]

theorem map_eq_error_iff {x : Except ε α} {f : α → β} {fault : ε} :
    f <$> x = .error fault ↔ x = .error fault := by
  cases x with
  | error other => simp [Functor.map, Except.map]
  | ok a => simp [Functor.map, Except.map]

theorem toOption_eq_some_iff {x : Except ε α} {a : α} : x.toOption = some a ↔ x = .ok a := by
  cases x with
  | error fault => simp [Except.toOption]
  | ok b => simp [Except.toOption]

/-- Whether a step succeeds can be computed. -/
theorem isSome_toOption_iff {x : Except ε α} : x.toOption.isSome = true ↔ ∃ a, x = .ok a := by
  rw [Option.isSome_iff_exists]
  simp only [toOption_eq_some_iff]

/-- Whether a step succeeds with a result that passes can be computed. -/
theorem any_toOption_iff {x : Except ε α} {p : α → Bool} :
    x.toOption.any p = true ↔ ∃ a, x = .ok a ∧ p a = true := by
  cases x with
  | error fault => simp [Except.toOption]
  | ok a => simp [Except.toOption]

theorem toOption_eq_none_iff {x : Except ε α} :
    x.toOption = none ↔ ∃ fault, x = .error fault := by
  cases x with
  | error fault => simp [Except.toOption]
  | ok a => simp [Except.toOption]

theorem mapM_eq_ok_iff {f : α → Except ε β} {xs : List α} {ys : List β} :
    xs.mapM f = .ok ys ↔ List.Forall₂ (fun x y => f x = .ok y) xs ys := by
  induction xs generalizing ys with
  | nil =>
    rw [List.mapM_nil, List.forall₂_nil_left_iff]
    constructor
    · intro h
      cases h
      rfl
    · intro h
      rw [h]
      rfl
  | cons x xs ih =>
    rw [List.mapM_cons, bind_eq_ok_iff, List.forall₂_cons_left_iff]
    constructor
    · intro h
      obtain ⟨y, first, h⟩ := h
      obtain ⟨others, rest, h⟩ := bind_eq_ok_iff.1 h
      cases h
      exact ⟨y, others, first, ih.1 rest, rfl⟩
    · intro h
      obtain ⟨y, others, first, rest, rfl⟩ := h
      refine ⟨y, first, ?_⟩
      rw [bind_eq_ok_iff]
      exact ⟨others, ih.2 rest, rfl⟩

/-- A list fails with the fault of its first item that fails, whatever follows. -/
theorem mapM_eq_error_iff {f : α → Checked β} {xs : List α} {fault : Fault} :
    xs.mapM f = .error fault ↔ ∃ front x behind, xs = front ++ x :: behind ∧
      (∀ y ∈ front, ∃ b, f y = .ok b) ∧ f x = .error fault := by
  induction xs with
  | nil =>
    constructor
    · intro h
      cases h
    · intro h
      obtain ⟨front, x, behind, split, -⟩ := h
      cases front <;> cases split
  | cons x xs ih =>
    rw [List.mapM_cons, bind_eq_error_iff]
    constructor
    · intro h
      rcases h with first | ⟨b, first, rest⟩
      · exact ⟨[], x, xs, rfl, List.forall_mem_nil _, first⟩
      · rcases bind_eq_error_iff.1 rest with later | ⟨_, _, done⟩
        · obtain ⟨front, y, behind, rfl, sound, fails⟩ := ih.1 later
          exact ⟨x :: front, y, behind, rfl, List.forall_mem_cons.2 ⟨⟨b, first⟩, sound⟩, fails⟩
        · cases done
    · intro h
      obtain ⟨front, y, behind, split, sound, fails⟩ := h
      cases front with
      | nil =>
        cases split
        exact .inl fails
      | cons z front =>
        cases split
        obtain ⟨⟨b, first⟩, others⟩ := List.forall_mem_cons.1 sound
        have later := ih.2 ⟨front, y, behind, rfl, others, fails⟩
        exact .inr ⟨b, first, bind_eq_error_iff.2 (.inl later)⟩

theorem forM_eq_ok_iff {f : α → Checked Unit} {xs : List α} :
    xs.forM f = .ok () ↔ ∀ x ∈ xs, f x = .ok () := by
  induction xs with
  | nil => exact iff_of_true rfl (List.forall_mem_nil _)
  | cons x xs ih =>
    show (f x >>= fun _ => xs.forM f) = .ok () ↔ _
    rw [bind_eq_ok_iff, List.forall_mem_cons, ← ih]
    exact ⟨fun ⟨_, first, rest⟩ => ⟨first, rest⟩, fun ⟨first, rest⟩ => ⟨(), first, rest⟩⟩

/-- Checks are a traversal whose results are thrown away. -/
theorem forM_eq_map_mapM (f : α → Checked Unit) (xs : List α) :
    xs.forM f = (fun _ => ()) <$> xs.mapM f := by
  induction xs with
  | nil => rfl
  | cons x xs ih =>
    show (f x >>= fun _ => xs.forM f) = _
    rw [ih, List.mapM_cons]
    cases f x with
    | error fault => rfl
    | ok _ => cases xs.mapM f <;> rfl

/-- Checks fail with the fault of the first item that fails, whatever follows. -/
theorem forM_eq_error_iff {f : α → Checked Unit} {xs : List α} {fault : Fault} :
    xs.forM f = .error fault ↔ ∃ front x behind, xs = front ++ x :: behind ∧
      (∀ y ∈ front, f y = .ok ()) ∧ f x = .error fault := by
  have passes : ∀ y, (∃ u, f y = .ok u) ↔ f y = .ok () :=
    fun y => ⟨fun ⟨_, h⟩ => h, fun h => ⟨(), h⟩⟩
  rw [forM_eq_map_mapM, map_eq_error_iff, mapM_eq_error_iff]
  simp only [passes]

/-! ### Steps that commute with functions -/

section Commutes

variable {γ δ τ : Type}

/-- A step behind one that commutes with functions. -/
theorem bind_comm {x : Checked α} {y : Checked γ} {e : α → γ} {f : α → Checked β}
    {f' : γ → Checked δ} {g : β → δ} (first : y = e <$> x) (next : ∀ a, f' (e a) = g <$> f a) :
    (y >>= f') = g <$> (x >>= f) := by
  rw [first]
  cases x with
  | error fault => rfl
  | ok a => exact next a

/-- The step for every item, if each commutes with functions. -/
theorem mapM_comm {f : α → Checked β} {f' : γ → Checked δ} {e : α → γ} {g : β → δ}
    (each : ∀ x, f' (e x) = g <$> f x) (xs : List α) :
    (xs.map e).mapM f' = List.map g <$> xs.mapM f := by
  induction xs with
  | nil => rfl
  | cons x xs ih =>
    rw [List.map_cons, List.mapM_cons, List.mapM_cons]
    refine bind_comm (each x) fun b => bind_comm ih fun bs => ?_
    rfl

/-- A run, if every step commutes with functions. -/
theorem foldlM_comm {f : σ → α → Checked σ} {f' : τ → γ → Checked τ} {g : σ → τ} {e : α → γ}
    (each : ∀ s a, f' (g s) (e a) = g <$> f s a) (s : σ) (xs : List α) :
    (xs.map e).foldlM f' (g s) = g <$> xs.foldlM f s := by
  induction xs generalizing s with
  | nil => rfl
  | cons x xs ih =>
    rw [List.map_cons, List.foldlM_cons, List.foldlM_cons]
    exact bind_comm (each s x) fun next => ih next

end Commutes

/-! ### Runs -/

variable {f : σ → α → Checked σ} (Holds : List α → σ → Prop)

/-- What every step keeps, a run keeps. -/
theorem keeps_foldlM (keeps : ∀ done s a t, Holds done s → f s a = .ok t → Holds (done ++ [a]) t)
    {done xs : List α} {s t : σ} (h : Holds done s) (run : xs.foldlM f s = .ok t) :
    Holds (done ++ xs) t := by
  induction xs generalizing done s with
  | nil =>
    cases run
    rw [List.append_nil]
    exact h
  | cons a xs ih =>
    rw [List.foldlM_cons] at run
    obtain ⟨next, step, rest⟩ := bind_eq_ok_iff.1 run
    have further := ih (keeps _ _ _ _ h step) rest
    rwa [List.append_assoc] at further

/-- A run fails with the fault of the first step that fails, whatever items follow. -/
theorem foldlM_eq_error_iff {xs : List α} {s : σ} {fault : Fault} :
    xs.foldlM f s = .error fault ↔ ∃ front x behind t, xs = front ++ x :: behind ∧
      front.foldlM f s = .ok t ∧ f t x = .error fault := by
  induction xs generalizing s with
  | nil =>
    constructor
    · intro h
      cases h
    · intro h
      obtain ⟨front, x, behind, t, split, -⟩ := h
      cases front <;> cases split
  | cons x xs ih =>
    rw [List.foldlM_cons, bind_eq_error_iff]
    constructor
    · intro h
      rcases h with first | ⟨next, step, rest⟩
      · exact ⟨[], x, xs, s, rfl, rfl, first⟩
      · obtain ⟨front, y, behind, t, rfl, run, fails⟩ := ih.1 rest
        refine ⟨x :: front, y, behind, t, rfl, ?_, fails⟩
        rw [List.foldlM_cons, step]
        exact run
    · intro h
      obtain ⟨front, y, behind, t, split, run, fails⟩ := h
      cases front with
      | nil =>
        cases split
        cases run
        exact .inl fails
      | cons z front =>
        cases split
        rw [List.foldlM_cons] at run
        obtain ⟨next, step, rest⟩ := bind_eq_ok_iff.1 run
        exact .inr ⟨next, step, ih.2 ⟨front, y, behind, t, rfl, rest, fails⟩⟩

/-- What is said of the faults of every step is said of the fault of a run. -/
theorem of_foldlM_eq_error {P : Fault → Prop} (each : ∀ s a fault, f s a = .error fault → P fault)
    {xs : List α} {s : σ} {fault : Fault} (run : xs.foldlM f s = .error fault) : P fault := by
  obtain ⟨_, x, _, t, -, -, fails⟩ := foldlM_eq_error_iff.1 run
  exact each t x fault fails

/-- If a step succeeds exactly when its item is sound in itself and beside the items before it, a
run succeeds exactly when its items are. -/
theorem exists_foldlM_iff {p : α → Prop} {r : α → α → Prop}
    (keeps : ∀ done s a t, Holds done s → f s a = .ok t → Holds (done ++ [a]) t)
    (admits : ∀ done s a, Holds done s → ((∃ t, f s a = .ok t) ↔ p a ∧ ∀ e ∈ done, r e a))
    {done : List α} (xs : List α) {s : σ} (h : Holds done s) :
    (∃ t, xs.foldlM f s = .ok t) ↔
      (∀ a ∈ xs, p a) ∧ (∀ e ∈ done, ∀ a ∈ xs, r e a) ∧ xs.Pairwise r := by
  induction xs generalizing done s with
  | nil => simp [pure, Except.pure]
  | cons a xs ih =>
    have split : (∃ t, (a :: xs).foldlM f s = .ok t) ↔
        ∃ next, f s a = .ok next ∧ ∃ t, xs.foldlM f next = .ok t := by
      simp only [List.foldlM_cons, bind_eq_ok_iff]
      exact ⟨fun ⟨t, next, step, rest⟩ => ⟨next, step, t, rest⟩,
        fun ⟨next, step, t, rest⟩ => ⟨t, next, step, rest⟩⟩
    rw [split, List.forall_mem_cons, List.pairwise_cons]
    constructor
    · intro run
      obtain ⟨next, step, rest⟩ := run
      obtain ⟨sound, beside⟩ := (admits _ _ a h).1 ⟨next, step⟩
      obtain ⟨others, before, pairs⟩ := (ih (keeps _ _ _ _ h step)).1 rest
      refine ⟨⟨sound, others⟩, ?_, ?_, pairs⟩
      · intro e he
        rw [List.forall_mem_cons]
        exact ⟨beside e he, before e (List.mem_append_left _ he)⟩
      · exact before a (List.mem_append_right _ List.mem_cons_self)
    · intro sound
      obtain ⟨⟨first, others⟩, before, ahead, pairs⟩ := sound
      have beside := fun e he => before e he a List.mem_cons_self
      obtain ⟨next, step⟩ := (admits _ _ a h).2 ⟨first, beside⟩
      refine ⟨next, step, (ih (keeps _ _ _ _ h step)).2 ⟨others, ?_, pairs⟩⟩
      intro e he b hb
      rcases List.mem_append.1 he with he | he
      · exact before e he b (List.mem_cons_of_mem _ hb)
      · rw [List.mem_singleton.1 he]
        exact ahead b hb

end Telemetry.Checked
