import Mathlib.Data.List.Sort
import Telemetry.Proofs.Json.Damage

/-!
# What is reported of a damaged text

Each thing that a text has suffered is reported once: a broken scalar where it stands, and an erased
separator at the slot that follows it.

* `report` lists the defects in the order of the slots, those of the scanner before those of the
  reader where both stand at one place;
* `inOrder_eq_report`: sorting what the scanner finds, followed by what the reader finds, gives that
  list;
* `length_report`: it has as many entries as slots that were not kept.
-/

namespace Telemetry.Json

/-! ### Stable sorting -/

/-- Sorting keeps whatever relates the entries of a list that are alike in the order sorted by. -/
theorem pairwise_mergeSort_of_pairwise {α : Type} {le : α → α → Bool} {P : α → α → Prop}
    {l : List α} (trans : ∀ a b c, le a b = true → le b c = true → le a c = true)
    (total : ∀ a b, (le a b || le b a) = true) (h : l.Pairwise P) :
    (l.mergeSort le).Pairwise fun a b => le a b = true ∧ (le b a = true → P a b) := by
  rw [List.pairwise_iff_forall_sublist]
  intro a b inSorted
  have ab : le a b = true :=
    List.pairwise_iff_forall_sublist.1 (List.pairwise_mergeSort trans total l) inSorted
  refine ⟨ab, fun ba => List.pairwise_iff_forall_sublist.1 h ?_⟩
  let alike : α → Bool := fun x => le a x && le x a
  -- The entries that are like `a` are sorted as they stand, so they are still in their order.
  have sorted : (l.filter alike).Pairwise fun x y => le x y = true := by
    refine List.pairwise_of_forall_mem_list fun x hx y hy => ?_
    have xa := (Bool.and_eq_true_iff.1 (List.mem_filter.1 hx).2).2
    have ay := (Bool.and_eq_true_iff.1 (List.mem_filter.1 hy).2).1
    exact trans x a y xa ay
  have kept := (List.sublist_mergeSort trans total sorted List.filter_sublist).filter alike
  rw [List.filter_filter] at kept
  simp only [Bool.and_self] at kept
  have same := kept.eq_of_length ((List.mergeSort_perm l le).filter alike).length_eq.symm
  have aa : le a a = true := by simpa using total a a
  have pair : [a, b].filter alike = [a, b] := by
    simp [alike, aa, ab, ba]
  have inAlike := inSorted.filter alike
  rw [pair, ← same] at inAlike
  exact inAlike.trans List.filter_sublist

/-! ### Places -/

namespace Place

/-- Whether a place stands before another. -/
def Before (p q : Place) : Prop :=
  p.line < q.line ∨ p.line = q.line ∧ p.column < q.column

theorem notAfter_iff {p q : Place} :
    p.notAfter q = true ↔ p.line < q.line ∨ p.line = q.line ∧ p.column ≤ q.column := by
  simp [notAfter]

theorem Before.notAfter {p q : Place} (h : p.Before q) : p.notAfter q = true := by
  rw [notAfter_iff]
  unfold Before at h
  omega

theorem Before.not_notAfter {p q : Place} (h : p.Before q) : ¬ q.notAfter p = true := by
  rw [notAfter_iff]
  unfold Before at h
  omega

theorem Before.trans {p q r : Place} (h : p.Before q) (h' : q.Before r) : p.Before r := by
  unfold Before at *
  omega

theorem notAfter_refl (p : Place) : p.notAfter p = true :=
  notAfter_iff.2 (.inr ⟨rfl, Nat.le_refl _⟩)

theorem notAfter_trans (p q r : Place) (h : p.notAfter q = true) (h' : q.notAfter r = true) :
    p.notAfter r = true := by
  rw [notAfter_iff] at *
  omega

theorem notAfter_total (p q : Place) : (p.notAfter q || q.notAfter p) = true := by
  rw [Bool.or_eq_true, notAfter_iff, notAfter_iff]
  omega

theorem before_after (p : Place) (c : Char) : p.Before (p.after c) := by
  unfold Before after
  split
  · exact .inl (Nat.lt_succ_self _)
  · exact .inr ⟨rfl, Nat.lt_succ_self _⟩

theorem before_past (p : Place) {cs : List Char} (h : cs ≠ []) : p.Before (p.past cs) := by
  induction cs generalizing p with
  | nil => exact absurd rfl h
  | cons c cs ih =>
    rw [past_cons]
    cases cs with
    | nil => exact p.before_after c
    | cons d cs => exact (p.before_after c).trans (ih _ (List.cons_ne_nil d cs))

end Place

/-! ### The order of the slots -/

theorem Suffers.ne_nil {left next : Option Lexeme} {p : Part} (h : Suffers left next p.fate)
    (chars : p.chars ≠ []) : p.damaged ≠ [] := by
  rw [Part.damaged]
  cases isFate : p.fate with
  | kept => exact chars
  | erased => exact List.cons_ne_nil _ _
  | broken word =>
    rw [isFate] at h
    obtain ⟨-, -, -, -, isName⟩ := h.of_broken
    obtain ⟨c, first, -⟩ := isName.first
    rintro rfl
    cases first

/-- The slots of a damaged text stand one after the other. -/
theorem Damage.pairwise_slots {parts : List Part} (h : Damage parts) (place : Place) :
    (slots place parts).Pairwise (fun s t => s.place.Before t.place) ∧
      ∀ s ∈ slots place parts, s.place = place ∨ place.Before s.place := by
  induction h generalizing place with
  | nil => exact ⟨.nil, by simp [slots]⟩
  | @cons p rest piece suffers _ ih =>
    have moved := place.before_past (suffers.ne_nil (ne_nil_of_piece piece))
    obtain ⟨ordered, behind⟩ := ih (place.past p.damaged)
    have later : ∀ t ∈ slots (place.past p.damaged) rest, place.Before t.place := by
      intro t ht
      rcases behind t ht with at' | further
      · rwa [at']
      · exact moved.trans further
    rw [slots, Part.slot]
    cases p.lexeme with
    | none => exact ⟨ordered, fun s hs => .inr (later s hs)⟩
    | some lexeme =>
      refine ⟨List.pairwise_cons.2 ⟨later, ordered⟩, List.forall_mem_cons.2 ⟨.inl rfl, ?_⟩⟩
      exact fun s hs => .inr (later s hs)

/-! ### The report -/

/-- The cause of a defect where a separator is erased. -/
def Slot.lost (s : Slot) : Option Defect.Cause :=
  match s.fate, s.lexeme with
  | .erased, .mark .comma => some .commaExpected
  | .erased, .mark .colon => some .colonExpected
  | _, _ => none

/-- What the reader misses at a slot that follows `before`: the separator, if it was erased. -/
def Slot.missed (before : Option Slot) (s : Slot) : List Defect :=
  ((before.bind Slot.lost).map fun cause => ⟨s.place, cause⟩).toList

/-- What the reader misses in slots that follow `before`. -/
def missing (before : Option Slot) : List Slot → List Defect
  | [] => []
  | s :: rest => s.missed before ++ missing (some s) rest

/-- All the defects in slots that follow `before`, in the order of the slots.  At one place the
defect of the scanner comes first. -/
def report (before : Option Slot) : List Slot → List Defect
  | [] => []
  | s :: rest => s.defects ++ s.missed before ++ report (some s) rest

/-- Whether the scanner has found the defect. -/
def Defect.IsScanned (d : Defect) : Prop :=
  ∃ word, d.cause = .invalidSymbol word

/-- The order of a report: by place, and at one place the defect of the scanner first. -/
def Defect.Precedes (d e : Defect) : Prop :=
  d.place.notAfter e.place = true ∧
    (e.place.notAfter d.place = true → d.IsScanned ∧ ¬ e.IsScanned)

theorem Slot.lost_of_ne_erased {s : Slot} (h : s.fate ≠ .erased) : s.lost = none := by
  unfold lost
  split
  · exact absurd ‹_› h
  · exact absurd ‹_› h
  · rfl

theorem Slot.missed_of_ne_erased {before : Option Slot} (h : ∀ b ∈ before, b.fate ≠ .erased)
    (s : Slot) : s.missed before = [] := by
  cases before with
  | none => rfl
  | some b =>
    rw [missed, Option.bind_some, lost_of_ne_erased (h b rfl)]
    rfl

theorem Slot.missed_of_kept {before : Slot} (h : before.fate = .kept) (s : Slot) :
    s.missed (some before) = [] := by
  refine missed_of_ne_erased (fun b hb => ?_) s
  cases hb
  rw [h]
  exact Fate.noConfusion

/-- What is missed at a slot is a defect there, and not the scanner's. -/
theorem Slot.of_mem_missed {before : Option Slot} {s : Slot} {d : Defect}
    (h : d ∈ s.missed before) : d.place = s.place ∧ ¬ d.IsScanned := by
  obtain ⟨cause, isLost, rfl⟩ := Option.map_eq_some_iff.1 (Option.mem_toList.1 h)
  obtain ⟨b, -, isLost⟩ := Option.bind_eq_some_iff.1 isLost
  refine ⟨rfl, ?_⟩
  rintro ⟨word, isSymbol⟩
  dsimp only at isSymbol
  subst isSymbol
  unfold lost at isLost
  split at isLost
  all_goals cases isLost

/-- What the scanner finds at a slot is a defect there. -/
theorem Slot.of_mem_defects {s : Slot} {d : Defect} (h : d ∈ s.defects) :
    d.place = s.place ∧ d.IsScanned := by
  unfold defects at h
  split at h
  · rw [List.mem_singleton.1 h]
    exact ⟨rfl, _, rfl⟩
  · cases h

theorem Slot.pairwise_missed (before : Option Slot) (s : Slot) (R : Defect → Defect → Prop) :
    (s.missed before).Pairwise R := by
  unfold missed
  cases before.bind lost with
  | none => exact .nil
  | some cause => exact List.pairwise_singleton R _

theorem Slot.pairwise_defects (s : Slot) (R : Defect → Defect → Prop) : s.defects.Pairwise R := by
  unfold defects
  split
  · exact List.pairwise_singleton R _
  · exact .nil

theorem missing_append (before : Option Slot) (front back : List Slot) :
    missing before (front ++ back)
      = missing before front ++ missing (front.getLast?.or before) back := by
  induction front generalizing before with
  | nil => rfl
  | cons s front ih =>
    rw [List.cons_append, missing, missing, ih, List.append_assoc]
    congr 3
    cases front with
    | nil => rfl
    | cons t front => rw [List.getLast?_cons_cons, List.getLast?_cons]; rfl

/-- What is missed depends on the slot before only at the first slot. -/
theorem missing_cons (before : Option Slot) (s : Slot) (rest : List Slot) :
    missing before (s :: rest) = s.missed before ++ missing none (s :: rest) := rfl

theorem missing_cons_of_kept {s : Slot} (h : s.fate = .kept) (rest : List Slot) :
    missing none (s :: rest) = missing none rest := by
  cases rest with
  | nil => rfl
  | cons t rest =>
    rw [missing, missing_cons, Slot.missed_of_kept h]
    rfl

theorem report_perm (before : Option Slot) (slots : List Slot) :
    (report before slots).Perm (slots.flatMap Slot.defects ++ missing before slots) := by
  induction slots generalizing before with
  | nil => exact .refl _
  | cons s rest ih =>
    rw [report, missing, List.flatMap_cons, List.append_assoc, List.append_assoc]
    refine (((ih (some s)).append_left _).trans ?_).append_left _
    exact List.perm_append_comm_assoc _ _ _

section Ordered

variable {slots : List Slot}

theorem exists_slot_of_mem_missing {before : Option Slot} {d : Defect}
    (h : d ∈ missing before slots) : ∃ s ∈ slots, d.place = s.place ∧ ¬ d.IsScanned := by
  induction slots generalizing before with
  | nil => cases h
  | cons s rest ih =>
    rcases List.mem_append.1 h with here | there
    · exact ⟨s, List.mem_cons_self, Slot.of_mem_missed here⟩
    · obtain ⟨t, ht, found⟩ := ih there
      exact ⟨t, List.mem_cons_of_mem _ ht, found⟩

theorem exists_slot_of_mem_defects {d : Defect} (h : d ∈ slots.flatMap Slot.defects) :
    ∃ s ∈ slots, d.place = s.place ∧ d.IsScanned := by
  obtain ⟨s, hs, hd⟩ := List.mem_flatMap.1 h
  exact ⟨s, hs, Slot.of_mem_defects hd⟩

theorem exists_slot_of_mem_report {before : Option Slot} {d : Defect}
    (h : d ∈ report before slots) : ∃ s ∈ slots, d.place = s.place := by
  rcases List.mem_append.1 ((report_perm before slots).mem_iff.1 h) with scanned | missed
  · obtain ⟨s, hs, isPlace, -⟩ := exists_slot_of_mem_defects scanned
    exact ⟨s, hs, isPlace⟩
  · obtain ⟨s, hs, isPlace, -⟩ := exists_slot_of_mem_missing missed
    exact ⟨s, hs, isPlace⟩

/-- A report is ordered if its slots are. -/
theorem pairwise_report (h : slots.Pairwise fun s t => s.place.Before t.place)
    (before : Option Slot) : (report before slots).Pairwise Defect.Precedes := by
  induction slots generalizing before with
  | nil => exact .nil
  | cons s rest ih =>
    obtain ⟨later, ordered⟩ := List.pairwise_cons.1 h
    have here : (s.defects ++ s.missed before).Pairwise Defect.Precedes := by
      refine List.pairwise_append.2 ⟨s.pairwise_defects _, s.pairwise_missed before _, ?_⟩
      intro d hd e he
      obtain ⟨isPlace, scanned⟩ := Slot.of_mem_defects hd
      obtain ⟨atPlace, reader⟩ := Slot.of_mem_missed he
      refine ⟨?_, fun _ => ⟨scanned, reader⟩⟩
      rw [isPlace, atPlace]
      exact s.place.notAfter_refl
    refine List.pairwise_append.2 ⟨here, ih ordered _, fun d hd e he => ?_⟩
    have isPlace : d.place = s.place := by
      rcases List.mem_append.1 hd with hd | hd
      · exact (Slot.of_mem_defects hd).1
      · exact (Slot.of_mem_missed hd).1
    obtain ⟨t, ht, atPlace⟩ := exists_slot_of_mem_report he
    have inOrder := later t ht
    rw [← isPlace, ← atPlace] at inOrder
    exact ⟨inOrder.notAfter, fun back => absurd back inOrder.not_notAfter⟩

theorem pairwise_defects (h : slots.Pairwise fun s t => s.place.Before t.place) :
    (slots.flatMap Slot.defects).Pairwise fun d e => d.place.Before e.place := by
  rw [List.pairwise_flatMap]
  refine ⟨fun s _ => s.pairwise_defects _, h.imp fun {s t} before d hd e he => ?_⟩
  rwa [(Slot.of_mem_defects hd).1, (Slot.of_mem_defects he).1]

theorem pairwise_missing (h : slots.Pairwise fun s t => s.place.Before t.place)
    (before : Option Slot) :
    (missing before slots).Pairwise fun d e => d.place.Before e.place := by
  induction slots generalizing before with
  | nil => exact .nil
  | cons s rest ih =>
    obtain ⟨later, ordered⟩ := List.pairwise_cons.1 h
    refine List.pairwise_append.2 ⟨s.pairwise_missed before _, ih ordered _, fun d hd e he => ?_⟩
    obtain ⟨t, ht, atPlace, -⟩ := exists_slot_of_mem_missing he
    rw [(Slot.of_mem_missed hd).1, atPlace]
    exact later t ht

/-- Sorting what the scanner finds and then the reader gives the report. -/
theorem inOrder_eq_report (h : slots.Pairwise fun s t => s.place.Before t.place) :
    Defect.inOrder (slots.flatMap Slot.defects ++ missing none slots) = report none slots := by
  have apart : (slots.flatMap Slot.defects ++ missing none slots).Pairwise fun d e =>
      e.place.notAfter d.place = true → d.IsScanned ∧ ¬ e.IsScanned := by
    have never : ∀ {d e : Defect}, d.place.Before e.place →
        e.place.notAfter d.place = true → d.IsScanned ∧ ¬ e.IsScanned :=
      fun before back => absurd back before.not_notAfter
    refine List.pairwise_append.2 ⟨(pairwise_defects h).imp never,
      (pairwise_missing h none).imp never, fun d hd e he _ => ⟨?_, ?_⟩⟩
    · obtain ⟨_, _, _, scanned⟩ := exists_slot_of_mem_defects hd
      exact scanned
    · obtain ⟨_, _, _, reader⟩ := exists_slot_of_mem_missing he
      exact reader
  have sorted : (Defect.inOrder (slots.flatMap Slot.defects ++ missing none slots)).Pairwise _ :=
    pairwise_mergeSort_of_pairwise (fun _ _ _ => Place.notAfter_trans _ _ _)
      (fun _ _ => Place.notAfter_total _ _) apart
  have precedes := sorted.imp fun {d e} h => (⟨h.1, fun back => h.2 back back⟩ : d.Precedes e)
  refine List.Perm.eq_of_pairwise ?_ precedes (pairwise_report h none)
    ((List.mergeSort_perm _ _).trans (report_perm none slots).symm)
  intro d e _ _ de ed
  exact absurd (ed.2 de.1).1 (de.2 ed.1).2

end Ordered

/-! ### The length of the report -/

theorem Slot.length_defects (s : Slot) :
    s.defects.length + [s].countP (·.fate = .erased) = [s].countP (·.fate ≠ .kept) := by
  unfold defects
  cases isFate : s.fate <;> simp [isFate]

theorem Slot.length_missed {before : Option Slot} {s : Slot}
    (h : ∀ b ∈ before, Suffers (some b.lexeme) (some s.lexeme) b.fate) :
    (s.missed before).length = before.toList.countP (·.fate = .erased) := by
  cases before with
  | none => rfl
  | some b =>
    obtain ⟨lexeme, fate, place⟩ := b
    have suffers := h _ rfl
    dsimp only at suffers
    cases suffers <;> rfl

/-- A report has one entry for each slot that was not kept, and one more if the separator before the
slots was erased. -/
theorem length_report {slots : List Slot} {before : Option Slot}
    (h : (before.toList ++ slots).IsChain fun s t =>
      Suffers (some s.lexeme) (some t.lexeme) s.fate)
    (notNil : slots ≠ []) (last : ∀ s ∈ slots.getLast?, s.fate ≠ .erased) :
    (report before slots).length
      = before.toList.countP (·.fate = .erased) + slots.countP (·.fate ≠ .kept) := by
  induction slots generalizing before with
  | nil => exact absurd rfl notNil
  | cons s rest ih =>
    obtain ⟨-, chain, behind⟩ := List.isChain_append.1 h
    have missed : (s.missed before).length = before.toList.countP (·.fate = .erased) := by
      refine Slot.length_missed fun b hb => ?_
      cases hb
      exact behind b rfl s rfl
    have defects := s.length_defects
    have split : List.countP (·.fate ≠ .kept) (s :: rest)
        = [s].countP (·.fate ≠ .kept) + rest.countP (·.fate ≠ .kept) := by
      rw [← List.countP_append]
      rfl
    rw [report, List.length_append, List.length_append, missed, split, ← defects]
    cases rest with
    | nil =>
      have kept : [s].countP (·.fate = .erased) = 0 := by simp [last s rfl]
      rw [kept, report]
      simp only [List.length_nil, List.countP_nil]
      omega
    | cons t rest =>
      rw [@ih (some s) chain (List.cons_ne_nil t rest) last]
      simp only [Option.toList_some]
      omega

end Telemetry.Json
