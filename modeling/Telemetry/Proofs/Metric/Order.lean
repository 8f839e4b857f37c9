import Telemetry.Proofs.Checked
import Telemetry.Proofs.Metric.Reference
import Telemetry.Proofs.Text.ByteOrder

/-!
# The order of metrics

The metrics of a document are in order if the name of each comes before that of the next one.

* `MetricEntry.Before` compares the names of two metrics byte by byte;
* `checkAscending_eq_error_iff`: names are refused for the first two neighbours that do not ascend;
* `checkOrder_exact`: neighbours that ascend make a document whose metrics all ascend, and otherwise
  the first two neighbours that do not are reported.
-/

namespace Telemetry

/-- Whether the name of a metric comes before that of another one, compared by their bytes. -/
def MetricEntry.Before (m n : MetricEntry) : Prop :=
  Text.utf8Bytes m.name < Text.utf8Bytes n.name

theorem MetricEntry.before_iff {m n : MetricEntry} : m.Before n ↔ m.name < n.name :=
  Text.utf8Bytes_lt_iff

/-! ### Names -/

/-- Names that ascend up to two neighbours that do not are refused for these two. -/
theorem checkAscending_of_not_lt {front behind : List String} {previous next : String}
    (ascending : (front ++ [previous]).IsChain (· < ·)) (out : ¬ previous < next) :
    checkAscending (front ++ previous :: next :: behind) =
      .error (.orderingViolation previous next) := by
  induction front with
  | nil => exact if_neg out
  | cons first front ih =>
    have rest := ih ascending.of_cons
    -- The name behind `first` is `previous` or the next one of `front`.
    cases front with
    | nil => exact (if_pos ascending.rel).trans rest
    | cons second front => exact (if_pos ascending.rel).trans rest

/-- Names that are refused ascend up to two neighbours that do not. -/
theorem exists_of_checkAscending {names : List String} {fault : Fault}
    (h : checkAscending names = .error fault) : ∃ front previous next behind,
      names = front ++ previous :: next :: behind ∧ (front ++ [previous]).IsChain (· < ·) ∧
        ¬ previous < next ∧ fault = .orderingViolation previous next := by
  induction names with
  | nil => cases h
  | cons first rest ih =>
    cases rest with
    | nil => cases h
    | cons second rest =>
      rw [checkAscending] at h
      split at h
      · rename_i lt
        obtain ⟨front, previous, next, behind, split, ascending, out, isFault⟩ := ih h
        refine ⟨first :: front, previous, next, behind, congrArg (first :: ·) split, ?_, out,
          isFault⟩
        cases front with
        | nil =>
          cases split
          exact .cons_cons lt ascending
        | cons head front =>
          cases split
          exact .cons_cons lt ascending
      · rename_i notLt
        cases h
        exact ⟨[], first, second, rest, rfl, .singleton _, notLt, rfl⟩

/-- Names are refused for the first of them that does not come before the next one. -/
theorem checkAscending_eq_error_iff {names : List String} {fault : Fault} :
    checkAscending names = .error fault ↔ ∃ front previous next behind,
      names = front ++ previous :: next :: behind ∧ (front ++ [previous]).Pairwise (· < ·) ∧
        ¬ previous < next ∧ fault = .orderingViolation previous next := by
  simp only [← List.isChain_iff_pairwise]
  constructor
  · exact exists_of_checkAscending
  · intro h
    obtain ⟨front, previous, next, behind, rfl, ascending, out, rfl⟩ := h
    exact checkAscending_of_not_lt ascending out

/-! ### Metrics -/

theorem pairwise_before_iff {metrics : List MetricEntry} :
    metrics.Pairwise MetricEntry.Before ↔
      (metrics.map MetricEntry.name).Pairwise (· < ·) := by
  rw [List.pairwise_map]
  exact List.Pairwise.iff fun _ _ => MetricEntry.before_iff

/-- Metrics are in order exactly if the name of each comes before those of all that follow it, byte
by byte, which is to say code point by code point; so no name is there twice.  Metrics that are not
in order are in order up to two neighbours that are not, and these are reported. -/
theorem Document.checkOrder_exact (document : Document) :
    (document.checkOrder = .ok () ↔ document.metrics.Pairwise MetricEntry.Before) ∧
    (∀ x y : String, Text.utf8Bytes x < Text.utf8Bytes y ↔
      Text.scalarValues x < Text.scalarValues y) ∧
    (document.checkOrder = .ok () → (document.metrics.map MetricEntry.name).Nodup) ∧
    ∀ fault, document.checkOrder = .error fault ↔ ∃ front m n behind,
      document.metrics = front ++ m :: n :: behind ∧
        (front ++ [m]).Pairwise MetricEntry.Before ∧ ¬ m.Before n ∧
        fault = .orderingViolation m.name n.name := by
  refine ⟨?_, ?_, ?_, ?_⟩
  · rw [pairwise_before_iff]
    exact checkAscending_eq_ok_iff
  · intro x y
    rw [Text.utf8Bytes_lt_iff, Text.scalarValues_lt_iff]
  · intro h
    exact (checkAscending_eq_ok_iff.1 h).imp ne_of_lt
  · intro fault
    rw [checkOrder, checkAscending_eq_error_iff]
    constructor
    · intro h
      obtain ⟨_, _, _, _, split, ascending, out, rfl⟩ := h
      obtain ⟨front, rest, there, rfl, isRest⟩ := List.map_eq_append_iff.1 split
      obtain ⟨m, others, rfl, rfl, isOthers⟩ := List.map_eq_cons_iff.1 isRest
      obtain ⟨n, behind, rfl, rfl, rfl⟩ := List.map_eq_cons_iff.1 isOthers
      refine ⟨front, m, n, behind, there, ?_, ?_, rfl⟩
      · rwa [pairwise_before_iff, List.map_append]
      · rwa [MetricEntry.before_iff]
    · intro h
      obtain ⟨front, m, n, behind, there, ascending, out, rfl⟩ := h
      refine ⟨front.map MetricEntry.name, m.name, n.name, behind.map MetricEntry.name, ?_, ?_, ?_,
        rfl⟩
      · rw [there, List.map_append, List.map_cons, List.map_cons]
      · rwa [pairwise_before_iff, List.map_append] at ascending
      · rwa [MetricEntry.before_iff] at out

/-- Metrics in order, although the names of the last two are the other way round in UTF-16. -/
def orderedDocument : Document where
  metrics := ["a", "ab", "é", "\uffff", "😀"].map fun name => { name, unit := "count" }

/-- Metrics of which two that are out of order stand between others. -/
def unorderedDocument : Document where
  metrics := ["a", "z", "m", "m"].map fun name => { name, unit := "count" }

theorem checkOrder_exact_of_documents :
    (orderedDocument.checkOrder = .ok () ∧
      orderedDocument.metrics.Pairwise MetricEntry.Before ∧
      (orderedDocument.metrics.map MetricEntry.name).Nodup) ∧
    unorderedDocument.checkOrder = .error (.orderingViolation "z" "m") := by
  have ascending : orderedDocument.checkOrder = .ok () :=
    Checked.toOption_eq_some_iff.1 (by decide +kernel)
  obtain ⟨inOrder, -, distinct, -⟩ := Document.checkOrder_exact orderedDocument
  refine ⟨⟨ascending, inOrder.1 ascending, distinct ascending⟩, ?_⟩
  refine ((Document.checkOrder_exact unorderedDocument).2.2.2 _).2
    ⟨[⟨"a", "count", none, []⟩], ⟨"z", "count", none, []⟩, ⟨"m", "count", none, []⟩,
      [⟨"m", "count", none, []⟩], rfl, ?_, ?_, rfl⟩
  · rw [pairwise_before_iff]
    decide +kernel
  · rw [MetricEntry.before_iff]
    decide +kernel

end Telemetry
