import Telemetry.Proofs.Plan.Interning

/-!
# Plans grow at their end

A metric that is planned is put behind the metrics before it, and a new type behind those of the
table, so the plan of some metrics is what the plan of more metrics begins with.

* `Plan.Begins` relates a plan to one that goes on where it ends;
* `Draft.begins_add` and `Draft.begins_foldlM`: one metric, and so any number of metrics, only add
  to a plan;
* `ofMetrics_append`: what metrics at the end of a list do to the plan of those before them, and to
  their fault.
-/

namespace Telemetry

/-- Whether a plan is what another one begins with. -/
structure Plan.Begins (front plan : Plan) : Prop where
  metrics : front.metrics <+: plan.metrics
  constrainedTypes : front.constrainedTypes <+: plan.constrainedTypes

namespace Plan.Begins

variable {front middle plan : Plan}

theorem refl (plan : Plan) : plan.Begins plan :=
  ⟨List.prefix_rfl, List.prefix_rfl⟩

theorem trans (first : front.Begins middle) (last : middle.Begins plan) : front.Begins plan :=
  ⟨first.metrics.trans last.metrics, first.constrainedTypes.trans last.constrainedTypes⟩

/-- An index leads to the same entry in the larger table. -/
theorem getElem?_eq (h : front.Begins plan) {i : Nat} {t : ConstrainedType}
    (place : front.constrainedTypes[i]? = some t) : plan.constrainedTypes[i]? = some t := by
  obtain ⟨more, isTable⟩ := h.constrainedTypes
  obtain ⟨inRange, -⟩ := List.getElem?_eq_some_iff.1 place
  rw [← isTable, List.getElem?_append_left inRange]
  exact place

end Plan.Begins

namespace Draft

variable {draft next : Draft} {done more : List (Metric MetadataDefinition)}

/-- A metric adds to the plan at its end. -/
theorem begins_add {m : Metric MetadataDefinition} (h : Holds done draft)
    (planned : draft.add m = .ok next) : draft.plan.Begins next.plan := by
  obtain ⟨_, drafted, -, -, run, rfl⟩ := add_eq_ok_iff.1 planned
  exact ⟨List.prefix_append _ _, (FieldDraft.holds_foldlM (holds_start h.ledger) run).2⟩

/-- Metrics add to the plan at its end. -/
theorem begins_foldlM (h : Holds done draft) (run : more.foldlM add draft = .ok next) :
    draft.plan.Begins next.plan := by
  have keeps : ∀ seen s m t, Holds seen s ∧ draft.plan.Begins s.plan → s.add m = .ok t →
      Holds (seen ++ [m]) t ∧ draft.plan.Begins t.plan := by
    intro seen s m t holds planned
    exact ⟨holds_add holds.1 planned, holds.2.trans (begins_add holds.1 planned)⟩
  exact (Checked.keeps_foldlM _ keeps ⟨h, .refl _⟩ run).2

end Draft

namespace Plan

/-- Metrics at the end of a list leave the plan of those before them as it is: these have the first
places, with every field as it was and every index at the entry that it had.  If those before them
fail, the list fails in the same way. -/
theorem ofMetrics_append (a b : List (Metric MetadataDefinition)) :
    (∀ plan, ofMetrics (a ++ b) = .ok plan → ∃ front, ofMetrics a = .ok front ∧
      front.metrics = plan.metrics.take a.length ∧ front.Begins plan ∧
      ∀ field ∈ front.fields, ∀ i, field.type = .constrained i →
        ∃ t, front.constrainedTypes[i]? = some t ∧ plan.constrainedTypes[i]? = some t) ∧
    ∀ fault, ofMetrics a = .error fault → ofMetrics (a ++ b) = .error fault := by
  constructor
  · intro plan planned
    obtain ⟨draft, run, rfl⟩ := Checked.map_eq_ok_iff.1 planned
    rw [List.foldlM_append] at run
    obtain ⟨middle, first, rest⟩ := Checked.bind_eq_ok_iff.1 run
    have front : ofMetrics a = .ok middle.plan := Checked.map_eq_ok_iff.2 ⟨middle, first, rfl⟩
    have holds := Checked.keeps_foldlM Draft.Holds (fun _ _ _ _ => Draft.holds_add)
      Draft.holds_empty first
    have begins := Draft.begins_foldlM holds rest
    have length : middle.plan.metrics.length = a.length := (ofMetrics_spec front).2.length_eq.symm
    refine ⟨middle.plan, front, length ▸ List.prefix_iff_eq_take.1 begins.metrics, begins, ?_⟩
    intro field there i constrained
    obtain ⟨t, place, -⟩ := exists_entry_of_constrained front there constrained
    exact ⟨t, place, begins.getElem?_eq place⟩
  · intro fault failed
    rw [ofMetrics] at failed ⊢
    cases run : a.foldlM Draft.add {} with
    | ok draft =>
      rw [run] at failed
      cases failed
    | error other =>
      rw [run] at failed
      rw [List.foldlM_append, run]
      exact failed

/-- Metrics that use a type of those before them, and one of their own. -/
def laterMetrics : List (Metric MetadataDefinition) :=
  [⟨"probe", .bytes, none, [⟨"zone", none, ["a", "b"], true, none⟩,
    ⟨"region", none, ["eu", "us"], false, none⟩]⟩]

/-- Metrics of which two have one name. -/
def twinMetrics : List (Metric MetadataDefinition) :=
  [⟨"call", .count, none, []⟩, ⟨"call", .none, none, []⟩]

theorem ofMetrics_append_laterMetrics :
    (∃ front plan, ofMetrics sharingMetrics = .ok front ∧
      ofMetrics (sharingMetrics ++ laterMetrics) = .ok plan ∧ front.Begins plan) ∧
    ∃ fault, ofMetrics twinMetrics = .error fault ∧
      ofMetrics (twinMetrics ++ laterMetrics) = .error fault := by
  have succeeds : (ofMetrics (sharingMetrics ++ laterMetrics)).toOption.isSome = true := by
    decide +kernel
  have clashes : (ofMetrics twinMetrics).toOption = none := by decide +kernel
  obtain ⟨plan, planned⟩ := Checked.isSome_toOption_iff.1 succeeds
  obtain ⟨fault, failed⟩ := Checked.toOption_eq_none_iff.1 clashes
  obtain ⟨front, isFront, -, begins, -⟩ :=
    (ofMetrics_append sharingMetrics laterMetrics).1 plan planned
  exact ⟨⟨front, plan, isFront, planned, begins⟩, fault, failed,
    (ofMetrics_append twinMetrics laterMetrics).2 fault failed⟩

end Plan

end Telemetry
