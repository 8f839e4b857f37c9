import Telemetry.Proofs.Plan.Acceptance

/-!
# The table of a plan

The table of constrained types is filled while the metrics and their metadata are passed over in
order, and a field that meets an identifier again is sent to the entry that is there.

* `Scanned` says that a table lists the identifiers of the constrained definitions seen in the order
  of their first occurrence; one definition keeps it (`scanned_of_fieldType`), so a metric does
  (`FieldDraft.scanned_foldlM`), so a list of metrics does (`Plan.scanned_of_ofMetrics`);
* `Plan.Interns` says what the table of a plan is to the fields of the plan and to the definitions
  that these come from;
* `interns_of_ofMetrics`: every plan of resolved metrics has such a table.
-/

namespace Telemetry

/-! ### The order of the table -/

/-- An item at the end of a list is kept unless the list has it already. -/
theorem eraseDups_concat (xs : List String) (x : String) :
    (xs ++ [x]).eraseDups = if x ∈ xs then xs.eraseDups else xs.eraseDups ++ [x] := by
  rw [List.eraseDups_append]
  by_cases known : x ∈ xs
  · simp [known, List.removeAll]
  · simp [known, List.removeAll, List.eraseDups_cons]

/-- The identifiers of the constrained definitions among some definitions. -/
def constrainedIdentifiers (seen : List MetadataDefinition) : List String :=
  (seen.filter MetadataDefinition.isConstrained).map MetadataDefinition.identifier

/-- Whether a table lists the identifiers of the constrained definitions that have been seen, each
where it was first seen. -/
def Scanned (seen : List MetadataDefinition) (types : List ConstrainedType) : Prop :=
  types.map ConstrainedType.identifier = (constrainedIdentifiers seen).eraseDups

theorem constrainedIdentifiers_append (seen more : List MetadataDefinition) :
    constrainedIdentifiers (seen ++ more) =
      constrainedIdentifiers seen ++ constrainedIdentifiers more := by
  rw [constrainedIdentifiers, List.filter_append, List.map_append]
  rfl

section Step

variable {seen : List MetadataDefinition} {types types' : List ConstrainedType} {metric : String}
  {d : MetadataDefinition}

theorem Scanned.mem_iff (h : Scanned seen types) {x : String} :
    x ∈ constrainedIdentifiers seen ↔ ∃ t ∈ types, t.identifier = x := by
  rw [← List.mem_eraseDups, ← h, List.mem_map]

/-- A definition that finds its entry, or is given one at the end, is seen in order. -/
theorem scanned_of_internType {i : Nat} (h : Scanned seen types)
    (constrained : d.isConstrained = true)
    (ok : internType types metric d d.identifier d.allowedValues = .ok (i, types')) :
    Scanned (seen ++ [d]) types' := by
  have last : constrainedIdentifiers [d] = [d.identifier] := by
    simp [constrainedIdentifiers, constrained]
  rw [Scanned, constrainedIdentifiers_append, last, eraseDups_concat]
  unfold internType at ok
  split at ok
  · rename_i t j found
    obtain ⟨place, isIdentifier⟩ := find?_zipIdx found
    have known : d.identifier ∈ constrainedIdentifiers seen :=
      h.mem_iff.2 ⟨t, List.mem_of_getElem? place, isIdentifier⟩
    rw [if_pos known]
    split at ok
    · cases ok
      exact h
    · cases ok
  · rename_i found
    cases ok
    have new : d.identifier ∉ constrainedIdentifiers seen := by
      rw [h.mem_iff]
      rintro ⟨t, ht, isIdentifier⟩
      exact find?_zipIdx_eq_none found t ht isIdentifier
    rw [if_neg new, List.map_append, h]
    rfl

/-- Whatever the type of a definition, it is seen in order. -/
theorem scanned_of_fieldType {type : FieldType} (h : Scanned seen types)
    (typed : fieldType types metric d = .ok (type, types')) : Scanned (seen ++ [d]) types' := by
  by_cases constrained : d.isConstrained = true
  · obtain ⟨i, _, interned, same⟩ := (fieldType_of_constrained constrained).1 typed
    cases same
    exact scanned_of_internType h constrained interned
  · have free := Bool.eq_false_iff.2 constrained
    rw [fieldType_of_unconstrained free] at typed
    cases typed
    have last : constrainedIdentifiers [d] = [] := by
      simp [constrainedIdentifiers, free]
    rw [Scanned, constrainedIdentifiers_append, last, List.append_nil]
    exact h

end Step

theorem FieldDraft.scanned_foldlM {before ds : List MetadataDefinition} {metric : String}
    {draft next : FieldDraft} (h : Scanned before draft.types)
    (run : ds.foldlM (FieldDraft.add metric) draft = .ok next) :
    Scanned (before ++ ds) next.types := by
  have keeps : ∀ own (s : FieldDraft) d t, Scanned (before ++ own) s.types →
      FieldDraft.add metric s d = .ok t → Scanned (before ++ (own ++ [d])) t.types := by
    intro own s d t scanned planned
    obtain ⟨_, _, _, _, -, -, -, typed, rfl⟩ := FieldDraft.add_eq_ok_iff.1 planned
    rw [← List.append_assoc]
    exact scanned_of_fieldType scanned typed
  have start : Scanned (before ++ []) draft.types := by
    rw [List.append_nil]
    exact h
  exact Checked.keeps_foldlM (fun own s => Scanned (before ++ own) s.types) keeps start run

theorem Plan.scanned_of_ofMetrics {metrics : List (Metric MetadataDefinition)} {plan : Plan}
    (h : Plan.ofMetrics metrics = .ok plan) :
    Scanned (metrics.flatMap Metric.metadata) plan.constrainedTypes := by
  obtain ⟨draft, run, rfl⟩ := Checked.map_eq_ok_iff.1 h
  have keeps : ∀ (done : List (Metric MetadataDefinition)) (s : Draft) m t,
      Scanned (done.flatMap Metric.metadata) s.plan.constrainedTypes → s.add m = .ok t →
      Scanned ((done ++ [m]).flatMap Metric.metadata) t.plan.constrainedTypes := by
    intro done s m t scanned planned
    obtain ⟨_, drafted, -, -, fields, rfl⟩ := Draft.add_eq_ok_iff.1 planned
    rw [List.flatMap_append, List.flatMap_singleton]
    have before : Scanned (done.flatMap Metric.metadata) s.fieldDraft.types := scanned
    exact FieldDraft.scanned_foldlM before fields
  have start : Scanned (List.flatMap Metric.metadata []) ({} : Draft).plan.constrainedTypes := rfl
  exact Checked.keeps_foldlM
    (fun done (s : Draft) => Scanned (done.flatMap Metric.metadata) s.plan.constrainedTypes) keeps
    start run

/-! ### The table and the fields -/

/-- The identifier of a field that is constrained. -/
def ArgumentField.constrainedIdentifier? (field : ArgumentField) : Option String :=
  match field.type with
  | .constrained _ => some field.identifier
  | .primitive _ => none
  | .timestamp => none

theorem MetadataDefinition.isConstrained_iff (d : MetadataDefinition) :
    d.isConstrained = true ↔ d.allowedValues ≠ [] := by
  rw [isConstrained, Bool.not_eq_true', List.isEmpty_eq_false_iff]

/-- A field is constrained only if it shows a constrained definition. -/
theorem ArgumentField.Shows.isConstrained {types : List ConstrainedType} {d : MetadataDefinition}
    {field : ArgumentField} (h : field.Shows types d) {i : Nat}
    (isType : field.type = .constrained i) : d.isConstrained = true := by
  by_contra free
  have primitive := h.primitive (Bool.eq_false_iff.2 free)
  rw [isType] at primitive
  cases primitive

/-- Places of entries with one identifier are one place. -/
theorem Interned.index_eq {seen : List MetadataDefinition} {types : List ConstrainedType}
    (h : Interned seen types) {i j : Nat} {s t : ConstrainedType} (isS : types[i]? = some s)
    (isT : types[j]? = some t) (same : s.identifier = t.identifier) : i = j := by
  obtain ⟨inRange, -⟩ := List.getElem?_eq_some_iff.1 isS
  refine (List.getElem?_inj (by simpa using inRange) h.nodup).1 ?_
  rw [List.getElem?_map, List.getElem?_map, isS, isT, Option.map_some, Option.map_some, same]

namespace Plan

/-- All fields of a plan, metric by metric. -/
def fields (plan : Plan) : List ArgumentField :=
  plan.metrics.flatMap PlannedMetric.fields

/-- What the table of a plan of metrics is to their fields and definitions. -/
structure Interns (metrics : List (Metric MetadataDefinition)) (plan : Plan) : Prop where
  /-- The index of a constrained field leads to an entry with the identifier and key of the
  field. -/
  entry : ∀ field ∈ plan.fields, ∀ i, field.type = .constrained i →
    ∃ inRange : i < plan.constrainedTypes.length,
      plan.constrainedTypes[i].identifier = field.identifier ∧
      plan.constrainedTypes[i].source = field.key
  /-- Each definition has its field, which is constrained exactly if the definition has allowed
  values, and then leads to just these.  The implicit fields follow. -/
  values : List.Forall₂ (fun m planned => ∃ own,
    planned.fields = own ++ ImplicitField.all.map ImplicitField.toField ∧
    List.Forall₂ (fun d field => field.key = d.name ∧
      (d.allowedValues ≠ [] ↔ ∃ i, field.type = .constrained i) ∧
      ∀ i t, field.type = .constrained i → plan.constrainedTypes[i]? = some t →
        t.values = d.allowedValues) m.metadata own) metrics plan.metrics
  nodup : (plan.constrainedTypes.map ConstrainedType.identifier).Nodup
  /-- Fields share an entry exactly if they have one identifier. -/
  index_eq_iff : ∀ f ∈ plan.fields, ∀ g ∈ plan.fields, ∀ i j, f.type = .constrained i →
    g.type = .constrained j → (i = j ↔ f.identifier = g.identifier)
  used : ∀ i < plan.constrainedTypes.length, ∃ field ∈ plan.fields, field.type = .constrained i
  /-- The entries stand in the order in which their identifiers first occur on a constrained
  field. -/
  order : plan.constrainedTypes.map ConstrainedType.identifier =
    (plan.fields.filterMap ArgumentField.constrainedIdentifier?).eraseDups

section Shows

variable {metrics : List (Metric MetadataDefinition)} {plan : Plan}

/-- Every definition has a field in the plan. -/
theorem exists_shows_of_mem
    (shown : List.Forall₂ (PlannedMetric.Shows plan.constrainedTypes) metrics plan.metrics)
    {d : MetadataDefinition} (hd : d ∈ metrics.flatMap Metric.metadata) :
    ∃ field ∈ plan.fields, field.Shows plan.constrainedTypes d := by
  obtain ⟨m, hm, hd⟩ := List.mem_flatMap.1 hd
  obtain ⟨planned, isPlanned, shows⟩ := Related.exists_right shown hm
  obtain ⟨own, isFields, definitions⟩ := shows.fields
  obtain ⟨field, isField, showsField⟩ := Related.exists_right definitions hd
  refine ⟨field, List.mem_flatMap.2 ⟨planned, isPlanned, ?_⟩, showsField⟩
  rw [isFields]
  exact List.mem_append_left _ isField

/-- A constrained field of a plan comes from a definition with allowed values. -/
theorem exists_shows_of_constrained
    (shown : List.Forall₂ (PlannedMetric.Shows plan.constrainedTypes) metrics plan.metrics)
    {field : ArgumentField} (there : field ∈ plan.fields) {i : Nat}
    (constrained : field.type = .constrained i) :
    ∃ d ∈ metrics.flatMap Metric.metadata, d.isConstrained = true ∧
      field.Shows plan.constrainedTypes d := by
  obtain ⟨planned, isPlanned, isField⟩ := List.mem_flatMap.1 there
  obtain ⟨m, hm, shows⟩ := Related.exists_left shown isPlanned
  obtain ⟨own, isFields, definitions⟩ := shows.fields
  rw [isFields, List.mem_append] at isField
  rcases isField with isField | isImplicit
  · obtain ⟨d, hd, showsField⟩ := Related.exists_left definitions isField
    exact ⟨d, List.mem_flatMap.2 ⟨m, hm, hd⟩, showsField.isConstrained constrained, showsField⟩
  · obtain ⟨f, -, rfl⟩ := List.mem_map.1 isImplicit
    cases f <;> cases constrained

/-- The fields that show definitions have the identifiers of those that are constrained. -/
theorem filterMap_of_shows {types : List ConstrainedType} {ds : List MetadataDefinition}
    {own : List ArgumentField}
    (shown : List.Forall₂ (fun d field => ArgumentField.Shows types d field) ds own) :
    own.filterMap ArgumentField.constrainedIdentifier? = constrainedIdentifiers ds := by
  induction shown with
  | nil => rfl
  | @cons d field ds own shows _ ih =>
    by_cases constrained : d.isConstrained = true
    · obtain ⟨i, t, isType, -⟩ := shows.constrained constrained
      have found : field.constrainedIdentifier? = some d.identifier := by
        rw [ArgumentField.constrainedIdentifier?, isType, shows.identifier]
      rw [List.filterMap_cons_some found, ih, constrainedIdentifiers, constrainedIdentifiers,
        List.filter_cons_of_pos constrained, List.map_cons]
    · have none : field.constrainedIdentifier? = none := by
        rw [ArgumentField.constrainedIdentifier?, shows.primitive (Bool.eq_false_iff.2 constrained)]
      rw [List.filterMap_cons_none none, ih, constrainedIdentifiers, constrainedIdentifiers,
        List.filter_cons_of_neg constrained]

/-- The constrained fields of a plan have the identifiers of the constrained definitions, in their
order. -/
theorem filterMap_fields
    (shown : List.Forall₂ (PlannedMetric.Shows plan.constrainedTypes) metrics plan.metrics) :
    plan.fields.filterMap ArgumentField.constrainedIdentifier? =
      constrainedIdentifiers (metrics.flatMap Metric.metadata) := by
  have implicit : (ImplicitField.all.map ImplicitField.toField).filterMap
      ArgumentField.constrainedIdentifier? = [] := rfl
  rw [fields]
  generalize plan.metrics = planned at shown
  induction shown with
  | nil => rfl
  | cons shows _ ih =>
    obtain ⟨own, isFields, definitions⟩ := shows.fields
    rw [List.flatMap_cons, List.flatMap_cons, List.filterMap_append, ih, isFields,
      List.filterMap_append, filterMap_of_shows definitions, implicit, List.append_nil,
      constrainedIdentifiers_append]

end Shows

/-- Definitions of planned metrics that have one identifier have one name. -/
theorem name_eq_of_ofMetrics {metrics : List (Metric MetadataDefinition)} {plan : Plan}
    (h : Plan.ofMetrics metrics = .ok plan) {d e : MetadataDefinition}
    (hd : d ∈ metrics.flatMap Metric.metadata) (he : e ∈ metrics.flatMap Metric.metadata)
    (same : d.identifier = e.identifier) : d.name = e.name := by
  obtain ⟨sound, beside⟩ := Plan.exists_ofMetrics_iff.1 ⟨plan, h⟩
  have agree := agree_of_pairwise sound (beside.imp fun pair => pair.agree)
  obtain ⟨m, hm, hd⟩ := List.mem_flatMap.1 hd
  obtain ⟨n, hn, he⟩ := List.mem_flatMap.1 he
  exact (agree m hm n hn d hd e he same).1

/-- The index of a constrained field leads to an entry with the identifier and key of the field. -/
theorem exists_entry_of_constrained {metrics : List (Metric MetadataDefinition)} {plan : Plan}
    (h : Plan.ofMetrics metrics = .ok plan) {field : ArgumentField} (there : field ∈ plan.fields)
    {i : Nat} (constrained : field.type = .constrained i) :
    ∃ t, plan.constrainedTypes[i]? = some t ∧ t.identifier = field.identifier ∧
      t.source = field.key := by
  obtain ⟨interned, shown⟩ := Plan.ofMetrics_spec h
  obtain ⟨d, hd, isConstrained, shows⟩ := exists_shows_of_constrained shown there constrained
  obtain ⟨j, t, isType, isPlace, isIdentifier, -⟩ := shows.constrained isConstrained
  rw [constrained] at isType
  cases isType
  -- The entry was made for a definition that may be another one, but has the identifier as well.
  obtain ⟨e, he, -, isSource, sameIdentifier, -⟩ :=
    interned.origin t (List.mem_of_getElem? isPlace)
  refine ⟨t, isPlace, isIdentifier.trans shows.identifier.symm, ?_⟩
  rw [← isSource, shows.key]
  exact name_eq_of_ofMetrics h he hd (sameIdentifier.trans isIdentifier)

/-- The table of every plan of resolved metrics is faithful and without repetitions. -/
theorem interns_of_ofMetrics {metrics : List (Metric MetadataDefinition)} {plan : Plan}
    (h : Plan.ofMetrics metrics = .ok plan) : plan.Interns metrics := by
  obtain ⟨interned, shown⟩ := Plan.ofMetrics_spec h
  refine ⟨?_, ?_, interned.nodup, ?_, ?_, ?_⟩
  · intro field there i constrained
    obtain ⟨t, isPlace, isIdentifier, isSource⟩ := exists_entry_of_constrained h there constrained
    obtain ⟨inRange, rfl⟩ := List.getElem?_eq_some_iff.1 isPlace
    exact ⟨inRange, isIdentifier, isSource⟩
  · refine shown.imp fun m planned shows => ?_
    obtain ⟨own, isFields, definitions⟩ := shows.fields
    refine ⟨own, isFields, definitions.imp fun d field showsField => ⟨showsField.key, ?_, ?_⟩⟩
    · rw [← d.isConstrained_iff]
      constructor
      · intro isConstrained
        obtain ⟨i, _, isType, -⟩ := showsField.constrained isConstrained
        exact ⟨i, isType⟩
      · rintro ⟨i, isType⟩
        exact showsField.isConstrained isType
    · intro i t isType isPlace
      obtain ⟨j, u, isType', isPlace', -, isValues⟩ :=
        showsField.constrained (showsField.isConstrained isType)
      rw [isType] at isType'
      cases isType'
      rw [← isValues, Option.some.inj (isPlace.symm.trans isPlace')]
  · intro f hf g hg i j isI isJ
    obtain ⟨s, isS, sIdentifier, -⟩ := exists_entry_of_constrained h hf isI
    obtain ⟨t, isT, tIdentifier, -⟩ := exists_entry_of_constrained h hg isJ
    rw [← sIdentifier, ← tIdentifier]
    constructor
    · rintro rfl
      rw [Option.some.inj (isS.symm.trans isT)]
    · exact interned.index_eq isS isT
  · intro i inRange
    obtain ⟨d, hd, isConstrained, -, isIdentifier, -⟩ :=
      interned.origin _ (List.getElem_mem inRange)
    obtain ⟨field, there, shows⟩ := exists_shows_of_mem shown hd
    obtain ⟨j, t, isType, isPlace, sameIdentifier, -⟩ := shows.constrained isConstrained
    have isIndex : j = i := interned.index_eq isPlace (List.getElem?_eq_getElem inRange)
      (sameIdentifier.trans isIdentifier)
    exact ⟨field, there, isIndex ▸ isType⟩
  · rw [filterMap_fields shown]
    exact scanned_of_ofMetrics h

/-- Metrics that share constrained fields, with free fields between them. -/
def sharingMetrics : List (Metric MetadataDefinition) :=
  let region : MetadataDefinition := ⟨"region", none, ["eu", "us"], true, none⟩
  let result : MetadataDefinition := ⟨"result", some .integer, ["ok", "failed"], false, none⟩
  let size : MetadataDefinition := ⟨"size", some .integer, [], false, none⟩
  [⟨"call", .count, none, [size, result, region]⟩, ⟨"answer", .none, none, [region, size]⟩,
    ⟨"beat", .none, none, []⟩]

theorem interns_of_sharingMetrics : ∃ plan, Plan.ofMetrics sharingMetrics = .ok plan ∧
    plan.constrainedTypes.map ConstrainedType.identifier = ["result", "region"] ∧
    plan.Interns sharingMetrics := by
  have planned : (Plan.ofMetrics sharingMetrics).toOption.map
      (fun plan => plan.constrainedTypes.map ConstrainedType.identifier) =
      some ["result", "region"] := by decide +kernel
  obtain ⟨plan, isPlan, isTable⟩ := Option.map_eq_some_iff.1 planned
  have ok := Checked.toOption_eq_some_iff.1 isPlan
  exact ⟨plan, ok, isTable, interns_of_ofMetrics ok⟩

end Plan

end Telemetry
