import Telemetry.Proofs.Artifact.Outline
import Telemetry.Proofs.Plan.Contract

/-!
# What artifacts declare

The artifacts of all targets declare enumerations of texts, records, and functions that hand a datum
to a sink.  They differ in the names that they give to these and to what is inside them.

* `Declaration` is what a target declares, and `contract?` finds out the wire contract of a list of
  declarations by looking names up in the list;
* `Naming` is how a target names what a plan declares, and `Naming.declarations` what it declares;
* `contract?_declarations`: if the names do not coincide, the contract of the declarations is the
  contract of the plan.
-/

namespace Telemetry.Artifact

/-! ### Declarations -/

/-- An expression for a text. -/
inductive TextExpression where
  | literal (text : String)
  /-- A member of an enumeration of texts. -/
  | member (enumeration name : String)
  deriving DecidableEq, Repr

/-- What a record says of one of its properties. -/
structure Property where
  required : Bool
  type : String
  deriving DecidableEq, Repr

/-- A function that takes a record and hands a datum to a sink. -/
structure Recorder where
  /-- The type of the record. -/
  record : String
  omissible : Bool
  event : TextExpression
  unit : TextExpression
  /-- The keys of the metadata, each with the property that is its value. -/
  entries : List (String × String)
  deriving DecidableEq, Repr

/-- A declaration of an artifact. -/
inductive Declaration where
  /-- An enumeration with the texts of its members. -/
  | enumeration (name : String) (members : List (String × String))
  | record (name : String) (properties : List (String × Property))
  | recorder (recorder : Recorder)
  deriving DecidableEq, Repr

namespace Declaration

/-- The enumeration that is declared. -/
def enumeration? : Declaration → Option (String × List (String × String))
  | .enumeration name members => some (name, members)
  | _ => none

/-- The record that is declared. -/
def record? : Declaration → Option (String × List (String × Property))
  | .record name properties => some (name, properties)
  | _ => none

/-- The recording function that is declared. -/
def recorder? : Declaration → Option Recorder
  | .recorder r => some r
  | _ => none

end Declaration

/-! ### The contract of declarations -/

/-- The text of an expression. -/
def text? (enumerations : List (String × List (String × String))) :
    TextExpression → Option String
  | .literal text => some text
  | .member enumeration name => do
    let members ← enumerations.lookup enumeration
    members.lookup name

section Contract

variable (classOf : String → Option WireType)

/-- The values of a type: those of its class if it is built in, and those of an enumeration
otherwise. -/
def type? (enumerations : List (String × List (String × String))) (name : String) :
    Option WireType :=
  match classOf name with
  | some type => some type
  | none => (enumerations.lookup name).map fun members => .oneOf (members.map Prod.snd)

/-- The metadata element that a recording function hands over. -/
def field? (enumerations : List (String × List (String × String)))
    (properties : List (String × Property)) (entry : String × String) : Option WireField := do
  let property ← properties.lookup entry.2
  let type ← type? classOf enumerations property.type
  return { key := entry.1, required := property.required, type }

/-- The metric that a recording function is for. -/
def metric? (enumerations : List (String × List (String × String)))
    (records : List (String × List (String × Property))) (recorder : Recorder) :
    Option WireMetric := do
  let event ← text? enumerations recorder.event
  let unit ← text? enumerations recorder.unit
  let properties ← records.lookup recorder.record
  let fields ← recorder.entries.mapM (field? classOf enumerations properties)
  return { event, unit, omissible := recorder.omissible, fields }

/-- The contract of declarations; `classOf` gives the class of a built-in type. -/
def contract? (declarations : List Declaration) : Option WireContract :=
  (declarations.filterMap Declaration.recorder?).mapM
    (metric? classOf (declarations.filterMap Declaration.enumeration?)
      (declarations.filterMap Declaration.record?))

end Contract

/-! ### The declarations of a plan -/

/-- How a target names what a plan declares. -/
structure Naming where
  /-- What every artifact declares. -/
  support : List Declaration
  /-- The enumeration of events. -/
  events : String
  /-- The member of a metric among the events. -/
  event : PlannedMetric → String
  unit : MetricUnit → TextExpression
  /-- The record of a metric's arguments. -/
  record : PlannedMetric → String
  /-- The enumeration of a constrained type. -/
  enumeration : ConstrainedType → String
  /-- The member of an allowed value. -/
  member : String → String
  /-- The property of a field with an identifier. -/
  property : String → String
  fieldType : List ConstrainedType → FieldType → String
  /-- The class of a built-in type. -/
  classOf : String → Option WireType

namespace Naming

variable (n : Naming)

/-- The property of a field, with its name. -/
def propertyOf (types : List ConstrainedType) (field : ArgumentField) : String × Property :=
  (n.property field.identifier, ⟨field.required, n.fieldType types field.type⟩)

/-- The record of the arguments of a metric. -/
def recordOf (types : List ConstrainedType) (m : PlannedMetric) : Declaration :=
  .record (n.record m) (m.fields.map (n.propertyOf types))

/-- The recording function of a metric. -/
def recorderOf (m : PlannedMetric) : Recorder where
  record := n.record m
  omissible := m.argsOptional
  event := .member n.events (n.event m)
  unit := n.unit m.unit
  entries := m.metadataFields.map fun field => (field.key, n.property field.identifier)

/-- The enumeration of the events of a plan. -/
def eventsOf (plan : Plan) : Declaration :=
  .enumeration n.events (plan.metrics.map fun m => (n.event m, m.name))

/-- The enumeration of a constrained type. -/
def enumerationOf (t : ConstrainedType) : Declaration :=
  .enumeration (n.enumeration t) (t.values.map fun value => (n.member value, value))

/-- What a target declares for a plan. -/
def declarations (plan : Plan) : List Declaration :=
  n.support ++ ([n.eventsOf plan] ++ (plan.constrainedTypes.flatMap (fun t => [n.enumerationOf t])
    ++ plan.metrics.flatMap fun m =>
      [n.recordOf plan.constrainedTypes m, .recorder (n.recorderOf m)]))

/-- Whether names of a kind differ, and built-in types are what they should be. -/
structure Fits (plan : Plan) : Prop where
  enumerations : ((n.support.filterMap Declaration.enumeration?).map Prod.fst
    ++ n.events :: plan.constrainedTypes.map n.enumeration).Nodup
  records : ((n.support.filterMap Declaration.record?).map Prod.fst
    ++ plan.metrics.map n.record).Nodup
  recorders : n.support.filterMap Declaration.recorder? = []
  events : (plan.metrics.map n.event).Nodup
  properties : ∀ m ∈ plan.metrics, (m.fields.map fun field => n.property field.identifier).Nodup
  unit : ∀ unit, text? (n.support.filterMap Declaration.enumeration?) (n.unit unit)
    = some unit.sinkName
  constrained : ∀ i t, plan.constrainedTypes[i]? = some t →
    n.fieldType plan.constrainedTypes (.constrained i) = n.enumeration t ∧
      n.classOf (n.enumeration t) = none
  primitive : ∀ kind, n.classOf (n.fieldType plan.constrainedTypes (.primitive kind))
    = some (.ofKind kind)

end Naming

/-! ### Looking names up -/

/-- A name that stands in a list once is found with what belongs to it. -/
theorem lookup_of_mem {β : Type} {l : List (String × β)} (nodup : (l.map Prod.fst).Nodup)
    {k : String} {b : β} (h : (k, b) ∈ l) : l.lookup k = some b := by
  induction l with
  | nil => cases h
  | cons entry l ih =>
    obtain ⟨other, c⟩ := entry
    rw [List.map_cons, List.nodup_cons] at nodup
    obtain ⟨new, nodup⟩ := nodup
    rcases List.mem_cons.1 h with here | there
    · cases here
      exact List.lookup_cons_self
    · have differs : (k == other) = false := by
        refine beq_false_of_ne fun eq => new ?_
        show other ∈ l.map Prod.fst
        rw [← eq]
        exact List.mem_map.2 ⟨(k, b), there, rfl⟩
      rw [List.lookup_cons, differs]
      exact ih nodup there

/-- What an expression stands for does not change when more is declared behind. -/
theorem text?_append {es : List (String × List (String × String))} {e : TextExpression}
    {text : String} (h : text? es e = some text) (more : List (String × List (String × String))) :
    text? (es ++ more) e = some text := by
  cases e with
  | literal t => exact h
  | member enumeration name =>
    obtain ⟨members, found, here⟩ := Option.bind_eq_some_iff.1 h
    rw [text?, List.lookup_append, found]
    exact here

/-- Every item of a list gives one result. -/
theorem filterMap_flatMap_eq_map {α β γ : Type} {f : β → Option γ} {g : α → List β} {h : α → γ}
    (one : ∀ x, (g x).filterMap f = [h x]) (xs : List α) :
    (xs.flatMap g).filterMap f = xs.map h := by
  rw [List.filterMap_flatMap, List.map_eq_flatMap]
  exact List.flatMap_congr fun x _ => one x

/-- No item of a list gives a result. -/
theorem filterMap_flatMap_eq_nil {α β γ : Type} {f : β → Option γ} {g : α → List β}
    (nothing : ∀ x, (g x).filterMap f = []) (xs : List α) : (xs.flatMap g).filterMap f = [] := by
  rw [List.filterMap_flatMap, List.flatMap_eq_nil_iff]
  exact fun x _ => nothing x

namespace Naming

variable {n : Naming} {plan : Plan}

theorem enumerations_declarations :
    (n.declarations plan).filterMap Declaration.enumeration?
      = n.support.filterMap Declaration.enumeration?
        ++ (n.events, plan.metrics.map fun m => (n.event m, m.name))
          :: plan.constrainedTypes.map fun t =>
            (n.enumeration t, t.values.map fun value => (n.member value, value)) := by
  rw [declarations, List.filterMap_append, List.filterMap_append, List.filterMap_append,
    filterMap_flatMap_eq_map fun _ => rfl, filterMap_flatMap_eq_nil fun _ => rfl, List.append_nil]
  rfl

theorem records_declarations :
    (n.declarations plan).filterMap Declaration.record?
      = n.support.filterMap Declaration.record?
        ++ plan.metrics.map fun m =>
          (n.record m, m.fields.map (n.propertyOf plan.constrainedTypes)) := by
  rw [declarations, List.filterMap_append, List.filterMap_append, List.filterMap_append,
    filterMap_flatMap_eq_nil fun _ => rfl, filterMap_flatMap_eq_map fun _ => rfl, List.nil_append]
  rfl

theorem recorders_declarations (h : n.Fits plan) :
    (n.declarations plan).filterMap Declaration.recorder? = plan.metrics.map n.recorderOf := by
  rw [declarations, List.filterMap_append, List.filterMap_append, List.filterMap_append,
    filterMap_flatMap_eq_nil fun _ => rfl, filterMap_flatMap_eq_map fun _ => rfl, h.recorders,
    List.nil_append, List.nil_append]
  rfl

/-! ### The contract of a plan's declarations -/

/-- The declared enumerations, with their members. -/
abbrev enumerations (n : Naming) (plan : Plan) : List (String × List (String × String)) :=
  (n.declarations plan).filterMap Declaration.enumeration?

theorem nodup_enumerations (h : n.Fits plan) :
    ((n.enumerations plan).map Prod.fst).Nodup := by
  rw [enumerations, enumerations_declarations, List.map_append, List.map_cons, List.map_map]
  exact h.enumerations

theorem text?_event (h : n.Fits plan) {m : PlannedMetric} (hm : m ∈ plan.metrics) :
    text? (n.enumerations plan) (.member n.events (n.event m)) = some m.name := by
  have found : (n.enumerations plan).lookup n.events
      = some (plan.metrics.map fun m => (n.event m, m.name)) := by
    refine lookup_of_mem (nodup_enumerations h) ?_
    rw [enumerations, enumerations_declarations]
    exact List.mem_append_right _ List.mem_cons_self
  have nodup : ((plan.metrics.map fun m => (n.event m, m.name)).map Prod.fst).Nodup := by
    rw [List.map_map]
    exact h.events
  rw [text?, found]
  exact lookup_of_mem nodup (List.mem_map.2 ⟨m, hm, rfl⟩)

theorem text?_unit (h : n.Fits plan) (unit : MetricUnit) :
    text? (n.enumerations plan) (n.unit unit) = some unit.sinkName := by
  rw [enumerations, enumerations_declarations]
  exact text?_append (h.unit unit) _

theorem type?_constrained (h : n.Fits plan) {i : Nat} {t : ConstrainedType}
    (place : plan.constrainedTypes[i]? = some t) :
    type? n.classOf (n.enumerations plan) (n.fieldType plan.constrainedTypes (.constrained i))
      = some (.oneOf t.values) := by
  obtain ⟨isEnumeration, noClass⟩ := h.constrained i t place
  have found : (n.enumerations plan).lookup (n.enumeration t)
      = some (t.values.map fun value => (n.member value, value)) := by
    refine lookup_of_mem (nodup_enumerations h) ?_
    rw [enumerations, enumerations_declarations]
    refine List.mem_append_right _ (List.mem_cons_of_mem _ ?_)
    exact List.mem_map.2 ⟨t, List.mem_of_getElem? place, rfl⟩
  rw [isEnumeration, type?, noClass, found]
  simp only [Option.map_some, List.map_map]
  show some (WireType.oneOf (t.values.map id)) = _
  rw [List.map_id]

/-- The type of a metadata field has the values of the field. -/
theorem type?_fieldType (h : n.Fits plan) (orderly : plan.Orderly) {m : PlannedMetric}
    (hm : m ∈ plan.metrics) {field : ArgumentField} (hField : field ∈ m.metadataFields) :
    type? n.classOf (n.enumerations plan) (n.fieldType plan.constrainedTypes field.type)
      = field.type.wireType? plan.constrainedTypes := by
  have there : field ∈ m.fields := (List.mem_filter.1 hField).1
  cases isType : field.type with
  | constrained i =>
    obtain ⟨t, place⟩ := (orderly.metrics m hm).place field there i isType
    rw [type?_constrained h place, FieldType.wireType?, place]
    rfl
  | primitive kind =>
    rw [type?, h.primitive kind]
    rfl
  | timestamp => exact absurd isType ((orderly.metrics m hm).untimed field hField)

theorem field?_entry (h : n.Fits plan) (orderly : plan.Orderly) {m : PlannedMetric}
    (hm : m ∈ plan.metrics) {field : ArgumentField} (hField : field ∈ m.metadataFields) :
    field? n.classOf (n.enumerations plan) (m.fields.map (n.propertyOf plan.constrainedTypes))
      (field.key, n.property field.identifier) = field.wireField? plan.constrainedTypes := by
  have there : field ∈ m.fields := (List.mem_filter.1 hField).1
  have nodup : ((m.fields.map (n.propertyOf plan.constrainedTypes)).map Prod.fst).Nodup := by
    rw [List.map_map]
    exact h.properties m hm
  have found := lookup_of_mem nodup (List.mem_map.2 ⟨field, there, rfl⟩)
  rw [field?, found, ArgumentField.wireField?, ← type?_fieldType h orderly hm hField]
  rfl

/-- The recording function of a metric is for the metric. -/
theorem metric?_recorderOf (h : n.Fits plan) (orderly : plan.Orderly) {m : PlannedMetric}
    (hm : m ∈ plan.metrics) :
    metric? n.classOf (n.enumerations plan)
      ((n.declarations plan).filterMap Declaration.record?) (n.recorderOf m)
      = m.wireMetric? plan.constrainedTypes := by
  have nodup : (((n.declarations plan).filterMap Declaration.record?).map Prod.fst).Nodup := by
    rw [records_declarations, List.map_append, List.map_map]
    exact h.records
  have found : ((n.declarations plan).filterMap Declaration.record?).lookup (n.record m)
      = some (m.fields.map (n.propertyOf plan.constrainedTypes)) := by
    refine lookup_of_mem nodup ?_
    rw [records_declarations]
    exact List.mem_append_right _ (List.mem_map.2 ⟨m, hm, rfl⟩)
  have fields : (n.recorderOf m).entries.mapM (field? n.classOf (n.enumerations plan)
      (m.fields.map (n.propertyOf plan.constrainedTypes)))
      = m.metadataFields.mapM (ArgumentField.wireField? plan.constrainedTypes) := by
    show (m.metadataFields.map fun field => (field.key, n.property field.identifier)).mapM _ = _
    rw [List.mapM_map]
    exact Related.mapM_congr fun field hField => field?_entry h orderly hm hField
  rw [metric?, show (n.recorderOf m).event = .member n.events (n.event m) from rfl,
    text?_event h hm, show (n.recorderOf m).unit = n.unit m.unit from rfl, text?_unit h,
    show (n.recorderOf m).record = n.record m from rfl, found]
  simp only [Option.bind_eq_bind, Option.bind_some]
  rw [fields]
  rfl

/-- The contract of what is declared for a plan is the contract of the plan. -/
theorem contract?_declarations (h : n.Fits plan) (orderly : plan.Orderly) :
    contract? n.classOf (n.declarations plan) = plan.contract? := by
  rw [contract?, recorders_declarations h, List.mapM_map]
  exact Related.mapM_congr fun m hm => metric?_recorderOf h orderly hm

end Naming

end Telemetry.Artifact
