import Telemetry.Artifact.Target
import Telemetry.Fault

/-!
# The journal of a run

A run notes what it has done, step by step; what was noted before a fault stays noted.

* `Event` lists the notes, each with the level it belongs to, the part of the program it comes from
  and its wording;
* `Traced α` is the result of a run together with its notes in order, and `Traced.result` forgets
  the notes: the `result_…` lemmas say that it is then an ordinary `Checked` computation.
-/

namespace Telemetry

/-- Something that a run has done. -/
inductive Event where
  | schemaRead (path : String) (bytes : Nat)
  | poolBuilt (definitions : Nat)
  | metricsChecked (metrics pooled : Nat)
  | planned (metrics constrainedTypes : Nat)
  | rendered (target : Target) (bytes : Nat)
  | stored (bytes : Nat) (path : String)
  | wrote (path : String)
  | upToDate (path : String)
  deriving DecidableEq, Repr

namespace Event

/-- Whether the note is of interest beyond debugging. -/
def isInfo : Event → Bool
  | .wrote _ => true
  | .upToDate _ => true
  | _ => false

/-- The part of the program that notes the event, as a log names it. -/
def origin : Event → String
  | .schemaRead _ _ => "telemetry_gen::loader"
  | .poolBuilt _ => "telemetry_gen::pool"
  | .planned _ _ => "telemetry_gen::plan"
  | .stored _ _ => "telemetry_gen::output"
  | _ => "telemetry_gen"

/-- The wording of the note. -/
def message : Event → String
  | .schemaRead path bytes => "loaded schema '" ++ path ++ "' (" ++ toString bytes ++ " bytes)"
  | .poolBuilt definitions =>
    "built metadata pool with " ++ toString definitions ++ " entries"
  | .metricsChecked metrics pooled =>
    "loaded " ++ toString metrics ++ " metric(s) against " ++ toString pooled
      ++ " pooled metadata definition(s)"
  | .planned metrics constrainedTypes =>
    "planned " ++ toString metrics ++ " metric(s) and " ++ toString constrainedTypes
      ++ " constrained type(s)"
  | .rendered target bytes =>
    "rendered " ++ target.name ++ " target (" ++ toString bytes ++ " bytes)"
  | .stored bytes path => "wrote " ++ toString bytes ++ " bytes to '" ++ path ++ "'"
  | .wrote path => "wrote '" ++ path ++ "'"
  | .upToDate path => "'" ++ path ++ "' is up to date"

end Event

/-- A result and the events on the way to it. -/
structure Traced (α : Type) where
  events : List Event
  result : Checked α

namespace Traced

/-- A result without events. -/
def of {α : Type} (result : Checked α) : Traced α := ⟨[], result⟩

/-- An event without a result. -/
def note (event : Event) : Traced Unit := ⟨[event], .ok ()⟩

instance : Monad Traced where
  pure a := of (.ok a)
  bind x f :=
    match x.result with
    | .ok a => ⟨x.events ++ (f a).events, (f a).result⟩
    | .error fault => ⟨x.events, .error fault⟩

variable {α β : Type}

@[simp] theorem result_pure (a : α) : (pure a : Traced α).result = .ok a := rfl

@[simp] theorem result_of (result : Checked α) : (of result).result = result := rfl

@[simp] theorem result_note (event : Event) : (note event).result = .ok () := rfl

@[simp] theorem result_bind (x : Traced α) (f : α → Traced β) :
    (x >>= f).result = x.result.bind fun a => (f a).result := by
  show (match x.result with
    | .ok a => (⟨x.events ++ (f a).events, (f a).result⟩ : Traced β)
    | .error fault => ⟨x.events, .error fault⟩).result = _
  cases x.result <;> rfl

end Traced

end Telemetry
