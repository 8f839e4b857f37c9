import Telemetry.Artifact.Rust
import Telemetry.Artifact.TypeScript
import Telemetry.Journal
import Telemetry.Metric.Reference
import Telemetry.Plan.Draft

/-!
# From a document to an artifact

A document is planned in steps, each of which can end the run: its conventions are checked, its pool
is built, its metrics are checked, their references are looked up, and the result is planned.  The
plan is then rendered for the target.

* `Document.plan` and `Document.generate` are these steps for a document, `generateText` for a
  text;
* the `…Traced` forms note the steps; `Document.plan_eq` and `Document.generate_eq` show the steps
  without the notes.
-/

namespace Telemetry

/-- The text of a plan for the target of the settings. -/
def Plan.render (settings : Settings) (plan : Plan) : Checked String :=
  match settings.target with
  | .typescript => Artifact.TypeScript.render settings plan
  | .rust => Artifact.Rust.render plan

namespace Document

/-- Plans a document, noting the steps. -/
def planTraced (settings : Settings) (document : Document) : Traced Plan := do
  .of (document.checkConventions settings.sortedMetrics)
  let pool ← .of (MetadataPool.ofEntries document.metadata)
  .note (.poolBuilt pool.definitions.length)
  let metrics ← .of (document.metrics.mapM Metric.ofEntry)
  .note (.metricsChecked metrics.length document.metadata.length)
  let resolved ← .of (resolveAll pool metrics)
  let plan ← .of (Plan.ofMetrics resolved)
  .note (.planned plan.metrics.length plan.constrainedTypes.length)
  return plan

/-- Generates the artifact of a document, noting the steps. -/
def generateTraced (settings : Settings) (document : Document) : Traced String := do
  let plan ← document.planTraced settings
  let text ← .of (plan.render settings)
  .note (.rendered settings.target text.utf8ByteSize)
  return text

/-- The plan of a document. -/
def plan (settings : Settings) (document : Document) : Checked Plan :=
  (document.planTraced settings).result

/-- The artifact of a document. -/
def generate (settings : Settings) (document : Document) : Checked String :=
  (document.generateTraced settings).result

theorem plan_eq (settings : Settings) (document : Document) :
    document.plan settings = (do
      document.checkConventions settings.sortedMetrics
      let pool ← MetadataPool.ofEntries document.metadata
      let metrics ← document.metrics.mapM Metric.ofEntry
      let resolved ← resolveAll pool metrics
      Plan.ofMetrics resolved) := by
  simp only [plan, planTraced, Traced.result_bind, Traced.result_of, Traced.result_note,
    Traced.result_pure]
  cases document.checkConventions settings.sortedMetrics with
  | error fault => rfl
  | ok _ =>
    cases MetadataPool.ofEntries document.metadata with
    | error fault => rfl
    | ok pool =>
      cases document.metrics.mapM Metric.ofEntry with
      | error fault => rfl
      | ok metrics =>
        cases h : resolveAll pool metrics with
        | error fault => simp [h, Except.bind, bind]
        | ok resolved =>
          cases h' : Plan.ofMetrics resolved <;> simp [h, h', Except.bind, bind]

theorem generate_eq (settings : Settings) (document : Document) :
    document.generate settings = (do
      let plan ← document.plan settings
      plan.render settings) := by
  simp only [generate, generateTraced, plan, Traced.result_bind, Traced.result_of,
    Traced.result_note, Traced.result_pure]
  cases (document.planTraced settings).result with
  | error fault => rfl
  | ok plan => cases h : plan.render settings <;> simp [h, Except.bind, bind]

end Document

/-- The artifact of a schema given as a text. -/
def generateText (settings : Settings) (text : String) : Checked String := do
  let document ← Document.load text
  document.generate settings

end Telemetry
