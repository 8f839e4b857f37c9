import Telemetry.CommandLine.Arguments
import Telemetry.Files.Workspace

/-!
# Running commands

A command reports on its output what it has done, or on its error output why it could not, and ends
with an exit code.  Notes of the run go to the error output as far as the log level shows them.

* `Command.run` runs a command over a store, `runRequest` answers a whole request;
* `LogLevel.line?` is the line of a log for an event;
* `runIn` runs a command line over a tree of files and puts the log before the report.
-/

namespace Telemetry.CommandLine

open Files (Store Run Workspace)

/-- What a command line leaves behind. -/
structure Report where
  code : Nat
  output : String := ""
  errors : String := ""
  deriving DecidableEq, Repr

/-- Whether a log shows an event. -/
def LogLevel.shows (level : LogLevel) (event : Event) : Bool :=
  match level with
  | .info => event.isInfo
  | .debug => true
  | .trace => true
  | _ => false

/-- A message whose lines behind the first are indented. -/
def indentedMessage (message : String) : String :=
  .ofList (message.toList.flatMap fun c =>
    if c = '\n' then ['\n', ' ', ' ', ' ', ' '] else [c])

/-- The line of a log for an event, if the level shows it.  Below the level of information the line
tells where the event comes from. -/
def LogLevel.line? (level : LogLevel) (event : Event) : Option String :=
  if level.shows event then
    let severity := if event.isInfo then "INFO " else "DEBUG"
    let origin := if level = .info then "" else " " ++ event.origin
    some ("[" ++ severity ++ origin ++ "] " ++ indentedMessage event.message ++ "\n")
  else none

/-- The log of a journal. -/
def LogLevel.log (level : LogLevel) (journal : List Event) : String :=
  String.join (journal.filterMap level.line?)

/-- The words for what was planned. -/
def planSummary (schema : String) (plan : Plan) : String :=
  schema ++ ": " ++ toString plan.metrics.length ++ " metric(s), "
    ++ toString plan.constrainedTypes.length ++ " constrained type(s)"

section

variable {m : Type → Type} [Monad m] [Store m]

/-- Runs a command and says what it has done. -/
def Command.run : Command → Run m String
  | .generate settings schema output => do
    match ← Files.generateToFile settings schema output with
    | .written => return "wrote " ++ output
    | .unchanged => return output ++ " is up to date"
  | .check settings schema output => do
    Files.checkUpToDate settings schema output
    return output ++ " is up to date"
  | .validate settings schema => do
    return planSummary schema (← Files.planFile settings schema)

/-- The report on a command. -/
def Command.report (command : Command) : m Report := do
  match ← command.run.run with
  | .ok line => return { code := 0, output := line ++ "\n" }
  | .error fault => return { code := 1, errors := "error: " ++ fault.message ++ "\n" }

end

/-- The name and version of the program. -/
def versionText : String := "telemetry-gen 0.1.0"

/-- The text that shows how the program is used. -/
def usageText : String :=
  "Generate typed telemetry recording code from a telemetry definitions schema\n\n"
    ++ "Usage: telemetry-gen [--log-level LEVEL] generate|check SCHEMA --output PATH [OPTIONS]\n"
    ++ "       telemetry-gen [--log-level LEVEL] validate SCHEMA [--require-sorted]\n\n"
    ++ "Options of generate and check:\n"
    ++ "  -o, --output PATH       path of the generated artifact\n"
    ++ "      --target TARGET     typescript or rust\n"
    ++ "      --sink EXPR         call expression that TypeScript functions forward to\n"
    ++ "      --sink-import LINE  import line at the top of generated TypeScript\n"
    ++ "      --no-sink-import    do not write a sink import line\n"
    ++ "      --require-sorted    require metrics in strictly ascending order by name\n"

/-- Answers a request over a store. -/
def runRequest {m : Type → Type} [Monad m] [Store m] : Request → m Report
  | .run command _ => command.report
  | .help => return { code := 0, output := usageText }
  | .version => return { code := 0, output := versionText ++ "\n" }
  | .misuse => return { code := 2, errors := usageText }

/-- The log level of a request. -/
def Request.level : Request → LogLevel
  | .run _ level => level
  | _ => .silent

/-- Runs a command line over a workspace.  The journal of the run ends up in the report, and the
journal of the workspace stays as it was. -/
def runIn (workspace : Workspace) (arguments : List String) : Report × Workspace :=
  let request := Request.ofArguments arguments
  let answer : StateM Workspace Report := runRequest request
  let (report, after) := answer { workspace with journal := [] }
  let log := request.level.log after.journal
  ({ report with errors := log ++ report.errors }, { after with journal := workspace.journal })

end Telemetry.CommandLine
