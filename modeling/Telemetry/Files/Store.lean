import Telemetry.Artifact.Generate
import Telemetry.Files.Path

/-!
# Artifacts in a store of files

An artifact is kept in step with its schema, both of them files of a store.  What a store can do is
the class `Store`, so that the same operations run on a tree of files and on the files of a machine.

* `writeAtomic` puts a text into a file by way of a temporary file beside it, which then takes the
  place of the file: the file holds its old content or the new one at every moment, and on failure
  the temporary file goes and the file stays as it is.
* `writeIfChanged` leaves a file alone that holds the text already.
* `generateToFile` generates and writes, `checkUpToDate` generates and compares; nothing is written
  unless everything before it has succeeded.
-/

namespace Telemetry.Files

/-- What can be done with files, and a journal to note it in. -/
class Store (m : Type → Type) where
  /-- The content of a file. -/
  read : String → m (Except FileFault ByteArray)
  /-- Makes or replaces a file. -/
  write : String → ByteArray → m (Except FileFault Unit)
  /-- Makes a directory in a directory that is there. -/
  makeDirectory : String → m (Except FileFault Unit)
  isDirectory : String → m Bool
  /-- Moves a file onto a path, where it replaces the file that is there. -/
  rename : String → String → m (Except FileFault Unit)
  /-- Removes a file if it is there. -/
  removeFile : String → m Unit
  /-- A mark that no other writer puts into the names of its temporary files. -/
  mark : m String
  /-- Notes an event. -/
  note : Event → m Unit

/-- A run over a store, which a fault can end; what has happened to the store then stays. -/
abbrev Run (m : Type → Type) := ExceptT Fault m

/-- What a write has done to the artifact. -/
inductive WriteOutcome where
  | written
  | unchanged
  deriving DecidableEq, Repr

variable {m : Type → Type} [Monad m] [Store m]

/-- A run that gives what has been found already. -/
def Run.of {α : Type} (result : Checked α) : Run m α :=
  ExceptT.mk (pure result)

/-- A run that notes an event. -/
def Run.note (event : Event) : Run m Unit :=
  ExceptT.lift (Store.note event)

/-- A run that gives a traced result and notes its events. -/
def Run.ofTraced {α : Type} (traced : Traced α) : Run m α := do
  traced.events.forM Run.note
  Run.of traced.result

/-- The text of a file. -/
def readText (path : String) : m (Except FileFault String) := do
  match ← Store.read path with
  | .error fault => return .error fault
  | .ok content =>
    match String.fromUTF8? content with
    | some text => return .ok text
    | none => return .error .notText

/-- Makes the first of the directories, making those behind it first where they are missing.  A
failure is none if the directory is there. -/
def makeDirectories : List Path → m (Except FileFault Unit)
  | [] => return .ok ()
  | path :: outer => do
    let settle : Except FileFault Unit → m (Except FileFault Unit)
      | .ok () => return .ok ()
      | .error fault => return if ← Store.isDirectory path.text then .ok () else .error fault
    match ← Store.makeDirectory path.text with
    | .error .missing =>
      match ← makeDirectories outer with
      | .error fault => return .error fault
      | .ok () => settle (← Store.makeDirectory path.text)
    | result => settle result

/-- The name of the temporary file beside a path. -/
def temporaryName (path : Path) (mark : String) : String :=
  "." ++ path.fileName?.getD "artifact" ++ ".tmp-" ++ mark

/-- The temporary file beside a path. -/
def temporarySibling (path : Path) (mark : String) : Path :=
  path.sibling (temporaryName path mark)

/-- Puts a text into a file, or leaves the file as it is. -/
def writeAtomic (path : String) (text : String) : Run m Unit := ExceptT.mk do
  let parsed := Path.ofString path
  match ← makeDirectories parsed.outer with
  | .error fault => return .error (.write path fault)
  | .ok () =>
    let temporary := (temporarySibling parsed (← Store.mark)).text
    let result ← match ← Store.write temporary text.toUTF8 with
      | .error fault => pure (.error fault)
      | .ok () => Store.rename temporary path
    match result with
    | .error fault =>
      Store.removeFile temporary
      return .error (.write path fault)
    | .ok () =>
      Store.note (.stored text.utf8ByteSize path)
      return .ok ()

/-- The text of a file, if the file is there. -/
def readExisting (path : String) : Run m (Option String) := ExceptT.mk do
  match ← readText path with
  | .ok text => return .ok (some text)
  | .error .missing => return .ok none
  | .error fault => return .error (.read path fault)

/-- Puts a text into a file that does not hold it yet. -/
def writeIfChanged (path : String) (text : String) : Run m WriteOutcome := do
  if (← readExisting path) = some text then return .unchanged
  writeAtomic path text
  return .written

/-- Loads the schema in a file. -/
def loadFile (path : String) : Run m Document := do
  let text ← ExceptT.mk do
    match ← readText path with
    | .ok text => return .ok text
    | .error fault => return .error (.read path fault)
  Run.note (.schemaRead path text.utf8ByteSize)
  Run.of (Document.load text)

/-- Generates the artifact of the schema in a file. -/
def generateFile (settings : Settings) (schema : String) : Run m String := do
  let document ← loadFile schema
  Run.ofTraced (document.generateTraced settings)

/-- Plans the schema in a file. -/
def planFile (settings : Settings) (schema : String) : Run m Plan := do
  let document ← loadFile schema
  Run.ofTraced (document.planTraced settings)

/-- Generates the artifact of a schema into a file. -/
def generateToFile (settings : Settings) (schema output : String) : Run m WriteOutcome := do
  let text ← generateFile settings schema
  let outcome ← writeIfChanged output text
  match outcome with
  | .written => Run.note (.wrote output)
  | .unchanged => Run.note (.upToDate output)
  return outcome

/-- Fails unless a file holds exactly the artifact of a schema. -/
def checkUpToDate (settings : Settings) (schema output : String) : Run m Unit := do
  let text ← generateFile settings schema
  if (← readExisting output) ≠ some text then throw (.outOfDate output)

end Telemetry.Files
