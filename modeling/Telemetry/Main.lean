import Telemetry.CommandLine.Run

/-!
# The program

The files of the machine as a store, and the entry point.  Notes are written to the error output as
they come, as far as the log level shows them.
-/

namespace Telemetry

open CommandLine (LogLevel Request)

/-- Actions on the machine under a log level. -/
abbrev Machine := ReaderT LogLevel IO

/-- The code of the system for an error. -/
def errorCode : IO.Error → UInt32
  | .alreadyExists _ code _ => code
  | .otherError code _ => code
  | .resourceBusy code _ => code
  | .resourceVanished code _ => code
  | .unsupportedOperation code _ => code
  | .hardwareFault code _ => code
  | .unsatisfiedConstraints code _ => code
  | .illegalOperation code _ => code
  | .protocolError code _ => code
  | .timeExpired code _ => code
  | .interrupted _ code _ => code
  | .noFileOrDirectory _ code _ => code
  | .invalidArgument _ code _ => code
  | .permissionDenied _ code _ => code
  | .resourceExhausted _ code _ => code
  | .inappropriateType _ code _ => code
  | .noSuchThing _ code _ => code
  | .unexpectedEof => 0
  | .userError _ => 0

/-- The fault for an error of the system.  The code comes with or without a minus sign. -/
def FileFault.ofError (error : IO.Error) : FileFault :=
  let code := errorCode error
  match min code (0 - code) with
  | 2 => .missing
  | 16 => .busy
  | 17 => .alreadyThere
  | 20 => .notDirectory
  | 21 => .isDirectory
  | 36 => .nameTooLong
  | _ => .other (toString error)

/-- An action whose errors are faults. -/
def attempt {α : Type} (action : IO α) : Machine (Except FileFault α) := fun _ => do
  match ← action.toBaseIO with
  | .ok a => return .ok a
  | .error error => return .error (.ofError error)

instance : Files.Store Machine where
  read path := attempt (IO.FS.readBinFile path)
  write path content := attempt (IO.FS.writeBinFile path content)
  makeDirectory path := attempt (IO.FS.createDir path)
  isDirectory path := fun _ => do
    let there ← IO.FS.realPath path
    there.isDir
  rename source target := attempt (IO.FS.rename source target)
  removeFile path := do let _ ← attempt (IO.FS.removeFile path)
  mark := fun _ => return toString (← IO.monoNanosNow)
  note event := fun level => do
    match level.line? event with
    | some line => IO.eprint line
    | none => return ()

/-- Runs a command line on the machine and gives the exit code. -/
def answer (arguments : List String) : IO UInt32 := do
  let request := Request.ofArguments arguments
  let report ← (CommandLine.runRequest request : Machine CommandLine.Report) request.level
  IO.print report.output
  IO.eprint report.errors
  return report.code.toUInt32

end Telemetry

/-- Runs the command line. -/
def main (arguments : List String) : IO UInt32 :=
  Telemetry.answer arguments
