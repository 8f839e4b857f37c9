import Telemetry.Artifact.Target

/-!
# Arguments of the command line

A command line names one of three commands, each of which takes a schema and options.  Options may
stand before and behind the schema.

* An option with a value takes it from the same argument or from the next one; a long name is
  separated from its value by an equals sign, behind a short name the sign can be left out.  A next
  argument that looks like an option is no value.
* Every option can be given once.  The log level can be given once before the command and once
  behind it, and then the latter counts.
* Behind `--` every argument is taken as it is.
* Arguments are dealt with in their order: a request for help or for the version ends the reading,
  and whatever is wrong before it makes the command line a misuse.

`Request.ofArguments` reads a command line.
-/

namespace Telemetry.CommandLine

/-- How much of the journal is shown. -/
inductive LogLevel where
  | silent
  | error
  | warn
  | info
  | debug
  | trace
  deriving DecidableEq, Repr, Inhabited

/-- The level that a word stands for. -/
def LogLevel.ofWord? : String → Option LogLevel
  | "none" => some .silent
  | "error" => some .error
  | "warn" => some .warn
  | "info" => some .info
  | "debug" => some .debug
  | "trace" => some .trace
  | _ => none

/-- The commands. -/
inductive CommandName where
  | generate
  | check
  | validate
  deriving DecidableEq, Repr

/-- The command that a word stands for. -/
def CommandName.ofWord? : String → Option CommandName
  | "generate" => some .generate
  | "check" => some .check
  | "validate" => some .validate
  | _ => none

/-- The options. -/
inductive OptionName where
  | logLevel
  | output
  | target
  | sink
  | sinkImport
  | noSinkImport
  | requireSorted
  | help
  | version
  deriving DecidableEq, Repr

namespace OptionName

/-- The long name. -/
def long : OptionName → String
  | .logLevel => "log-level"
  | .output => "output"
  | .target => "target"
  | .sink => "sink"
  | .sinkImport => "sink-import"
  | .noSinkImport => "no-sink-import"
  | .requireSorted => "require-sorted"
  | .help => "help"
  | .version => "version"

/-- The short name, if there is one. -/
def short? : OptionName → Option Char
  | .output => some 'o'
  | .help => some 'h'
  | .version => some 'V'
  | _ => none

/-- Whether the option takes a value. -/
def takesValue : OptionName → Bool
  | .logLevel => true
  | .output => true
  | .target => true
  | .sink => true
  | .sinkImport => true
  | _ => false

/-- The options before the command. -/
def beforeCommand : List OptionName := [.logLevel, .help, .version]

/-- The options behind a command. -/
def ofCommand : CommandName → List OptionName
  | .validate => [.logLevel, .help, .requireSorted]
  | _ => [.logLevel, .help, .requireSorted, .output, .target, .sink, .sinkImport, .noSinkImport]

end OptionName

/-- An argument by its form. -/
inductive Argument where
  /-- The argument `--`. -/
  | escape
  /-- A long option, with a value if there is an equals sign. -/
  | long (name : String) (value : Option String)
  /-- Short options in one argument. -/
  | short (letters : List Char)
  | plain (text : String)
  deriving DecidableEq, Repr

/-- The form of an argument.  A lone minus sign is no option. -/
def Argument.ofString (written : String) : Argument :=
  match written.toList with
  | ['-', '-'] => .escape
  | '-' :: '-' :: name =>
    match name.dropWhile (· != '=') with
    | [] => .long (.ofList name) none
    | _ :: value => .long (.ofList (name.takeWhile (· != '='))) (some (.ofList value))
  | ['-'] => .plain written
  | '-' :: letters => .short letters
  | _ => .plain written

/-- What has been given so far. -/
structure Given where
  schema : Option String := none
  logLevel : Option LogLevel := none
  output : Option String := none
  target : Option Target := none
  sink : Option String := none
  sinkImport : Option String := none
  noSinkImport : Bool := false
  requireSorted : Bool := false
  deriving Repr, Inhabited

/-- Why the reading of a command line ends early. -/
inductive Halt where
  | misuse
  | help
  | version
  deriving DecidableEq, Repr

/-- Fills a place that is to be filled once. -/
def fillOnce {α : Type} (place : Option α) (value : Option α) : Except Halt (Option α) :=
  match place, value with
  | none, some value => .ok (some value)
  | _, _ => .error .misuse

/-- A path; the empty text is none. -/
def path? (text : String) : Option String :=
  if text.isEmpty then none else some text

namespace Given

/-- Takes the schema. -/
def withSchema (given : Given) (text : String) : Except Halt Given := do
  return { given with schema := ← fillOnce given.schema (path? text) }

/-- Takes the value of an option. -/
def withValue (given : Given) (value : String) : OptionName → Except Halt Given
  | .logLevel => do
    return { given with logLevel := ← fillOnce given.logLevel (LogLevel.ofWord? value) }
  | .output => do return { given with output := ← fillOnce given.output (path? value) }
  | .target => do
    return { given with target := ← fillOnce given.target (Target.ofWord value).toOption }
  | .sink => do return { given with sink := ← fillOnce given.sink (some value) }
  | .sinkImport => do return { given with sinkImport := ← fillOnce given.sinkImport (some value) }
  | _ => .error .misuse

/-- Takes an option without a value. -/
def withFlag (given : Given) : OptionName → Except Halt Given
  | .noSinkImport =>
    if given.noSinkImport then .error .misuse else .ok { given with noSinkImport := true }
  | .requireSorted =>
    if given.requireSorted then .error .misuse else .ok { given with requireSorted := true }
  | .help => .error .help
  | .version => .error .version
  | _ => .error .misuse

end Given

/-- Reads the letters of an argument with short options.  The result tells the option that still
wants a value. -/
def readLetters (options : List OptionName) (given : Given) :
    List Char → Except Halt (Given × Option OptionName)
  | [] => .ok (given, none)
  | letter :: rest =>
    match options.find? fun option => option.short? == some letter with
    | none => .error .misuse
    | some option =>
      if option.takesValue then
        match rest with
        | [] => .ok (given, some option)
        | '=' :: value => do return (← given.withValue (.ofList value) option, none)
        | value => do return (← given.withValue (.ofList value) option, none)
      else do readLetters options (← given.withFlag option) rest

/-- Reads one option.  The result tells the option that still wants a value. -/
def readOption (options : List OptionName) (given : Given) :
    Argument → Except Halt (Given × Option OptionName)
  | .short letters => readLetters options given letters
  | .long name value =>
    match options.find? (fun option => option.long == name), value with
    | none, _ => .error .misuse
    | some option, some value =>
      if option.takesValue then do return (← given.withValue value option, none)
      else .error .misuse
    | some option, none =>
      if option.takesValue then .ok (given, some option)
      else do return (← given.withFlag option, none)
  | _ => .error .misuse

/-- Reads the arguments behind a command; `waiting` is an option that still wants its value. -/
def readArguments (options : List OptionName) : (waiting : Option OptionName) → Given →
    List String → Except Halt Given
  | none, given, [] => .ok given
  | some _, _, [] => .error .misuse
  | some option, given, argument :: rest =>
    match Argument.ofString argument with
    | .plain value => do readArguments options none (← given.withValue value option) rest
    | _ => .error .misuse
  | none, given, argument :: rest =>
    match Argument.ofString argument with
    | .plain text => do readArguments options none (← given.withSchema text) rest
    | .escape => rest.foldlM Given.withSchema given
    | option => do
      let (given, waiting) ← readOption options given option
      readArguments options waiting given rest

/-- A command with all that it needs. -/
inductive Command where
  | generate (settings : Settings) (schema output : String)
  | check (settings : Settings) (schema output : String)
  | validate (settings : Settings) (schema : String)
  deriving DecidableEq, Repr

/-- What a command line asks for. -/
inductive Request where
  | run (command : Command) (level : LogLevel)
  | help
  | version
  | misuse
  deriving DecidableEq, Repr

/-- The settings given. -/
def Given.settings (given : Given) : Settings where
  target := given.target.getD .typescript
  sink := given.sink.getD defaultSink
  sinkImport := if given.noSinkImport then none else some (given.sinkImport.getD defaultSinkImport)
  sortedMetrics := given.requireSorted

/-- The command, if everything it needs is given and nothing contradicts. -/
def Given.command? (given : Given) (name : CommandName) : Option Command :=
  if given.noSinkImport && given.sinkImport.isSome then none
  else
    match name, given.schema, given.output with
    | .generate, some schema, some output => some (.generate given.settings schema output)
    | .check, some schema, some output => some (.check given.settings schema output)
    | .validate, some schema, _ => some (.validate given.settings schema)
    | _, _, _ => none

/-- The request of the arguments behind a command; `level` is the log level given before it. -/
def Request.ofCommand (name : CommandName) (level : Option LogLevel) (arguments : List String) :
    Except Halt Request := do
  let given ← readArguments (OptionName.ofCommand name) none {} arguments
  match given.command? name with
  | some command => return .run command ((given.logLevel <|> level).getD .warn)
  | none => throw .misuse

/-- The request for help behind the word `help`, which may name a command. -/
def helpRequest : List String → Except Halt Request
  | [] => .error .help
  | word :: rest =>
    if (word == "help" || (CommandName.ofWord? word).isSome) && rest.isEmpty then .error .help
    else .error .misuse

/-- Reads the arguments from the start of the line; `waiting` is an option that still wants its
value. -/
def readLine : (waiting : Option OptionName) → Given → List String → Except Halt Request
  | _, _, [] => .error .misuse
  | some option, given, argument :: rest =>
    match Argument.ofString argument with
    | .plain value => do readLine none (← given.withValue value option) rest
    | _ => .error .misuse
  | none, given, argument :: rest =>
    match Argument.ofString argument with
    | .plain "help" => helpRequest rest
    | .plain word =>
      match CommandName.ofWord? word with
      | some name => Request.ofCommand name given.logLevel rest
      | none => .error .misuse
    | .escape => .error .misuse
    | option => do
      let (given, waiting) ← readOption OptionName.beforeCommand given option
      readLine waiting given rest

/-- Reads a command line. -/
def Request.ofArguments (arguments : List String) : Request :=
  match readLine none {} arguments with
  | .ok request => request
  | .error .help => .help
  | .error .version => .version
  | .error .misuse => .misuse

end Telemetry.CommandLine
