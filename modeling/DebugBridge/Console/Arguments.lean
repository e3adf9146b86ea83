/-
The command line of the console.

Arguments are taken from the left. The first that does not fit decides that all are rejected;
`--help` or `--version`, if it comes before that, decides that nothing else counts. An option with a
value has it attached (`--endpoint=H:P`, `-eH:P`, `-e=H:P`) or as the next argument, which then must
not look like an option itself. No option is given twice. What the command line leaves out the
environment may say, and what that leaves out has a default.
-/
import DebugBridge.Config
import DebugBridge.Console.Output

namespace DebugBridge.Console

/-- The options there are. -/
inductive Setting where
  | endpoint
  | stopOnEntry
  | noDebug
  | format
  | timeout
  | help
  | version
  deriving DecidableEq, Repr

namespace Setting

def ofLongName? : String → Option Setting
  | "endpoint" => some endpoint
  | "stop-on-entry" => some stopOnEntry
  | "no-debug" => some noDebug
  | "format" => some format
  | "timeout-ms" => some timeout
  | "help" => some help
  | "version" => some version
  | _ => none

def ofShortName? : Char → Option Setting
  | 'e' => some endpoint
  | 'f' => some format
  | 'h' => some help
  | 'V' => some version
  | _ => none

/-- Whether the option comes with a value. -/
def takesValue : Setting → Bool
  | endpoint | format | timeout => true
  | stopOnEntry | noDebug | help | version => false

end Setting

/-- What the arguments so far have set. -/
structure Settings where
  endpoint : Option String := none
  stopOnEntry : Bool := false
  noDebug : Bool := false
  format : Option Format := none
  timeout : Option UInt64 := none
  deriving DecidableEq, Repr

/-- What a command line asks for. -/
inductive Invocation where
  | run (config : Config) (format : Format)
  | showHelp
  | showVersion
  | rejected
  deriving DecidableEq, Repr

/-- The formats by name. -/
def Format.ofName? : String → Option Format
  | "text" => some .text
  | "json" => some .json
  | _ => none

/-- A number of milliseconds. -/
def milliseconds? (text : String) : Option UInt64 :=
  match Text.readNat (UInt64.size - 1) text.toList with
  | .ok n => some (UInt64.ofNat n)
  | .error _ => none

namespace Settings

/-- Sets what a flag sets, once. -/
def raise? (s : Settings) : Setting → Option Settings
  | .stopOnEntry => if s.stopOnEntry then none else some { s with stopOnEntry := true }
  | .noDebug => if s.noDebug then none else some { s with noDebug := true }
  | _ => none

/-- Sets the value of an option, once. -/
def assign? (s : Settings) (setting : Setting) (value : String) : Option Settings :=
  match setting with
  | .endpoint => if s.endpoint.isSome then none else some { s with endpoint := value }
  | .format =>
    if s.format.isSome then none
    else (Format.ofName? value).map fun format => { s with format := some format }
  | .timeout =>
    if s.timeout.isSome then none
    else (milliseconds? value).map fun ms => { s with timeout := some ms }
  | _ => none

/-- The name of an environment variable that sets the endpoint. -/
def endpointVariable : String := "SQBRIDGE_ENDPOINT"

/-- The name of an environment variable that sets the call timeout. -/
def timeoutVariable : String := "SQBRIDGE_TIMEOUT_MS"

/-- Completes the settings from the environment and the defaults. -/
def complete (s : Settings) (environment : String → Option String) : Invocation :=
  let endpoint := (s.endpoint <|> environment endpointVariable).getD Config.initial.endpoint
  let run (timeout : Option UInt64) : Invocation :=
    .run ⟨endpoint, s.stopOnEntry, s.noDebug, timeout⟩ (s.format.getD .text)
  match s.timeout, environment timeoutVariable with
  | some ms, _ => run (some ms)
  | none, none => run none
  | none, some text =>
    match milliseconds? text with
    | some ms => run (some ms)
    | none => .rejected

end Settings

/-- An argument, taken apart. -/
inductive Argument where
  /-- `--NAME` or `--NAME=VALUE`. -/
  | long (name : String) (value : Option String)
  /-- `-` and letters, the first of them apart. -/
  | short (letter : Char) (rest : List Char)
  /-- `--` alone. -/
  | terminator
  /-- Anything else. -/
  | plain (text : String)
  deriving DecidableEq, Repr

namespace Argument

/-- Takes an argument apart. -/
def ofText (text : String) : Argument :=
  match text.toList with
  | ['-', '-'] => terminator
  | '-' :: '-' :: rest =>
    let name := String.ofList (rest.takeWhile (· ≠ '='))
    match rest.dropWhile (· ≠ '=') with
    | [] => long name none
    | _ :: value => long name (some (String.ofList value))
  | '-' :: letter :: rest => short letter rest
  | _ => plain text

/-- Whether this can stand as the value of the option before it. -/
def isPlain : Argument → Bool
  | plain _ => true
  | _ => false

end Argument

/-- How one argument brings the reading on. -/
inductive Progress where
  | stop (invocation : Invocation)
  | go (settings : Settings)
  /-- The next argument is the value of this option. -/
  | await (setting : Setting)

/-- Applies an option with the value attached to it, if any. -/
def apply (s : Settings) (setting : Setting) (attached : Option String) : Progress :=
  if setting.takesValue then
    match attached with
    | none => .await setting
    | some value => (s.assign? setting value).elim (.stop .rejected) .go
  else
    match attached with
    | some _ => .stop .rejected
    | none =>
      match setting with
      | .help => .stop .showHelp
      | .version => .stop .showVersion
      | setting => (s.raise? setting).elim (.stop .rejected) .go

/-- Applies an option given by its letter. The letters that stand for something other than a value
all stop, so what follows them in the same argument is not looked at. -/
def applyShort (s : Settings) (setting : Setting) (rest : List Char) : Progress :=
  if setting.takesValue then
    match rest with
    | [] => .await setting
    | '=' :: value => apply s setting (some (String.ofList value))
    | value => apply s setting (some (String.ofList value))
  else apply s setting none

/-- Applies one argument. -/
def applyArgument (s : Settings) : Argument → Progress
  | .long name attached =>
    match Setting.ofLongName? name with
    | some setting => apply s setting attached
    | none => .stop .rejected
  | .short letter rest =>
    match Setting.ofShortName? letter with
    | some setting => applyShort s setting rest
    | none => .stop .rejected
  | .terminator | .plain _ => .stop .rejected

/-- Takes the arguments from the left. -/
def parseArguments (environment : String → Option String) (s : Settings) :
    List String → Invocation
  | [] => s.complete environment
  | ["--"] => s.complete environment
  | argument :: rest =>
    match applyArgument s (.ofText argument) with
    | .stop invocation => invocation
    | .go s => parseArguments environment s rest
    | .await setting =>
      match rest with
      | [] => .rejected
      | value :: rest =>
        if (Argument.ofText value).isPlain then
          match s.assign? setting value with
          | some s => parseArguments environment s rest
          | none => .rejected
        else .rejected

/-- What a command line asks for. -/
def Invocation.ofArguments (arguments : List String) (environment : String → Option String) :
    Invocation :=
  parseArguments environment {} arguments

/-- What `--version` prints. -/
def versionText : String := "sqbridge 0.1.0"

/-- What `--help` prints. -/
def usageText : String := "\n".intercalate
  ["sqbridge - debug a remote Squirrel VM from the terminal",
   "",
   "Usage: sqbridge [OPTIONS]",
   "",
   "Options:",
   "  -e, --endpoint <ENDPOINT>      Debuggee address as HOST:PORT [default: localhost:8000]",
   "      --stop-on-entry            Pause the debuggee as soon as the session starts",
   "      --no-debug                 Run without debugging (no breakpoint verification, no entry stop)",
   "  -f, --format <FORMAT>          Output format: text or json [default: text]",
   "      --timeout-ms <TIMEOUT_MS>  Timeout for command-channel calls in milliseconds (none by default)",
   "  -h, --help                     Print help",
   "  -V, --version                  Print version"]

end DebugBridge.Console
