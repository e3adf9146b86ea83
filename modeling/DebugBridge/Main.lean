/-
The console as an executable.

Nothing but this module does input or output: it takes the command line and the environment, prints
what the program tells, and hands the program one line of input after the other. It brings no
transport. The debuggee it gives the program turns every connection down, as a host does on which
nothing listens, and so a run ends with the message about that.
-/
import DebugBridge.Console.Program
import Std.Time.DateTime.Timestamp

namespace DebugBridge.Console

/-- The time of day. -/
def now : IO Moment := do
  let t ← Std.Time.Timestamp.now
  return (t.toNanosecondsSinceUnixEpoch.val / 1000).toNat

/-- Prints what is told: complaints on the error stream, all else on the output. -/
def tell (format : Format) (outputs : List Output) : IO Unit := do
  for output in outputs do
    let text := output.render format (← now)
    if output.isComplaint then IO.eprintln text else IO.println text

/-- The next line of input. Input that cannot be read ends there. -/
def nextInput (stdin : IO.FS.Stream) : IO Input := do
  try
    let line ← stdin.getLine
    return if line.isEmpty then .endOfInput else .line line.toUTF8.toList
  catch _ =>
    return .endOfInput

/-- Hands the program its input until it ends. -/
partial def serve (format : Format) (stdin : IO.FS.Stream) (p : Program) : IO UInt32 := do
  match p.exit with
  | some code => return UInt32.ofNat code
  | none =>
    let (outputs, p) := p.feed (← nextInput stdin)
    tell format outputs
    serve format stdin p

/-- A debuggee that cannot be reached. -/
def unreachable : Debuggee := ⟨"", 0, false, .refused, [], false⟩

end DebugBridge.Console

open DebugBridge Console in
/-- Does what the command line asks for. A command line that is no good gives the exit code 2. -/
def main (arguments : List String) : IO UInt32 := do
  let endpoint ← IO.getEnv Settings.endpointVariable
  let timeout ← IO.getEnv Settings.timeoutVariable
  let environment (name : String) : Option String :=
    if name = Settings.endpointVariable then endpoint
    else if name = Settings.timeoutVariable then timeout
    else none
  match Invocation.ofArguments arguments environment with
  | .showHelp => IO.println usageText; return 0
  | .showVersion => IO.println versionText; return 0
  | .rejected => IO.eprintln usageText; return 2
  | .run config format =>
    let (outputs, p) := Program.start (.new config unreachable (.onDisk .empty))
    tell format outputs
    serve format (← IO.getStdin) p
