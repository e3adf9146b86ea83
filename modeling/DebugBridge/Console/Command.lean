/-
The commands a user types, one a line.

A line is cut into words. The first one says what to do; the others, with single spaces between
them, are its argument. Lines of a source are typed as they count from one.
-/
import DebugBridge.Command
import DebugBridge.Text.Blank
import DebugBridge.Text.Numeral

namespace DebugBridge.Console

/-- A command to the console. Lines of a source count from zero here. -/
inductive Order where
  | control (control : Control)
  | setBreakpoint (path : String) (line : UInt32)
  | clearBreakpoint (path : String) (line : UInt32)
  | clearBreakpoints (path : String)
  | breakColumns (path : String) (line : UInt32)
  | backtrace
  | scopes (frame : UInt32)
  | expand (reference : Int64)
  | help
  | quit
  deriving DecidableEq, Repr

/-- Why a line is no command. -/
inductive OrderError where
  | unknownCommand (verb : String)
  | noLocation (argument : String)
  | noFile (argument : String)
  | invalidLine (line : String)
  | lineZero
  | nothingToClear
  | invalidFrame (argument : String)
  | invalidReference (argument : String)
  deriving DecidableEq, Repr

/-- The error in words. -/
def OrderError.message : OrderError → String
  | unknownCommand verb => s!"unknown command '{verb}' (try 'help')"
  | noLocation argument => s!"expected FILE:LINE, got '{argument}'"
  | noFile argument => s!"missing file in '{argument}'"
  | invalidLine line => s!"invalid line number '{line}'"
  | lineZero => "line numbers start at 1"
  | nothingToClear => "usage: bc FILE"
  | invalidFrame argument => s!"invalid frame index '{argument}'"
  | invalidReference argument => s!"invalid variable reference '{argument}'"

/-- Reads `FILE:LINE`. The file is all that stands before the last colon. -/
def parseLocation (argument : List Char) : Except OrderError (String × UInt32) :=
  match Text.splitAtLast ':' argument with
  | none => .error (.noLocation (String.ofList argument))
  | some ([], _) => .error (.noFile (String.ofList argument))
  | some (path, line) =>
    match Text.readNat (UInt32.size - 1) line with
    | .error _ => .error (.invalidLine (String.ofList line))
    | .ok 0 => .error .lineZero
    | .ok (n + 1) => .ok (String.ofList path, UInt32.ofNat n)

/-- The command that a verb and its argument make. -/
def Order.ofVerb (verb : String) (argument : List Char) : Except OrderError Order :=
  match verb with
  | "c" | "continue" => .ok (.control .resume)
  | "n" | "next" => .ok (.control .stepOver)
  | "s" | "step" => .ok (.control .stepIn)
  | "o" | "out" => .ok (.control .stepOut)
  | "p" | "pause" => .ok (.control .pause)
  | "bt" => .ok .backtrace
  | "h" | "help" => .ok .help
  | "q" | "quit" => .ok .quit
  | "b" => (parseLocation argument).map fun (path, line) => .setBreakpoint path line
  | "d" => (parseLocation argument).map fun (path, line) => .clearBreakpoint path line
  | "cols" => (parseLocation argument).map fun (path, line) => .breakColumns path line
  | "bc" =>
    match argument with
    | [] => .error .nothingToClear
    | path => .ok (.clearBreakpoints (String.ofList path))
  | "scopes" =>
    match Text.readNat (UInt32.size - 1) argument with
    | .ok frame => .ok (.scopes (UInt32.ofNat frame))
    | .error _ => .error (.invalidFrame (String.ofList argument))
  | "v" =>
    match Text.readInt (UInt64.size / 2) (UInt64.size / 2 - 1) argument with
    | .ok reference => .ok (.expand (Int64.ofInt reference))
    | .error _ => .error (.invalidReference (String.ofList argument))
  | verb => .error (.unknownCommand verb)

/-- Reads a line; a line without words is no command, and no error either. -/
def Order.parse (line : String) : Except OrderError (Option Order) :=
  match Text.words line.toList with
  | [] => .ok none
  | verb :: rest => (ofVerb (String.ofList verb) ([' '].intercalate rest)).map some

end DebugBridge.Console
