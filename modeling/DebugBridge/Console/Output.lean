/-
What the console prints.

An `Output` is one thing to be told, whatever the format. As text it is made for people: lines and
columns count from one, and events carry the time. As JSON it is one line that holds the data as the
bridge has it, except that columns still count from one. Help and complaints have no JSON form.
-/
import DebugBridge.Console.Command
import DebugBridge.Session.Run

namespace DebugBridge.Console

open Json (Value Wire)

/-- How output is written. -/
inductive Format where
  | text
  | json
  deriving DecidableEq, Repr

/-- One thing that is told. -/
inductive Output where
  | event (event : Event)
  | breakpointSet (b : Breakpoint)
  | breakpointRemoved (b : Breakpoint)
  | breakpointsRemoved (path : String) (count : Nat)
  /-- Columns count from zero here. -/
  | columns (columns : List Nat)
  | frames (frames : List StackFrame)
  | scopes (scopes : List Scope)
  | listing (members : List Variable)
  | help
  | noBreakpoint (path : String) (line : UInt32)
  | failed (failure : Failure)
  | notUnderstood (error : OrderError)
  deriving DecidableEq, Repr

/-- A moment, in microseconds since some midnight. -/
abbrev Moment := Nat

/-- `n` with at least `width` digits. -/
def padded (width n : Nat) : String :=
  let digits := toString n
  String.ofList (List.replicate (width - digits.length) '0') ++ digits

/-- The time of day, to the millisecond. -/
def clockText (now : Moment) : String :=
  let millis := now / 1000
  let secs := millis / 1000
  let mins := secs / 60
  let hours := mins / 60
  s!"{padded 2 (hours % 24)}:{padded 2 (mins % 60)}:{padded 2 (secs % 60)}.{padded 3 (millis % 1000)}"

/-- A line number for people, who count from one. -/
def oneBased (line : UInt32) : Nat := (line + 1).toNat

/-- The words about an event. -/
def describe : Event → String
  | .started endpoint => s!"Session started: {endpoint}"
  | .ended => "Session ended"
  | .stopped reason _ => s!"Stopped ({reason.name})"
  | .continued _ => "Continued"
  | .breakpointVerified b =>
    s!"Breakpoint {b.id.toNat} verified at {b.path}:{oneBased b.line}"

/-- What `help` prints. -/
def helpText : String := "\n".intercalate
  ["Commands:",
   "  c, continue        resume execution",
   "  n, next            step over",
   "  s, step            step in",
   "  o, out             step out",
   "  p, pause           pause execution",
   "  b FILE:LINE        set a breakpoint",
   "  d FILE:LINE        remove a breakpoint",
   "  bc FILE            remove every breakpoint in FILE",
   "  cols FILE:LINE     list break columns of a line",
   "  bt                 print the stack",
   "  scopes FRAME       list scopes of a frame",
   "  v REF              expand a variable reference",
   "  h, help            show this help",
   "  q, quit            disconnect and exit"]

/-- The line about a frame. -/
def frameLine (f : StackFrame) : String :=
  s!"#{f.index.toNat} {f.function} at {f.file}:{oneBased f.line}"

/-- The line about a variable. -/
def variableLine (v : Variable) : String :=
  let line := s!"{v.name}: {v.type} = {v.value}"
  if v.reference = 0 then line else s!"{line} (ref {v.reference.toInt})"

namespace Output

/-- Whether this goes to the error stream. -/
def isComplaint : Output → Bool
  | noBreakpoint _ _ | failed _ | notUnderstood _ => true
  | _ => false

/-- The text for people; it may have several lines. -/
def text (now : Moment) : Output → String
  | .event e => s!"[{clockText now}] {describe e}"
  | .breakpointSet b =>
    let state := if b.verified then "verified" else "pending"
    s!"Breakpoint {b.id.toNat} at {b.path}:{oneBased b.line} ({state})"
  | .breakpointRemoved b => s!"Removed breakpoint {b.id.toNat}"
  | .breakpointsRemoved path count => s!"Removed {count} breakpoint(s) in {path}"
  | .columns cs =>
    let list := " ".intercalate (cs.map fun c => toString (c + 1))
    s!"Columns: {list}"
  | .frames [] => "No stack (not stopped)"
  | .frames fs => "\n".intercalate (fs.map frameLine)
  | .scopes ss => "\n".intercalate (ss.map fun s => s!"{s.name} (ref {s.reference.toInt})")
  | .listing [] => "(no variables)"
  | .listing vs => "\n".intercalate (vs.map variableLine)
  | .help => helpText
  | .noBreakpoint path line => s!"No breakpoint at {path}:{oneBased line}"
  | .failed failure => s!"Error: {failure.message}"
  | .notUnderstood error => error.message

/-- The data, for what has a JSON form. -/
def value? : Output → Option Value
  | .event e => some (Wire.encode e)
  | .breakpointSet b | .breakpointRemoved b => some (Wire.encode b)
  | .breakpointsRemoved _ count => some (.natural count)
  | .columns cs => some (.list (fun c : Nat => .natural (c + 1)) cs)
  | .frames fs => some (.list Wire.encode fs)
  | .scopes ss => some (.list Wire.encode ss)
  | .listing vs => some (.list Wire.encode vs)
  | .help | .noBreakpoint _ _ | .failed _ | .notUnderstood _ => none

/-- What is printed, without the line break at its end. -/
def render (format : Format) (now : Moment) (o : Output) : String :=
  match format, o.value? with
  | .json, some value => value.compact
  | _, _ => o.text now

end Output

/-! ### Carrying out commands

A command is an operation of the bridge and a report about its answer. What is announced during the
operation is printed before the report.
-/

/-- The events among effects, as output. -/
def eventsOf (effects : List Effect) : List Output :=
  (effects.filterMap Effect.event?).map .event

/-- The operation of the bridge that a command needs. -/
def Order.operation? : Order → Option Operation
  | .control c => some (.execute c)
  | .setBreakpoint path line => some (.setBreakpoint path line)
  | .clearBreakpoint path line => some (.clearBreakpoint path line)
  | .clearBreakpoints path => some (.clearBreakpoints path)
  | .breakColumns path line => some (.breakColumns path line)
  | .backtrace => some .stack
  | .scopes frame => some (.scopes frame)
  | .expand reference => some (.expandReference reference)
  | .help | .quit => none

/-- What is told about the answer to a command that was given in the state `before`. -/
def Order.report (before : Session) : Order → Answer → List Output
  | .setBreakpoint _ _, .breakpoint b => [.breakpointSet b]
  | .clearBreakpoint _ _, .breakpoint b => [.breakpointRemoved b]
  | .clearBreakpoint path line, .done => [.noBreakpoint path line]
  | .clearBreakpoints path, .done =>
    [.breakpointsRemoved path (before.bridge.registry.list path).length]
  | .breakColumns _ _, .columns cs => [.columns cs]
  | .breakColumns _ _, .failed failure => [.failed failure]
  | .backtrace, .frames fs => [.frames fs]
  | .scopes _, .scopes ss => [.scopes ss]
  | .expand _, .listing vs => [.listing vs]
  | .expand _, .failed failure => [.failed failure]
  | .help, _ => [.help]
  | _, _ => []

/-- Carries out a command. Events come before the result. -/
def execute (s : Session) (order : Order) : List Output × Session :=
  match order.operation? with
  | none => (order.report s .done, s)
  | some operation =>
    let (answer, after) := s.operate operation
    (eventsOf (after.effectsSince s.log) ++ order.report s answer, after)

end DebugBridge.Console
