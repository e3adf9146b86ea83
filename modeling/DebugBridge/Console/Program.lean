/-
The console as a whole: it starts a session, carries out one command a line, and ends when it is
told to, when the input ends or cannot be read, or when the session is over. On the way out it
disconnects. A session that cannot be started is the only one that ends badly.
-/
import DebugBridge.Console.Arguments

namespace DebugBridge.Console

/-- The console in one moment of its run. -/
structure Program where
  session : Session
  /-- The exit code, once the program has ended. -/
  exit : Option Nat
  deriving DecidableEq, Repr

/-- What the program waits for. -/
inductive Input where
  /-- A line of input, which need not be text. -/
  | line (bytes : List UInt8)
  | endOfInput
  /-- The debuggee does something. -/
  | happening (happening : Happening)
  deriving DecidableEq, Repr

namespace Program

/-- Starts the session. -/
def start (session : Session) : List Output × Program :=
  let (result, after) := session.startConfigured
  let events := eventsOf (after.effectsSince session.log)
  match result with
  | .ok () => (events, ⟨after, none⟩)
  | .error failure => (events ++ [.failed failure], ⟨after, some 1⟩)

/-- Disconnects and ends. -/
def leave (p : Program) : List Output × Program :=
  let after := p.session.disconnect
  (eventsOf (after.effectsSince p.session.log), ⟨after, some 0⟩)

/-- Carries out what a line says. -/
def obey (p : Program) (line : String) : List Output × Program :=
  match Order.parse line with
  | .error error => ([.notUnderstood error], p)
  | .ok none => ([], p)
  | .ok (some .quit) => p.leave
  | .ok (some order) =>
    let (outputs, session) := execute p.session order
    (outputs, { p with session })

/-- Lets the debuggee act, and leaves if that was the end of the session. -/
def undergo (p : Program) (happening : Happening) : List Output × Program :=
  let (_, after) := p.session.step (.happening happening)
  let outputs := eventsOf (after.effectsSince p.session.log)
  let p := { p with session := after }
  if after.bridge.ended then
    let (last, p) := p.leave
    (outputs ++ last, p)
  else (outputs, p)

/-- Takes what comes next. A program that has ended takes nothing more. -/
def feed (p : Program) (input : Input) : List Output × Program :=
  match p.exit, input with
  | some _, _ => ([], p)
  | none, .line bytes =>
    match String.fromUTF8? ⟨bytes.toArray⟩ with
    | some line => p.obey line
    | none => p.leave
  | none, .endOfInput => p.leave
  | none, .happening happening => p.undergo happening

/-- What is printed, and what the debuggee is asked, from one input to the next. -/
structure Entry where
  outputs : List Output
  requests : List Request
  deriving DecidableEq, Repr

/-- The requests that reached the debuggee between two states. -/
def requestsSince (before after : Session) : List Request :=
  (after.effectsSince before.log).filterMap Effect.request?

/-- Feeds inputs, and the end of input after them, until the program ends. -/
def entries (p : Program) : List Input → List Entry × Program
  | [] =>
    let (outputs, after) := p.feed .endOfInput
    if p.exit.isSome then ([], p)
    else ([⟨outputs, requestsSince p.session after.session⟩], after)
  | input :: inputs =>
    if p.exit.isSome then ([], p)
    else
      let (outputs, after) := p.feed input
      let (rest, final) := after.entries inputs
      (⟨outputs, requestsSince p.session after.session⟩ :: rest, final)

/-- A whole run: an entry for the start, one for each input that is taken, and the exit code. -/
def run (session : Session) (inputs : List Input) : List Entry × Nat :=
  let (outputs, p) := start session
  let (rest, final) := p.entries inputs
  (⟨outputs, requestsSince session p.session⟩ :: rest, final.exit.getD 0)

end Program

end DebugBridge.Console
