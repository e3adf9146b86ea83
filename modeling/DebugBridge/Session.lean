/-
A session: a bridge, the debuggee it talks to, the sources it reads, and a log of all that has
happened.

Every operation of the bridge is a function on sessions. Calls to the debuggee are made one at a
time, and what happens on the push connection during a call is dealt with before its reply is looked
at. Commands that only show in a later status are sent and forgotten: whatever is replied, nothing
changes.

An operation that waits for the debuggee gives it time to act. What it does then comes from the
`asides` of the session, one list for each wait.
-/
import DebugBridge.Bridge
import DebugBridge.Debuggee
import DebugBridge.Push

namespace DebugBridge

open Json (Value)

/-- An entry of the log. -/
inductive Effect where
  /-- An event was handed to the client. -/
  | emitted (event : Event)
  /-- The debuggee received a request. -/
  | requested (request : Request)
  /-- The call that made a request was over. -/
  | answered (request : Request) (outcome : Outcome)
  /-- A frame with this text came in. -/
  | heard (frame : String)
  /-- From here on the next stop is the one on entry. -/
  | armed
  /-- A source file was asked for. -/
  | read (path : String)
  deriving DecidableEq, Repr

namespace Effect

def event? : Effect → Option Event
  | emitted event => some event
  | _ => none

def request? : Effect → Option Request
  | requested request => some request
  | _ => none

def path? : Effect → Option String
  | read path => some path
  | _ => none

end Effect

/-- A bridge with everything it deals with. -/
structure Session where
  bridge : Bridge
  debuggee : Debuggee
  files : Files
  /-- What the debuggee does on the push connection during the waits of the operation under way. -/
  asides : List (List Happening)
  /-- All effects so far, in order. -/
  log : List Effect
  deriving DecidableEq, Repr

namespace Session

/-- A session in which nothing has happened, so that no connection is open. -/
def new (config : Config) (debuggee : Debuggee) (files : Files) : Session :=
  ⟨.new config, { debuggee with connected := false }, files, [], []⟩

/-- Enters an effect in the log. -/
def note (s : Session) (effect : Effect) : Session :=
  { s with log := s.log ++ [effect] }

/-! ### The push channel

Whatever comes in here is dealt with when it comes, also in the middle of an operation. While no
connection is open, nothing comes in.
-/

/-- Announces the end, unless that has been done. -/
def finish (s : Session) : Session :=
  if s.bridge.ended then s
  else { s with bridge := { s.bridge with ended := true } }.note (.emitted .ended)

/-- Holds a new status and announces what it means. -/
def applyStatus (s : Session) (status : Status) : Session :=
  let (event, bridge) := s.bridge.apply status
  { s with bridge }.note (.emitted event)

/-- Takes a frame of the push channel; one that carries no status is dropped. -/
def receive (s : Session) (frame : String) : Session :=
  let s := s.note (.heard frame)
  match Status.ofFrame frame with
  | .ok status => s.applyStatus status
  | .error _ => s

/-- The push connection is gone, and with it the session is over. -/
def lose (s : Session) : Session :=
  { s with debuggee := { s.debuggee with connected := false } }.finish

/-- What a happening does to a session with an open push connection. -/
def undergo (s : Session) (happening : Happening) : Session :=
  match happening with
  | .close | .drop => s.lose
  | happening => happening.text?.elim s s.receive

/-- Lets the debuggee act on the push connection, if that is open. -/
def deliver (s : Session) (happening : Happening) : Session :=
  if s.debuggee.connected then s.undergo happening else s

/-- Lets the debuggee act as it means to during a wait. -/
def wait (s : Session) : Session :=
  match s.asides with
  | [] => s
  | now :: later => now.foldl deliver { s with asides := later }

/-! ### The command channel

A call is a request and a reply, and in between the debuggee may push. A request is in the log in
any case, and its outcome behind everything that was pushed before it.
-/

/-- Makes a call, and takes what is pushed before the reply. -/
def call (s : Session) (request : Request) : Outcome × Session :=
  let (reply, debuggee) := s.debuggee.answer request
  let s := ({ s with debuggee }.note (.requested request)).wait
  let s := (reply.pushes.map Happening.push).foldl deliver s
  (reply.outcome, s.note (.answered request reply.outcome))

/-- Sends a command if there is a connection, and does not care for the reply. -/
def dispatch (s : Session) (control : Control) : Session :=
  if s.bridge.isConnected then (s.call (.put (.control control))).2 else s

/-- Asks for the status and applies it, if the reply has one. -/
def askStatus (s : Session) : Session :=
  let (outcome, s) := s.call (.put .sendStatus)
  outcome.status?.elim s s.applyStatus

/-- Asks for a pause on entry. A debuggee that is stopped already would not say so again, so its
stop stands as it was announced. -/
def pauseOnEntry (s : Session) : Session :=
  if s.bridge.runState.isStopped then s
  else { s with bridge := { s.bridge with entryPending := true } }.note .armed |>.dispatch .pause

/-! ### Beginning and end

A session is started once, and ended once. It ends when it cannot be started, when the connection is
lost, or when the client disconnects, whichever comes first. Nothing keeps a client from starting a
session that has ended without being started.
-/

/-- Opens the push connection to the endpoint that `address` names. -/
def connect (s : Session) (address : String) : Except Failure (Endpoint × Session) :=
  match Endpoint.parse address with
  | .error cause => .error (.invalidEndpoint cause)
  | .ok endpoint =>
    (s.debuggee.accept endpoint).map fun debuggee =>
      (endpoint, { s with debuggee, bridge := { s.bridge with hasSession := true } })

/-- Tells the client that the connection is open, and gets to know the status. -/
def greet (s : Session) (endpoint : Endpoint) : Session :=
  (s.note (.emitted (.started endpoint.address))).wait.askStatus.wait

/-- Starts a session. That can be tried once; when it fails, the session has ended. -/
def start (s : Session) (address : String) (stopOnEntry noDebug : Bool) :
    Except Failure Unit × Session :=
  if s.bridge.started then (.error .alreadyStarted, s)
  else
    let s := { s with bridge := { s.bridge with started := true, noDebug } }
    match s.connect address with
    | .error failure => (.error failure, s.finish)
    | .ok (endpoint, s) =>
      let s := s.greet endpoint
      (.ok (), if stopOnEntry && !noDebug then s.pauseOnEntry else s)

/-- Starts a session as the configuration says. -/
def startConfigured (s : Session) : Except Failure Unit × Session :=
  let c := s.bridge.config
  s.start c.endpoint c.stopOnEntry c.noDebug

/-- Drops the connection. -/
def hangUp (s : Session) : Session :=
  { s with
    bridge := { s.bridge with hasSession := false }
    debuggee := { s.debuggee with connected := false } }

/-- Says goodbye, if there is a connection, gives the debuggee some time to answer, and ends the
session. -/
def disconnect (s : Session) : Session :=
  (if s.bridge.hasSession then s.wait.hangUp else s).finish

/-! ### Breakpoints

All of this happens in the bridge and the files, without the debuggee. A source is loaded where its
lines matter, and a breakpoint is verified only by an operation on its own path.
-/

/-- Loads a source through the cache. -/
def load (s : Session) (path : String) : Except Failure SourceText × Session :=
  let loaded := s.bridge.sources.load s.files path
  let s := { s with bridge := { s.bridge with sources := loaded.cache } }
  (loaded.result, if loaded.asked then s.note (.read path) else s)

/-- Verifies the breakpoints on a path against its source, if that can be had. -/
def verify (s : Session) (path : String) : Session :=
  if s.bridge.noDebug then s
  else
    match s.load path with
    | (.error _, s) => s
    | (.ok source, s) =>
      let (changed, registry) := s.bridge.registry.verify path source.lineCount
      let s := { s with bridge := { s.bridge with registry } }
      changed.foldl (fun s b => s.note (.emitted (.breakpointVerified b))) s

/-- Adds a breakpoint and returns it as it is after verification. -/
def setBreakpoint (s : Session) (path : String) (line : UInt32) : Breakpoint × Session :=
  let (b, registry) := s.bridge.registry.add path line
  let s := { s with bridge := { s.bridge with registry } }.verify path
  ((s.bridge.registry.get? path b.id).getD b, s)

/-- Adds one breakpoint after the other. -/
def addBreakpoints (s : Session) (path : String) : List UInt32 → List Breakpoint × Session
  | [] => ([], s)
  | line :: lines =>
    let (b, s) := s.setBreakpoint path line
    let (bs, s) := s.addBreakpoints path lines
    (b :: bs, s)

/-- Removes every breakpoint on a path. -/
def clearBreakpoints (s : Session) (path : String) : Session :=
  { s with bridge := { s.bridge with registry := s.bridge.registry.clear path } }

/-- Replaces the breakpoints on a path by one for each line. -/
def setBreakpoints (s : Session) (path : String) (lines : List UInt32) :
    List Breakpoint × Session :=
  (s.clearBreakpoints path).addBreakpoints path lines

/-- Removes the oldest breakpoint at a place. -/
def clearBreakpoint (s : Session) (path : String) (line : UInt32) :
    Option Breakpoint × Session :=
  let (removed, registry) := s.bridge.registry.remove path line
  (removed, { s with bridge := { s.bridge with registry } })

/-- The columns of a line on which a breakpoint makes sense; a line that does not exist has none. -/
def breakColumns (s : Session) (path : String) (line : UInt32) :
    Except Failure (List Nat) × Session :=
  let (source, s) := s.load path
  (source.map fun t => ((t.line? line.toNat).map DebugBridge.breakColumns).getD [], s)

/-! ### Variables

Numbers are given out for scopes without a call, and for members with what the debuggee lists. The
table is never made smaller, so a number that was given out leads to the same value for as long as
there are numbers.
-/

/-- The scopes of a frame, with new references. -/
def scopes (s : Session) (frame : UInt32) : List Scope × Session :=
  let (scopes, handles) := s.bridge.handles.scopes frame
  (scopes, { s with bridge := { s.bridge with handles } })

/-- Asks the debuggee for the members of what a handle names. -/
def expandHandle (s : Session) (handle : VariableHandle) :
    Except Failure (List Variable) × Session :=
  match handle.query with
  | .error failure => (.error failure, s)
  | .ok query =>
    if s.bridge.isConnected then
      let (outcome, s) := s.call (.get query)
      match outcome.listing query with
      | .error failure => (.error failure, s)
      | .ok listing =>
        let (members, handles) := s.bridge.handles.expand handle listing.entries
        (.ok members, { s with bridge := { s.bridge with handles } })
    else (.error .notConnected, s)

/-- Asks for the members of what a reference names. -/
def expandReference (s : Session) (reference : Int64) :
    Except Failure (List Variable) × Session :=
  match s.bridge.handles.get? reference with
  | none => (.error (.unknownVariableReference reference), s)
  | some handle => s.expandHandle handle

end Session

end DebugBridge
