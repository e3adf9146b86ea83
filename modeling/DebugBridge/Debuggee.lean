/-
A debuggee that follows a script.

It stands in for a live one: it listens at one address, over the plain or the secure protocols,
accepts or turns down the push connection, and answers every call as the script says. What it pushes
before a reply has been dealt with by the time the reply arrives.
-/
import DebugBridge.Command

namespace DebugBridge

/-- What becomes of an attempt to open the push connection. -/
inductive Handshake where
  | accepted
  /-- There is an answer, but not the one that opens a connection. -/
  | rejected
  /-- Nobody listens, or nobody can be reached. -/
  | refused
  deriving DecidableEq, Repr

/-- One entry of a script: frames to push, and then how the call ends. -/
structure Reply where
  pushes : List String
  outcome : Outcome
  deriving DecidableEq, Repr

/-- A scripted debuggee, and how far its script has got. -/
structure Debuggee where
  /-- Where it listens. -/
  host : String
  port : UInt16
  /-- Whether it speaks the secure protocols, and only these. -/
  secure : Bool
  handshake : Handshake
  /-- For each request by name the replies still to come. The last one is given again and again. -/
  script : List (String × List Reply)
  /-- Whether a push connection is open. -/
  connected : Bool
  deriving DecidableEq, Repr

namespace Debuggee

/-- Whether an endpoint leads to this debuggee: it names the place where it listens, and asks for
the protocols it speaks. -/
def listensAt (d : Debuggee) (e : Endpoint) : Bool :=
  d.host = e.host && d.port = e.port && d.secure = e.secure

/-- Tries to open the push connection. -/
def accept (d : Debuggee) (e : Endpoint) : Except Failure Debuggee :=
  let failed (reason : String) : Except Failure Debuggee :=
    .error (.connection s!"Failed to connect to {e.pushUrl}: {reason}")
  if d.listensAt e then
    match d.handshake with
    | .accepted => .ok { d with connected := true }
    | .rejected => failed s!"HTTP error: {HttpStatus.text 404}"
    | .refused => failed "Connection refused"
  else failed "Connection refused"

/-- The reply to a request that the script does not mention: commands succeed, queries do not. -/
def unscripted : Request → Reply
  | .put _ => ⟨[], .replied 200 "\x7b\"code\":0\x7d"⟩
  | .get _ => ⟨[], .replied 404 ""⟩

/-- Answers a request. -/
def answer (d : Debuggee) (request : Request) : Reply × Debuggee :=
  match d.script.lookup request.name with
  | none | some [] => (unscripted request, d)
  | some [last] => (last, d)
  | some (first :: rest) =>
    let next (entry : String × List Reply) : String × List Reply :=
      if entry.1 = request.name then (entry.1, rest) else entry
    (first, { d with script := d.script.map next })

end Debuggee

end DebugBridge
