/-
Where a debuggee listens.

An endpoint is written `HOST:PORT`. A scheme in front of it tells whether the connection is secure,
and a path behind it, pasted along with the rest, is dropped. The host is whatever stands before the
last colon; it is not looked into.
-/
import DebugBridge.Text.Blank
import DebugBridge.Text.Numeral

namespace DebugBridge

/-- The address of a debuggee. -/
structure Endpoint where
  host : String
  port : UInt16
  /-- Whether both channels are encrypted. -/
  secure : Bool
  deriving DecidableEq, Repr

/-- Why a text names no endpoint. Each cause keeps the text as it was given. -/
inductive EndpointError where
  | missingPort (input : String)
  | missingHost (input : String)
  | badPort (input : String) (fault : Text.NumeralFault)
  deriving DecidableEq, Repr

/-- The error in words. -/
def EndpointError.message : EndpointError → String
  | .missingPort input => s!"missing port in '{input}'"
  | .missingHost input => s!"missing host in '{input}'"
  | .badPort input fault => s!"bad port in '{input}': {fault.message}"

namespace Endpoint

/-- The schemes an endpoint may start with, and whether they are secure. -/
def schemes : List (String × Bool) :=
  [("wss://", true), ("https://", true), ("ws://", false), ("http://", false)]

/-- `text` without `start`, if it starts so. -/
def dropStart? : (start text : List Char) → Option (List Char)
  | [], text => some text
  | _ :: _, [] => none
  | s :: start, c :: text => if s = c then dropStart? start text else none

/-- Whether the connection is secure, and the text behind the scheme. -/
def splitScheme (text : List Char) : Bool × List Char :=
  let found := schemes.findSome? fun (scheme, secure) =>
    (dropStart? scheme.toList text).map fun rest => (secure, rest)
  found.getD (false, text)

/-- Host and port of a text: what stands before its first slash. -/
def authority (text : List Char) : List Char :=
  text.takeWhile (· ≠ '/')

/-- Reads an endpoint. -/
def parse (input : String) : Except EndpointError Endpoint :=
  let (secure, rest) := splitScheme (Text.trim input.toList)
  match Text.splitAtLast ':' (authority rest) with
  | none => .error (.missingPort input)
  | some ([], _) => .error (.missingHost input)
  | some (host, port) =>
    match Text.readNat 65535 port with
    | .error fault => .error (.badPort input fault)
    | .ok port => .ok ⟨String.ofList host, UInt16.ofNat port, secure⟩

/-- Host and port, without a scheme. -/
def address (e : Endpoint) : String := s!"{e.host}:{e.port}"

/-- The address of the push channel. -/
def pushUrl (e : Endpoint) : String :=
  let scheme := if e.secure then "wss" else "ws"
  s!"{scheme}://{e.address}/ws"

/-- What a request for `name` asks the debuggee's server for. -/
def target (name : String) : String := s!"/DebugCommand/{name}"

/-- The address of a command or query; `name` may carry an encoded query. -/
def commandUrl (e : Endpoint) (name : String) : String :=
  let scheme := if e.secure then "https" else "http"
  s!"{scheme}://{e.address}{target name}"

end Endpoint

end DebugBridge
