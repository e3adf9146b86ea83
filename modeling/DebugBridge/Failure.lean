/-
What can go wrong.

A `Failure` is a cause as the operations of the bridge give it. A `BridgeError` is the form in which
causes are reported: its kind and a text. Every failure has one report (`Failure.report`), and only
here do causes become words.
-/
import DebugBridge.Endpoint
import DebugBridge.HttpStatus
import DebugBridge.Json.Wire

namespace DebugBridge

open Json (DecodeError Decoder Document Value Wire)

/-- An error as it is reported, by its kind. -/
inductive BridgeError where
  | connection (detail : String)
  | decode (detail : String)
  | unknownMessageType (type : String)
  | remoteCall (detail : String)
  | invalidEndpoint (detail : String)
  | notConnected
  | alreadyStarted
  | unknownVariableScope (handle : String)
  | unknownVariableReference (reference : Int64)
  | io (detail : String)
  deriving DecidableEq, Repr

namespace BridgeError

/-- The name of the kind. -/
def kind : BridgeError → String
  | connection _ => "Connection"
  | decode _ => "Decode"
  | unknownMessageType _ => "UnknownMessageType"
  | remoteCall _ => "RemoteCall"
  | invalidEndpoint _ => "InvalidEndpoint"
  | notConnected => "NotConnected"
  | alreadyStarted => "AlreadyStarted"
  | unknownVariableScope _ => "UnknownVariableScope"
  | unknownVariableReference _ => "UnknownVariableReference"
  | io _ => "Io"

/-- All kinds. -/
def kinds : List String :=
  ["Connection", "Decode", "UnknownMessageType", "RemoteCall", "InvalidEndpoint", "NotConnected",
    "AlreadyStarted", "UnknownVariableScope", "UnknownVariableReference", "Io"]

/-- The first words of the message, which the kind decides. -/
def heading : BridgeError → String
  | connection _ => "Connection error:"
  | decode _ => "Decode error:"
  | unknownMessageType _ => "Unknown message type:"
  | remoteCall _ => "Remote call failed:"
  | invalidEndpoint _ => "Invalid endpoint:"
  | notConnected => "Not connected"
  | alreadyStarted => "Session already started"
  | unknownVariableScope _ => "Unknown variable scope:"
  | unknownVariableReference _ => "Unknown variable reference:"
  | io _ => "IO error:"

/-- What the kind leaves open, if anything. -/
def detail? : BridgeError → Option String
  | connection detail | decode detail | remoteCall detail | invalidEndpoint detail => some detail
  | io detail => some detail
  | unknownMessageType type => some type
  | notConnected | alreadyStarted => none
  | unknownVariableScope handle => some handle
  | unknownVariableReference reference => some (toString reference.toInt)

/-- The whole message. -/
def message (e : BridgeError) : String :=
  match e.detail? with
  | some detail => s!"{e.heading} {detail}"
  | none => e.heading

/-- Reads an error from its kind and from the content that comes with it: a text, an integer, or
nothing at all. -/
def ofKind (kind : String) (content : Option Document) : Except DecodeError BridgeError :=
  let holding {α : Type} (decode : Decoder α) (make : α → BridgeError) :=
    match content with
    | some content => (decode content).map make
    | none => .error (.missingField "message")
  match kind with
  | "Connection" => holding Document.asString connection
  | "Decode" => holding Document.asString decode
  | "UnknownMessageType" => holding Document.asString unknownMessageType
  | "RemoteCall" => holding Document.asString remoteCall
  | "InvalidEndpoint" => holding Document.asString invalidEndpoint
  | "NotConnected" => (Document.asUnit (content.getD .null)).map fun _ => notConnected
  | "AlreadyStarted" => (Document.asUnit (content.getD .null)).map fun _ => alreadyStarted
  | "UnknownVariableScope" => holding Document.asString unknownVariableScope
  | "UnknownVariableReference" => holding Document.asInt64 unknownVariableReference
  | "Io" => holding Document.asString io
  | kind => .error (.unknownVariant kind kinds)

/-- Reads the name of a kind. -/
def decodeKind : Decoder String :=
  Document.asVariant (kinds.map fun kind => (kind, kind)) Document.asUnit

/-- An error is a record of its kind and, under `message`, its content. In an array the kind is a
string. -/
instance : Wire BridgeError where
  decode d := do
    let decodeKind : Decoder String :=
      match d with
      | .array _ _ => Document.asString
      | _ => decodeKind
    let (kind, content) ← d.asRecord { name := "BridgeError", arity := 2 } fun fields =>
      Prod.mk <$> fields.field 0 "type" decodeKind
        <*> fields.fieldOr (some none) none 1 "message" fun content => .ok (some content)
    ofKind kind content
  encode e :=
    let content : Option Value :=
      match e with
      | unknownVariableReference reference => some (.integer reference.toInt)
      | e => e.detail?.map .string
    .object (("type", .string e.kind) :: (content.map fun v => ("message", v)).toList)

end BridgeError

/-- Why a call to the debuggee has no result. -/
inductive CallFault where
  /-- The reply has a status that is no success. -/
  | status (code : Nat)
  /-- There is no reply. -/
  | noReply (reason : String)
  deriving DecidableEq, Repr

/-- Why a source cannot be read. -/
inductive SourceFault where
  | notFound (path : String)
  /-- What the platform says. -/
  | platform (reason : String)
  deriving DecidableEq, Repr

def SourceFault.message : SourceFault → String
  | .notFound path => s!"{path}: not found"
  | .platform reason => reason

/-- A cause for which an operation fails. -/
inductive Failure where
  | connection (reason : String)
  | decode (cause : DecodeError)
  | unknownMessageType (type : String)
  /-- The call of this name has failed. -/
  | remoteCall (name : String) (fault : CallFault)
  | invalidEndpoint (cause : EndpointError)
  | notConnected
  | alreadyStarted
  /-- The handle, as it is written, lies in a scope that the debuggee does not serve. -/
  | unknownVariableScope (handle : String)
  | unknownVariableReference (reference : Int64)
  | io (fault : SourceFault)
  deriving DecidableEq, Repr

/-- The detail of a failed call. -/
def CallFault.message (name : String) : CallFault → String
  | .status code => s!"{name}: HTTP {HttpStatus.text code}"
  | .noReply reason => s!"{name}: {reason}"

/-- How a failure is reported. -/
def Failure.report : Failure → BridgeError
  | .connection reason => .connection reason
  | .decode cause => .decode (cause.message?.getD "not a JSON text")
  | .unknownMessageType type => .unknownMessageType type
  | .remoteCall name fault => .remoteCall (fault.message name)
  | .invalidEndpoint cause => .invalidEndpoint cause.message
  | .notConnected => .notConnected
  | .alreadyStarted => .alreadyStarted
  | .unknownVariableScope handle => .unknownVariableScope handle
  | .unknownVariableReference reference => .unknownVariableReference reference
  | .io fault => .io fault.message

/-- The failure in words. -/
def Failure.message (f : Failure) : String := f.report.message

/-- The message as far as neither the platform nor the network has a say in it: whole, or nothing
but its heading. -/
def Failure.settledMessage? (f : Failure) : Option String :=
  match f with
  | .connection _ => none
  | .decode cause => cause.message?.map fun _ => f.message
  | .remoteCall _ (.noReply _) => none
  | .io (.platform _) => none
  | f => some f.message

end DebugBridge
