/-
The command channel: what is asked of a debuggee, and what a reply says.
-/
import DebugBridge.Failure
import DebugBridge.Status
import DebugBridge.Text.Blank
import DebugBridge.Variable

namespace DebugBridge

open Json (DecodeError Document Value Wire)

/-- A command that moves or halts execution. What comes of it shows in a later status. -/
inductive Control where
  | resume
  | stepOver
  | stepIn
  | stepOut
  | pause
  deriving DecidableEq, Repr

/-- A command to the debuggee. -/
inductive Command where
  | control (control : Control)
  | sendStatus
  deriving DecidableEq, Repr

/-- The name a command is called by. -/
def Control.name : Control → String
  | .resume => "Continue"
  | .stepOver => "StepOver"
  | .stepIn => "StepIn"
  | .stepOut => "StepOut"
  | .pause => "Pause"

@[inherit_doc Control.name]
def Command.name : Command → String
  | .control c => c.name
  | .sendStatus => "SendStatus"

/-- A request: a command, or a query by its name. -/
inductive Request where
  | put (command : Command)
  | get (query : String)
  deriving DecidableEq, Repr

namespace Request

/-- The command or query asked for. -/
def name : Request → String
  | put command => command.name
  | get query => query

/-- The request as the debuggee sees it: method, target and, for a command, an empty body. -/
def text : Request → String
  | put command => s!"PUT {Endpoint.target command.name} \x7b\x7d"
  | get query => s!"GET {Endpoint.target query}"

end Request

/-- What a debuggee answers to a command. -/
structure CommandResponse where
  code : Option Int32
  data : Option Value

instance : Wire CommandResponse where
  decode := Document.asRecord { name := "CommandResponse", arity := 2 } fun fields =>
    CommandResponse.mk
      <$> fields.fieldDefault none 0 "code" (Document.asOption Document.asInt32)
      <*> fields.fieldDefault none 1 "data" (Document.asOption Document.asValue)
  encode r := .object <|
    (r.code.map fun code => ("code", Value.integer code.toInt)).toList
      ++ (r.data.map fun data => ("data", data)).toList

/-- How a call ends. -/
inductive Outcome where
  | replied (status : Nat) (body : String)
  | failed (reason : String)
  deriving DecidableEq, Repr

namespace Outcome

/-- The body of a successful reply to the call `name`. -/
def body (name : String) : Outcome → Except Failure String
  | replied status body =>
    if HttpStatus.isSuccess status then .ok body
    else .error (.remoteCall name (.status status))
  | failed reason => .error (.remoteCall name (.noReply reason))

/-- The data that comes with a successful reply to a command; `null` if there is none. -/
def data (command : Command) (outcome : Outcome) : Except Failure Value := do
  let body ← outcome.body command.name
  if body.toList.all Text.isBlank then return .null
  let response ← (Wire.decodeText (Wire.decode (α := CommandResponse)) body).mapError .decode
  return response.data.getD .null

/-- The status that a reply to `sendStatus` brings, if it brings one; `null` is none. -/
def status? (outcome : Outcome) : Option Status :=
  match outcome.data .sendStatus with
  | .error _ => none
  | .ok data => (Status.ofValue data).toOption

/-- The listing that comes with a successful reply to a query. -/
def listing (query : String) (outcome : Outcome) : Except Failure VariableList := do
  let body ← outcome.body query
  match Value.ofText? body with
  | none => throw (.decode .malformed)
  | some value => (Wire.ofValue Wire.decode value).mapError .decode

end Outcome

end DebugBridge
