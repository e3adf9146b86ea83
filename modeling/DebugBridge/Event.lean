/-
What a client is told without having asked.
-/
import DebugBridge.Breakpoint
import DebugBridge.Status

namespace DebugBridge

open Json (DecodeError Decoder Document Value Wire)

/-- Why execution stopped. -/
inductive StopReason where
  | entry
  | step
  | breakpoint
  deriving DecidableEq, Repr

namespace StopReason

def name : StopReason → String
  | entry => "entry"
  | step => "step"
  | breakpoint => "breakpoint"

def all : List StopReason := [entry, step, breakpoint]

theorem mem_all (r : StopReason) : r ∈ all := by
  cases r <;> simp [all]

/-- Reads a reason; `isUnit` reads what may stand under a reason that is written as a key. -/
def decode (isUnit : Decoder Unit) : Decoder StopReason :=
  Document.asVariant (all.map fun r => (r.name, r)) isUnit

instance : Wire StopReason where
  decode := decode Document.asUnit
  encode r := .string r.name

end StopReason

/-- The one thread there is. -/
def theThread : Int64 := 1

/-- An event of a session. -/
inductive Event where
  /-- The push channel is open. -/
  | started (endpoint : String)
  /-- The session is over. -/
  | ended
  | stopped (reason : StopReason) (thread : Int64)
  | continued (thread : Int64)
  | breakpointVerified (breakpoint : Breakpoint)
  deriving DecidableEq, Repr

namespace Event

/-- The name by which an event is told apart. -/
def name : Event → String
  | started _ => "started"
  | ended => "ended"
  | stopped _ _ => "stopped"
  | continued _ => "continued"
  | breakpointVerified _ => "breakpoint_verified"

def isStopped : Event → Bool
  | stopped _ _ => true
  | _ => false

/-- The event of a run-state, whatever was held before. -/
def ofRunState : RunState → Event
  | .paused => stopped .breakpoint theThread
  | .stepping => stopped .step theThread
  | .running | .pausing => continued theThread

/-- Accepts `null` and the empty object. -/
def asNothing : Decoder Unit
  | .object [] true => .ok ()
  | d => d.asUnit

/-- Reads the fields of the event called `name` from a record without that name. -/
def ofName (name : String) (record : Document) : Except DecodeError Event :=
  let layout (arity : Nat) : Json.Layout := { name, arity }
  match name with
  | "started" => record.asRecord (layout 1) fun fields =>
      started <$> fields.field 0 "endpoint" Document.asString
  | "ended" =>
    match record with
    | .array (_ :: _) _ => .error (.invalidLength 1 "0 elements in sequence")
    | _ => .ok ended
  | "stopped" => record.asRecord (layout 2) fun fields =>
      stopped <$> fields.field 0 "reason" (StopReason.decode asNothing)
        <*> fields.field 1 "thread_id" Document.asInt64
  | "continued" => record.asRecord (layout 1) fun fields =>
      continued <$> fields.field 0 "thread_id" Document.asInt64
  | "breakpoint_verified" => record.asRecord (layout 1) fun fields =>
      breakpointVerified <$> fields.field 0 "breakpoint" Wire.decode
  | name =>
    .error (.unknownVariant name
      ["started", "ended", "stopped", "continued", "breakpoint_verified"])

/-- Reads an event: a record with its name under `event`, in front of the others if it is an array.
All of the record has to be a value, also what no field asks for. -/
def decode : Decoder Event := fun d => do
  let _ ← d.asValue
  match d with
  | .object members closed =>
    let name ← (Json.Fields.field 0 "event" Document.asString (.named members closed)).settle
    ofName name (.object (members.filter fun member => member.1 ≠ some "event") closed)
  | .array (tag :: items) closed => do
    let name ← tag.asString
    ofName name (.array items closed)
  | .array [] _ => throw (.missingField "event")
  | d => throw (d.unwanted "internally tagged enum DebugEvent")

instance : Wire Event where
  decode := decode
  encode e :=
    let fields : List (String × Value) :=
      match e with
      | started endpoint => [("endpoint", .string endpoint)]
      | ended => []
      | stopped reason thread =>
        [("reason", .string reason.name), ("thread_id", .integer thread.toInt)]
      | continued thread => [("thread_id", .integer thread.toInt)]
      | breakpointVerified b => [("breakpoint", Wire.encode b)]
    .object (("event", .string e.name) :: fields)

end Event

end DebugBridge
