/-
What a debuggee says about itself: its run-state and its stack.

Two forms of a status are read. A plain status has an empty stack when none is given. A reported
status, the form a debuggee sends, must give one whenever it is stopped (`Status.decodeReport`).
Lines of stack entries count from one.
-/
import DebugBridge.Json.Wire

namespace DebugBridge

open Json (DecodeError Decoder Document Value Wire)

/-- The phase of execution. -/
inductive RunState where
  | running
  | pausing
  | paused
  | stepping
  deriving DecidableEq, Repr, Inhabited

namespace RunState

def name : RunState → String
  | running => "running"
  | pausing => "pausing"
  | paused => "paused"
  | stepping => "stepping"

def all : List RunState := [running, pausing, paused, stepping]

theorem mem_all (s : RunState) : s ∈ all := by
  cases s <;> simp [all]

/-- Whether execution is halted, so that the stack means something. -/
def isStopped : RunState → Bool
  | running | pausing => false
  | paused | stepping => true

/-- Reads a run-state by its name. -/
def decode : Decoder RunState :=
  Document.asVariant (all.map fun s => (s.name, s)) Document.asUnit

instance : Wire RunState where
  decode := decode
  encode s := .string s.name

end RunState

/-- One call on the debuggee's stack. -/
structure StackEntry where
  file : String
  line : UInt32
  function : String
  deriving DecidableEq, Repr

instance : Wire StackEntry where
  decode := Document.asRecord { name := "StackEntry", arity := 3 } fun fields =>
    StackEntry.mk <$> fields.field 0 "file" Document.asString
      <*> fields.field 1 "line" Document.asUInt32
      <*> fields.field 2 "function" Document.asString
  encode e := .object
    [("file", .string e.file), ("line", .natural e.line.toNat), ("function", .string e.function)]

/-- A run-state with the stack at that moment, innermost call first. -/
structure Status where
  runState : RunState
  stack : List StackEntry
  deriving DecidableEq, Repr

namespace Status

/-- What is held before the debuggee has said anything. -/
def initial : Status := ⟨.running, []⟩

instance : Wire Status where
  decode := Document.asRecord { name := "Status", arity := 2 } fun fields =>
    Status.mk <$> fields.field 0 "runstate" RunState.decode
      <*> fields.fieldDefault [] 1 "stack" (Document.asList Wire.decode)
  encode s := .object
    [("runstate", .string s.runState.name), ("stack", .list Wire.encode s.stack)]

/-- Reads a status as a debuggee reports it: a stopped one without a stack is refused. -/
def decodeReport : Decoder Status := fun d => do
  let (runState, stack) ← d.asRecord { name := "WireStatus", arity := 2 } fun fields =>
    Prod.mk <$> fields.field 0 "runstate" RunState.decode
      <*> fields.fieldOption 1 "stack" (Document.asList (Wire.decode (α := StackEntry)))
  match stack with
  | some stack => return ⟨runState, stack⟩
  | none =>
    if runState.isStopped then
      throw (.missingFieldFor "stack" s!"runstate `{runState.name}`")
    else return ⟨runState, []⟩

/-- The status that a value reports. -/
def ofValue (value : Value) : Except DecodeError Status :=
  Wire.ofValue decodeReport value

end Status

end DebugBridge
