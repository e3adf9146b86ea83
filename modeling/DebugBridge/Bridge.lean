/-
The state of a bridge.

Every status replaces the one held before, and the event it causes depends on nothing but its
run-state (`Event.ofRunState`), except that the first stop after an entry pause has been asked for
is reported as that.
-/
import DebugBridge.Config
import DebugBridge.Event
import DebugBridge.Source
import DebugBridge.Stack
import DebugBridge.Variable

namespace DebugBridge

/-- All that a bridge remembers. -/
structure Bridge where
  config : Config
  /-- The last status that was applied. -/
  status : Status
  registry : Registry
  sources : SourceCache
  handles : HandleTable
  /-- Whether a start was ever attempted. -/
  started : Bool
  noDebug : Bool
  /-- Whether the next stop is the one on entry. -/
  entryPending : Bool
  /-- Whether the end has been announced. -/
  ended : Bool
  /-- Whether there is a session that has not been given up. -/
  hasSession : Bool
  deriving DecidableEq, Repr

namespace Bridge

/-- A bridge that has not been started. -/
def new (config : Config) : Bridge where
  config := config
  status := .initial
  registry := .empty
  sources := .empty
  handles := .empty
  started := false
  noDebug := config.noDebug
  entryPending := false
  ended := false
  hasSession := false

/-- Whether calls reach the debuggee. -/
def isConnected (b : Bridge) : Bool := b.hasSession && !b.ended

def runState (b : Bridge) : RunState := b.status.runState

/-- The frames of the status held. -/
def frames (b : Bridge) : List StackFrame := b.status.frames

/-- Holds a status from now on, and tells the event it causes. -/
def apply (b : Bridge) (status : Status) : Event × Bridge :=
  match Event.ofRunState status.runState with
  | .stopped reason thread =>
    (.stopped (if b.entryPending then .entry else reason) thread,
      { b with status, entryPending := false })
  | event => (event, { b with status })

/-- What is held is the status that came last. -/
@[simp] theorem status_apply (b : Bridge) (status : Status) :
    (b.apply status).2.status = status := by
  unfold apply
  split <;> rfl

end Bridge

/-- A thread of the debuggee. -/
structure Thread where
  id : Int64
  name : String
  deriving DecidableEq, Repr

instance : Json.Wire Thread where
  decode := Json.Document.asRecord { name := "Thread", arity := 2 } fun fields =>
    Thread.mk <$> fields.field 0 "id" Json.Document.asInt64
      <*> fields.field 1 "name" Json.Document.asString
  encode t := .object [("id", .integer t.id.toInt), ("name", .string t.name)]

/-- The threads of a debuggee: there is one. -/
def threads : List Thread := [⟨theThread, "thread 1"⟩]

end DebugBridge
