/-
What a session is started with.
-/
import DebugBridge.Json.Wire

namespace DebugBridge

open Json (Document Value Wire)

/-- The options of a session. -/
structure Config where
  /-- Where the debuggee listens, as it was given. -/
  endpoint : String := "localhost:8000"
  /-- Pause the debuggee as soon as the session has started. -/
  stopOnEntry : Bool := false
  /-- Do without breakpoint verification and the pause on entry. -/
  noDebug : Bool := false
  /-- How long a call may take, in milliseconds; for ever if nothing is said. -/
  callTimeout : Option UInt64 := none
  deriving DecidableEq, Repr

namespace Config

/-- The defaults. -/
def initial : Config := {}

instance : Inhabited Config := ⟨initial⟩

instance : Wire Config where
  decode := Document.asRecord { name := "BridgeConfig", arity := 4 } fun fields =>
    Config.mk <$> fields.fieldDefault initial.endpoint 0 "endpoint" Document.asString
      <*> fields.fieldDefault initial.stopOnEntry 1 "stop_on_entry" Document.asBool
      <*> fields.fieldDefault initial.noDebug 2 "no_debug" Document.asBool
      <*> fields.fieldDefault initial.callTimeout 3 "call_timeout_ms"
        (Document.asOption Document.asUInt64)
  encode c := .object
    [("endpoint", .string c.endpoint), ("stop_on_entry", .bool c.stopOnEntry),
      ("no_debug", .bool c.noDebug),
      ("call_timeout_ms", .option (fun ms : UInt64 => .natural ms.toNat) c.callTimeout)]

end Config

end DebugBridge
