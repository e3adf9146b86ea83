/-
The push channel: what can happen on it, and what its frames say.

A frame is an envelope: a `type`, and a `message` whose form the type decides. The only type there
is is `status`.
-/
import DebugBridge.Failure
import DebugBridge.Status

namespace DebugBridge

open Json (DecodeError Decoder Document Value Wire)

/-- What a debuggee does on its push connection without being asked. -/
inductive Happening where
  | push (frame : String)
  | pushBinary (bytes : List UInt8)
  | ping
  /-- It closes the connection. -/
  | close
  /-- The connection is lost. -/
  | drop
  deriving DecidableEq, Repr

/-- The text that a happening brings, if any. A binary frame counts as the text it encodes. -/
def Happening.text? : Happening → Option String
  | .push frame => some frame
  | .pushBinary bytes => String.fromUTF8? ⟨bytes.toArray⟩
  | .ping | .close | .drop => none

/-- The envelope of a frame; a message that is `null` counts as absent. -/
structure Envelope where
  type : String
  message : Option Value

namespace Envelope

/-- Reads an envelope. One with too many items is no more than a text that does not end where it
should. -/
def decode : Decoder Envelope :=
  Document.asRecord { name := "EventEnvelope", arity := 2, surplus := fun _ => .malformed }
    fun fields =>
      Envelope.mk <$> fields.field 0 "type" Document.asString
        <*> fields.fieldOption 1 "message" Document.asValue

end Envelope

/-- The status that a frame carries. The frame has to have a message, whatever its type is. -/
def Status.ofFrame (text : String) : Except Failure Status :=
  match Wire.decodeText Envelope.decode text with
  | .error cause => .error (.decode cause)
  | .ok ⟨_, none⟩ => .error (.decode (.missingField "message"))
  | .ok ⟨type, some message⟩ =>
    if type = "status" then (Status.ofValue message).mapError .decode
    else .error (.unknownMessageType type)

end DebugBridge
