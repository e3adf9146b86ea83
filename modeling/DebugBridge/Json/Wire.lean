/-
Types with a form in JSON.
-/
import DebugBridge.Json.Reader
import DebugBridge.Json.Record
import DebugBridge.Json.Writer

namespace DebugBridge.Json

/-- A type that is read from documents and written as values. -/
class Wire (α : Type) where
  decode : Decoder α
  encode : α → Value

namespace Wire

/-- Reads a whole text: its document first, and then that nothing follows. -/
def decodeText {α : Type} (decode : Decoder α) (text : String) : Except DecodeError α :=
  let reading := read text
  match decode reading.document with
  | .error e => .error e
  | .ok a => if reading.complete then .ok a else .error .malformed

/-- What a text holds, if it holds an `α` and nothing else. -/
def ofText? {α : Type} [Wire α] (text : String) : Option α :=
  (decodeText (decode (α := α)) text).toOption

/-- What a value that was read before holds. -/
def ofValue {α : Type} (decode : Decoder α) (value : Value) : Except DecodeError α :=
  decode (.ofValue value)

/-- The compact text of `a`. -/
def toText {α : Type} [Wire α] (a : α) : String :=
  (encode a).compact

end Wire

end DebugBridge.Json
