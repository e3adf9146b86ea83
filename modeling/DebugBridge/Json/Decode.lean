/-
Reading typed data from documents: what may be found instead, and the readers of single values.

An error names its cause, and `DecodeError.message?` is the one place where causes become words. A
text that is broken, or beyond what a value can be, has the cause `malformed` and no words of its
own.
-/
import DebugBridge.Json.Document
import DebugBridge.Json.Binary64
import DebugBridge.Text.Quoted

namespace DebugBridge.Json

/-- What stands where something else was wanted. -/
inductive Found where
  | null
  | bool (value : Bool)
  | integer (value : Int)
  | double (bits : UInt64)
  | string (value : String)
  | sequence
  | map
  deriving DecidableEq, Repr

/-- A finding in words. -/
def Found.message : Found → String
  | .null => "null"
  | .bool value => s!"boolean `{value}`"
  | .integer value => s!"integer `{value}`"
  | .double bits => s!"floating point `{String.ofList (Binary64.text bits)}`"
  | .string value => s!"string {Text.quoted value}"
  | .sequence => "sequence"
  | .map => "map"

/-- Why a document does not hold the wanted data. -/
inductive DecodeError where
  /-- The text is no JSON text, or one that goes beyond what values can hold. -/
  | malformed
  | missingField (name : String)
  /-- A field that may be absent elsewhere, but not under this circumstance. -/
  | missingFieldFor (name circumstance : String)
  | duplicateField (name : String)
  | unknownVariant (name : String) (known : List String)
  | invalidType (found : Found) (wanted : String)
  | invalidValue (found : Found) (wanted : String)
  | invalidLength (length : Nat) (wanted : String)
  deriving DecidableEq, Repr

/-- The error in words, if it has any. -/
def DecodeError.message? : DecodeError → Option String
  | .malformed => none
  | .missingField name => some s!"missing field `{name}`"
  | .missingFieldFor name circumstance => some s!"missing field `{name}` for {circumstance}"
  | .duplicateField name => some s!"duplicate field `{name}`"
  | .unknownVariant name known =>
    let list := ", ".intercalate (known.map fun variant => s!"`{variant}`")
    some s!"unknown variant `{name}`, expected one of {list}"
  | .invalidType found wanted => some s!"invalid type: {found.message}, expected {wanted}"
  | .invalidValue found wanted => some s!"invalid value: {found.message}, expected {wanted}"
  | .invalidLength length wanted => some s!"invalid length {length}, expected {wanted}"

/-- What reading a document as an `α` gives. -/
abbrev Decoder (α : Type) := Document → Except DecodeError α

namespace Document

/-- The error of a document that is not what was wanted. -/
def unwanted (wanted : String) : Document → DecodeError
  | null => .invalidType .null wanted
  | bool value => .invalidType (.bool value) wanted
  | number (.integer value) => .invalidType (.integer value) wanted
  | number (.double bits) => .invalidType (.double bits) wanted
  | string value => .invalidType (.string value) wanted
  | array _ _ => .invalidType .sequence wanted
  | object _ _ => .invalidType .map wanted
  | beyond => .malformed
  | broken => .malformed

/-- Reads a string. -/
def asString : Decoder String
  | string value => .ok value
  | d => .error (d.unwanted "a string")

/-- Reads a truth value. -/
def asBool : Decoder Bool
  | bool value => .ok value
  | d => .error (d.unwanted "a boolean")

/-- Reads an integer from `least` to `greatest`; `wanted` names that range. -/
def asInteger (wanted : String) (least greatest : Int) : Decoder Int
  | number (.integer value) =>
    if least ≤ value ∧ value ≤ greatest then .ok value
    else .error (.invalidValue (.integer value) wanted)
  | d => .error (d.unwanted wanted)

/-- Reads an unsigned integer of 32 bits. -/
def asUInt32 : Decoder UInt32 := fun d =>
  (d.asInteger "u32" 0 (UInt32.size - 1 : Nat)).map fun n => UInt32.ofNat n.toNat

/-- Reads an unsigned integer of 64 bits. -/
def asUInt64 : Decoder UInt64 := fun d =>
  (d.asInteger "u64" 0 (UInt64.size - 1 : Nat)).map fun n => UInt64.ofNat n.toNat

/-- Reads a signed integer of 32 bits. -/
def asInt32 : Decoder Int32 := fun d =>
  (d.asInteger "i32" Int32.minValue.toInt Int32.maxValue.toInt).map Int32.ofInt

/-- Reads a signed integer of 64 bits. -/
def asInt64 : Decoder Int64 := fun d =>
  (d.asInteger "i64" Int64.minValue.toInt Int64.maxValue.toInt).map Int64.ofInt

/-- Reads any value. -/
def asValue : Decoder Value := fun d =>
  match d.value? with
  | some value => .ok value
  | none => .error .malformed

/-- Reads nothing from `null`, and what `decode` reads from all else. -/
def asOption {α : Type} (decode : Decoder α) : Decoder (Option α)
  | null => .ok none
  | d => (decode d).map some

/-- Reads the items of a sequence one after the other. -/
def asItems {α : Type} (decode : Decoder α) : List Document → Except DecodeError (List α)
  | [] => .ok []
  | d :: rest =>
    match decode d with
    | .error e => .error e
    | .ok item => (asItems decode rest).map (item :: ·)

/-- Reads a sequence. -/
def asList {α : Type} (decode : Decoder α) : Decoder (List α)
  | array items closed =>
    match asItems decode items with
    | .error e => .error e
    | .ok list => if closed then .ok list else .error .malformed
  | d => .error (d.unwanted "a sequence")

/-- Reads one of a few names. A name may also be the only key of an object, whose value then
satisfies `isUnit`. -/
def asVariant {α : Type} (known : List (String × α)) (isUnit : Decoder Unit) : Decoder α
  | string name => find name
  | object [(some name, content)] true => do
    let variant ← find name
    isUnit content
    return variant
  | object _ true => .error (.invalidValue .map "map with a single key")
  | object _ false => .error .malformed
  | d => .error (d.unwanted "string or map")
where
  find (name : String) : Except DecodeError α :=
    match known.lookup name with
    | some variant => .ok variant
    | none => .error (.unknownVariant name (known.map Prod.fst))

/-- Accepts `null`. -/
def asUnit : Decoder Unit
  | null => .ok ()
  | d => .error (d.unwanted "unit")

end Document

end DebugBridge.Json
