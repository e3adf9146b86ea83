/-
Writing a value as compact JSON text: no blanks, members in the order they stand in, and of the
characters of a string only quotes, backslashes and controls are escaped. So a written text never
holds a line break, whatever its strings hold.
-/
import DebugBridge.Json.Binary64
import DebugBridge.Json.Value

namespace DebugBridge.Json

/-- A lower-case hexadecimal digit. -/
def hexDigit (n : Nat) : Char :=
  if n < 10 then Char.ofNat ('0'.toNat + n) else Char.ofNat ('a'.toNat + (n - 10))

/-- One character of a string literal. -/
def writeChar (c : Char) : List Char :=
  match c with
  | '"' => ['\\', '"']
  | '\\' => ['\\', '\\']
  | '\x08' => ['\\', 'b']
  | '\x0c' => ['\\', 'f']
  | '\n' => ['\\', 'n']
  | '\r' => ['\\', 'r']
  | '\t' => ['\\', 't']
  | c =>
    if c.toNat < 0x20 then
      ['\\', 'u', '0', '0', hexDigit (c.toNat / 16), hexDigit (c.toNat % 16)]
    else [c]

/-- A string literal. -/
def writeString (text : String) : List Char :=
  '"' :: (text.toList.flatMap writeChar ++ ['"'])

/-- A number literal. -/
def writeNumber : Number → List Char
  | .integer n => (toString n).toList
  | .double bits => Binary64.text bits

mutual

/-- A value as compact text. -/
def writeValue : Value → List Char
  | .null => ['n', 'u', 'l', 'l']
  | .bool true => ['t', 'r', 'u', 'e']
  | .bool false => ['f', 'a', 'l', 's', 'e']
  | .number n => writeNumber n
  | .string s => writeString s
  | .array items => '[' :: (writeItems items ++ [']'])
  | .object members => '{' :: (writeMembers members ++ ['}'])

/-- Items with commas between them. -/
def writeItems : List Value → List Char
  | [] => []
  | [v] => writeValue v
  | v :: w :: rest => writeValue v ++ ',' :: writeItems (w :: rest)

/-- Members with commas between them. -/
def writeMembers : List (String × Value) → List Char
  | [] => []
  | [(key, v)] => writeString key ++ ':' :: writeValue v
  | (key, v) :: m :: rest =>
    writeString key ++ ':' :: (writeValue v ++ ',' :: writeMembers (m :: rest))

end

/-- The compact text of a value. -/
def Value.compact (value : Value) : String := String.ofList (writeValue value)

end DebugBridge.Json
