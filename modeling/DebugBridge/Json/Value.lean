/-
JSON values.

A number is an integer, kept exactly, or a double, kept by the 64 bits of its binary form. The
members of an object stand in a list: a record that is written keeps the order of its fields, and an
object that was read keeps each key once, in ascending order (`insertAbsent`).
-/

namespace DebugBridge.Json

/-- A number: an integer, or a double by its bits. -/
inductive Number where
  | integer (value : Int)
  | double (bits : UInt64)
  deriving DecidableEq, Repr, Inhabited

/-- A JSON value. -/
inductive Value where
  | null
  | bool (value : Bool)
  | number (value : Number)
  | string (value : String)
  | array (items : List Value)
  | object (members : List (String × Value))
  deriving Repr, Inhabited

namespace Value

/-- The integer `n`. -/
def integer (n : Int) : Value := .number (.integer n)

/-- The natural number `n`. -/
def natural (n : Nat) : Value := .integer n

/-- An array of the forms of `items`. -/
def list {α : Type} (form : α → Value) (items : List α) : Value := .array (items.map form)

/-- `null` for nothing. -/
def option {α : Type} (form : α → Value) : Option α → Value
  | none => .null
  | some item => form item

/-- The value under `key`, if this is an object that has the key. -/
def get? (key : String) : Value → Option Value
  | .object members => members.lookup key
  | _ => none

end Value

/-- Puts `value` under `key` among members in ascending order, unless the key is there already. -/
def insertAbsent {α : Type} (key : String) (value : α) : List (String × α) → List (String × α)
  | [] => [(key, value)]
  | (k, v) :: rest =>
    if key < k then (key, value) :: (k, v) :: rest
    else if key = k then (k, v) :: rest
    else (k, v) :: insertAbsent key value rest

end DebugBridge.Json
