/-
What a JSON text holds, as far as it can be read.

A document keeps what a value forgets: repeated keys, the order of members, and the place where a
text stops being JSON. Reading never fails. It leaves `broken` where no value begins and marks every
array and object around that place as not closed, so whoever goes through the document from the left
meets a broken place when the text itself would have reached it, and not before. `beyond` stands for
text that is well formed and yet no value: half of a surrogate pair, a number larger than any
double, a container nested too deep. Passing over it is allowed, using it is not.
-/
import DebugBridge.Json.Value

namespace DebugBridge.Json

/-- The contents of a JSON text. -/
inductive Document where
  | null
  | bool (value : Bool)
  | number (value : Number)
  | string (value : String)
  /-- `closed` tells whether the closing bracket was reached. -/
  | array (items : List Document) (closed : Bool)
  /-- A key that is no text is `none`. -/
  | object (members : List (Option String × Document)) (closed : Bool)
  | beyond
  | broken
  deriving Repr, Inhabited

namespace Document

mutual

/-- The value that a document stands for: of a repeated key the last member counts, and keys come
in ascending order. A document with anything broken or beyond in it stands for none. -/
def value? : Document → Option Value
  | null => some .null
  | bool b => some (.bool b)
  | number n => some (.number n)
  | string s => some (.string s)
  | array items closed => if closed then (values? items).map .array else none
  | object members closed => if closed then (members? members).map .object else none
  | beyond => none
  | broken => none

/-- The values of the items of an array. -/
def values? : List Document → Option (List Value)
  | [] => some []
  | d :: rest =>
    match d.value?, values? rest with
    | some v, some vs => some (v :: vs)
    | _, _ => none

/-- The members of an object, sorted and each key once. -/
def members? : List (Option String × Document) → Option (List (String × Value))
  | [] => some []
  | (key, d) :: rest =>
    match key, d.value?, members? rest with
    | some k, some v, some vs => some (insertAbsent k v vs)
    | _, _, _ => none

end

mutual

/-- A value as a document that was read to its end. -/
def ofValue : Value → Document
  | .null => null
  | .bool b => bool b
  | .number n => number n
  | .string s => string s
  | .array items => array (ofValues items) true
  | .object members => object (ofMembers members) true

@[inherit_doc ofValue]
def ofValues : List Value → List Document
  | [] => []
  | v :: rest => ofValue v :: ofValues rest

@[inherit_doc ofValue]
def ofMembers : List (String × Value) → List (Option String × Document)
  | [] => []
  | (key, v) :: rest => (some key, ofValue v) :: ofMembers rest

end

theorem ofValues_eq_map (vs : List Value) : ofValues vs = vs.map ofValue := by
  induction vs with
  | nil => rfl
  | cons v rest ih => simp [ofValues, ih]

theorem ofMembers_eq_map (ms : List (String × Value)) :
    ofMembers ms = ms.map fun (key, v) => (some key, ofValue v) := by
  induction ms with
  | nil => rfl
  | cons m rest ih => simp [ofMembers, ih]

end Document

end DebugBridge.Json
