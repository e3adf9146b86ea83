/-
Variables.

A handle names a value of the debuggee by the scope it lies in and the path of members that leads to
it. A client never sees handles but the numbers a table gives them, one after the other from one on.
Values with members are expanded one level at a time: each gets a handle of its own, and its members
are asked for when a client wants them.
-/
import DebugBridge.Failure
import DebugBridge.Text.Query

namespace DebugBridge

open Json (Document Value Wire)

/-! ### What the debuggee lists

The debuggee knows names, types and values. Whether there is more to see behind a value is told by
its type alone.
-/

/-- One variable of a listing. -/
structure RemoteVariable where
  name : String
  type : String
  value : String
  deriving DecidableEq, Repr

instance : Wire RemoteVariable where
  decode := Document.asRecord { name := "RemoteVariable", arity := 3 } fun fields =>
    RemoteVariable.mk <$> fields.field 0 "name" Document.asString
      <*> fields.field 1 "type" Document.asString
      <*> fields.field 2 "value" Document.asString
  encode v := .object
    [("name", .string v.name), ("type", .string v.type), ("value", .string v.value)]

/-- The members of a value, or the variables of a scope. -/
structure VariableList where
  entries : List RemoteVariable
  deriving DecidableEq, Repr

instance : Wire VariableList where
  decode := Document.asRecord { name := "VariableList", arity := 1 } fun fields =>
    VariableList.mk <$> fields.field 0 "variables" (Document.asList Wire.decode)
  encode l := .object [("variables", .list Wire.encode l.entries)]

/-- The types of values that have members. -/
def aggregateTypes : List String := ["object", "table", "array", "instance", "class"]

/-- Whether values of this type have members. -/
def isAggregate (type : String) : Bool := aggregateTypes.contains type

/-! ### Handles

A path is a list of names, so handles are told apart where their paths in writing are not. Only what
is written is sent.
-/

/-- Where a path of members starts. -/
inductive VariableScope where
  /-- The local variables of a frame. -/
  | locals (frame : UInt32)
  | globals
  deriving DecidableEq, Repr

/-- A value of the debuggee. -/
structure VariableHandle where
  scope : VariableScope
  path : List String
  deriving DecidableEq, Repr

namespace VariableHandle

/-- The local variables of a frame. -/
def locals (frame : UInt32) : VariableHandle := ⟨.locals frame, []⟩

/-- The global variables. -/
def globals : VariableHandle := ⟨.globals, []⟩

/-- The member `name` of the value that `h` names. -/
def child (h : VariableHandle) (name : String) : VariableHandle :=
  { h with path := h.path ++ [name] }

/-- The path with commas between its members. -/
def memberPath (h : VariableHandle) : String := ",".intercalate h.path

/-- The handle in writing: its scope, a colon, and its path. -/
def text (h : VariableHandle) : String :=
  match h.scope with
  | .locals frame => s!"local:{frame.toNat}:{h.memberPath}"
  | .globals => s!"global:{h.memberPath}"

/-- The query that asks the debuggee for the members of a value. It knows no query for globals. -/
def query (h : VariableHandle) : Except Failure String :=
  match h.scope with
  | .locals frame => .ok s!"StackLocals/{frame.toNat}?path={Text.encodeQuery h.memberPath}"
  | .globals => .error (.unknownVariableScope h.text)

end VariableHandle

/-- The handles that a client has been given, in the order of their numbers. -/
structure HandleTable where
  handles : List VariableHandle
  deriving DecidableEq, Repr

namespace HandleTable

def empty : HandleTable := ⟨[]⟩

def size (t : HandleTable) : Nat := t.handles.length

/-- Gives a handle the next number, whether or not it has one. -/
def create (t : HandleTable) (h : VariableHandle) : Int64 × HandleTable :=
  (Int64.ofNat (t.size + 1), ⟨t.handles ++ [h]⟩)

@[simp] theorem handles_create (t : HandleTable) (h : VariableHandle) :
    (t.create h).2.handles = t.handles ++ [h] := rfl

@[simp] theorem size_create (t : HandleTable) (h : VariableHandle) :
    (t.create h).2.size = t.size + 1 := by
  simp [size]

/-- The handle with this number. -/
def get? (t : HandleTable) (reference : Int64) : Option VariableHandle :=
  let n := reference.toInt
  if 1 ≤ n then t.handles[(n - 1).toNat]? else none

end HandleTable

/-! ### What a client sees

A client has to come back with a number, so there is one for each value with members, and zero for
the others. A value that is listed twice has two.
-/

/-- A variable; its reference is zero if it has no members. -/
structure Variable where
  name : String
  type : String
  value : String
  reference : Int64
  deriving DecidableEq, Repr

instance : Wire Variable where
  decode := Document.asRecord { name := "Variable", arity := 4 } fun fields =>
    Variable.mk <$> fields.field 0 "name" Document.asString
      <*> fields.field 1 "type_name" Document.asString
      <*> fields.field 2 "value" Document.asString
      <*> fields.field 3 "variables_reference" Document.asInt64
  encode v := .object
    [("name", .string v.name), ("type_name", .string v.type), ("value", .string v.value),
      ("variables_reference", .integer v.reference.toInt)]

/-- A scope of a frame; an expensive one should not be opened unasked. -/
structure Scope where
  name : String
  reference : Int64
  expensive : Bool
  deriving DecidableEq, Repr

instance : Wire Scope where
  decode := Document.asRecord { name := "Scope", arity := 3 } fun fields =>
    Scope.mk <$> fields.field 0 "name" Document.asString
      <*> fields.field 1 "variables_reference" Document.asInt64
      <*> fields.field 2 "expensive" Document.asBool
  encode s := .object
    [("name", .string s.name), ("variables_reference", .integer s.reference.toInt),
      ("expensive", .bool s.expensive)]

namespace HandleTable

/-- The scopes of a frame: its local variables, and the global ones. -/
def scopes (t : HandleTable) (frame : UInt32) : List Scope × HandleTable :=
  let (locals, t) := t.create (.locals frame)
  let (globals, t) := t.create .globals
  ([⟨"Local", locals, false⟩, ⟨"Global", globals, true⟩], t)

/-- The listed members of the value that `parent` names; every aggregate gets a handle. -/
def expand (t : HandleTable) (parent : VariableHandle) :
    List RemoteVariable → List Variable × HandleTable
  | [] => ([], t)
  | v :: rest =>
    if isAggregate v.type then
      let (reference, t) := t.create (parent.child v.name)
      let (others, t) := t.expand parent rest
      (⟨v.name, v.type, v.value, reference⟩ :: others, t)
    else
      let (others, t) := t.expand parent rest
      (⟨v.name, v.type, v.value, 0⟩ :: others, t)

end HandleTable

end DebugBridge
