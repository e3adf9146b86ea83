/-
Breakpoints.

They live in the bridge alone; the debuggee never hears of them. A registry numbers them in one
series over all paths, and no number is used again. Lines count from zero. What adding and clearing
do shows on the list of a path (`Registry.list_add`, `Registry.list_clear_self`,
`Registry.list_clear_of_ne`).
-/
import DebugBridge.Json.Wire

namespace DebugBridge

open Json (Document Wire)

/-- A stop that a client has asked for at a line of a source. -/
structure Breakpoint where
  id : UInt64
  path : String
  line : UInt32
  /-- Whether the source has been seen to have the line. -/
  verified : Bool
  deriving DecidableEq, Repr

instance : Wire Breakpoint where
  decode := Document.asRecord { name := "Breakpoint", arity := 4 } fun fields =>
    Breakpoint.mk <$> fields.field 0 "id" Document.asUInt64
      <*> fields.field 1 "source_path" Document.asString
      <*> fields.field 2 "line" Document.asUInt32
      <*> fields.field 3 "verified" Document.asBool
  encode b := .object
    [("id", .natural b.id.toNat), ("source_path", .string b.path), ("line", .natural b.line.toNat),
      ("verified", .bool b.verified)]

/-- All breakpoints, in the order in which they were added. -/
structure Registry where
  nextId : UInt64
  breakpoints : List Breakpoint
  deriving DecidableEq, Repr

namespace Registry

def empty : Registry := ⟨1, []⟩

/-- The breakpoints on a path, oldest first. -/
def list (r : Registry) (path : String) : List Breakpoint :=
  r.breakpoints.filter fun b => b.path = path

/-- The breakpoint on `path` with this number. -/
def get? (r : Registry) (path : String) (id : UInt64) : Option Breakpoint :=
  (r.list path).find? fun b => b.id = id

/-- Adds an unverified breakpoint, and returns it. -/
def add (r : Registry) (path : String) (line : UInt32) : Breakpoint × Registry :=
  let b : Breakpoint := ⟨r.nextId, path, line, false⟩
  (b, ⟨r.nextId + 1, r.breakpoints ++ [b]⟩)

/-- Removes the oldest breakpoint at a place, and returns it. -/
def remove (r : Registry) (path : String) (line : UInt32) : Option Breakpoint × Registry :=
  let here (b : Breakpoint) : Bool := b.path = path && b.line = line
  (r.breakpoints.find? here, { r with breakpoints := r.breakpoints.eraseP here })

/-- Removes every breakpoint on a path. -/
def clear (r : Registry) (path : String) : Registry :=
  { r with breakpoints := r.breakpoints.filter fun b => b.path ≠ path }

/-- Whether a source of `lineCount` lines would make this breakpoint verified. -/
def becomesVerified (path : String) (lineCount : Nat) (b : Breakpoint) : Bool :=
  b.path = path && b.line.toNat < lineCount && !b.verified

/-- Verifies the breakpoints on a path whose line is within `lineCount` lines. Returned are those
that were not verified before, oldest first. -/
def verify (r : Registry) (path : String) (lineCount : Nat) : List Breakpoint × Registry :=
  let change (b : Breakpoint) : Breakpoint :=
    if becomesVerified path lineCount b then { b with verified := true } else b
  ((r.breakpoints.filter (becomesVerified path lineCount)).map change,
    { r with breakpoints := r.breakpoints.map change })

/-! ### The breakpoints on a path after each operation

A registry is one list over all paths, while clients see the breakpoints of one path at a time. So
what an operation does is said of the list of a path, its own or another.
-/

theorem list_add (r : Registry) (path other : String) (line : UInt32) :
    (r.add path line).2.list other =
      r.list other ++ if path = other then [(r.add path line).1] else [] := by
  by_cases h : path = other <;> simp [add, list, h]

theorem list_clear_self (r : Registry) (path : String) : (r.clear path).list path = [] := by
  simp [clear, list, List.filter_filter]

theorem list_clear_of_ne (r : Registry) {path other : String} (h : other ≠ path) :
    (r.clear path).list other = r.list other := by
  simp only [clear, list, List.filter_filter]
  refine List.filter_congr fun b _ => ?_
  by_cases hb : b.path = other <;> simp [hb, h]

end Registry

/-- The places of `text` where a column begins: the characters that are not a space and have a
space, or nothing at all, before them. `i` is the place of the first character, and `fresh` tells
whether a column may begin there. -/
def columnsFrom (i : Nat) (fresh : Bool) : List Char → List Nat
  | [] => []
  | c :: text =>
    if c = ' ' then columnsFrom (i + 1) true text
    else if fresh then i :: columnsFrom (i + 1) false text
    else columnsFrom (i + 1) false text

/-- The columns of a line on which a breakpoint makes sense, counted in characters. Only spaces
separate; every other blank is text. -/
def breakColumns (line : String) : List Nat :=
  columnsFrom 0 true line.toList

end DebugBridge
