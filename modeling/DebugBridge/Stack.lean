/-
The stack as a client sees it: frames with their position, and lines that count from zero.
-/
import DebugBridge.Status

namespace DebugBridge

open Json (Document Wire)

/-- One call, as a client sees it. -/
structure StackFrame where
  /-- The position in the whole stack. -/
  index : UInt64
  function : String
  file : String
  line : UInt32
  deriving DecidableEq, Repr

instance : Wire StackFrame where
  decode := Document.asRecord { name := "StackFrame", arity := 4 } fun fields =>
    StackFrame.mk <$> fields.field 0 "index" Document.asUInt64
      <*> fields.field 1 "function_name" Document.asString
      <*> fields.field 2 "file" Document.asString
      <*> fields.field 3 "line" Document.asUInt32
  encode f := .object
    [("index", .natural f.index.toNat), ("function_name", .string f.function),
      ("file", .string f.file), ("line", .natural f.line.toNat)]

namespace StackFrame

/-- A line that counts from one, counted from zero; line zero stays where it is. -/
def zeroBased (line : UInt32) : UInt32 :=
  if line = 0 then 0 else line - 1

theorem toNat_zeroBased (line : UInt32) : (zeroBased line).toNat = line.toNat - 1 := by
  by_cases hzero : line = 0
  · rw [zeroBased, if_pos hzero, hzero]
    rfl
  · have hone : 1 ≤ line.toNat :=
      Nat.one_le_iff_ne_zero.2 fun h => hzero (UInt32.toNat_inj.1 h)
    rw [zeroBased, if_neg hzero]
    exact UInt32.toNat_sub_of_le _ _ (UInt32.le_iff_toNat_le.2 hone)

/-- The frame that an entry is shown as. -/
def ofEntry (index : Nat) (entry : StackEntry) : StackFrame :=
  ⟨UInt64.ofNat index, entry.function, entry.file, zeroBased entry.line⟩

end StackFrame

/-- The frames of a status; there are none unless it is stopped. -/
def Status.frames (s : Status) : List StackFrame :=
  if s.runState.isStopped then s.stack.mapIdx StackFrame.ofEntry else []

theorem Status.frames_eq_nil {s : Status} (h : s.runState.isStopped = false) : s.frames = [] := by
  simp [frames, h]

/-- Part of a stack, and how many frames the whole has. -/
structure StackPage where
  frames : List StackFrame
  total : Nat
  deriving DecidableEq, Repr

/-- At most `levels` frames from position `start` on. -/
def StackPage.of (frames : List StackFrame) (start levels : Nat) : StackPage :=
  ⟨(frames.drop start).take levels, frames.length⟩

end DebugBridge
