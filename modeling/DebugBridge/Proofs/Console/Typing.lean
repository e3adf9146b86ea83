/-
What a user has typed.

Places in a source are typed as `FILE:LINE`, with lines that count from one, and held with lines
that count from zero. The number typed is the value of its digits, whether or not a plus sign or
zeros stand in front of them, and it is that of the line held plus one (`says_of_parse`). No line is
taken that this sum would not fit.

The way back is a sum of words, which starts over behind the last one. It agrees with the sum of
numbers for every line that was typed, and for every line a debuggee can send, as one is taken off
that first (`zeroBased_lt`).
-/
import DebugBridge.Console.Output
import DebugBridge.Proofs.Console.Grammar

namespace DebugBridge.Console

/-- A text that tells the console to do what `verb` stands for at line `n` of a file, counted from
one. -/
def Says (text verb path : String) (n : Nat) : Prop :=
  ∃ first rest written, Text.words text.toList = first :: rest ∧ String.ofList first = verb ∧
    [' '].intercalate rest = path.toList ++ ':' :: written ∧ Text.IsNumeral written n

/-- The verb of a command that is about a place, and the place. -/
def Order.place? : Order → Option (String × String × UInt32)
  | .setBreakpoint path line => some ("b", path, line)
  | .clearBreakpoint path line => some ("d", path, line)
  | .breakColumns path line => some ("cols", path, line)
  | _ => none

/-- Only the three verbs that take a place ask for such a command, and they take it from the
argument. -/
theorem Asks.isPlace {verb verb' path : String}
    {argument : List Char} {order : Order} {line : UInt32}
    (h : Asks verb argument order) (hplace : order.place? = some (verb', path, line)) :
    verb = verb' ∧ IsPlace argument path (line.toNat + 1) ∧ line.toNat + 1 < UInt32.size := by
  cases h with
  | alone h =>
      have hnone : ∀ pair ∈ loneVerbs, pair.2.place? = none := by decide
      cases (hnone _ h).symm.trans hplace
  | place hverb hargument hlast =>
      simp only [placeVerbs, List.mem_cons, Prod.mk.injEq, List.not_mem_nil, or_false] at hverb
      rcases hverb with ⟨rfl, rfl⟩ | ⟨rfl, rfl⟩ | ⟨rfl, rfl⟩ <;>
        (cases hplace; exact ⟨rfl, hargument, hlast⟩)
  | clear | scopes | expand => cases hplace

theorem says_of_parse {text verb path : String} {order : Order} {line : UInt32}
    (h : Order.parse text = .ok (some order)) (hplace : order.place? = some (verb, path, line)) :
    Says text verb path (line.toNat + 1) ∧ line.toNat + 1 < UInt32.size := by
  obtain ⟨first, rest, hwords, hasks⟩ := parse_eq_some_iff.1 h
  obtain ⟨rfl, ⟨-, written, hargument, -, hnumeral⟩, hlast⟩ := hasks.isPlace hplace
  exact ⟨⟨first, rest, written, hwords, rfl, hargument, hnumeral⟩, hlast⟩

/-! ### Lines for people

Two functions go opposite ways between the lines that are held and those for people. They undo each
other but for line zero, which becomes the first.
-/

theorem oneBased_of_lt {line : UInt32} (h : line.toNat + 1 < UInt32.size) :
    oneBased line = line.toNat + 1 := by
  rw [oneBased, UInt32.toNat_add]
  exact Nat.mod_eq_of_lt h

theorem zeroBased_lt (line : UInt32) : (StackFrame.zeroBased line).toNat + 1 < UInt32.size := by
  have hlt := line.toNat_lt_size
  have hsize : UInt32.size = 4294967296 := rfl
  rw [StackFrame.toNat_zeroBased]
  omega

/-- A frame is shown with the line its entry has, and line zero as the first. -/
theorem oneBased_zeroBased (line : UInt32) :
    oneBased (StackFrame.zeroBased line) = max line.toNat 1 := by
  rw [oneBased_of_lt (zeroBased_lt line), StackFrame.toNat_zeroBased]
  omega

end DebugBridge.Console
