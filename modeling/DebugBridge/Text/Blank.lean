/-
White space as Unicode has it, and what a line is asked for by it: the line without the blanks at
its ends, and its words.
-/
import DebugBridge.Text.Split

namespace DebugBridge.Text

/-- The characters with the Unicode property `White_Space`. -/
def isBlank (c : Char) : Bool :=
  let n := c.toNat
  (9 ≤ n && n ≤ 13) || n == 0x20 || n == 0x85 || n == 0xA0 || n == 0x1680
    || (0x2000 ≤ n && n ≤ 0x200A) || n == 0x2028 || n == 0x2029 || n == 0x202F || n == 0x205F
    || n == 0x3000

/-- `cs` without the blanks at its two ends. -/
def trim (cs : List Char) : List Char :=
  ((cs.dropWhile isBlank).reverse.dropWhile isBlank).reverse

/-- The longest runs of `cs` that hold no blank. -/
def words (cs : List Char) : List (List Char) :=
  (pieces isBlank cs).filter fun run => !run.isEmpty

end DebugBridge.Text
