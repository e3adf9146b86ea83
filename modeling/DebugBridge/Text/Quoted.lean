/-
A text in double quotes, so that a message can show exactly what it holds: quotes and backslashes
get a backslash, the commonest controls a letter, and every other character that would not be
visible its code point.
-/
import DebugBridge.Text.Hidden

namespace DebugBridge.Text

/-- The digits of `n` to base sixteen, in lower case and without leading zeros. -/
def lowerHex (n : Nat) : List Char :=
  Nat.toDigits 16 n

/-- One character as it stands between the quotes. -/
def quoteChar (c : Char) : List Char :=
  match c with
  | '\x00' => ['\\', '0']
  | '\t' => ['\\', 't']
  | '\n' => ['\\', 'n']
  | '\r' => ['\\', 'r']
  | '"' => ['\\', '"']
  | '\\' => ['\\', '\\']
  | c =>
    if isHidden c then ['\\', 'u', '\x7b'] ++ lowerHex c.toNat ++ ['\x7d']
    else [c]

/-- `text` in double quotes, with what cannot be shown escaped. -/
def quoted (text : String) : String :=
  String.ofList ('"' :: (text.toList.flatMap quoteChar ++ ['"']))

end DebugBridge.Text
