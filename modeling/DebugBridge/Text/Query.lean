/-
The value of a query parameter, encoded as `application/x-www-form-urlencoded` has it: letters,
digits and `*`, `-`, `.`, `_` stand for themselves, a space becomes `+`, and every other byte of the
text's UTF-8 form becomes `%` and two upper-case hexadecimal digits.
-/

namespace DebugBridge.Text

/-- The characters that an encoded value keeps as they are. -/
def isPlainInQuery (c : Char) : Bool :=
  c.isAlphanum || c == '*' || c == '-' || c == '.' || c == '_'

/-- The upper-case hexadecimal digit of a value below sixteen. -/
def upperHexDigit (n : Nat) : Char :=
  if n < 10 then Char.ofNat ('0'.toNat + n) else Char.ofNat ('A'.toNat + (n - 10))

/-- One byte of an encoded value. -/
def encodeQueryByte (byte : UInt8) : List Char :=
  let c := Char.ofNat byte.toNat
  if isPlainInQuery c then [c]
  else if c = ' ' then ['+']
  else ['%', upperHexDigit (byte.toNat / 16), upperHexDigit (byte.toNat % 16)]

/-- A text as the value of a query parameter. -/
def encodeQuery (text : String) : String :=
  String.ofList (text.toUTF8.toList.flatMap encodeQueryByte)

example : encodeQuery "a b,é%" = "a+b%2C%C3%A9%25" := by decide +kernel

end DebugBridge.Text
