/-
Reading a JSON text into a document.

The readers go over a list of characters and return what is left, or nothing once the text is
broken. Between the parts of a text only space, tab, line feed and carriage return are blank. The
nesting of containers is bounded by `nestingLimit`.
-/
import DebugBridge.Json.Document
import DebugBridge.Json.Numeral

namespace DebugBridge.Json

/-- The blanks between the parts of a text. -/
def isBlank (c : Char) : Bool :=
  c == ' ' || c == '\t' || c == '\n' || c == '\r'

def skipBlanks (cs : List Char) : List Char := cs.dropWhile isBlank

/-! ### Strings

A literal is read into pieces first, which are characters and units of UTF-16. Whether the units
make characters is seen only when all pieces are there, since a pair of them does and one half does
not.
-/

/-- A part of a string literal: a character, or a 16-bit unit written by its code. -/
inductive Piece where
  | char (c : Char)
  | unit (code : Nat)
  deriving DecidableEq, Repr

/-- The value of a hexadecimal digit in either case. -/
def hexValue? (c : Char) : Option Nat :=
  if '0' ≤ c ∧ c ≤ '9' then some (c.toNat - '0'.toNat)
  else if 'a' ≤ c ∧ c ≤ 'f' then some (c.toNat - 'a'.toNat + 10)
  else if 'A' ≤ c ∧ c ≤ 'F' then some (c.toNat - 'A'.toNat + 10)
  else none

/-- The unit that four hexadecimal digits stand for. -/
def hexUnit? (a b c d : Char) : Option Nat :=
  match hexValue? a, hexValue? b, hexValue? c, hexValue? d with
  | some a, some b, some c, some d => some (((a * 16 + b) * 16 + c) * 16 + d)
  | _, _, _, _ => none

/-- The character that a backslash and `c` stand for. -/
def escaped? (c : Char) : Option Char :=
  match c with
  | '"' => some '"'
  | '\\' => some '\\'
  | '/' => some '/'
  | 'b' => some '\x08'
  | 'f' => some '\x0c'
  | 'n' => some '\n'
  | 'r' => some '\r'
  | 't' => some '\t'
  | _ => none

/-- The pieces of a string literal up to its closing quote, and what follows the quote. A literal
holds no bare control character. -/
def scanString : List Char → Option (List Piece × List Char)
  | [] => none
  | '"' :: rest => some ([], rest)
  | '\\' :: 'u' :: a :: b :: c :: d :: rest =>
    match hexUnit? a b c d, scanString rest with
    | some code, some (pieces, rest) => some (.unit code :: pieces, rest)
    | _, _ => none
  | '\\' :: c :: rest =>
    match escaped? c, scanString rest with
    | some c, some (pieces, rest) => some (.char c :: pieces, rest)
    | _, _ => none
  | c :: rest =>
    if c = '\\' ∨ c.toNat < 0x20 then none
    else
      match scanString rest with
      | some (pieces, rest) => some (.char c :: pieces, rest)
      | none => none

/-- Whether a unit is the first, or the second, half of a surrogate pair. -/
def isHighSurrogate (code : Nat) : Bool := 0xD800 ≤ code && code < 0xDC00

@[inherit_doc isHighSurrogate]
def isLowSurrogate (code : Nat) : Bool := 0xDC00 ≤ code && code < 0xE000

/-- The character of a surrogate pair. -/
def ofSurrogates (high low : Nat) : Char :=
  Char.ofNat (0x10000 + (high - 0xD800) * 0x400 + (low - 0xDC00))

/-- The characters of a literal; none if it has half of a surrogate pair alone. -/
def joinPieces : List Piece → Option (List Char)
  | [] => some []
  | .char c :: rest => (joinPieces rest).map (c :: ·)
  | .unit high :: .unit low :: rest =>
    if isHighSurrogate high then
      if isLowSurrogate low then (joinPieces rest).map (ofSurrogates high low :: ·) else none
    else if isLowSurrogate high then none
    else (joinPieces (.unit low :: rest)).map (Char.ofNat high :: ·)
  | .unit code :: rest =>
    if isHighSurrogate code || isLowSurrogate code then none
    else (joinPieces rest).map (Char.ofNat code :: ·)

/-- The text of a literal whose opening quote has been read, none if it is no text, and what
follows its closing quote. -/
def readString (cs : List Char) : Option (Option String × List Char) :=
  (scanString cs).map fun (pieces, rest) => ((joinPieces pieces).map String.ofList, rest)

/-! ### Values

Three readers call each other, for values, for the items of an array and for the members of an
object. What they have read before the text breaks is kept, so nothing of it is lost to whoever
wants to know what was wrong first.
-/

/-- The largest number of containers that may be open at one place. -/
def nestingLimit : Nat := 127

/-- A container with `depth` others around it, as far as the limit allows it. -/
def Document.within (depth : Nat) (container : Document) : Document :=
  if depth < nestingLimit then container else .beyond

/-- The number at the start of `cs`. -/
def readNumber (cs : List Char) : Document × Option (List Char) :=
  match Numeral.scan cs with
  | none => (.broken, none)
  | some (numeral, rest) => (numeral.number?.elim .beyond .number, some rest)

mutual

/-- Reads one value with `depth` containers around it. Each of the three readers hands a smaller
`fuel` to the others; twice the length of the text is always enough. -/
def readValue (fuel depth : Nat) (cs : List Char) : Document × Option (List Char) :=
  match fuel with
  | 0 => (.broken, none)
  | fuel + 1 =>
    match skipBlanks cs with
    | 'n' :: 'u' :: 'l' :: 'l' :: rest => (.null, some rest)
    | 't' :: 'r' :: 'u' :: 'e' :: rest => (.bool true, some rest)
    | 'f' :: 'a' :: 'l' :: 's' :: 'e' :: rest => (.bool false, some rest)
    | '"' :: rest =>
      match readString rest with
      | none => (.broken, none)
      | some (text, rest) => (text.elim .beyond .string, some rest)
    | '[' :: rest =>
      match skipBlanks rest with
      | ']' :: rest => (.within depth (.array [] true), some rest)
      | rest =>
        let (items, rest) := readItems fuel (depth + 1) rest
        (.within depth (.array items rest.isSome), rest)
    | '{' :: rest =>
      match skipBlanks rest with
      | '}' :: rest => (.within depth (.object [] true), some rest)
      | rest =>
        let (members, rest) := readMembers fuel (depth + 1) rest
        (.within depth (.object members rest.isSome), rest)
    | cs => readNumber cs

/-- Reads the items of an array, at least one, and its closing bracket. -/
def readItems (fuel depth : Nat) (cs : List Char) : List Document × Option (List Char) :=
  match fuel with
  | 0 => ([], none)
  | fuel + 1 =>
    match readValue fuel depth cs with
    | (item, none) => ([item], none)
    | (item, some rest) =>
      match skipBlanks rest with
      | ',' :: rest =>
        let (items, rest) := readItems fuel depth rest
        (item :: items, rest)
      | ']' :: rest => ([item], some rest)
      | _ => ([item], none)

/-- Reads the members of an object, at least one, and its closing brace. A key without a value
behind it is kept, with a broken value. -/
def readMembers (fuel depth : Nat) (cs : List Char) :
    List (Option String × Document) × Option (List Char) :=
  match fuel with
  | 0 => ([], none)
  | fuel + 1 =>
    match skipBlanks cs with
    | '"' :: rest =>
      match readString rest with
      | none => ([], none)
      | some (key, rest) =>
        match skipBlanks rest with
        | ':' :: rest =>
          match readValue fuel depth rest with
          | (item, none) => ([(key, item)], none)
          | (item, some rest) =>
            match skipBlanks rest with
            | ',' :: rest =>
              let (members, rest) := readMembers fuel depth rest
              ((key, item) :: members, rest)
            | '}' :: rest => ([(key, item)], some rest)
            | _ => ([(key, item)], none)
        | _ => ([(key, .broken)], none)
    | _ => ([], none)

end

/-- What reading a text gives: the document at its start, and whether only blanks follow it. -/
structure Reading where
  document : Document
  complete : Bool
  deriving Repr

/-- Reads the document at the start of a text. -/
def read (text : String) : Reading :=
  let cs := text.toList
  let (document, rest) := readValue (2 * cs.length + 1) 0 cs
  ⟨document, rest.elim false fun rest => (skipBlanks rest).isEmpty⟩

/-- The value that a text holds, if the text holds one and nothing else. -/
def Value.ofText? (text : String) : Option Value :=
  let reading := read text
  if reading.complete then reading.document.value? else none

end DebugBridge.Json
