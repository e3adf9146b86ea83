/-
Number literals: a sign, digits without a leading zero, and perhaps a fraction and an exponent.

A literal that has neither fraction nor exponent is an integer as long as its magnitude and sign fit
into 64 bits, unsigned or two's complement; `-0` is not one of them. Every other literal is a
double. For a double the digits count as long as they fit into 64 bits together; those after them
only tell how large the number is.
-/
import DebugBridge.Json.Binary64
import DebugBridge.Json.Value

namespace DebugBridge.Json

/-- The parts of a number literal, without the marks between them. -/
structure Numeral where
  negative : Bool
  whole : List Char
  /-- The digits behind the point, if there is a point. -/
  fraction : Option (List Char)
  /-- Whether the exponent is negative, and its digits. -/
  exponent : Option (Bool × List Char)
  deriving DecidableEq, Repr

namespace Numeral

/-- The digits at the start of `cs`, and what follows them. -/
def digitsOf (cs : List Char) : List Char × List Char :=
  (cs.takeWhile Char.isDigit, cs.dropWhile Char.isDigit)

/-- The digits in front of the point: no zero leads, except alone. -/
def scanWhole (cs : List Char) : Option (List Char × List Char) :=
  match digitsOf cs with
  | ([], _) => none
  | ('0' :: _ :: _, _) => none
  | found => some found

/-- A point with digits behind it, or nothing. -/
def scanFraction : List Char → Option (Option (List Char) × List Char)
  | '.' :: cs =>
    match digitsOf cs with
    | ([], _) => none
    | (ds, rest) => some (some ds, rest)
  | cs => some (none, cs)

/-- The sign of an exponent: whether it is negative, and what follows. -/
def scanSign : List Char → Bool × List Char
  | '+' :: cs => (false, cs)
  | '-' :: cs => (true, cs)
  | cs => (false, cs)

/-- An exponent mark with digits behind it, or nothing. -/
def scanExponent (cs : List Char) : Option (Option (Bool × List Char) × List Char) :=
  match cs with
  | [] => some (none, [])
  | c :: rest =>
    if c = 'e' ∨ c = 'E' then
      let (negative, rest) := scanSign rest
      match digitsOf rest with
      | ([], _) => none
      | (ds, rest) => some (some (negative, ds), rest)
    else some (none, cs)

/-- The literal at the start of `cs`, and what follows it. -/
def scan (cs : List Char) : Option (Numeral × List Char) :=
  let (negative, cs) :=
    match cs with
    | '-' :: rest => (true, rest)
    | cs => (false, cs)
  match scanWhole cs with
  | none => none
  | some (whole, cs) =>
    match scanFraction cs with
    | none => none
    | some (fraction, cs) =>
      match scanExponent cs with
      | none => none
      | some (exponent, cs) => some (⟨negative, whole, fraction, exponent⟩, cs)

/-- The largest unsigned integer of 64 bits. -/
def largest : Nat := UInt64.size - 1

/-- Appends digits to a significand as long as it stays within `largest`; the second part of the
result counts the digits that were left out. -/
def accumulate (significand : Nat) : List Char → Nat × Nat
  | [] => (significand, 0)
  | c :: cs =>
    let next := 10 * significand + (c.toNat - '0'.toNat)
    if next ≤ largest then accumulate next cs else (significand, cs.length + 1)

/-- The value of exponent digits. -/
def exponentOf : Option (Bool × List Char) → Int
  | none => 0
  | some (negative, ds) =>
    let n : Int := ds.foldl (fun n c => 10 * n + (c.toNat - '0'.toNat)) 0
    if negative then -n else n

/-- The number that a literal stands for, unless it is larger than every double. -/
def number? (n : Numeral) : Option Number :=
  let (significand, left) := accumulate 0 n.whole
  match n.fraction, n.exponent, left with
  | none, none, 0 =>
    if n.negative then
      if 1 ≤ significand ∧ significand ≤ UInt64.size / 2 then some (.integer (-significand))
      else (Binary64.ofDecimal true significand 0).map .double
    else some (.integer significand)
  | fraction, exponent, left =>
    let digits := fraction.getD []
    let (significand, dropped) := accumulate significand digits
    let e : Int := left - (digits.length - dropped : Nat) + exponentOf exponent
    (Binary64.ofDecimal n.negative significand e).map .double

end Numeral

end DebugBridge.Json
