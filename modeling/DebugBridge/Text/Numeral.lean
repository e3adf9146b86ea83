/-
Whole numbers written in decimal.

A numeral is an optional `+` (or, where negative numbers are wanted, `-`) and then ASCII digits, any
number of leading zeros among them. It is read from the left against a largest value, and the first
thing that goes wrong is what is reported: so a numeral that is too large by its fifth digit is too
large, whatever stands behind that digit.
-/

namespace DebugBridge.Text

/-- Why a text is no numeral of the wanted range. -/
inductive NumeralFault where
  /-- There is no character at all. -/
  | empty
  /-- A character is no digit, or a sign stands alone. -/
  | invalidDigit
  /-- The digits so far are more than the largest value allowed. -/
  | tooLarge
  deriving DecidableEq, Repr

/-- The fault in words. -/
def NumeralFault.message : NumeralFault → String
  | .empty => "cannot parse integer from empty string"
  | .invalidDigit => "invalid digit found in string"
  | .tooLarge => "number too large to fit in target type"

/-- The value of an ASCII digit. -/
def digitValue (c : Char) : Nat :=
  c.toNat - '0'.toNat

/-- Reads the digits `cs` behind digits of value `seen`; no value above `limit` is allowed. -/
def readDigits (limit : Nat) (seen : Nat) : List Char → Except NumeralFault Nat
  | [] => .ok seen
  | c :: cs =>
    if c.isDigit then
      let next := 10 * seen + digitValue c
      if next ≤ limit then readDigits limit next cs else .error .tooLarge
    else .error .invalidDigit

/-- Reads a natural number of at most `limit`. -/
def readNat (limit : Nat) : List Char → Except NumeralFault Nat
  | [] => .error .empty
  | ['+'] => .error .invalidDigit
  | '+' :: cs => readDigits limit 0 cs
  | cs => readDigits limit 0 cs

/-- Reads an integer from `-lower` to `upper`. -/
def readInt (lower upper : Nat) : List Char → Except NumeralFault Int
  | ['-'] => .error .invalidDigit
  | '-' :: cs => (readDigits lower 0 cs).map fun n => -(n : Int)
  | cs => (readNat upper cs).map fun n => (n : Int)

theorem readDigits_le {limit seen n : Nat} {cs : List Char} (hseen : seen ≤ limit)
    (h : readDigits limit seen cs = .ok n) : n ≤ limit := by
  induction cs generalizing seen with
  | nil => simp_all [readDigits]
  | cons c cs ih =>
    simp only [readDigits] at h
    split at h
    · split at h
      · next hle => exact ih hle h
      · simp at h
    · simp at h

/-- What is read never exceeds the limit. -/
theorem readNat_le {limit n : Nat} {cs : List Char} (h : readNat limit cs = .ok n) : n ≤ limit := by
  unfold readNat at h
  split at h
  · simp at h
  · simp at h
  · exact readDigits_le (Nat.zero_le _) h
  · exact readDigits_le (Nat.zero_le _) h

/-- A number is written in digits. -/
theorem isDigit_of_mem_repr {n : Nat} : ∀ c ∈ n.repr.toList, c.isDigit = true := by
  intro c hc
  rw [Nat.toList_repr] at hc
  exact Nat.isDigit_of_mem_toDigits (by decide) (by decide) hc

end DebugBridge.Text
