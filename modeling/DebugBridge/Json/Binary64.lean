/-
Doubles by their 64 bits, in exact integer arithmetic.

`nearest` is the double closest to a quotient, `ofDecimal` what a decimal numeral stands for, and
`shortest` the decimal that a double is written by: of all decimals that read back as it, one with
the fewest digits.
-/

namespace DebugBridge.Json.Binary64

/-- The bits of positive infinity. -/
def infinity : Nat := 0x7FF <<< 52

/-- The sign bit. -/
def signBit : Nat := 1 <<< 63

def isNegative (bits : UInt64) : Bool := signBit ≤ bits.toNat

/-- The magnitude's bits. -/
def magnitude (bits : UInt64) : Nat := bits.toNat % signBit

/-- A magnitude as `m * 2 ^ e`. -/
def parts (magnitude : Nat) : Nat × Int :=
  let field := magnitude >>> 52
  let fraction := magnitude % (1 <<< 52)
  if field = 0 then (fraction, -1074) else (fraction + (1 <<< 52), (field : Int) - 1075)

/-- `n * 2 ^ e` and `n * 10 ^ e` as quotients: a negative exponent goes to the denominator. -/
def scaled (base : Nat) (e : Int) : Nat × Nat :=
  if 0 ≤ e then (Nat.pow base e.toNat, 1) else (1, Nat.pow base (-e).toNat)

/-- The bits of the double nearest to `num / den`; half-way cases go to the even neighbour, and
what is beyond the largest double is `infinity`. -/
def nearest (num den : Nat) : Nat :=
  if num = 0 then 0
  else
    let quotientAt (e : Int) : Nat × Nat :=
      let (up, down) := scaled 2 (-e)
      (num * up, den * down)
    let guess : Int := (num.log2 : Int) - den.log2 - 53
    let (n, d) := quotientAt guess
    let e := max (-1074) (if n / d < 1 <<< 53 then guess else guess + 1)
    let (n, d) := quotientAt e
    let q := n / d
    let r := n % d
    let q := if 2 * r < d ∨ (2 * r = d ∧ q % 2 = 0) then q else q + 1
    let bits := if q < 1 <<< 52 then q else (((e + 1075).toNat) <<< 52) + (q - (1 <<< 52))
    min bits infinity

/-- The magnitude of a product or quotient of two finite doubles, rounded once. -/
def multiply (a b : Nat) : Nat :=
  let (m, e) := parts a
  let (n, f) := parts b
  let (up, down) := scaled 2 (e + f)
  nearest (m * n * up) down

@[inherit_doc multiply]
def divide (a b : Nat) : Nat :=
  let (m, e) := parts a
  let (n, f) := parts b
  let (up, down) := scaled 2 (e - f)
  nearest (m * up) (n * down)

/-- The largest power of ten that is a finite double has this exponent. -/
def topExponent : Nat := 308

/-- The double nearest to a power of ten. -/
def powerOfTen (e : Nat) : Nat := nearest (Nat.pow 10 e) 1

/-- Scales a magnitude by `10 ^ e`: one multiplication or division by a power of ten if there is a
double near it, and further divisions before that for an exponent below the least. Nothing is
returned for a result beyond the largest double. Of divisions by `10 ^ 308` three take every
magnitude below `2 ^ 64` to zero, so `steps` need not be more. -/
def scaleByTen : (steps : Nat) → (magnitude : Nat) → (e : Int) → Option Nat
  | 0, magnitude, _ => some magnitude
  | steps + 1, magnitude, e =>
    if e.natAbs ≤ topExponent then
      if 0 ≤ e then
        let product := multiply magnitude (powerOfTen e.natAbs)
        if product = infinity then none else some product
      else some (divide magnitude (powerOfTen e.natAbs))
    else if magnitude = 0 then some 0
    else if 0 ≤ e then none
    else scaleByTen steps (divide magnitude (powerOfTen topExponent)) (e + topExponent)

/-- The double that `significand * 10 ^ e` is read as: the significand is rounded, and then
scaled. -/
def ofDecimal (negative : Bool) (significand : Nat) (e : Int) : Option UInt64 :=
  (scaleByTen 4 (nearest significand 1) e).map fun bits =>
    UInt64.ofNat (if negative then bits + signBit else bits)

/-- The least and the greatest quotient that round to the magnitude `bits`, whether they do
themselves, and the magnitude itself, all three in quarters of its last place, with that unit. -/
structure Neighbourhood where
  low : Nat
  value : Nat
  high : Nat
  closed : Bool
  unit : Int

def neighbourhood (bits : Nat) : Neighbourhood :=
  let (m, e) := parts bits
  let nearBelow := bits % (1 <<< 52) = 0 ∧ 1 <<< 52 < bits
  { low := if nearBelow then 4 * m - 1 else 4 * m - 2
    value := 4 * m
    high := 4 * m + 2
    closed := m % 2 = 0
    unit := e - 2 }

/-- The multiple of `10 ^ e` nearest to the middle of the neighbourhood among those in it. -/
def Neighbourhood.onGrid? (hood : Neighbourhood) (e : Int) : Option Nat :=
  let (up, down) := scaled 2 hood.unit
  let (grid, ungrid) := scaled 10 e
  let num (x : Nat) := x * up * ungrid
  let den := down * grid
  let inside (d : Nat) :=
    if hood.closed then num hood.low ≤ d * den ∧ d * den ≤ num hood.high
    else num hood.low < d * den ∧ d * den < num hood.high
  let below := num hood.value / den
  let fromBelow := num hood.value - below * den
  let fromAbove := (below + 1) * den - num hood.value
  if inside below ∧ 0 < below then
    if inside (below + 1) ∧ (fromAbove < fromBelow ∨ (fromAbove = fromBelow ∧ below % 2 = 1)) then
      some (below + 1)
    else some below
  else if inside (below + 1) then some (below + 1)
  else none

/-- Tries the grids `10 ^ e`, `10 ^ (e - 1)`, … -/
def searchGrid (hood : Neighbourhood) : (steps : Nat) → Int → Nat × Int
  | 0, e => (0, e)
  | steps + 1, e =>
    match hood.onGrid? e with
    | some d => (d, e)
    | none => searchGrid hood steps (e - 1)

/-- The shortest decimal that reads back as a magnitude: `(d, e)` for `d * 10 ^ e`. It lies on the
coarsest grid of powers of ten that has a point among the numbers that round to the magnitude;
grids finer than `10 ^ (-343)` are not needed. -/
def shortest (magnitude : Nat) : Nat × Int :=
  if magnitude = 0 then (0, 0) else searchGrid (neighbourhood magnitude) 654 310

/-- The decimal digits of `n`. -/
def digits (n : Nat) : List Char := Nat.toDigits 10 n

/-- `count` zeros. -/
def zeros (count : Nat) : List Char := List.replicate count '0'

/-- `d * 10 ^ e` without an exponent, always with a digit on either side of a point. -/
def positional (d : Nat) (e : Int) : List Char :=
  let ds := digits d
  if 0 ≤ e then ds ++ zeros e.toNat ++ ['.', '0']
  else
    let places := (-e).toNat
    if places < ds.length then
      ds.take (ds.length - places) ++ '.' :: ds.drop (ds.length - places)
    else '0' :: '.' :: zeros (places - ds.length) ++ ds

/-- An exponent with its sign, whichever that is. -/
def exponentText (e : Int) : List Char :=
  (if e < 0 then '-' else '+') :: digits e.natAbs

/-- `d * 10 ^ e` with an exponent and one digit before the point. -/
def scientific (d : Nat) (e : Int) : List Char :=
  let ds := digits d
  let exponent := exponentText (e + ds.length - 1)
  match ds with
  | first :: second :: rest => first :: '.' :: second :: rest ++ 'e' :: exponent
  | ds => ds ++ 'e' :: exponent

def signed (bits : UInt64) (text : List Char) : List Char :=
  if isNegative bits then '-' :: text else text

/-- A finite double by its shortest digits: without an exponent from `1e-5` on and below `1e+16`,
and with one elsewhere. -/
def text (bits : UInt64) : List Char :=
  let (d, e) := shortest (magnitude bits)
  let top := e + (digits d).length
  signed bits <|
    if d = 0 ∨ (-5 < top ∧ top ≤ 16) then positional d e else scientific d e

end DebugBridge.Json.Binary64
