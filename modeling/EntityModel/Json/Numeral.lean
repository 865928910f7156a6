import EntityModel.Json.Basic

/-!
# Numerals

A numeral is a number as it is written. A whole numeral that a 64-bit word holds is that integer;
`-0` and all other numerals are double-precision numbers. The value of such a numeral is found
with two roundings: as many leading digits as a 64-bit word holds are rounded to a
double-precision number, which is then multiplied or divided by a power of ten. It may therefore
miss the nearest number by one unit in the last place. A numeral beyond the range of the format
has no value.
-/

namespace EntityModel

/-- A number as it is written: the digits before and after the point and the exponent. -/
structure Numeral where
  negative : Bool
  whole : List Nat
  fraction : List Nat
  /-- Whether the exponent is negative, and its digits. -/
  exponent : Option (Bool × List Nat)
  deriving DecidableEq, Repr

namespace Numeral

/-- The largest significand that is gathered: the largest unsigned 64-bit word. -/
def significandLimit : Nat := UInt64.size - 1

/-- The significand continued by further digits while it stays within the limit, and the number of
digits that were taken. -/
def gather (significand : Nat) : List Nat → Nat × Nat
  | [] => (significand, 0)
  | d :: rest =>
    if significand * 10 + d ≤ significandLimit then
      let (s, n) := gather (significand * 10 + d) rest
      (s, n + 1)
    else (significand, 0)

/-- The largest exponent that is read: the largest signed 32-bit word. -/
def exponentLimit : Nat := Nat.pow 2 31 - 1

/-- The written exponent. Its digits are read up to the largest signed 32-bit word; beyond it there
is none. -/
def exponentDigits (n : Nat) : List Nat → Option Nat
  | [] => some n
  | d :: rest => if n * 10 + d ≤ exponentLimit then exponentDigits (n * 10 + d) rest else none

/-- A double-precision number scaled by a power of ten in steps of at most `10 ^ 308`. The result is
`none` where it lies beyond the range of the format. -/
def scale (x : Binary64) (e : Int) : Option Binary64 :=
  if h : e.natAbs ≤ 308 then
    if 0 ≤ e then
      let y := x.mul (Binary64.powerOfTen e.natAbs)
      if y.isFinite then some y else none
    else some (x.div (Binary64.powerOfTen e.natAbs))
  else if x.isZero then some x
  else if 0 ≤ e then none
  else scale (x.div (Binary64.powerOfTen 308)) (e + 308)
termination_by e.natAbs
decreasing_by omega

/-- An exponent kept within the signed 32-bit words. -/
def saturate (e : Int) : Int :=
  max Int32.minValue.toInt (min Int32.maxValue.toInt e)

def signed (negative : Bool) (x : Binary64) : Binary64 :=
  if negative then x.neg else x

/-- The value of a numeral as a double-precision number. -/
def float? (n : Numeral) : Option Binary64 :=
  let (w, taken) := gather 0 n.whole
  let (s, fractional) := gather w n.fraction
  let start : Int := ((n.whole.length - taken : Nat) : Int) - fractional
  let magnitude :=
    match n.exponent with
    | none => scale (Binary64.ofInt s) start
    | some (down, digits) =>
      match exponentDigits 0 digits with
      | some e => scale (Binary64.ofInt s) (saturate (if down then start - e else start + e))
      | none => if s ≠ 0 ∧ down = false then none else some (Binary64.zero false)
  magnitude.map (signed n.negative)

/-- Whether the numeral has neither a point nor an exponent. -/
def isWhole (n : Numeral) : Bool :=
  n.fraction.isEmpty && n.exponent.isNone

/-- The natural number that a list of digits denotes. -/
def natOfDigits (digits : List Nat) : Nat :=
  digits.foldl (fun n d => n * 10 + d) 0

/-- The value of a numeral, `none` beyond the range of the format. -/
def value? (n : Numeral) : Option JsonNumber :=
  let m := natOfDigits n.whole
  if n.isWhole && !n.negative && decide (m < UInt64.size) then some (.integer m)
  else if n.isWhole && n.negative && decide (0 < m) && decide (m ≤ Nat.pow 2 63) then
    some (.integer (-m))
  else n.float?.map .float

end Numeral

end EntityModel
