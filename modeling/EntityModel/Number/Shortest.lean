import EntityModel.Number.Binary64

/-!
# Shortest decimal digits

Every number of the format has decimals that read back as it: those in the interval of reals that
round to it. The shortest decimal is taken from the coarsest decimal grid that has a point in the
interval; of two neighbouring points the nearer one is taken, and a rule decides an exact tie.
-/

namespace EntityModel

/-- Which of two equally near decimals is taken. -/
inductive TieRule where
  /-- The larger one. -/
  | up
  /-- The one whose last digit is even. -/
  | even
  deriving DecidableEq, Repr

/-- The positive decimal `digits · 10 ^ exponent`. -/
structure Decimal where
  digits : Nat
  exponent : Int
  deriving DecidableEq, Repr

namespace Decimal

/-- The significand, its exponent and the interval of a positive finite number in quarters of the
significand's unit: `(low, mid, high, exponent of the unit)`. Below a power of two the neighbours
are twice as near. -/
def quarters (x : Binary64) : Nat × Nat × Nat × Int :=
  let m := x.significand
  let low := if x.fraction = 0 ∧ 1 < x.exponentField then 4 * m - 1 else 4 * m - 2
  (low, 4 * m, 4 * m + 2, x.exponent - 2)

/-- The grid `10 ^ p` and the unit `2 ^ q` as whole numbers of one common scale. -/
def commonScale (p q : Int) : Nat × Nat :=
  (Nat.pow 10 p.toNat * Nat.pow 2 (-q).toNat, Nat.pow 2 q.toNat * Nat.pow 10 (-p).toNat)

/-- The point of the grid `10 ^ p` that reads back as the number, if there is one. -/
def onGrid? (tie : TieRule) (x : Binary64) (p : Int) : Option Decimal :=
  let (low, mid, high, q) := quarters x
  let (grid, unit) := commonScale p q
  let inside (c : Nat) : Bool :=
    -- ties are rounded to even significands, so the ends of the interval belong to these only
    if x.significand % 2 = 0 then decide (low * unit ≤ c * grid) && decide (c * grid ≤ high * unit)
    else decide (low * unit < c * grid) && decide (c * grid < high * unit)
  let c := mid * unit / grid
  let below := mid * unit - c * grid
  let above := (c + 1) * grid - mid * unit
  let nearer :=
    if below < above then c
    else if above < below then c + 1
    else match tie with
      | .up => c + 1
      | .even => if c % 2 = 0 then c else c + 1
  if inside c && inside (c + 1) then some ⟨nearer, p⟩
  else if inside c then some ⟨c, p⟩
  else if inside (c + 1) then some ⟨c + 1, p⟩
  else none

/-- The first grid with a point, going down from `10 ^ p` to ever finer grids. -/
def search (tie : TieRule) (x : Binary64) : Nat → Int → Decimal
  | 0, p => ⟨0, p⟩
  | n + 1, p => (onGrid? tie x p).getD (search tie x n (p - 1))

/-- A power of ten that no number with the given leading bit reaches. -/
def ceilingGrid (x : Binary64) : Int :=
  ((Nat.log2 x.significand : Int) + x.exponent + 1) * 30103 / 100000 + 2

/-- The shortest decimal of a positive finite number. Seventeen digits always suffice. -/
def shortest (tie : TieRule) (x : Binary64) : Decimal :=
  search tie x 24 (ceilingGrid x)

def text (d : Decimal) : List Char :=
  Nat.toDigits 10 d.digits

/-- Where the decimal point stands, counted in digits from the first one. -/
def point (d : Decimal) : Int :=
  d.text.length + d.exponent

/-- The digits with the decimal point in place: zeros fill up to the point on either side. -/
def positional (digits : List Char) (point : Int) : List Char :=
  if point ≤ 0 then '0' :: '.' :: List.replicate (-point).toNat '0' ++ digits
  else if digits.length ≤ point.toNat then
    digits ++ List.replicate (point.toNat - digits.length) '0'
  else digits.take point.toNat ++ '.' :: digits.drop point.toNat

/-- One digit before the decimal point and a signed exponent after the letter `e`. -/
def scientific (digits : List Char) (point : Int) : List Char :=
  let e := point - 1
  let sign := if e < 0 then '-' else '+'
  let rest := match digits.drop 1 with
    | [] => []
    | more => '.' :: more
  digits.take 1 ++ rest ++ 'e' :: sign :: Nat.toDigits 10 e.natAbs

end Decimal

/-- How finite numbers are written. -/
structure NumberStyle where
  /-- Which of two equally near decimals is written. -/
  tie : TieRule
  /-- Decimal exponents written with the point in place; all others are written with an exponent. -/
  isPositional : Int → Bool
  /-- What follows a whole number. -/
  wholeSuffix : List Char

def NumberStyle.write (style : NumberStyle) (x : Binary64) : String :=
  let sign := if x.isNegative then ['-'] else []
  let body :=
    if x.isZero then '0' :: style.wholeSuffix
    else
      let d := Decimal.shortest style.tie x
      if style.isPositional (d.point - 1) then
        Decimal.positional d.text d.point ++ (if 0 ≤ d.exponent then style.wholeSuffix else [])
      else Decimal.scientific d.text d.point
  String.ofList (sign ++ body)

end EntityModel
