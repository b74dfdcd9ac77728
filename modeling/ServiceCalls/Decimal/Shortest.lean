import ServiceCalls.Decimal.Binary64

/-
  The shortest decimal of a binary number.

  A decimal reads back as a number when it lies in the
  interval of reals that round to it.  For one digit, two
  digits and so on the two neighbours of the number on the
  decimal grid are tried; the first grid with a hit wins,
  and of two hits the nearer one.

  Key definitions include:
    * `Decimal`
    * `Binary64.shortest`
-/

namespace ServiceCalls

/- The decimal `digits * 10 ^ exponent`. -/
structure Decimal where
  digits : Nat
  exponent : Int
deriving DecidableEq, Repr

namespace Binary64

------------------------------------------------------------
-- The Rounding Interval
------------------------------------------------------------

/-
  Twice the bounds of the reals that round to a magnitude,
  over the denominator of the last result, in units of a
  quarter of the last place.
-/
def bounds (x : Binary64) : Nat × Nat × Nat × Nat :=
  let m := x.significand
  let low :=
    if m = Nat.pow 2 52 ∧ x.exponent ≠ minExponent then
      4 * m - 1
    else
      4 * m - 2
  let high := 4 * m + 2
  if 0 ≤ x.exponent then
    let s := Nat.pow 2 x.exponent.toNat
    (low * s, 4 * m * s, high * s, 4)
  else
    (low, 4 * m, high,
      4 * Nat.pow 2 (-x.exponent).toNat)

/- Compare `d * 10 ^ e` with the fraction `num / den`. -/
def scaled (d : Nat) (e : Int) (num den : Nat) : Nat × Nat :=
  if 0 ≤ e then
    (d * Nat.pow 10 e.toNat * den, num)
  else
    (d * den, num * Nat.pow 10 (-e).toNat)

/- Whether a decimal lies in the rounding interval. -/
def readsBack (x : Binary64) (d : Nat) (e : Int) : Bool :=
  let (low, _, high, den) := x.bounds
  let (a, b) := scaled d e low den
  let (c, f) := scaled d e high den
  if x.significand % 2 = 0 then b ≤ a && c ≤ f
  else b < a && c < f

------------------------------------------------------------
-- Search
------------------------------------------------------------

/- The place of the first digit of a positive fraction. -/
def leadingPlace (num den : Nat) : Int :=
  if den ≤ num then
    ((Nat.toDigits 10 (num / den)).length : Int)
  else
    1 - ((Nat.toDigits 10 ((den + num - 1) / num)).length : Int)

/- The whole multiples of `10 ^ e` around a magnitude. -/
def gridFloor (x : Binary64) (e : Int) : Nat :=
  let (_, mid, _, den) := x.bounds
  if 0 ≤ e then mid / (den * Nat.pow 10 e.toNat)
  else mid * Nat.pow 10 (-e).toNat / den

/- Of two neighbours, whether the upper one is nearer. -/
def upperNearer (x : Binary64) (d : Nat) (e : Int) : Bool :=
  let (_, mid, _, den) := x.bounds
  let (a, b) := scaled (2 * d + 1) e (2 * mid) den
  a < b || (a == b && d % 2 == 1)

/- The decimal on one grid that reads back, if any. -/
def onGrid (x : Binary64) (e : Int) : Option Decimal :=
  let d := x.gridFloor e
  let lower := 0 < d && x.readsBack d e
  let upper := x.readsBack (d + 1) e
  if lower && upper then
    some ⟨if x.upperNearer d e then d + 1 else d, e⟩
  else if lower then some ⟨d, e⟩
  else if upper then some ⟨d + 1, e⟩
  else none

/- Try grids from coarse to fine. -/
def searchGrids (x : Binary64) : Nat → Int → Option Decimal
  | 0, _ => none
  | fuel + 1, e =>
      match x.onGrid e with
      | some decimal => some decimal
      | none => searchGrids x fuel (e - 1)

/- Drop trailing zeros of the digits. -/
def dropZeros : Nat → Decimal → Decimal
  | 0, decimal => decimal
  | fuel + 1, decimal =>
      if decimal.digits % 10 = 0 ∧ decimal.digits ≠ 0 then
        dropZeros fuel
          ⟨decimal.digits / 10, decimal.exponent + 1⟩
      else
        decimal

/- The decimal with the fewest digits that reads back. -/
def shortest (x : Binary64) : Decimal :=
  if x.isZero then ⟨0, 0⟩
  else
    let (num, den) := x.ratio
    let place := leadingPlace num den
    match x.searchGrids 20 place with
    | some decimal => dropZeros 20 decimal
    | none => ⟨0, 0⟩

end Binary64

end ServiceCalls
