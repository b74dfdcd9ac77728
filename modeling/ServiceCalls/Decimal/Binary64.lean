/-
  Binary floating point numbers of 64 bits.

  A finite number is a sign, a significand and a power of
  two.  All operations are exact on natural numbers and then
  rounded to the nearest representable number, a tie to the
  even significand.

  Key definitions include:
    * `Binary64`
    * `Binary64.round`
    * `Binary64.ofNat`
    * `Binary64.mul`
    * `Binary64.div`
-/

namespace ServiceCalls

------------------------------------------------------------
-- Representation
------------------------------------------------------------

/-
  The finite number `± significand * 2 ^ exponent`.

  A significand of 53 bits belongs to a normal number, and a
  smaller one to exponent -1074.
-/
structure Binary64 where
  negative : Bool
  significand : Nat
  exponent : Int
deriving DecidableEq, Repr

namespace Binary64

/- The least exponent. -/
def minExponent : Int :=
  -1074

/- The greatest exponent. -/
def maxExponent : Int :=
  971

/- Zero with a sign. -/
def zero (negative : Bool) : Binary64 :=
  ⟨negative, 0, minExponent⟩

/- Whether a number is zero. -/
def isZero (x : Binary64) : Bool :=
  x.significand == 0

/- The opposite number. -/
def neg (x : Binary64) : Binary64 :=
  { x with negative := !x.negative }

------------------------------------------------------------
-- Rounding
------------------------------------------------------------

/- A quotient rounded to the nearest, a tie to even. -/
def roundDiv (num den : Nat) : Nat :=
  let q := num / den
  let r := num % den
  if 2 * r < den then q
  else if den < 2 * r then q + 1
  else if q % 2 = 0 then q
  else q + 1

/- A fraction scaled down by a power of two, then rounded. -/
def scaledDiv (num den : Nat) (exponent : Int) : Nat :=
  if 0 ≤ exponent then
    roundDiv num (den * Nat.pow 2 exponent.toNat)
  else
    roundDiv (num * Nat.pow 2 (-exponent).toNat) den

/-
  The exponent at which the fraction has a significand of
  53 bits, or the least exponent if that is greater.
-/
def exponentFor (num den : Nat) : Int :=
  let guess : Int :=
    (Nat.log2 num : Int) - (Nat.log2 den : Int) - 52
  let whole :=
    if 0 ≤ guess then
      num / (den * Nat.pow 2 guess.toNat)
    else
      num * Nat.pow 2 (-guess).toNat / den
  let exact :=
    if whole < Nat.pow 2 52 then guess - 1 else guess
  max exact minExponent

/-
  The number nearest to a fraction, or nothing when it is
  too great.
-/
def round
    (negative : Bool)
    (num den : Nat) :
    Option Binary64 :=
  if num = 0 then
    some (zero negative)
  else
    let e := exponentFor num den
    let m := scaledDiv num den e
    let (m, e) :=
      if m = Nat.pow 2 53 then (Nat.pow 2 52, e + 1)
      else (m, e)
    if maxExponent < e then none
    else some ⟨negative, m, e⟩

------------------------------------------------------------
-- Arithmetic
------------------------------------------------------------

/- Numerator and denominator of the magnitude. -/
def ratio (x : Binary64) : Nat × Nat :=
  if 0 ≤ x.exponent then
    (x.significand * Nat.pow 2 x.exponent.toNat, 1)
  else
    (x.significand, Nat.pow 2 (-x.exponent).toNat)

/- The number nearest to a natural number. -/
def ofNat (n : Nat) : Option Binary64 :=
  round false n 1

/- The number nearest to an integer. -/
def ofInt (n : Int) : Option Binary64 :=
  round (n < 0) n.natAbs 1

/- The rounded product. -/
def mul (x y : Binary64) : Option Binary64 :=
  let (a, b) := x.ratio
  let (c, d) := y.ratio
  round (x.negative != y.negative) (a * c) (b * d)

/- The rounded quotient; nothing when dividing by zero. -/
def div (x y : Binary64) : Option Binary64 :=
  if y.isZero then none
  else
    let (a, b) := x.ratio
    let (c, d) := y.ratio
    round (x.negative != y.negative) (a * d) (b * c)

end Binary64

end ServiceCalls
