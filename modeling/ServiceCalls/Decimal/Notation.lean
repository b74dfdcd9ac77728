import ServiceCalls.Decimal.Shortest

/-
  Decimal notation of binary numbers.

  Key definitions include:
    * `Notation`
    * `Binary64.render`
-/

namespace ServiceCalls

/-
  How a decimal is laid out.

  The place of the decimal point counts from the first
  digit; positional notation is used between the two bounds,
  the lower one excluded and the upper one included.
-/
structure Layout where
  positionalAbove : Int
  positionalUpTo : Int
  wholeSuffix : String
  exponentMark : String
  positiveMark : String
  negativeMark : String
deriving DecidableEq, Repr

namespace Layout

/- Zeros for padding. -/
def zeros (n : Nat) : String :=
  String.ofList (List.replicate n '0')

/- A decimal with its point written in place. -/
def positional
    (layout : Layout)
    (digits : List Char)
    (point : Int) :
    String :=
  if point ≤ 0 then
    "0." ++ zeros (-point).toNat ++ String.ofList digits
  else if (digits.length : Int) ≤ point then
    String.ofList digits ++
      zeros (point - digits.length).toNat ++
      layout.wholeSuffix
  else
    String.ofList (digits.take point.toNat) ++ "." ++
      String.ofList (digits.drop point.toNat)

/- A decimal with one digit before the point. -/
def scientific
    (layout : Layout)
    (digits : List Char)
    (point : Int) :
    String :=
  let exponent := point - 1
  let mark :=
    if exponent < 0 then layout.negativeMark
    else layout.positiveMark
  String.ofList (digits.take 1) ++
    (if digits.length ≤ 1 then ""
      else "." ++ String.ofList (digits.drop 1)) ++
    layout.exponentMark ++ mark ++
    toString exponent.natAbs

/- The text of a decimal. -/
def render (layout : Layout) (decimal : Decimal) : String :=
  let digits := Nat.toDigits 10 decimal.digits
  let point := digits.length + decimal.exponent
  if layout.positionalAbove < point ∧
      point ≤ layout.positionalUpTo then
    layout.positional digits point
  else
    layout.scientific digits point

end Layout

/- The text of a binary number. -/
def Binary64.render (layout : Layout) (x : Binary64) :
    String :=
  (if x.negative then "-" else "") ++
    layout.render x.shortest

end ServiceCalls
