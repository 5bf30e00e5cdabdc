import Calculator.Decimal.Digits

/-! Decimal numbers: a sign, a coefficient and a power of ten, and the special values beside them. -/

namespace Calculator

/-- A finite decimal number `(-1)^negative · coeff · 10^exp`.

The representation is not unique: `1.0` and `1` have different coefficients, and zero has a sign. -/
structure Decimal where
  negative : Bool
  coeff : Nat
  exp : Int
deriving DecidableEq, Inhabited

/-- A decimal value that may also be an infinity or not a number (quiet or signaling, with a
diagnostic payload). -/
inductive Numeric where
  | finite (d : Decimal)
  | infinity (negative : Bool)
  | nan (negative : Bool) (signaling : Bool) (payload : Nat)
deriving DecidableEq, Inhabited

namespace Decimal

/-- Positive zero with exponent zero. -/
def zero : Decimal := ⟨false, 0, 0⟩

/-- The number of digits of the coefficient. -/
def digits (d : Decimal) : Nat := digitCount d.coeff

/-- The exponent of the leading digit: `d = c.ccc × 10 ^ adjusted`. -/
def adjusted (d : Decimal) : Int := d.exp + d.digits - 1

/-- Whether the coefficient is zero, whatever the sign and exponent. -/
def isZero (d : Decimal) : Bool := d.coeff == 0

/-- The same number with the opposite sign. -/
def negate (d : Decimal) : Decimal := { d with negative := !d.negative }

/-- Three-way comparison of values, where zeros of either sign are equal. -/
def compare (a b : Decimal) : Ordering :=
  if a.isZero && b.isZero then .eq
  else if a.negative != b.negative then (if a.negative then .lt else .gt)
  else
    -- Same sign: compare magnitudes by the leading digit's exponent first, then digit by digit.
    let mag :=
      if a.isZero then Ordering.lt
      else if b.isZero then Ordering.gt
      else if a.adjusted != b.adjusted then Ord.compare a.adjusted b.adjusted
      else
        let e := min a.exp b.exp
        Ord.compare (a.coeff * pow10 (a.exp - e).toNat) (b.coeff * pow10 (b.exp - e).toNat)
    if a.negative then mag.swap else mag

/-- Two decimals are equal in value, zeros of either sign included. -/
def sameValue (a b : Decimal) : Bool := a.compare b == .eq

end Decimal

end Calculator
