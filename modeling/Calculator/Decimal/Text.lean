import Calculator.Decimal.Basic

/-! Decimal numbers as text: scientific notation, which keeps every digit and the exponent, and
fixed notation, which writes the number without an exponent. -/

namespace Calculator

namespace Decimal

/-- The digits of a coefficient with a decimal point placed `point` digits from their left.

A point at or before the first digit gets a leading `0.` and zeros; a point after the last digit
pads with zeros and is not written. -/
def placePoint (ds : List Char) (point : Int) : List Char :=
  if point ≤ 0 then '0' :: '.' :: List.replicate (-point).toNat '0' ++ ds
  else if ds.length ≤ point.toNat then ds ++ List.replicate (point.toNat - ds.length) '0'
  else ds.take point.toNat ++ '.' :: ds.drop point.toNat

/-- Scientific text: plain digits when the exponent is at most zero and the number is not below
`10 ^ -6`; otherwise one digit before the point and an exponent `E+n` or `E-n`. -/
def toText (d : Decimal) : String :=
  let ds := digitList d.coeff
  let left : Int := d.exp + ds.length
  let point : Int := if d.exp ≤ 0 ∧ -6 < left then left else 1
  let shown := left - point
  let exponent :=
    if shown = 0 then []
    else 'E' :: (if 0 ≤ shown then '+' else '-') :: digitList shown.natAbs
  String.ofList ((if d.negative then ['-'] else []) ++ placePoint ds point ++ exponent)

/-- Fixed text: all digits without an exponent, a point only when digits follow it, and a minus
sign also on zero. -/
def toFixedText (d : Decimal) : String :=
  -- A zero with a positive exponent is written as a single zero.
  let exp := if d.isZero then min d.exp 0 else d.exp
  let ds := digitList d.coeff
  String.ofList ((if d.negative then ['-'] else []) ++ placePoint ds (exp + ds.length))

end Decimal

namespace Numeric

/-- The text of a special value's sign and payload, after its name. -/
def specialText (negative : Bool) (name : String) (payload : Nat) : String :=
  (if negative then "-" else "") ++ name ++ (if payload = 0 then "" else String.ofList (Decimal.digitList payload))

/-- Scientific text of a value; infinities are `Infinity`, and not-a-number values `NaN` or
`sNaN` followed by a nonzero payload. -/
def toText : Numeric → String
  | .finite d => d.toText
  | .infinity negative => if negative then "-Infinity" else "Infinity"
  | .nan negative signaling payload => specialText negative (if signaling then "sNaN" else "NaN") payload

/-- Fixed text of a value; special values are written as in scientific text. -/
def toFixedText : Numeric → String
  | .finite d => d.toFixedText
  | v => v.toText

end Numeric

end Calculator
