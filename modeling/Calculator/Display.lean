import Calculator.Decimal.Context
import Calculator.Decimal.Text

/-! Showing a result to people: whole numbers without trailing zeros, other numbers rounded half
to even to a number of decimal places, with a mark of whether rounding changed the value. -/

namespace Calculator

namespace Decimal

/-- Whether a decimal is a whole number. -/
def isIntegral (d : Decimal) : Bool :=
  d.isZero || 0 ≤ d.exp || ((-d.exp).toNat < d.digits && d.coeff % pow10 (-d.exp).toNat == 0)

/-- The same number with exponent e: zeros appended, or digits dropped rounding half to even. -/
def rescale (d : Decimal) (e : Int) : Decimal :=
  if d.isZero then ⟨d.negative, 0, e⟩
  else if e ≤ d.exp then ⟨d.negative, d.coeff * pow10 (d.exp - e).toNat, e⟩
  else ⟨d.negative, roundOff d.coeff (e - d.exp).toNat, e⟩

/-- The decimal times `10 ^ k`, fitted into the context. A shift by more than twice
`emax + precision` places is refused: no result in the context could come of it. -/
def scale (c : Context) (d : Decimal) (k : Int) : Except Signal Decimal :=
  if 2 * (c.emax + c.precision) < k.natAbs then .error .invalidOperation
  else c.fit d.negative d.coeff (d.exp + k)

/-- Fits a decimal into the context, then removes trailing zeros while the exponent stays below
`emax`; a zero gets exponent zero. -/
def normalize (c : Context) (d : Decimal) : Except Signal Decimal := do
  let d ← c.fitDecimal d
  if d.isZero then pure ⟨d.negative, 0, 0⟩
  else
    let (coeff, exp) := stripZeros d.coeff d.exp c.emax
    pure ⟨d.negative, coeff, exp⟩

/-- The decimal with exponent e in the context, rounding half to even. It is refused when e lies
outside `etiny .. emax`, or when the result would need more digits than the precision or a
leading digit above `emax`. -/
def quantize (c : Context) (d : Decimal) (e : Int) : Except Signal Decimal :=
  if e < c.etiny ∨ c.emax < e then .error .invalidOperation
  else if d.isZero then c.fit d.negative 0 e
  else if c.emax < d.adjusted then .error .invalidOperation
  else if (c.precision : Int) < d.adjusted - e + 1 then .error .invalidOperation
  else
    let result := d.rescale e
    if c.emax < result.adjusted ∨ c.precision < result.digits then .error .invalidOperation
    else c.fitDecimal result

end Decimal

/-- Why a result cannot be shown. -/
inductive ShowError where
  /-- A decimal operation signalled. -/
  | signal (s : Signal)
  /-- The working precision is above the largest precision a context may have. -/
  | precisionTooLarge
  /-- The working precision does not even fit a signed 64-bit word. -/
  | precisionBeyondWord
deriving DecidableEq, Inhabited

/-- The largest value of a signed 64-bit word. -/
def wordMax : Nat := 9223372036854775807

namespace Numeric

/-- The exponent of the leading digit, and zero for the special values. -/
def adjusted : Numeric → Int
  | .finite d => d.adjusted
  | _ => 0

/-- The text of a result for people, and whether rounding changed its value.

The working precision is `max 128 (adjusted + places + 2)`, so that no digit kept is lost; it
must be a precision a context may have. A whole number is normalized and written in fixed
notation. Any other number is first rounded to `places` decimal places (to a whole number when
places is not positive). An infinity is written as it is; a quiet not-a-number counts as
rounded; a signaling one is refused. -/
def display (v : Numeric) (places : Int) : Except ShowError (String × Bool) :=
  let precision := max 128 (v.adjusted + places + 2)
  if (wordMax : Int) < precision then .error .precisionBeyondWord
  else if (Context.maxPrecision : Int) < precision then .error .precisionTooLarge
  else
    let c := Context.ofPrecision precision.toNat
    match v with
    | .infinity _ => .ok (v.toText, false)
    | .nan _ true _ => .error (.signal .invalidOperation)
    | .nan negative false payload =>
      -- The payload keeps only as many trailing digits as the working precision has.
      let payload :=
        if c.precision < Decimal.digitCount payload then payload % Decimal.pow10 c.precision
        else payload
      .ok ((Numeric.nan negative false payload).toText, true)
    | .finite d =>
      let shown : Except Signal (String × Bool) :=
        if d.isIntegral then do
          let n ← d.normalize c
          pure (n.toFixedText, false)
        else do
          let unit ← if 0 < places then (⟨false, 1, 0⟩ : Decimal).scale c (-places)
            else pure ⟨false, 1, 0⟩
          let rounded ← d.quantize c unit.exp
          let n ← rounded.normalize c
          pure (n.toFixedText, !rounded.sameValue d)
      shown.mapError .signal

end Numeric

end Calculator
