import Calculator.Decimal.Basic

/-! Contexts: a precision and an exponent range, and the fitting of an exact result into them with
rounding half to even. -/

namespace Calculator

/-- A condition that stops a decimal operation instead of giving a result. -/
inductive Signal where
  /-- The result's leading digit lies above the largest exponent. -/
  | overflow
  /-- A finite nonzero number was divided by zero. -/
  | divisionByZero
  /-- The operation has no meaningful result, such as zero divided by zero. -/
  | invalidOperation
deriving DecidableEq, Inhabited

/-- The limits that results are fitted to: at most `precision` digits, and a leading digit whose
exponent lies between `emin` and `emax` (smaller numbers lose digits instead). -/
structure Context where
  precision : Nat
  emax : Int
  emin : Int
deriving DecidableEq, Inhabited

namespace Context

/-- The largest precision a context may have. -/
def maxPrecision : Nat := 999999999999999999

/-- The context of the given precision and the exponent range from -999999 to 999999. -/
def ofPrecision (precision : Nat) : Context := ⟨precision, 999999, -999999⟩

/-- The smallest exponent a result may have: that of the last digit of the smallest subnormal. -/
def etiny (c : Context) : Int := c.emin - c.precision + 1

/-- The largest exponent a result with all `precision` digits may have. -/
def etop (c : Context) : Int := c.emax - c.precision + 1

end Context

namespace Decimal

/-- Drops the last k digits of a coefficient, rounding half to even.

When k exceeds the number of digits the value is below a tenth of the new unit, so the result is
zero without forming `10 ^ k`. -/
def roundOff (coeff k : Nat) : Nat :=
  if digitCount coeff < k then 0
  else
    let unit := pow10 k
    let q := coeff / unit
    let r := coeff % unit
    if unit < 2 * r ∨ (2 * r = unit ∧ q % 2 = 1) then q + 1 else q

end Decimal

namespace Context

/-- Fits the exact value `(-1)^negative · coeff · 10^exp` into the context.

A zero keeps its coefficient and has its exponent clamped into `etiny .. emax`. A nonzero value
keeps at most `precision` digits and no digit below `etiny`, rounding half to even; a carry that
makes `precision + 1` digits drops one more. A leading digit above `emax` overflows. -/
def fit (c : Context) (negative : Bool) (coeff : Nat) (exp : Int) : Except Signal Decimal :=
  if coeff = 0 then
    .ok ⟨negative, 0, max (min exp c.emax) c.etiny⟩
  else
    let lowest := (Decimal.digitCount coeff : Int) + exp - c.precision
    if c.etop < lowest then .error .overflow
    else
      -- Below the normal range the last digit may not go under etiny.
      let lowest := max lowest c.etiny
      if exp < lowest then
        let rounded := Decimal.roundOff coeff (lowest - exp).toNat
        if c.precision < Decimal.digitCount rounded then
          -- The carry ran through all digits: the coefficient is a power of ten.
          if c.etop < lowest + 1 then .error .overflow
          else .ok ⟨negative, rounded / 10, lowest + 1⟩
        else .ok ⟨negative, rounded, lowest⟩
      else .ok ⟨negative, coeff, exp⟩

/-- Fits a decimal into the context. -/
def fitDecimal (c : Context) (d : Decimal) : Except Signal Decimal := c.fit d.negative d.coeff d.exp

end Context

end Calculator
