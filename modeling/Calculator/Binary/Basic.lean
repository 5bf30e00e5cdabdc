import Calculator.Decimal.Digits

/-! Binary floating-point numbers of 53 significant bits, and the nearest one to an exact
decimal value. -/

namespace Calculator

/-- A double-precision binary floating-point value by its meaning.

A finite value is `(-1)^negative · mantissa · 2^exp`, kept normalised: either
`2^52 ≤ mantissa < 2^53` with `-1074 ≤ exp ≤ 971`, or a subnormal or zero with `exp = -1074`. -/
inductive Binary64 where
  | finite (negative : Bool) (mantissa : Nat) (exp : Int)
  | infinity (negative : Bool)
  | nan
deriving DecidableEq, Inhabited

namespace Binary64

/-- Two to the power k. -/
def pow2 (k : Nat) : Nat := Nat.pow 2 k

/-- The exponent of the last bit of the subnormal numbers. -/
def minExp : Int := -1074

/-- The largest exponent of the last bit of a finite number. -/
def maxExp : Int := 971

/-- The quotient `num / den` scaled by `2 ^ -q`, as integer quotient and remainder. -/
def scaledDivMod (num den : Nat) (q : Int) : Nat × Nat :=
  let n := if q < 0 then num * pow2 (-q).toNat else num
  let d := if q < 0 then den else den * pow2 q.toNat
  (n / d, n % d)

/-- Rounds `quot + rem / den` to an integer, half to even. -/
def roundHalfEven (quot rem den : Nat) : Nat :=
  if den < 2 * rem ∨ (2 * rem = den ∧ quot % 2 = 1) then quot + 1 else quot

/-- The floating-point number nearest to the positive rational `num / den`, ties to an even
mantissa; a value past the largest finite number becomes an infinity. -/
def nearest (negative : Bool) (num den : Nat) : Binary64 :=
  if num = 0 ∨ den = 0 then .finite negative 0 minExp
  else
    -- The exponent that puts 53 bits before the point, from the bit lengths, then corrected once.
    let q0 : Int := (num.log2 : Int) - den.log2 - 52
    let q := if (scaledDivMod num den q0).1 < pow2 52 then q0 - 1 else q0
    let q := max q minExp
    let (quot, rem) := scaledDivMod num den q
    let d := if q < 0 then den else den * pow2 q.toNat
    let m := roundHalfEven quot rem d
    -- A carry into the 54th bit moves the exponent up by one.
    let (m, q) := if m = pow2 53 then (pow2 52, q + 1) else (m, q)
    if maxExp < q then .infinity negative else .finite negative m q

/-- The floating-point number nearest to `(-1)^negative · coeff · 10^exp`.

With `10^(size-1) ≤ coeff · 10^exp < 10^size`, values far outside the range are decided without
forming their powers of ten: from `10^309` on they are infinite, below `10^-324` (under half the
least subnormal) they round to zero. -/
def ofDecimal (negative : Bool) (coeff : Nat) (exp : Int) : Binary64 :=
  let size := exp + Decimal.digitCount coeff
  if coeff = 0 then .finite negative 0 minExp
  else if 309 < size then .infinity negative
  else if size ≤ -324 then .finite negative 0 minExp
  else if 0 ≤ exp then nearest negative (coeff * Decimal.pow10 exp.toNat) 1
  else nearest negative coeff (Decimal.pow10 (-exp).toNat)

end Binary64

end Calculator
