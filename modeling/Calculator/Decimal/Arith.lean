import Calculator.Decimal.Context

/-! Sum, difference, product and quotient of finite decimals, each computed exactly (or to one
digit past the precision, with a sticky last digit) and then fitted into the context. -/

namespace Calculator.Decimal

/-- A signed integer from a sign and a magnitude. -/
def signed (negative : Bool) (magnitude : Nat) : Int := if negative then -(magnitude : Int) else magnitude

/-- The sum of two decimals in the context.

The operand with the smaller exponent is replaced by a single unit just below the rounding range
when all its digits lie there: the rounded sum does not change, and no huge power of ten is
formed. An exact zero sum of nonzero operands is positive; the sum of two zeros is negative only
when both are. -/
def add (c : Context) (a b : Decimal) : Except Signal Decimal :=
  let exp := min a.exp b.exp
  if a.isZero && b.isZero then c.fit (a.negative && b.negative) 0 exp
  else if a.isZero then
    let e := max exp (b.exp - c.precision - 1)
    c.fit b.negative (b.coeff * pow10 (b.exp - e).toNat) e
  else if b.isZero then
    let e := max exp (a.exp - c.precision - 1)
    c.fit a.negative (a.coeff * pow10 (a.exp - e).toNat) e
  else
    let (big, small) := if a.exp < b.exp then (b, a) else (a, b)
    let floor := big.exp + min (-1) ((big.digits : Int) - c.precision - 2)
    let small := if small.adjusted < floor then ⟨small.negative, 1, floor⟩ else small
    let sum := signed big.negative (big.coeff * pow10 (big.exp - small.exp).toNat)
      + signed small.negative small.coeff
    if sum = 0 then c.fit false 0 exp
    else c.fit (sum < 0) sum.natAbs small.exp

/-- The difference of two decimals in the context: the sum with the negated subtrahend. -/
def sub (c : Context) (a b : Decimal) : Except Signal Decimal := add c a b.negate

/-- The product of two decimals in the context. -/
def mul (c : Context) (a b : Decimal) : Except Signal Decimal :=
  c.fit (a.negative != b.negative) (a.coeff * b.coeff) (a.exp + b.exp)

/-- How many times p divides n, and the part of n that p does not divide. -/
def factorOut (p n : Nat) : Nat × Nat :=
  if h : 1 < p ∧ 0 < n ∧ n % p = 0 then
    (factorOut p (n / p)).map (· + 1) id
  else (0, n)
termination_by n
decreasing_by exact Nat.div_lt_self h.2.1 h.1

/-- The least k for which d divides `10 ^ k`, with the cofactor `10 ^ k / d`, when d divides a power
of ten at all: exactly when its only prime factors are 2 and 5. -/
def tenPowerCofactor? (d : Nat) : Option (Nat × Nat) :=
  let (twos, rest) := factorOut 2 d
  let (fives, rest) := factorOut 5 rest
  if rest = 1 then
    let k := max twos fives
    some (k, Nat.pow 2 (k - twos) * Nat.pow 5 (k - fives))
  else none

/-- The quotient a / b of positive coefficients written with the fewest places, as a coefficient
and its number of places, when that quotient has a finite decimal expansion. -/
def exactQuotient? (a b : Nat) : Option (Nat × Nat) :=
  let g := Nat.gcd a b
  (tenPowerCofactor? (b / g)).map fun (places, cofactor) => (a / g * cofactor, places)

/-- The quotient of nonzero coefficients computed to one digit past the precision.

The coefficient is the integer quotient at that scale; an inexact quotient whose last digit is 0
or 5 gets 1 added, so that rounding sees it is not a tie. An exact quotient sheds trailing zeros
down to the exponent difference of the operands. -/
def roundedQuotient (c : Context) (negative : Bool) (a b : Decimal) : Except Signal Decimal :=
  let shift : Int := (b.digits : Int) - a.digits + c.precision + 1
  let exp := a.exp - b.exp - shift
  let scaled :=
    if 0 ≤ shift then
      let n := a.coeff * pow10 shift.toNat
      (n / b.coeff, n % b.coeff)
    else
      let m := b.coeff * pow10 (-shift).toNat
      (a.coeff / m, a.coeff % m)
  let q := scaled.1
  if scaled.2 ≠ 0 then
    c.fit negative (if q % 5 = 0 then q + 1 else q) exp
  else
    let stripped := stripZeros q exp (a.exp - b.exp)
    c.fit negative stripped.1 stripped.2

/-- The quotient of two decimals in the context.

A quotient with a finite expansion of at most `precision` digits is that expansion, at the
exponent difference of the operands or just below it as its places need; the rounded quotient
gives the same digits, but forms a power of ten as long as the precision. Any other quotient is
rounded. -/
def div (c : Context) (a b : Decimal) : Except Signal Decimal :=
  let negative := a.negative != b.negative
  if b.isZero then .error (if a.isZero then .invalidOperation else .divisionByZero)
  else if a.isZero then c.fit negative 0 (a.exp - b.exp)
  else
    match exactQuotient? a.coeff b.coeff with
    | some (q, places) =>
      if digitCount q ≤ c.precision then c.fit negative q (a.exp - b.exp - places)
      else roundedQuotient c negative a b
    | none => roundedQuotient c negative a b

end Calculator.Decimal
