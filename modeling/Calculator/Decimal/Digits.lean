/-! Decimal digits of natural numbers: how many there are, and their text. -/

namespace Calculator.Decimal

/-- Ten to the power k. -/
def pow10 (k : Nat) : Nat := Nat.pow 10 k

/-- Raises a digit count until its power of ten passes n. -/
def raiseCount (n d : Nat) : Nat :=
  if pow10 d ≤ n then raiseCount n (d + 1) else d
termination_by n + 1 - pow10 d
decreasing_by
  have grows : pow10 d < pow10 (d + 1) := Nat.pow_lt_pow_right (by decide) (Nat.lt_succ_self d)
  omega

/-- Lowers a digit count while the power of ten below it still exceeds n. -/
def lowerCount (n d : Nat) : Nat :=
  if 1 < d ∧ n < pow10 (d - 1) then lowerCount n (d - 1) else d
termination_by d

/-- The number of decimal digits of n, where zero has one digit.

The count starts from the estimate `log₂ n · log₁₀ 2` and is corrected both ways, so the estimate
decides only the speed. -/
def digitCount (n : Nat) : Nat :=
  let estimate := n.log2 * 3010299957 / 10000000000 + 1
  raiseCount n (lowerCount n estimate)

/-- Exactly `width` digits of n, leading zeros included, for n below `10 ^ width`.

Long numbers are cut in halves by a power of ten, so the work stays near that of one division. -/
def paddedDigits (width n : Nat) : List Char :=
  if width ≤ 18 then
    let digits := (Nat.repr n).toList
    List.replicate (width - digits.length) '0' ++ digits
  else
    let low := width / 2
    let unit := pow10 low
    paddedDigits (width - low) (n / unit) ++ paddedDigits low (n % unit)
termination_by width

/-- The decimal digits of n without leading zeros; zero is written as one digit. -/
def digitList (n : Nat) : List Char := paddedDigits (digitCount n) n

/-- The number whose decimal digits are given, most significant first. -/
def ofDigitList (ds : List Nat) : Nat := ds.foldl (fun acc d => 10 * acc + d) 0

/-- Removes trailing zeros of a coefficient, raising its exponent, while the exponent stays
below the limit. -/
def stripZeros (coeff : Nat) (exp limit : Int) : Nat × Int :=
  if h : coeff ≠ 0 ∧ coeff % 10 = 0 ∧ exp < limit then stripZeros (coeff / 10) (exp + 1) limit
  else (coeff, exp)
termination_by coeff
decreasing_by exact Nat.div_lt_self (Nat.pos_of_ne_zero h.1) (by decide)

end Calculator.Decimal
