import Calculator.Proofs.Digits
import Calculator.Proofs.Evaluation

/-! Exact results: when the exact value of an operation has at most `precision` significant
digits and a leading digit inside the exponent range, every operation gives a decimal of exactly
that value, whatever representation it picks. -/

namespace Calculator

namespace Decimal

/-- The rational number a decimal stands for. -/
def toRat (d : Decimal) : ℚ := (signed d.negative d.coeff : ℚ) * 10 ^ d.exp

@[simp] theorem signed_cast (negative : Bool) (n : Nat) :
    (signed negative n : ℚ) = if negative then -(n : ℚ) else n := by
  unfold signed
  -- The cast commutes with the negation in the negative case.
  split <;> simp

theorem abs_signed (negative : Bool) (n : Nat) : |(signed negative n : ℚ)| = n := by
  cases negative <;> simp

theorem abs_toRat (d : Decimal) : |d.toRat| = d.coeff * 10 ^ d.exp := by
  -- The sign goes, and the power of ten is positive.
  rw [toRat, abs_mul, abs_signed, abs_of_pos (zpow_pos (by norm_num) _)]

theorem toRat_eq_zero_iff (d : Decimal) : d.toRat = 0 ↔ d.coeff = 0 := by
  have power : (10 : ℚ) ^ d.exp ≠ 0 := zpow_ne_zero _ (by norm_num)
  -- The power of ten is never zero, so the coefficient decides.
  rw [← abs_eq_zero, abs_toRat, mul_eq_zero, Nat.cast_eq_zero]
  simp [power]

theorem toRat_negate (d : Decimal) : d.negate.toRat = -d.toRat := by
  -- Negating flips the sign flag and nothing else.
  cases d with
  | mk negative coeff exp => cases negative <;> simp [negate, toRat]

/-- Moving k zeros from the coefficient into the exponent keeps the value. -/
theorem toRat_shift (negative : Bool) (m k : Nat) (exp : Int) :
    (⟨negative, m * 10 ^ k, exp⟩ : Decimal).toRat = (⟨negative, m, exp + k⟩ : Decimal).toRat := by
  simp only [toRat, signed_cast, zpow_add₀ (by norm_num : (10 : ℚ) ≠ 0), zpow_natCast]
  -- Either sign, the power moves from the coefficient to the exponent.
  split <;> push_cast <;> ring

/-! ### The leading digit -/

/-- The exponent of the leading digit of a positive rational is the one whose power of ten it
reaches and whose next power it stays below. -/
theorem log_ten_eq {r : ℚ} {a : Int} (lower : (10 : ℚ) ^ a ≤ r) (upper : r < 10 ^ (a + 1)) :
    Int.log 10 r = a := by
  -- The two bounds are the two halves of the characterisation of the logarithm.
  have positive : 0 < r := lt_of_lt_of_le (zpow_pos (by norm_num) a) lower
  have above : a ≤ Int.log 10 r :=
    (Int.zpow_le_iff_le_log (by norm_num) positive).mp (by exact_mod_cast lower)
  have below : Int.log 10 r < a + 1 :=
    (Int.lt_zpow_iff_log_lt (by norm_num) positive).mp (by exact_mod_cast upper)
  omega

/-- A coefficient stays below ten to its digit count. -/
theorem coeff_lt_pow_digits (d : Decimal) : (d.coeff : ℚ) < 10 ^ (d.digits : Int) := by
  -- The bound on naturals, cast.
  rw [zpow_natCast]
  exact_mod_cast lt_pow_digitCount d.coeff

/-- A nonzero coefficient reaches ten to one less than its digit count. -/
theorem pow_digits_le_coeff {d : Decimal} (nonzero : d.coeff ≠ 0) :
    (10 : ℚ) ^ ((d.digits : Int) - 1) ≤ d.coeff := by
  -- The bound on naturals, cast; the count is at least one, so the exponent is natural.
  have reached : ((10 ^ (d.digits - 1) : Nat) : ℚ) ≤ d.coeff := by
    exact_mod_cast pow_digitCount_le nonzero
  have positive := one_le_digitCount d.coeff
  have lowered : (d.digits : Int) - 1 = ((d.digits - 1 : Nat) : Int) := by
    unfold digits
    omega
  rw [lowered, zpow_natCast]
  exact_mod_cast reached

/-- A decimal stays below ten to one past its adjusted exponent. -/
theorem abs_toRat_lt (d : Decimal) : |d.toRat| < 10 ^ (d.adjusted + 1) := by
  -- One past the leading digit is the digit count above the exponent.
  have sum : d.adjusted + 1 = (d.digits : Int) + d.exp := by
    unfold adjusted
    omega
  rw [abs_toRat, sum, zpow_add₀ (by norm_num)]
  exact mul_lt_mul_of_pos_right (coeff_lt_pow_digits d) (zpow_pos (by norm_num) _)

/-- A nonzero decimal reaches ten to its adjusted exponent. -/
theorem pow_adjusted_le {d : Decimal} (nonzero : d.coeff ≠ 0) : 10 ^ d.adjusted ≤ |d.toRat| := by
  -- The leading digit is one below the digit count above the exponent.
  have sum : d.adjusted = ((d.digits : Int) - 1) + d.exp := by
    unfold adjusted
    omega
  rw [abs_toRat, sum, zpow_add₀ (by norm_num)]
  exact mul_le_mul_of_nonneg_right (pow_digits_le_coeff nonzero) (zpow_nonneg (by norm_num) _)

/-- The leading digit of a nonzero decimal stands at its adjusted exponent. -/
theorem log_abs_toRat {d : Decimal} (nonzero : d.coeff ≠ 0) : Int.log 10 |d.toRat| = d.adjusted :=
  log_ten_eq (pow_adjusted_le nonzero) (abs_toRat_lt d)

/-- A decimal that is a whole multiple of ten to `exp + k` has k trailing zeros in its
coefficient. -/
theorem dvd_coeff_of_multiple {d : Decimal} {z : Int} {k : Nat}
    (multiple : d.toRat = z * 10 ^ (d.exp + k)) : 10 ^ k ∣ d.coeff := by
  -- Cancel ten to the exponent from both magnitudes; the coefficient is then |z| times ten to k.
  have power : (0 : ℚ) < 10 ^ (d.exp + k) := zpow_pos (by norm_num) _
  have absolute : (d.coeff : ℚ) * 10 ^ d.exp = |(z : ℚ)| * 10 ^ (d.exp + k) := by
    rw [← abs_toRat, multiple, abs_mul, abs_of_pos power]
  have scaled : (d.coeff : ℚ) * 10 ^ d.exp = ((z.natAbs * 10 ^ k : Nat) : ℚ) * 10 ^ d.exp := by
    rw [absolute, zpow_add₀ (by norm_num), zpow_natCast]
    push_cast [Nat.cast_natAbs, Int.cast_abs]
    ring
  have cancelled : (d.coeff : ℚ) = ((z.natAbs * 10 ^ k : Nat) : ℚ) :=
    mul_right_cancel₀ (zpow_ne_zero _ (by norm_num)) scaled
  exact ⟨z.natAbs, by rw [Nat.cast_inj.mp cancelled, mul_comm]⟩

end Decimal

/-! ### Values a context holds -/

/-- A rational number the context holds exactly: it is written with at most `precision`
significant digits, and unless it is zero its leading digit lies between `emin` and `emax`. -/
structure Context.Holds (c : Context) (x : ℚ) : Prop where
  digits : ∃ (n : Nat) (e : Int), |x| = n * 10 ^ e ∧ n < 10 ^ c.precision
  range : x ≠ 0 → c.emin ≤ Int.log 10 |x| ∧ Int.log 10 |x| ≤ c.emax

namespace Context.Holds

variable {c : Context} {x : ℚ}

/-- A number the context holds is a whole multiple of the unit of its last digit, `precision`
places below the power of ten one past its leading digit. -/
theorem multiple (holds : c.Holds x) :
    ∃ z : Int, x = z * 10 ^ (Int.log 10 |x| - c.precision + 1) := by
  obtain ⟨n, e, written, short⟩ := holds.digits
  -- Zero is a multiple of every power.
  by_cases zero : x = 0
  · exact ⟨0, by simp [zero]⟩
  -- The leading digit lies below ten to `precision + e`, so the last unit is at most ten to e.
  have upper : |x| < 10 ^ ((c.precision : Int) + e) := by
    rw [written, zpow_add₀ (by norm_num), zpow_natCast]
    have cast : (n : ℚ) < 10 ^ c.precision := by exact_mod_cast short
    exact mul_lt_mul_of_pos_right cast (zpow_pos (by norm_num) _)
  have positive : 0 < |x| := abs_pos.mpr zero
  have leading : Int.log 10 |x| < c.precision + e :=
    (Int.lt_zpow_iff_log_lt (by norm_num) positive).mp (by exact_mod_cast upper)
  set unit := Int.log 10 |x| - c.precision + 1 with unitIs
  obtain ⟨k, gap⟩ : ∃ k : Nat, e = unit + k := ⟨(e - unit).toNat, by omega⟩
  have whole : |x| = ((n * 10 ^ k : Nat) : ℚ) * 10 ^ unit := by
    rw [written, gap, zpow_add₀ (by norm_num), zpow_natCast]
    push_cast
    ring
  -- The sign of x carries over to the multiple.
  rcases le_total 0 x with nonneg | nonpos
  · rw [abs_of_nonneg nonneg] at whole
    exact ⟨n * 10 ^ k, by rw [whole]; push_cast; ring⟩
  · rw [abs_of_nonpos nonpos] at whole
    exact ⟨-(n * 10 ^ k : Nat), by rw [← neg_neg x, whole]; push_cast; ring⟩

/-- A number the context holds, scaled up to at least ten to the precision, is whole: its last
digit stands at or above the unit. -/
theorem whole_of_le (holds : c.Holds x) {s : Int}
    (large : 10 ^ (c.precision : Int) ≤ |x| * 10 ^ s) : ∃ N : Nat, (N : ℚ) = |x| * 10 ^ s := by
  have power : (0 : ℚ) < 10 ^ s := zpow_pos (by norm_num) _
  have lower : (10 : ℚ) ^ ((c.precision : Int) - s) ≤ |x| := by
    rw [zpow_sub₀ (by norm_num), div_le_iff₀ power]
    exact large
  have positive : 0 < |x| := lt_of_lt_of_le (zpow_pos (by norm_num) _) lower
  -- The leading digit stands at least `precision - s` up, so the last one at least `1 - s` up.
  have leading : (c.precision : Int) - s ≤ Int.log 10 |x| :=
    (Int.zpow_le_iff_le_log (by norm_num) positive).mp (by exact_mod_cast lower)
  -- The number is a multiple of its last unit, which the scaling lifts to a whole power.
  obtain ⟨z, multipleEq⟩ := holds.multiple
  set unit := Int.log 10 |x| - c.precision + 1 with unitIs
  obtain ⟨k, gap⟩ : ∃ k : Nat, unit + s = k := ⟨(unit + s).toNat, by omega⟩
  have unitPower : (0 : ℚ) < 10 ^ unit := zpow_pos (by norm_num) _
  have absEq : |x| = |(z : ℚ)| * 10 ^ unit := by
    rw [multipleEq, abs_mul, abs_of_pos unitPower]
  refine ⟨z.natAbs * 10 ^ k, ?_⟩
  rw [absEq, mul_assoc, ← zpow_add₀ (by norm_num), gap, zpow_natCast]
  push_cast [Nat.cast_natAbs, Int.cast_abs]
  rfl

/-- Only zero is held with no digits at all. -/
theorem precision_pos (holds : c.Holds x) (nonzero : x ≠ 0) : 1 ≤ c.precision := by
  obtain ⟨n, e, written, short⟩ := holds.digits
  -- At precision zero the digits would have to be below one, so zero.
  by_contra none
  have empty : n = 0 := by
    simp only [Nat.not_le, Nat.lt_one_iff] at none
    simpa [none] using short
  exact nonzero (abs_eq_zero.mp (by simp [written, empty]))

end Context.Holds

/-! ### Fitting -/

/-- Fitting a decimal whose value the context holds gives a decimal of that value: the leading
digit is in range, so nothing overflows, and every digit that rounding drops is zero. -/
theorem Context.fit_exact {c : Context} {d : Decimal} (holds : c.Holds d.toRat) :
    ∃ d', c.fit d.negative d.coeff d.exp = .ok d' ∧ d'.toRat = d.toRat := by
  -- A zero is clamped into the exponent range and stays zero.
  by_cases zero : d.coeff = 0
  · exact ⟨⟨d.negative, 0, max (min d.exp c.emax) c.etiny⟩, by simp [Context.fit, zero],
      by simp [Decimal.toRat, zero]⟩
  have nonzero : d.toRat ≠ 0 := (Decimal.toRat_eq_zero_iff d).not.mpr zero
  have precisionPos := holds.precision_pos nonzero
  -- The leading digit stands at the adjusted exponent, which lies in the range.
  have range := holds.range nonzero
  rw [Decimal.log_abs_toRat zero] at range
  unfold Decimal.adjusted Decimal.digits at range
  have noOverflow : ¬ c.etop < (Decimal.digitCount d.coeff : Int) + d.exp - c.precision := by
    unfold Context.etop
    omega
  have aboveTiny : max ((Decimal.digitCount d.coeff : Int) + d.exp - c.precision) c.etiny =
      (Decimal.digitCount d.coeff : Int) + d.exp - c.precision := by
    unfold Context.etiny
    omega
  -- The value is a whole multiple of the unit `precision` digits below its leading digit.
  obtain ⟨z, multipleEq⟩ := holds.multiple
  rw [Decimal.log_abs_toRat zero] at multipleEq
  unfold Decimal.adjusted Decimal.digits at multipleEq
  simp only [Context.fit, zero, if_false]
  rw [if_neg noOverflow, aboveTiny]
  by_cases below : d.exp < (Decimal.digitCount d.coeff : Int) + d.exp - c.precision
  · rw [if_pos below]
    -- Rounding drops the digits past the precision; being a multiple, they are all zeros.
    have dropped : ((Decimal.digitCount d.coeff : Int) + d.exp - c.precision - d.exp).toNat =
        Decimal.digitCount d.coeff - c.precision := by omega
    have atUnit : d.toRat =
        z * 10 ^ (d.exp + ((Decimal.digitCount d.coeff - c.precision : Nat) : Int)) := by
      rw [multipleEq]
      congr 2
      omega
    have zeros := Decimal.dvd_coeff_of_multiple atUnit
    rw [dropped, Decimal.roundOff_of_dvd zero zeros]
    -- What is left has at most `precision` digits, so no carry runs through them.
    have noCarry : ¬ c.precision <
        Decimal.digitCount (d.coeff / 10 ^ (Decimal.digitCount d.coeff - c.precision)) :=
      Nat.not_lt.mpr (Decimal.digitCount_div_le d.coeff precisionPos)
    rw [if_neg noCarry]
    refine ⟨_, rfl, ?_⟩
    -- The dropped zeros move into the exponent.
    conv_rhs => rw [show d = ⟨d.negative, d.coeff / 10 ^ (Decimal.digitCount d.coeff - c.precision) *
      10 ^ (Decimal.digitCount d.coeff - c.precision), d.exp⟩ by rw [Nat.div_mul_cancel zeros]]
    rw [Decimal.toRat_shift]
    congr 2
    omega
  · -- No digit lies past the precision: the decimal is kept as it is.
    rw [if_neg below]
    exact ⟨_, rfl, rfl⟩

/-- Fitting zero gives zero, whatever its sign and exponent. -/
theorem Context.fit_zero (c : Context) (negative : Bool) (exp : Int) :
    ∃ d, c.fit negative 0 exp = .ok d ∧ d.toRat = 0 :=
  -- The zero branch of fitting only clamps the exponent.
  ⟨⟨negative, 0, max (min exp c.emax) c.etiny⟩, by simp [Context.fit], by simp [Decimal.toRat]⟩

/-! ### Multiples of powers of ten -/

/-- A multiple of a power of ten is a multiple of every lower power. -/
theorem multiple_of_le {x : ℚ} {z : Int} {unit unit' : Int} (multiple : x = z * 10 ^ unit)
    (lower : unit' ≤ unit) : ∃ z' : Int, x = z' * 10 ^ unit' := by
  -- The difference of the powers goes into the multiplier.
  obtain ⟨k, gap⟩ : ∃ k : Nat, unit = unit' + k := ⟨(unit - unit').toNat, by omega⟩
  refine ⟨z * 10 ^ k, ?_⟩
  rw [multiple, gap, zpow_add₀ (by norm_num), zpow_natCast]
  push_cast
  ring

/-- A nonzero multiple of a power of ten is at least that power in size. -/
theorem le_abs_of_multiple {x : ℚ} {z : Int} {unit : Int} (multiple : x = z * 10 ^ unit)
    (nonzero : x ≠ 0) : 10 ^ unit ≤ |x| := by
  -- A nonzero whole multiplier is at least one in size.
  have whole : (1 : ℚ) ≤ |(z : ℚ)| := by
    have : z ≠ 0 := by
      rintro rfl
      simp [multiple] at nonzero
    exact_mod_cast Int.one_le_abs this
  have power : (0 : ℚ) < 10 ^ unit := zpow_pos (by norm_num) _
  rw [multiple, abs_mul, abs_of_pos power]
  exact le_mul_of_one_le_left power.le whole

namespace Decimal

/-- A signed integer and an exponent, written as a decimal, keep their value. -/
theorem toRat_int (z : Int) (exp : Int) :
    (⟨decide (z < 0), z.natAbs, exp⟩ : Decimal).toRat = z * 10 ^ exp := by
  have signedEq : signed (decide (z < 0)) z.natAbs = z := by
    unfold signed
    -- The sign flag is set exactly for a negative z, whose magnitude then comes back negated.
    split
    · rename_i negative
      simp only [decide_eq_true_eq] at negative
      rw [Int.natCast_natAbs, abs_of_neg negative, neg_neg]
    · rename_i nonnegative
      simp only [decide_eq_true_eq, not_lt] at nonnegative
      rw [Int.natCast_natAbs, abs_of_nonneg nonnegative]
  simp only [toRat]
  rw [signedEq]

/-- A decimal is a whole multiple of ten to its exponent. -/
theorem toRat_multiple (d : Decimal) : d.toRat = (signed d.negative d.coeff : Int) * 10 ^ d.exp :=
  rfl

/-! ### Products -/

/-- The product of the coefficients at the sum of the exponents is the exact product. -/
theorem toRat_product (a b : Decimal) :
    (⟨a.negative != b.negative, a.coeff * b.coeff, a.exp + b.exp⟩ : Decimal).toRat =
      a.toRat * b.toRat := by
  obtain ⟨aNegative, aCoeff, aExp⟩ := a
  obtain ⟨bNegative, bCoeff, bExp⟩ := b
  -- The sign is negative exactly when the signs differ.
  cases aNegative <;> cases bNegative <;>
    simp [toRat, zpow_add₀ (show (10 : ℚ) ≠ 0 by norm_num)] <;> ring

/-- A product whose exact value the context holds is computed exactly. -/
theorem mul_exact {c : Context} {a b : Decimal} (holds : c.Holds (a.toRat * b.toRat)) :
    ∃ d, mul c a b = .ok d ∧ d.toRat = a.toRat * b.toRat := by
  -- The product is fitted like any decimal whose value the context holds.
  rw [← toRat_product] at holds ⊢
  exact Context.fit_exact holds

/-! ### Sums -/

/-- Two decimals brought to the smaller exponent add up exactly. -/
theorem toRat_aligned {big small : Decimal} (ordered : small.exp ≤ big.exp) :
    ((signed big.negative (big.coeff * 10 ^ (big.exp - small.exp).toNat) +
        signed small.negative small.coeff : Int) : ℚ) * 10 ^ small.exp =
      big.toRat + small.toRat := by
  -- The big operand's appended zeros bring it to the small one's exponent.
  have shifted := toRat_shift big.negative big.coeff (big.exp - small.exp).toNat small.exp
  have back : small.exp + ((big.exp - small.exp).toNat : Int) = big.exp := by omega
  rw [back] at shifted
  simp only [toRat] at shifted ⊢
  push_cast
  rw [add_mul, shifted]

/-- An operand whose leading digit lies below the rounding range of the other cannot be part of a
sum the context holds: the other operand's digits and its own would need more than `precision`
digits between them. -/
theorem not_holds_of_tiny {c : Context} {big small : Decimal} (bigNonzero : big.coeff ≠ 0)
    (smallNonzero : small.coeff ≠ 0)
    (tiny : small.adjusted < big.exp + min (-1) ((big.digits : Int) - c.precision - 2)) :
    ¬ c.Holds (big.toRat + small.toRat) := by
  intro holds
  set floor := big.exp + min (-1) ((big.digits : Int) - c.precision - 2) with floorIs
  have digitsPos : 1 ≤ big.digits := one_le_digitCount big.coeff
  -- The small operand is nonzero and below one unit at the floor.
  have smallBelow : |small.toRat| < 10 ^ floor :=
    lt_of_lt_of_le (abs_toRat_lt small) (zpow_le_zpow_right₀ (by norm_num) (by omega))
  have smallNonzeroRat : small.toRat ≠ 0 := (toRat_eq_zero_iff small).not.mpr smallNonzero
  -- The big operand is a whole number of units at the floor.
  obtain ⟨m, bigMultiple⟩ := multiple_of_le (toRat_multiple big) (show floor ≤ big.exp by omega)
  -- The sum keeps the big operand's leading digit, or the one just below it.
  have bigAbove := pow_adjusted_le bigNonzero
  have floorBelow : (10 : ℚ) ^ floor ≤ 10 ^ (big.adjusted - 1) :=
    zpow_le_zpow_right₀ (by norm_num) (by unfold adjusted; omega)
  have nine : (10 : ℚ) ^ (big.adjusted - 1) * 10 = 10 ^ big.adjusted := by
    rw [← zpow_add_one₀ (by norm_num), sub_add_cancel]
  have sumLarge : 10 ^ (big.adjusted - 1) ≤ |big.toRat + small.toRat| := by
    have triangle := abs_sub_abs_le_abs_add big.toRat small.toRat
    have positive : (0 : ℚ) < 10 ^ (big.adjusted - 1) := zpow_pos (by norm_num) _
    linarith
  have sumPositive : 0 < |big.toRat + small.toRat| :=
    lt_of_lt_of_le (zpow_pos (by norm_num) _) sumLarge
  have leading : big.adjusted - 1 ≤ Int.log 10 |big.toRat + small.toRat| :=
    (Int.zpow_le_iff_le_log (by norm_num) sumPositive).mp (by exact_mod_cast sumLarge)
  -- So the sum, held by the context, is a whole number of units at the floor as well.
  obtain ⟨z, sumMultiple⟩ := holds.multiple
  obtain ⟨w, sumAtFloor⟩ := multiple_of_le sumMultiple
    (show floor ≤ Int.log 10 |big.toRat + small.toRat| - c.precision + 1 by unfold adjusted at leading; omega)
  -- Then so is the small operand, which is too small to be one.
  have smallMultiple : small.toRat = ((w - m : Int) : ℚ) * 10 ^ floor := by
    push_cast
    rw [sub_mul, ← sumAtFloor, ← bigMultiple]
    ring
  exact absurd (le_abs_of_multiple smallMultiple smallNonzeroRat) (not_le.mpr smallBelow)

/-- Writing a decimal at a lower exponent, with zeros appended to its coefficient, and fitting
it, gives its value back when the context holds it. -/
theorem fit_lowered {c : Context} {d : Decimal} {e : Int} (lower : e ≤ d.exp)
    (holds : c.Holds d.toRat) :
    ∃ d', c.fit d.negative (d.coeff * 10 ^ (d.exp - e).toNat) e = .ok d' ∧ d'.toRat = d.toRat := by
  -- The lowered decimal has the same value, which the context holds.
  have shifted := toRat_shift d.negative d.coeff (d.exp - e).toNat e
  have back : e + ((d.exp - e).toNat : Int) = d.exp := by omega
  rw [back] at shifted
  rw [← shifted] at holds
  obtain ⟨d', fitted, value⟩ := Context.fit_exact holds
  exact ⟨d', fitted, value.trans shifted⟩

theorem isZero_eq_false {d : Decimal} (nonzero : d.coeff ≠ 0) : d.isZero = false := by
  -- Zero is told by the coefficient alone.
  simp [isZero, nonzero]

theorem isZero_eq_true {d : Decimal} (zero : d.coeff = 0) : d.isZero = true := by
  -- Zero is told by the coefficient alone, whatever the sign and exponent.
  simp [isZero, zero]

/-- A sum whose exact value the context holds is computed exactly: a zero operand leaves the
other as it is, and otherwise no operand lies so far below the other that it is replaced. -/
theorem add_exact {c : Context} {a b : Decimal} (holds : c.Holds (a.toRat + b.toRat)) :
    ∃ d, add c a b = .ok d ∧ d.toRat = a.toRat + b.toRat := by
  by_cases aZero : a.coeff = 0 <;> by_cases bZero : b.coeff = 0
  · -- Two zeros add up to zero.
    simp only [add, isZero_eq_true aZero, isZero_eq_true bZero, Bool.and_self, if_true]
    obtain ⟨d, fitted, value⟩ := Context.fit_zero c (a.negative && b.negative) (min a.exp b.exp)
    refine ⟨d, fitted, ?_⟩
    rw [value, (toRat_eq_zero_iff a).mpr aZero, (toRat_eq_zero_iff b).mpr bZero, add_zero]
  · -- A zero operand leaves the other one, brought down to the smaller exponent.
    simp only [add, isZero_eq_true aZero, isZero_eq_false bZero, Bool.true_and, Bool.false_eq_true,
      if_false, if_true, pow10_eq]
    rw [(toRat_eq_zero_iff a).mpr aZero, zero_add] at holds ⊢
    exact fit_lowered (by omega) holds
  · -- The same with the zero on the right.
    simp only [add, isZero_eq_false aZero, isZero_eq_true bZero, Bool.false_and,
      Bool.false_eq_true, if_false, if_true, pow10_eq]
    rw [(toRat_eq_zero_iff b).mpr bZero, add_zero] at holds ⊢
    exact fit_lowered (by omega) holds
  · simp only [add, isZero_eq_false aZero, isZero_eq_false bZero, Bool.false_and,
      Bool.false_eq_true, if_false, pow10_eq]
    -- Name the operands by size of exponent; both orders are handled alike.
    obtain ⟨big, small, pairEq, ordered, same, bigNonzero, smallNonzero⟩ :
        ∃ big small : Decimal, (if a.exp < b.exp then (b, a) else (a, b)) = (big, small) ∧
          small.exp ≤ big.exp ∧ big.toRat + small.toRat = a.toRat + b.toRat ∧
          big.coeff ≠ 0 ∧ small.coeff ≠ 0 := by
      split_ifs with order
      · exact ⟨b, a, rfl, by omega, add_comm _ _, bZero, aZero⟩
      · exact ⟨a, b, rfl, by omega, rfl, aZero, bZero⟩
    rw [pairEq]
    rw [← same] at holds ⊢
    -- The smaller operand is never replaced by a single unit below the rounding range.
    have kept : ¬ small.adjusted < big.exp + min (-1) ((big.digits : Int) - c.precision - 2) :=
      fun tiny => not_holds_of_tiny bigNonzero smallNonzero tiny holds
    simp only [kept, if_false]
    have aligned := toRat_aligned ordered
    split_ifs with zeroSum
    · -- The aligned sum is zero, and a zero is fitted.
      obtain ⟨d, fitted, value⟩ := Context.fit_zero c false (min a.exp b.exp)
      refine ⟨d, fitted, ?_⟩
      rw [value, ← aligned, zeroSum]
      simp
    · -- The aligned sum, signed, is fitted exactly.
      rw [← toRat_int] at aligned
      rw [← aligned] at holds ⊢
      exact Context.fit_exact holds

/-- A difference whose exact value the context holds is computed exactly. -/
theorem sub_exact {c : Context} {a b : Decimal} (holds : c.Holds (a.toRat - b.toRat)) :
    ∃ d, sub c a b = .ok d ∧ d.toRat = a.toRat - b.toRat := by
  -- A difference is the sum with the negated subtrahend.
  rw [sub_eq_add_neg, ← toRat_negate] at holds ⊢
  exact add_exact holds

/-! ### Quotients -/

/-- A decimal whose magnitude is the quotient of the magnitudes, and whose sign is negative when
exactly one operand is, is the quotient. -/
theorem toRat_quotient {a b : Decimal} {n : Nat} {e : Int} (divisor : b.coeff ≠ 0)
    (magnitude : (n : ℚ) * 10 ^ e = a.coeff / b.coeff * 10 ^ (a.exp - b.exp)) :
    (⟨a.negative != b.negative, n, e⟩ : Decimal).toRat = a.toRat / b.toRat := by
  obtain ⟨aNegative, aCoeff, aExp⟩ := a
  obtain ⟨bNegative, bCoeff, bExp⟩ := b
  have nonzero : (bCoeff : ℚ) ≠ 0 := by exact_mod_cast divisor
  have power : (10 : ℚ) ^ bExp ≠ 0 := zpow_ne_zero _ (by norm_num)
  simp only [toRat, signed_cast] at magnitude ⊢
  rw [zpow_sub₀ (by norm_num)] at magnitude
  -- Cleared of denominators, the magnitudes multiply back to the dividend.
  have product : (n : ℚ) * 10 ^ e * (bCoeff * 10 ^ bExp) = aCoeff * 10 ^ aExp := by
    rw [magnitude]
    field_simp
  cases aNegative <;> cases bNegative <;> simp <;> field_simp <;>
    first | linear_combination product | linear_combination -product

/-- Scaled by the shift of the division, the quotient of two nonzero coefficients reaches ten to
the precision. -/
theorem pow_le_scaled_quotient {a b : Decimal} (dividend : a.coeff ≠ 0) (divisor : b.coeff ≠ 0)
    (precision : Nat) :
    (10 : ℚ) ^ (precision : Int) ≤
      a.coeff / b.coeff * 10 ^ ((b.digits : Int) - a.digits + precision + 1) := by
  have bPositive : (0 : ℚ) < b.coeff := by exact_mod_cast Nat.pos_of_ne_zero divisor
  -- The quotient of the coefficients exceeds ten to `digits a - 1 - digits b`.
  have aReached := pow_digits_le_coeff dividend
  have bBelow := coeff_lt_pow_digits b
  have split : (precision : Int) =
      ((a.digits : Int) - 1) - b.digits + ((b.digits : Int) - a.digits + precision + 1) := by omega
  rw [split, zpow_add₀ (by norm_num), zpow_sub₀ (by norm_num), ← split]
  apply mul_le_mul_of_nonneg_right _ (zpow_nonneg (by norm_num) _)
  rw [div_le_div_iff₀ (zpow_pos (by norm_num) _) bPositive]
  calc (10 : ℚ) ^ ((a.digits : Int) - 1) * b.coeff
      ≤ a.coeff * b.coeff := mul_le_mul_of_nonneg_right aReached bPositive.le
    _ ≤ a.coeff * 10 ^ (b.digits : Int) := mul_le_mul_of_nonneg_left bBelow.le (by positivity)

/-- Scaled so that the quotient of the coefficients has at least `precision + 1` digits, a
quotient the context holds is a whole number. -/
theorem scaled_quotient_whole {c : Context} {a b : Decimal} (dividend : a.coeff ≠ 0)
    (divisor : b.coeff ≠ 0) (holds : c.Holds (a.toRat / b.toRat)) :
    ∃ N : Nat, (N : ℚ) = a.coeff / b.coeff * 10 ^ ((b.digits : Int) - a.digits + c.precision + 1) := by
  -- Scaled by the shift, the quotient of the coefficients reaches ten to the precision.
  have large := pow_le_scaled_quotient dividend divisor c.precision
  set shift : Int := (b.digits : Int) - a.digits + c.precision + 1 with shiftIs
  -- That quotient is the held one, moved by a power of ten.
  have moved : a.coeff / b.coeff * 10 ^ shift =
      |a.toRat / b.toRat| * 10 ^ (shift - (a.exp - b.exp)) := by
    rw [abs_div, abs_toRat, abs_toRat, zpow_sub₀ (by norm_num), zpow_sub₀ (by norm_num)]
    have aPower : (10 : ℚ) ^ a.exp ≠ 0 := zpow_ne_zero _ (by norm_num)
    have bPower : (10 : ℚ) ^ b.exp ≠ 0 := zpow_ne_zero _ (by norm_num)
    field_simp
  -- Scaled past the precision, a number the context holds is whole.
  rw [moved] at large ⊢
  exact holds.whole_of_le large

/-- A quotient the context holds comes out of the division at one digit past the precision
exactly: the scaled quotient is whole, so nothing is left over, and shedding trailing zeros
keeps its value. -/
theorem roundedQuotient_exact {c : Context} {a b : Decimal} (dividend : a.coeff ≠ 0)
    (divisor : b.coeff ≠ 0) (holds : c.Holds (a.toRat / b.toRat)) :
    ∃ d, roundedQuotient c (a.negative != b.negative) a b = .ok d ∧
      d.toRat = a.toRat / b.toRat := by
  -- The scaled quotient is a whole number N.
  obtain ⟨N, whole⟩ := scaled_quotient_whole dividend divisor holds
  have bPositive : (b.coeff : ℚ) ≠ 0 := by exact_mod_cast divisor
  unfold roundedQuotient
  simp only [pow10_eq]
  generalize (b.digits : Int) - a.digits + c.precision + 1 = shift at whole ⊢
  -- The scaled division leaves no remainder.
  have scaledEq : (if 0 ≤ shift then
      (a.coeff * 10 ^ shift.toNat / b.coeff, a.coeff * 10 ^ shift.toNat % b.coeff)
      else (a.coeff / (b.coeff * 10 ^ (-shift).toNat),
        a.coeff % (b.coeff * 10 ^ (-shift).toNat))) = (N, 0) := by
    split_ifs with up
    · have exact : a.coeff * 10 ^ shift.toNat = N * b.coeff := by
        have cast : (a.coeff : ℚ) * 10 ^ shift.toNat = N * b.coeff := by
          rw [whole, ← zpow_natCast, Int.toNat_of_nonneg up]
          field_simp
        exact_mod_cast cast
      rw [exact, Nat.mul_div_cancel _ (Nat.pos_of_ne_zero divisor), Nat.mul_mod_left]
    · have exact : a.coeff = N * (b.coeff * 10 ^ (-shift).toNat) := by
        have cast : (a.coeff : ℚ) = N * (b.coeff * 10 ^ (-shift).toNat) := by
          rw [whole, ← zpow_natCast, Int.toNat_of_nonneg (by omega), zpow_neg]
          field_simp
        exact_mod_cast cast
      rw [exact, Nat.mul_div_cancel _ (by positivity), Nat.mul_mod_left]
  simp only [scaledEq, ne_eq, not_true_eq_false, if_false]
  -- Shedding zeros keeps the value of the whole quotient at its exponent.
  have magnitude := stripZeros_value N (a.exp - b.exp - shift) (a.exp - b.exp)
  rw [whole, mul_assoc, ← zpow_add₀ (by norm_num), add_sub_cancel] at magnitude
  have quotient := toRat_quotient divisor magnitude
  rw [← quotient] at holds ⊢
  exact Context.fit_exact holds

/-- A quotient by a nonzero divisor whose exact value the context holds is computed exactly,
whether the division finds its finite expansion or rounds it at one digit past the precision. -/
theorem div_exact {c : Context} {a b : Decimal} (divisor : b.coeff ≠ 0)
    (holds : c.Holds (a.toRat / b.toRat)) :
    ∃ d, div c a b = .ok d ∧ d.toRat = a.toRat / b.toRat := by
  simp only [div, isZero_eq_false divisor, Bool.false_eq_true, if_false]
  by_cases dividend : a.coeff = 0
  · -- Zero divided by anything nonzero is zero.
    simp only [isZero_eq_true dividend, if_true]
    obtain ⟨d, fitted, value⟩ := Context.fit_zero c (a.negative != b.negative) (a.exp - b.exp)
    refine ⟨d, fitted, ?_⟩
    rw [value, (toRat_eq_zero_iff a).mpr dividend, zero_div]
  · simp only [isZero_eq_false dividend, Bool.false_eq_true, if_false]
    -- A finite expansion short enough is used; otherwise the quotient is rounded.
    split
    · rename_i q places found
      split_ifs with short
      · -- The finite expansion is the quotient, written at the right exponent.
        have expansion := exactQuotient?_spec divisor found
        have magnitude : (q : ℚ) * 10 ^ (a.exp - b.exp - places) =
            a.coeff / b.coeff * 10 ^ (a.exp - b.exp) := by
          rw [zpow_sub₀ (by norm_num), zpow_natCast, ← expansion]
          ring
        have quotient := toRat_quotient divisor magnitude
        rw [← quotient] at holds ⊢
        exact Context.fit_exact holds
      · exact roundedQuotient_exact dividend divisor holds
    · exact roundedQuotient_exact dividend divisor holds

end Decimal

/-! ### Trees -/

namespace Operation

/-- The exact result of an operation on rational numbers. -/
def exact (op : Operation) (x y : ℚ) : ℚ :=
  match op with
  | .add => x + y
  | .sub => x - y
  | .mul => x * y
  | .div => x / y

/-- An operation whose exact result the context holds, on a nonzero divisor when it divides,
gives that result. -/
theorem apply_exact {c : Context} {op : Operation} {a b : Decimal}
    (divisor : op = .div → b.coeff ≠ 0) (holds : c.Holds (op.exact a.toRat b.toRat)) :
    ∃ d, op.apply c a b = .ok d ∧ d.toRat = op.exact a.toRat b.toRat := by
  -- The zero guard does not fire, and the decimal operation is exact.
  have guard : ¬(op = .div && b.isZero) := by
    -- Only a division looks at the divisor, and it is nonzero.
    cases op with
    | div => simp [Decimal.isZero_eq_false (divisor rfl)]
    | _ => simp
  have performed : ∃ d, op.perform c a b = .ok d ∧ d.toRat = op.exact a.toRat b.toRat := by
    cases op with
    | add => exact Decimal.add_exact holds
    | sub => exact Decimal.sub_exact holds
    | mul => exact Decimal.mul_exact holds
    | div => exact Decimal.div_exact (divisor rfl) holds
  obtain ⟨d, result, value⟩ := performed
  refine ⟨d, ?_, value⟩
  simp only [apply, guard, result, Bool.false_eq_true, if_false]

end Operation

namespace Expr

/-- The exact value of a tree, with `value` for its variable. -/
def exact (value : ℚ) : Expr → ℚ
  | .num d => d.toRat
  | .var _ => value
  | .bin op l r => op.exact (l.exact value) (r.exact value)

/-- The condition for a tree to be computed exactly in a context: no divisor has the exact value
zero, and the context holds the exact value of every operation. -/
def Exact (c : Context) (value : ℚ) : Expr → Prop
  | .num _ | .var _ => True
  | .bin op l r => l.Exact c value ∧ r.Exact c value ∧ (op = .div → r.exact value ≠ 0) ∧
      c.Holds (op.exact (l.exact value) (r.exact value))

/-- A tree whose operations the context all holds exactly is computed to its exact value. -/
theorem eval_exact (c : Context) (v : Decimal) :
    ∀ t : Expr, t.Exact c v.toRat → ∃ d, t.eval c (some v) = .ok d ∧ d.toRat = t.exact v.toRat
  -- A leaf is its own exact value.
  | .num d, _ => ⟨d, rfl, rfl⟩
  | .var _, _ => ⟨v, rfl, rfl⟩
  | .bin op l r, ⟨leftExact, rightExact, divisor, holds⟩ => by
    -- Both operands come out exact, and so does the operation on them.
    obtain ⟨a, left, leftValue⟩ := eval_exact c v l leftExact
    obtain ⟨b, right, rightValue⟩ := eval_exact c v r rightExact
    have nonzero : op = .div → b.coeff ≠ 0 := fun dividing =>
      (Decimal.toRat_eq_zero_iff b).not.mp (rightValue ▸ divisor dividing)
    rw [← leftValue, ← rightValue] at holds
    obtain ⟨d, applied, value⟩ := Operation.apply_exact nonzero holds
    refine ⟨d, ?_, ?_⟩
    · simp only [eval, left, right, bind, Except.bind, applied]
    · rw [value, leftValue, rightValue]
      rfl

/-- A tree without variable leaves is computed alike with any value or none. -/
theorem eval_of_names_nil (c : Context) (value value' : Option Decimal) :
    ∀ t : Expr, t.names = [] → t.eval c value = t.eval c value'
  -- A variable leaf has a name, so only numbers and nodes are left.
  | .num _, _ => rfl
  | .bin op l r, unnamed => by
    simp only [names, List.append_eq_nil_iff] at unnamed
    simp only [eval, eval_of_names_nil c value value' l unnamed.1,
      eval_of_names_nil c value value' r unnamed.2]

end Expr

end Calculator
