import Calculator.Decimal.Arith
import Mathlib

/-! Digit counts and the integer steps of decimal arithmetic: how many digits a coefficient has,
rounding off digits that are all zero, shedding trailing zeros, and the exact quotient of two
coefficients when it has a finite expansion. -/

namespace Calculator.Decimal

@[simp] theorem pow10_eq (k : Nat) : pow10 k = 10 ^ k := rfl

/-! ### Digit counts -/

/-- Raising a count stops at the first power of ten above n; it moves only past powers that n
reaches. -/
theorem raiseCount_spec (n d : Nat) :
    n < 10 ^ raiseCount n d ∧ d ≤ raiseCount n d ∧
      (raiseCount n d = d ∨ 10 ^ (raiseCount n d - 1) ≤ n) := by
  fun_induction raiseCount n d with
  | case1 d reached ih =>
    obtain ⟨above, raised, stopped⟩ := ih
    refine ⟨above, by omega, .inr ?_⟩
    -- The count moved past d, so its power one below was reached by n.
    rcases stopped with same | below
    · rw [same, Nat.add_sub_cancel]
      simpa using reached
    · exact below
  | case2 d above =>
    -- Stopped at once: d itself is above n.
    simp only [pow10_eq, Nat.not_le] at above
    exact ⟨above, le_refl d, .inl rfl⟩

/-- Lowering a positive count stops at one, or at a count whose power one below n reaches. -/
theorem lowerCount_spec (n d : Nat) (positive : 1 ≤ d) :
    1 ≤ lowerCount n d ∧ (lowerCount n d = 1 ∨ 10 ^ (lowerCount n d - 1) ≤ n) := by
  fun_induction lowerCount n d with
  -- Lowered once more, still above zero.
  | case1 d lower ih => exact ih (by omega)
  -- Stopped: at one, or because the power one below d is reached.
  | case2 d stop =>
    simp only [pow10_eq, not_and, Nat.not_lt] at stop
    refine ⟨positive, ?_⟩
    by_cases one : d = 1
    · exact .inl one
    · exact .inr (stop (by omega))

/-- The digit count is one more than the base-ten logarithm: the estimate only decides how far
the corrections go. -/
theorem digitCount_eq (n : Nat) : digitCount n = Nat.log 10 n + 1 := by
  -- Lowering then raising pins the count between two powers, whatever the estimate was.
  unfold digitCount
  have lowered := lowerCount_spec n (n.log2 * 3010299957 / 10000000000 + 1) (by omega)
  obtain ⟨above, raised, stopped⟩ :=
    raiseCount_spec n (lowerCount n (n.log2 * 3010299957 / 10000000000 + 1))
  generalize raiseCount n (lowerCount n (n.log2 * 3010299957 / 10000000000 + 1)) = count
    at above raised stopped
  generalize lowerCount n (n.log2 * 3010299957 / 10000000000 + 1) = low at lowered raised stopped
  -- The count is the least power of ten above n, and it is at least one.
  have reached : count = 1 ∨ 10 ^ (count - 1) ≤ n := by
    rcases stopped with same | below
    · subst same
      exact lowered.2
    · exact .inr below
  rcases reached with one | below
  · -- A one-digit number has logarithm zero.
    subst one
    rw [Nat.log_of_lt (by simpa using above)]
  · -- Otherwise n lies between the two powers, which fixes the logarithm.
    have positive : count - 1 + 1 = count := by omega
    rw [Nat.log_eq_of_pow_le_of_lt_pow below (by rwa [positive]), positive]

/-- Every number, zero included, has at least one digit. -/
theorem one_le_digitCount (n : Nat) : 1 ≤ digitCount n := by
  -- The count is a logarithm plus one.
  rw [digitCount_eq]
  exact Nat.le_add_left 1 _

/-- A number lies below ten to its digit count. -/
theorem lt_pow_digitCount (n : Nat) : n < 10 ^ digitCount n := by
  -- Every number lies below the power one past its logarithm.
  rw [digitCount_eq]
  exact Nat.lt_pow_succ_log_self (by decide) n

/-- A nonzero number reaches ten to one less than its digit count. -/
theorem pow_digitCount_le {n : Nat} (nonzero : n ≠ 0) : 10 ^ (digitCount n - 1) ≤ n := by
  -- A nonzero number reaches the power at its logarithm.
  rw [digitCount_eq, Nat.add_sub_cancel]
  exact Nat.pow_log_le_self 10 nonzero

/-- A number has at most k digits exactly when it lies below ten to the k, for k at least one. -/
theorem digitCount_le_iff {n k : Nat} (positive : 1 ≤ k) : digitCount n ≤ k ↔ n < 10 ^ k := by
  rw [digitCount_eq]
  constructor
  · -- Few digits: n lies below the power past its logarithm, and that is at most ten to the k.
    intro fewer
    calc n < 10 ^ (Nat.log 10 n + 1) := Nat.lt_pow_succ_log_self (by decide) n
      _ ≤ 10 ^ k := Nat.pow_le_pow_right (by decide) fewer
  · -- Below ten to the k: the power at the logarithm is below it too, so the logarithm is.
    intro below
    by_cases zero : n = 0
    · simp [zero, positive]
    · have reached : 10 ^ Nat.log 10 n < 10 ^ k :=
        lt_of_le_of_lt (Nat.pow_log_le_self 10 zero) below
      have := (Nat.pow_lt_pow_iff_right (by decide)).mp reached
      omega

/-- Dropping the digits past the precision leaves at most `precision` digits. -/
theorem digitCount_div_le (coeff : Nat) {precision : Nat} (positive : 1 ≤ precision) :
    digitCount (coeff / 10 ^ (digitCount coeff - precision)) ≤ precision := by
  -- The quotient is below ten to the precision exactly when the coefficient is below the shift.
  rw [digitCount_le_iff positive, Nat.div_lt_iff_lt_mul (Nat.pow_pos (by decide)), ← Nat.pow_add]
  calc coeff < 10 ^ digitCount coeff := lt_pow_digitCount coeff
    _ ≤ 10 ^ (precision + (digitCount coeff - precision)) :=
      Nat.pow_le_pow_right (by decide) (by omega)

/-! ### Rounding off zeros -/

/-- Rounding off k digits that are all zero drops them exactly. -/
theorem roundOff_of_dvd {coeff k : Nat} (nonzero : coeff ≠ 0) (zeros : 10 ^ k ∣ coeff) :
    roundOff coeff k = coeff / 10 ^ k := by
  -- The dropped digits are all there: ten to the k is at most the coefficient.
  have within : ¬ digitCount coeff < k := by
    intro short
    have reached : 10 ^ k ≤ coeff := Nat.le_of_dvd (Nat.pos_of_ne_zero nonzero) zeros
    have below := lt_pow_digitCount coeff
    have := Nat.pow_le_pow_right (show 0 < 10 by decide) short.le
    omega
  have rest : coeff % 10 ^ k = 0 := Nat.mod_eq_zero_of_dvd zeros
  have unit : 0 < 10 ^ k := Nat.pow_pos (by decide)
  simp only [roundOff, within, if_false, pow10_eq, rest]
  -- A zero remainder is below half a unit, so the quotient is kept.
  split_ifs with tie
  · omega
  · rfl

/-! ### Trailing zeros -/

/-- Shedding trailing zeros keeps the value of a coefficient and its exponent. -/
theorem stripZeros_value (coeff : Nat) (exp limit : Int) :
    ((stripZeros coeff exp limit).1 : ℚ) * 10 ^ (stripZeros coeff exp limit).2 =
      coeff * 10 ^ exp := by
  fun_induction stripZeros coeff exp limit with
  | case1 coeff exp shed ih =>
    rw [ih]
    -- One zero moves from the coefficient into the exponent.
    have tens : coeff / 10 * 10 = coeff := Nat.div_mul_cancel (Nat.dvd_of_mod_eq_zero shed.2.1)
    have split : (coeff : ℚ) = (coeff / 10 : Nat) * 10 := by exact_mod_cast tens.symm
    rw [split, zpow_add_one₀ (by norm_num)]
    ring
  -- Nothing more is shed: the pair is returned as it is.
  | case2 coeff exp _ => rfl

/-! ### Exact quotients -/

/-- Factoring a prime out splits a number into a power of it and the rest. -/
theorem factorOut_spec (p n : Nat) : n = p ^ (factorOut p n).1 * (factorOut p n).2 := by
  fun_induction factorOut p n with
  | case1 n divides ih =>
    simp only [Prod.map_fst, Prod.map_snd, id]
    -- One factor p comes out of n before the rest is split.
    calc n = p * (n / p) := (Nat.mul_div_cancel' (Nat.dvd_of_mod_eq_zero divides.2.2)).symm
      _ = p * (p ^ (factorOut p (n / p)).1 * (factorOut p (n / p)).2) := by rw [← ih]
      _ = p ^ ((factorOut p (n / p)).1 + 1) * (factorOut p (n / p)).2 := by ring
  -- p no longer divides n: no power of it comes out.
  | case2 n _ => simp

/-- The cofactor found for a divisor of a power of ten completes it to that power. -/
theorem tenPowerCofactor?_spec {d places cofactor : Nat}
    (found : tenPowerCofactor? d = some (places, cofactor)) : cofactor * d = 10 ^ places := by
  -- Split d into twos, fives and a rest, which must be one for a cofactor to be found.
  have twos := factorOut_spec 2 d
  have fives := factorOut_spec 5 (factorOut 2 d).2
  unfold tenPowerCofactor? at found
  rcases split2 : factorOut 2 d with ⟨i, rest⟩
  rw [split2] at found twos fives
  rcases split5 : factorOut 5 rest with ⟨j, rest'⟩
  simp only at found fives
  rw [split5] at found fives
  simp only at found fives
  split_ifs at found with one
  cases found
  -- d is a power of two times a power of five; the cofactor raises both to the larger one.
  subst one
  rw [twos, fives, mul_one]
  simp only [Nat.pow_eq]
  rw [show 10 = 2 * 5 from rfl, mul_pow]
  have raiseTwos : 2 ^ (max i j - i) * 2 ^ i = 2 ^ max i j := by
    rw [← pow_add, Nat.sub_add_cancel (le_max_left i j)]
  have raiseFives : 5 ^ (max i j - j) * 5 ^ j = 5 ^ max i j := by
    rw [← pow_add, Nat.sub_add_cancel (le_max_right i j)]
  calc 2 ^ (max i j - i) * 5 ^ (max i j - j) * (2 ^ i * 5 ^ j)
      = (2 ^ (max i j - i) * 2 ^ i) * (5 ^ (max i j - j) * 5 ^ j) := by ring
    _ = 2 ^ max i j * 5 ^ max i j := by rw [raiseTwos, raiseFives]

/-- An exact quotient, when found, is the quotient of the coefficients written with the found
number of places. -/
theorem exactQuotient?_spec {a b q places : Nat} (nonzero : b ≠ 0)
    (found : exactQuotient? a b = some (q, places)) : (q : ℚ) / 10 ^ places = a / b := by
  unfold exactQuotient? at found
  simp only [Option.map_eq_some_iff, Prod.exists] at found
  obtain ⟨places', cofactor, cofound, same⟩ := found
  simp only [Prod.mk.injEq] at same
  obtain ⟨rfl, rfl⟩ := same
  -- The cofactor completes b over the common divisor to the power of ten.
  have completes := tenPowerCofactor?_spec cofound
  have common : 0 < Nat.gcd a b := Nat.gcd_pos_of_pos_right a (Nat.pos_of_ne_zero nonzero)
  have aSplit : ((a / Nat.gcd a b : Nat) : ℚ) = a / Nat.gcd a b :=
    Nat.cast_div (Nat.gcd_dvd_left a b) (by exact_mod_cast common.ne')
  have bSplit : ((b / Nat.gcd a b : Nat) : ℚ) = b / Nat.gcd a b :=
    Nat.cast_div (Nat.gcd_dvd_right a b) (by exact_mod_cast common.ne')
  have power : (10 : ℚ) ^ places' = cofactor * (b / Nat.gcd a b : Nat) := by
    exact_mod_cast completes.symm
  have cofactorPos : (cofactor : ℚ) ≠ 0 := by
    intro zero
    rw [zero, zero_mul] at power
    exact absurd power (by positivity)
  -- Both sides are a over b once the common divisor is cancelled.
  rw [power, bSplit]
  push_cast
  rw [aSplit]
  have gcdPos : (Nat.gcd a b : ℚ) ≠ 0 := by exact_mod_cast common.ne'
  have bPos : (b : ℚ) ≠ 0 := by exact_mod_cast nonzero
  field_simp

end Calculator.Decimal
