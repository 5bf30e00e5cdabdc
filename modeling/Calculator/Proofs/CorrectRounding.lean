import Calculator.Proofs.Rounding

/-! Correct rounding. Every decimal operation gives the exact result on the values of its
operands, rounded half to even at `precision` significant digits and at no digit below `etiny`, or
signals overflow, so what it gives depends on those values alone. Where a sum or a quotient does
not form the exact result, it keeps its result in the same cell of a grid of half units below the
rounding digit, and a number is rounded by its cell: `Context.round_eq_of_cell`. -/

namespace Calculator

/-! ### Rounding half to even -/

/-- Rounding moves a number by at most one half. -/
theorem abs_sub_roundHalfEven_le (x : ℚ) : |x - roundHalfEven x| ≤ 1 / 2 := by
  have lower := Int.floor_le x
  have upper := Int.lt_floor_add_one x
  unfold roundHalfEven
  split_ifs with below above
  · -- Below the half the floor is less than a half away.
    rw [abs_le]
    constructor <;> linarith
  · -- Above it the next whole number is.
    push_cast
    rw [abs_le]
    constructor <;> linarith
  · -- On a tie the number is half past its floor, and either neighbour is half away.
    have tie : x - ⌊x⌋ = 1 / 2 := by linarith [not_lt.mp below, not_lt.mp above]
    rcases Int.emod_two_eq_zero_or_one ⌊x⌋ with even | odd
    · rw [even]
      push_cast
      rw [abs_le]
      constructor <;> linarith
    · rw [odd]
      push_cast
      rw [abs_le]
      constructor <;> linarith

/-- A number at least a whole number away from zero rounds to at least that whole number in
size. -/
theorem le_abs_roundHalfEven {x : ℚ} {n : ℤ} (large : (n : ℚ) ≤ |x|) : n ≤ |roundHalfEven x| := by
  -- The rounding is within a half of x, so above n - 1, and it is whole.
  have near := abs_sub_roundHalfEven_le x
  have triangle := abs_sub_abs_le_abs_sub x (roundHalfEven x)
  have above : (n : ℚ) - 1 < |(roundHalfEven x : ℚ)| := by linarith
  have cast : ((|roundHalfEven x| : ℤ) : ℚ) = |(roundHalfEven x : ℚ)| := Int.cast_abs
  rw [← cast] at above
  have whole : n - 1 < |roundHalfEven x| := by exact_mod_cast above
  omega

/-- A number strictly between two neighbouring halves rounds to the whole number nearest to
both. -/
theorem roundHalfEven_of_between {x : ℚ} {j : ℤ} (lower : (j : ℚ) < 2 * x)
    (upper : 2 * x < j + 1) : roundHalfEven x = (j + 1) / 2 := by
  obtain ⟨k, rfl | rfl⟩ := Int.even_or_odd' j
  · -- Between k and k + 1/2: the floor, below the half.
    push_cast at lower upper
    have floor : ⌊x⌋ = k := Int.floor_eq_iff.mpr ⟨by linarith, by linarith⟩
    rw [roundHalfEven, floor, if_pos (by linarith)]
    omega
  · -- Between k + 1/2 and k + 1: one past the floor, above the half.
    push_cast at lower upper
    have floor : ⌊x⌋ = k := Int.floor_eq_iff.mpr ⟨by linarith, by linarith⟩
    rw [roundHalfEven, floor, if_neg (by linarith), if_pos (by linarith)]
    omega

/-- A decimal over a power of ten at or above its exponent rounds as its coefficient does when the
digits below that power are rounded off. -/
theorem Decimal.roundHalfEven_toRat_div {d : Decimal} {q : Int} (below : d.exp ≤ q) :
    roundHalfEven (d.toRat / 10 ^ q) = signed d.negative (roundOff d.coeff (q - d.exp).toNat) := by
  -- Over the power the magnitude is the coefficient over ten to the digits dropped.
  have magnitude : (d.coeff : ℚ) * 10 ^ d.exp / 10 ^ q = d.coeff / 10 ^ (q - d.exp).toNat := by
    rw [← zpow_natCast, Int.toNat_of_nonneg (by omega), zpow_sub₀ (by norm_num)]
    field_simp
  have rounded := roundOff_eq d.coeff (q - d.exp).toNat
  rcases d with ⟨negative, coeff, exp⟩
  cases negative
  · simp only [toRat, signed_cast, Bool.false_eq_true, if_false] at magnitude rounded ⊢
    rw [magnitude, ← rounded]
    simp [signed]
  · -- A negative decimal rounds as its magnitude, mirrored.
    simp only [toRat, signed_cast, if_true, neg_mul, neg_div] at magnitude rounded ⊢
    rw [magnitude, roundHalfEven_neg, ← rounded]
    simp [signed]

/-- Rounding off all but at most `p` digits leaves at most `p` digits, or, when it carries
through them all, exactly ten to the `p`. -/
theorem Decimal.roundOff_carry {coeff k p : Nat} (positive : 1 ≤ p)
    (dropped : digitCount coeff ≤ p + k) (carried : p < digitCount (roundOff coeff k)) :
    roundOff coeff k = 10 ^ p := by
  -- The quotient is below ten to the p, and rounding adds at most one to it.
  have bound := roundOff_le coeff k
  have below : coeff / 10 ^ k < 10 ^ p := by
    rw [Nat.div_lt_iff_lt_mul (Nat.pow_pos (by decide)), ← Nat.pow_add]
    calc coeff < 10 ^ digitCount coeff := lt_pow_digitCount coeff
      _ ≤ 10 ^ (p + k) := Nat.pow_le_pow_right (by decide) dropped
  have reached : 10 ^ p ≤ roundOff coeff k := by
    by_contra fewer
    have short := (digitCount_le_iff positive).mpr (Nat.lt_of_not_le fewer)
    omega
  omega

/-- Ten to the k has k + 1 digits. -/
theorem Decimal.digitCount_pow_ten (k : Nat) : digitCount (10 ^ k) = k + 1 := by
  -- The logarithm of a power is its exponent.
  rw [digitCount_eq, Nat.log_pow (by decide)]

namespace Context

variable (c : Context)

/-! ### Rounding in a context -/

/-- The exponent of the last digit kept when a number is rounded in the context: `precision`
digits down from its leading digit, and never below `etiny`. -/
def quantum (x : ℚ) : Int := max (Int.log 10 |x| - c.precision + 1) c.etiny

/-- A rational number rounded half to even at its quantum. -/
def rounded (x : ℚ) : ℚ := (roundHalfEven (x / 10 ^ c.quantum x) : ℚ) * 10 ^ c.quantum x

/-- A rational number rounded in the context, or the overflow signal when the rounded number has
its leading digit above `emax`. -/
def round (x : ℚ) : Except Signal ℚ :=
  if c.rounded x ≠ 0 ∧ c.emax < Int.log 10 |c.rounded x| then .error .overflow else .ok (c.rounded x)

variable {c}

@[simp] theorem quantum_neg (x : ℚ) : c.quantum (-x) = c.quantum x := by
  -- The quantum reads the size only.
  simp [quantum]

@[simp] theorem rounded_zero : c.rounded 0 = 0 := by
  simp [rounded]

@[simp] theorem round_zero : c.round 0 = .ok 0 := by
  simp [round]

/-- Rounding is symmetric about zero. -/
theorem round_neg (x : ℚ) : c.round (-x) = (c.round x).map Neg.neg := by
  -- The quantum is the same, and rounding half to even is symmetric.
  have mirrored : c.rounded (-x) = -c.rounded x := by
    simp only [rounded, quantum_neg, neg_div, roundHalfEven_neg, Int.cast_neg, neg_mul]
  simp only [round, mirrored, ne_eq, neg_eq_zero, abs_neg]
  split_ifs <;> rfl

/-- A number on the grid of its quantum is kept as it is. -/
theorem rounded_of_grid {x : ℚ} {z : ℤ} (grid : x = z * 10 ^ c.quantum x) : c.rounded x = x := by
  -- Over the quantum the number is whole, and a whole number rounds to itself.
  have whole : x / 10 ^ c.quantum x = z := by
    rw [div_eq_iff (zpow_ne_zero _ (by norm_num))]
    exact grid
  rw [rounded, whole, roundHalfEven_intCast, ← grid]

/-- The quantum of a nonzero decimal: `precision` digits down from its leading digit, and never
below `etiny`. -/
theorem quantum_toRat {d : Decimal} (nonzero : d.coeff ≠ 0) :
    c.quantum d.toRat = max ((Decimal.digitCount d.coeff : Int) + d.exp - c.precision) c.etiny := by
  -- The leading digit is the adjusted exponent.
  rw [quantum, Decimal.log_abs_toRat nonzero]
  unfold Decimal.adjusted Decimal.digits
  congr 1
  omega

/-- Rounding a decimal whose exponent lies at or below its quantum rounds off the digits of its
coefficient below the quantum. -/
theorem rounded_toRat_of_le {d : Decimal} (below : d.exp ≤ c.quantum d.toRat) :
    c.rounded d.toRat = (⟨d.negative, Decimal.roundOff d.coeff (c.quantum d.toRat - d.exp).toNat,
      c.quantum d.toRat⟩ : Decimal).toRat := by
  -- Rounding over the quantum is rounding off the coefficient's digits below it.
  rw [rounded, Decimal.roundHalfEven_toRat_div below]
  rfl

/-- A nonzero decimal whose leading digit lies above `emax` overflows: in the normal range it
keeps `precision` digits, so its rounded number keeps the leading digit. -/
theorem round_toRat_overflow (positive : 1 ≤ c.precision) (range : c.emin ≤ c.emax)
    {d : Decimal} (nonzero : d.coeff ≠ 0) (high : c.emax < d.adjusted) :
    c.round d.toRat = .error .overflow := by
  -- Far above `etiny`, the quantum is `precision` digits below the leading one.
  have atQuantum : c.quantum d.toRat = d.adjusted - c.precision + 1 := by
    rw [quantum, Decimal.log_abs_toRat nonzero]
    unfold etiny
    omega
  have power : (0 : ℚ) < 10 ^ c.quantum d.toRat := zpow_pos (by norm_num) _
  -- Over its quantum the number is at least ten to `precision - 1`, and so is its rounding.
  have large : (10 : ℚ) ^ (d.adjusted - c.quantum d.toRat) ≤ |d.toRat / 10 ^ c.quantum d.toRat| := by
    rw [abs_div, abs_of_pos power, le_div_iff₀ power, ← zpow_add₀ (by norm_num), sub_add_cancel]
    exact Decimal.pow_adjusted_le nonzero
  have gap : d.adjusted - c.quantum d.toRat = ((c.precision - 1 : Nat) : Int) := by omega
  have whole : ((10 ^ (c.precision - 1) : Nat) : ℤ) ≤
      |roundHalfEven (d.toRat / 10 ^ c.quantum d.toRat)| := by
    apply le_abs_roundHalfEven
    rw [gap, zpow_natCast] at large
    exact_mod_cast large
  have sized : (10 : ℚ) ^ d.adjusted ≤ |c.rounded d.toRat| := by
    have cast : ((10 ^ (c.precision - 1) : Nat) : ℚ) ≤
        |(roundHalfEven (d.toRat / 10 ^ c.quantum d.toRat) : ℚ)| := by
      rw [← Int.cast_abs]
      exact_mod_cast whole
    rw [rounded, abs_mul, abs_of_pos power]
    calc (10 : ℚ) ^ d.adjusted
        = ((10 ^ (c.precision - 1) : Nat) : ℚ) * 10 ^ c.quantum d.toRat := by
          rw [Nat.cast_pow, Nat.cast_ofNat, ← zpow_natCast, ← gap, ← zpow_add₀ (by norm_num),
            sub_add_cancel]
      _ ≤ _ := mul_le_mul_of_nonneg_right cast power.le
  have sizedPos : 0 < |c.rounded d.toRat| := lt_of_lt_of_le (zpow_pos (by norm_num) _) sized
  have above : d.adjusted ≤ Int.log 10 |c.rounded d.toRat| :=
    (Int.zpow_le_iff_le_log (by norm_num) sizedPos).mp (by exact_mod_cast sized)
  rw [round, if_pos ⟨abs_pos.mp sizedPos, by omega⟩]

/-- A rounded number whose leading digit lies at most at `emax` is the result of the rounding. -/
theorem round_of_log_le {x : ℚ} (low : c.rounded x ≠ 0 → Int.log 10 |c.rounded x| ≤ c.emax) :
    c.round x = .ok (c.rounded x) := by
  -- The overflow test fails by the bound given.
  rw [round, if_neg]
  rintro ⟨nonzero, high⟩
  exact absurd (low nonzero) (not_le.mpr high)

/-- Fitting a coefficient and an exponent into the context rounds their value in the context:
the digits past the precision or below `etiny` are rounded off half to even, and a leading digit
above `emax`, before or after a carry, overflows. -/
theorem fit_round (positive : 1 ≤ c.precision) (range : c.emin ≤ c.emax) (negative : Bool)
    (coeff : Nat) (exp : Int) :
    (c.fit negative coeff exp).map Decimal.toRat =
      c.round (⟨negative, coeff, exp⟩ : Decimal).toRat := by
  -- A zero is fitted as a zero, and zero rounds to zero.
  by_cases zero : coeff = 0
  · subst zero
    simp [fit, Except.map, Decimal.toRat]
  set q := max ((Decimal.digitCount coeff : Int) + exp - c.precision) c.etiny with quantumIs
  have atQuantum : c.quantum (⟨negative, coeff, exp⟩ : Decimal).toRat = q := quantum_toRat zero
  -- Below the quantum the digits are rounded off; a carry leaves ten to the precision.
  have roundedBelow (below : exp < q) : c.rounded (⟨negative, coeff, exp⟩ : Decimal).toRat =
      (⟨negative, Decimal.roundOff coeff (q - exp).toNat, q⟩ : Decimal).toRat := by
    have lower : (⟨negative, coeff, exp⟩ : Decimal).exp ≤
        c.quantum (⟨negative, coeff, exp⟩ : Decimal).toRat := by
      rw [atQuantum]
      exact below.le
    rw [rounded_toRat_of_le lower, atQuantum]
  have tenPower : 10 ^ c.precision ≠ 0 := Nat.pos_iff_ne_zero.mp (Nat.pow_pos (by decide))
  have carried : Int.log 10 |(⟨negative, 10 ^ c.precision, q⟩ : Decimal).toRat| = q + c.precision := by
    rw [Decimal.log_abs_toRat tenPower]
    simp only [Decimal.adjusted, Decimal.digits, Decimal.digitCount_pow_ten]
    push_cast
    omega
  unfold fit
  rw [if_neg zero]
  simp only
  rw [← quantumIs]
  -- One case per branch of fitting, each matched with the rounding of the value.
  split_ifs with overflows below carry carryOver
  · -- The leading digit lies above `emax`.
    have above : c.emax < (⟨negative, coeff, exp⟩ : Decimal).adjusted := by
      unfold etop at overflows
      simp only [Decimal.adjusted, Decimal.digits]
      omega
    rw [round_toRat_overflow positive range zero above]
    rfl
  · -- The rounding carries into a new leading digit above `emax`.
    have roundedIs := roundedBelow below
    rw [Decimal.roundOff_carry positive (by omega) carry] at roundedIs
    have nonzero : c.rounded (⟨negative, coeff, exp⟩ : Decimal).toRat ≠ 0 := by
      rw [roundedIs]
      exact (Decimal.toRat_eq_zero_iff _).not.mpr tenPower
    have high : c.emax < Int.log 10 |c.rounded (⟨negative, coeff, exp⟩ : Decimal).toRat| := by
      rw [roundedIs, carried]
      unfold etop at carryOver
      omega
    rw [round, if_pos ⟨nonzero, high⟩]
    rfl
  · -- The carry stays within range: one zero moves into the exponent.
    have roundedIs := roundedBelow below
    rw [Decimal.roundOff_carry positive (by omega) carry] at roundedIs ⊢
    have shifted := Decimal.toRat_shift negative (10 ^ c.precision / 10) 1 q
    rw [Nat.pow_one, Nat.div_mul_cancel (dvd_pow_self 10 (by omega)), Nat.cast_one] at shifted
    unfold etop at carryOver
    rw [round_of_log_le, roundedIs, shifted]
    · rfl
    · intro _
      rw [roundedIs, carried]
      omega
  · -- No carry: the rounded coefficient keeps at most `precision` digits at the quantum.
    have roundedIs := roundedBelow below
    rw [round_of_log_le, roundedIs]
    · rfl
    · intro nonzero
      rw [roundedIs] at nonzero ⊢
      rw [Decimal.log_abs_toRat ((Decimal.toRat_eq_zero_iff _).not.mp nonzero)]
      simp only [Decimal.adjusted, Decimal.digits]
      have tiny : c.etiny = c.emin - c.precision + 1 := rfl
      unfold etop at overflows
      omega
  · -- Every digit is kept: the value is on the grid of its quantum.
    have lower : q ≤ (⟨negative, coeff, exp⟩ : Decimal).exp := by
      simp only
      omega
    have grid := Decimal.toRat_at lower
    rw [← atQuantum] at grid
    have kept := rounded_of_grid grid
    rw [round_of_log_le, kept]
    · rfl
    · intro _
      rw [kept, Decimal.log_abs_toRat zero]
      simp only [Decimal.adjusted, Decimal.digits]
      unfold etop at overflows
      omega

end Context

/-! ### Cells of a grid of half units -/

/-- Two numbers strictly between the same two neighbouring multiples of `5 · 10 ^ m`. -/
def SameCell (m : Int) (x x' : ℚ) : Prop :=
  ∃ k : ℤ, k * (5 * 10 ^ m) < x ∧ x < (k + 1) * (5 * 10 ^ m) ∧
    k * (5 * 10 ^ m) < x' ∧ x' < (k + 1) * (5 * 10 ^ m)

namespace SameCell

variable {m : Int} {x x' : ℚ}

/-- Where a number strictly inside the cell above the k-th grid point stands against the j-th. -/
theorem grid_le_iff {k : ℤ} (lower : k * (5 * 10 ^ m) < x) (upper : x < (k + 1) * (5 * 10 ^ m))
    (j : ℤ) : j * (5 * 10 ^ m) ≤ x ↔ j ≤ k := by
  have step : (0 : ℚ) < 5 * 10 ^ m := by positivity
  -- The grid points at or below x are those up to the k-th.
  constructor
  · intro below
    by_contra beyond
    have far : ((k + 1 : ℤ) : ℚ) ≤ j := by exact_mod_cast (show k + 1 ≤ j by omega)
    push_cast at far
    nlinarith
  · intro within
    have near : (j : ℚ) ≤ k := by exact_mod_cast within
    nlinarith

theorem lt_grid_iff {k : ℤ} (lower : k * (5 * 10 ^ m) < x) (upper : x < (k + 1) * (5 * 10 ^ m))
    (j : ℤ) : x < j * (5 * 10 ^ m) ↔ k < j := by
  -- The complement of the lemma before.
  rw [← not_le, grid_le_iff lower upper, not_le]

/-- Numbers in the same cell stand alike against every grid point. -/
theorem grid_le (cell : SameCell m x x') (j : ℤ) :
    j * (5 * 10 ^ m) ≤ x ↔ j * (5 * 10 ^ m) ≤ x' := by
  obtain ⟨k, lower, upper, lower', upper'⟩ := cell
  -- Both sides compare j with the same cell index.
  rw [grid_le_iff lower upper, grid_le_iff lower' upper']

theorem lt_grid (cell : SameCell m x x') (j : ℤ) :
    x < j * (5 * 10 ^ m) ↔ x' < j * (5 * 10 ^ m) := by
  obtain ⟨k, lower, upper, lower', upper'⟩ := cell
  -- Both sides compare j with the same cell index.
  rw [lt_grid_iff lower upper, lt_grid_iff lower' upper']

theorem neg (cell : SameCell m x x') : SameCell m (-x) (-x') := by
  obtain ⟨k, lower, upper, lower', upper'⟩ := cell
  -- The mirrored cell lies between the mirrored grid points.
  refine ⟨-k - 1, ?_, ?_, ?_, ?_⟩ <;> push_cast <;> linarith

/-- Zero is on the grid, so a cell holds numbers of one sign. -/
theorem abs (cell : SameCell m x x') : SameCell m |x| |x'| := by
  have sign := cell.grid_le 0
  simp only [Int.cast_zero, zero_mul] at sign
  rcases le_or_gt 0 x with nonneg | negative
  · rw [abs_of_nonneg nonneg, abs_of_nonneg (sign.mp nonneg)]
    exact cell
  · have negative' : x' < 0 := not_le.mp fun nonneg => absurd (sign.mpr nonneg) (not_le.mpr negative)
    rw [abs_of_neg negative, abs_of_neg negative']
    exact cell.neg

/-- A power of ten at or above ten to `m + 1` is a grid point. -/
theorem pow_grid {a : Int} (above : m + 1 ≤ a) :
    ∃ j : ℤ, (10 : ℚ) ^ a = j * (5 * 10 ^ m) := by
  -- Ten to the m + 1 is two grid steps, and higher powers are multiples of it.
  obtain ⟨n, gap⟩ : ∃ n : Nat, a = m + 1 + n := ⟨(a - m - 1).toNat, by omega⟩
  refine ⟨2 * 10 ^ n, ?_⟩
  rw [gap, zpow_add₀ (by norm_num), zpow_add₀ (by norm_num), zpow_natCast]
  push_cast
  ring

/-- Numbers in the same cell, at least ten to `m + 1` in size, have their leading digit at the
same place. -/
theorem log_eq (cell : SameCell m x x') (large : (10 : ℚ) ^ (m + 1) ≤ |x|) :
    Int.log 10 |x| = Int.log 10 |x'| := by
  have sized := cell.abs
  have positive : 0 < |x| := lt_of_lt_of_le (zpow_pos (by norm_num) _) large
  set a := Int.log 10 |x| with aIs
  have above : m + 1 ≤ a := (Int.zpow_le_iff_le_log (by norm_num) positive).mp (by exact_mod_cast large)
  have lower : (10 : ℚ) ^ a ≤ |x| := by exact_mod_cast Int.zpow_log_le_self (by norm_num) positive
  have upper : |x| < (10 : ℚ) ^ (a + 1) := by exact_mod_cast Int.lt_zpow_succ_log_self (by norm_num) |x|
  -- The powers of ten on either side of x are grid points, so they bound x' as well.
  obtain ⟨j, jIs⟩ := pow_grid above
  obtain ⟨j', j'Is⟩ := pow_grid (show m + 1 ≤ a + 1 by omega)
  rw [jIs] at lower
  rw [j'Is] at upper
  have lower' := (sized.grid_le j).mp lower
  have upper' := (sized.lt_grid j').mp upper
  rw [← jIs] at lower'
  rw [← j'Is] at upper'
  exact (Decimal.log_ten_eq lower' upper').symm

/-- Numbers in the same cell, scaled down by a power of ten at or above ten to `m + 1`, lie
strictly between the same two neighbouring halves. -/
theorem between_halves (cell : SameCell m x x') {q : Int} (above : m + 1 ≤ q) :
    ∃ j : ℤ, (j : ℚ) < 2 * (x / 10 ^ q) ∧ 2 * (x / 10 ^ q) < j + 1 ∧
      (j : ℚ) < 2 * (x' / 10 ^ q) ∧ 2 * (x' / 10 ^ q) < j + 1 := by
  -- Write the scale as the grid's power and n more.
  obtain ⟨n, gap⟩ : ∃ n : Nat, q = m + 1 + n := ⟨(q - m - 1).toNat, by omega⟩
  have power : (0 : ℚ) < 10 ^ q := zpow_pos (by norm_num) _
  -- Half of ten to the q is a whole number of grid steps.
  have half : ∀ i : ℤ, (i : ℚ) * 10 ^ q / 2 = ((i * 10 ^ n : ℤ) : ℚ) * (5 * 10 ^ m) := by
    intro i
    rw [gap, zpow_add₀ (by norm_num), zpow_add₀ (by norm_num), zpow_natCast]
    push_cast
    ring
  have scaled : ∀ (i : ℤ) (y : ℚ), (i : ℚ) < 2 * (y / 10 ^ q) ↔ (i : ℚ) * 10 ^ q / 2 < y := by
    intro i y
    rw [mul_div_assoc', lt_div_iff₀ power, div_lt_iff₀ (by norm_num)]
    constructor <;> intro h <;> linarith
  have scaledAbove : ∀ (i : ℤ) (y : ℚ), 2 * (y / 10 ^ q) < i ↔ y < (i : ℚ) * 10 ^ q / 2 := by
    intro i y
    rw [mul_div_assoc', div_lt_iff₀ power, lt_div_iff₀ (by norm_num)]
    constructor <;> intro h <;> linarith
  obtain ⟨k, lower, upper, lower', upper'⟩ := cell
  -- The halves around x are grid points around its cell, and so around the cell of x'.
  set j := ⌊2 * (x / 10 ^ q)⌋
  have atMost : j * 10 ^ n ≤ k := by
    rw [← grid_le_iff lower upper, ← half]
    have floor := Int.floor_le (2 * (x / 10 ^ q))
    rw [← not_lt, ← scaledAbove, not_lt]
    exact floor
  have atLeast : k < (j + 1) * 10 ^ n := by
    rw [← lt_grid_iff lower upper, ← half, ← scaledAbove]
    exact_mod_cast Int.lt_floor_add_one (2 * (x / 10 ^ q))
  have step : (0 : ℚ) < 5 * 10 ^ m := by positivity
  have below : ((j * 10 ^ n : ℤ) : ℚ) * (5 * 10 ^ m) ≤ k * (5 * 10 ^ m) :=
    mul_le_mul_of_nonneg_right (by exact_mod_cast atMost) step.le
  have beyond : ((k + 1 : ℤ) : ℚ) * (5 * 10 ^ m) ≤ (((j + 1) * 10 ^ n : ℤ) : ℚ) * (5 * 10 ^ m) :=
    mul_le_mul_of_nonneg_right (by exact_mod_cast atLeast) step.le
  push_cast at beyond
  have inside : ∀ y : ℚ, k * (5 * 10 ^ m) < y → y < (k + 1) * (5 * 10 ^ m) →
      (j : ℚ) < 2 * (y / 10 ^ q) ∧ 2 * (y / 10 ^ q) < j + 1 := by
    intro y lowerY upperY
    constructor
    · rw [scaled, half]
      linarith
    · have next := scaledAbove (j + 1) y
      rw [half] at next
      push_cast at next
      rw [next]
      linarith
  obtain ⟨low, high⟩ := inside x lower upper
  obtain ⟨low', high'⟩ := inside x' lower' upper'
  exact ⟨j, low, high, low', high'⟩

/-- Two numbers the same small distance above one grid point, or below it, share a cell. -/
theorem of_offsets {B δ δ' : ℚ} (j : ℤ) (grid : B = j * (5 * 10 ^ m)) (positive : 0 < δ)
    (positive' : 0 < δ') (small : δ < 5 * 10 ^ m) (small' : δ' < 5 * 10 ^ m) :
    SameCell m (B + δ) (B + δ') ∧ SameCell m (B - δ) (B - δ') := by
  subst grid
  constructor
  -- Above the grid point both lie in the cell it starts.
  · refine ⟨j, ?_, ?_, ?_, ?_⟩ <;> linarith
  -- Below it both lie in the cell it ends.
  · refine ⟨j - 1, ?_, ?_, ?_, ?_⟩ <;> push_cast <;> linarith

/-- Two numbers strictly inside one block of five, scaled by ten to the m, share a cell. -/
theorem of_block {y y' : ℚ} (k : ℤ) (lower : 5 * (k : ℚ) < y) (upper : y < 5 * k + 5)
    (lower' : 5 * (k : ℚ) < y') (upper' : y' < 5 * k + 5) : SameCell m (y * 10 ^ m) (y' * 10 ^ m) := by
  -- Scaling by the positive power keeps both inside the k-th cell.
  have power : (0 : ℚ) < 10 ^ m := zpow_pos (by norm_num) _
  have scale : ∀ r : ℚ, r * (5 * 10 ^ m) = 5 * r * 10 ^ m := fun r => by ring
  refine ⟨k, ?_, ?_, ?_, ?_⟩ <;> rw [scale]
  · exact mul_lt_mul_of_pos_right lower power
  · exact mul_lt_mul_of_pos_right (by linarith) power
  · exact mul_lt_mul_of_pos_right lower' power
  · exact mul_lt_mul_of_pos_right (by linarith) power

end SameCell

namespace Context

variable {c : Context}

/-- Numbers in the same cell of the grid of `5 · 10 ^ m`, at least ten to `m + precision` in
size, round alike: their leading digits stand at the same place, so their quanta agree, and at
the quantum they lie between the same two halves. -/
theorem round_eq_of_cell (positive : 1 ≤ c.precision) {m : Int} {x x' : ℚ}
    (cell : SameCell m x x') (large : (10 : ℚ) ^ (m + c.precision) ≤ |x|) :
    c.round x = c.round x' := by
  have positiveAbs : 0 < |x| := lt_of_lt_of_le (zpow_pos (by norm_num) _) large
  have lowered : (10 : ℚ) ^ (m + 1) ≤ |x| :=
    le_trans (zpow_le_zpow_right₀ (by norm_num) (by omega)) large
  -- The leading digits stand at one place, so the two quanta agree and lie above the grid.
  have leading := cell.log_eq lowered
  have sameQuantum : c.quantum x = c.quantum x' := by rw [quantum, quantum, leading]
  have above : m + c.precision ≤ Int.log 10 |x| :=
    (Int.zpow_le_iff_le_log (by norm_num) positiveAbs).mp (by exact_mod_cast large)
  have deep : m + 1 ≤ c.quantum x := by
    unfold quantum
    omega
  obtain ⟨j, lower, upper, lower', upper'⟩ := cell.between_halves deep
  have same : c.rounded x = c.rounded x' := by
    rw [rounded, rounded, ← sameQuantum, roundHalfEven_of_between lower upper,
      roundHalfEven_of_between lower' upper']
  rw [round, round, same]

end Context

/-! ### The operations -/

namespace Decimal

variable {c : Context}

/-- A product is its exact value rounded in the context. -/
theorem mul_round (positive : 1 ≤ c.precision) (range : c.emin ≤ c.emax) (a b : Decimal) :
    (mul c a b).map toRat = c.round (a.toRat * b.toRat) := by
  -- A product fits the exact product of the coefficients, which fitting rounds.
  rw [mul, Context.fit_round positive range, toRat_product]

/-- Zeros appended to the coefficient of a decimal, with its exponent lowered to match, keep its
value. -/
theorem toRat_lowered {d : Decimal} {e : Int} (lower : e ≤ d.exp) :
    (⟨d.negative, d.coeff * 10 ^ (d.exp - e).toNat, e⟩ : Decimal).toRat = d.toRat := by
  -- The zeros appended are the exponent taken off.
  rw [toRat_shift, show e + ((d.exp - e).toNat : Int) = d.exp by omega]

/-- Two decimals brought to the exponent of the one below, added and fitted, give their exact sum
rounded in the context. -/
theorem fit_aligned (positive : 1 ≤ c.precision) (range : c.emin ≤ c.emax) {big small : Decimal}
    (ordered : small.exp ≤ big.exp) (e : Int) :
    (let sum := signed big.negative (big.coeff * 10 ^ (big.exp - small.exp).toNat) +
        signed small.negative small.coeff
      if sum = 0 then c.fit false 0 e else c.fit (decide (sum < 0)) sum.natAbs small.exp).map toRat =
      c.round (big.toRat + small.toRat) := by
  have aligned := toRat_aligned ordered
  simp only
  -- A zero sum is fitted as a zero, any other as the signed aligned sum; fitting rounds both.
  split_ifs with zeroSum
  · rw [Context.fit_round positive range, ← aligned, zeroSum]
    simp [toRat]
  · rw [Context.fit_round positive range, toRat_int, aligned]

/-- An operand wholly below the floor of the rounding range of the other may be replaced by a
single unit at the floor, of its sign: both sums lie in one cell of the grid of half units at
the floor, far above it. -/
theorem round_add_unit (positive : 1 ≤ c.precision) {big small : Decimal}
    (bigNonzero : big.coeff ≠ 0) (smallNonzero : small.coeff ≠ 0)
    (tiny : small.adjusted < big.exp + min (-1) ((big.digits : Int) - c.precision - 2)) :
    c.round (big.toRat + (⟨small.negative, 1,
      big.exp + min (-1) ((big.digits : Int) - c.precision - 2)⟩ : Decimal).toRat) =
      c.round (big.toRat + small.toRat) := by
  set floor := big.exp + min (-1) ((big.digits : Int) - c.precision - 2) with floorIs
  have digitsPos : 1 ≤ big.digits := one_le_digitCount big.coeff
  have unitPos : (0 : ℚ) < 10 ^ floor := zpow_pos (by norm_num) _
  -- The small operand is nonzero and below one unit at the floor.
  have smallBelow : |small.toRat| < 10 ^ floor :=
    lt_of_lt_of_le (abs_toRat_lt small) (zpow_le_zpow_right₀ (by norm_num) (by omega))
  have smallPos : 0 < |small.toRat| :=
    abs_pos.mpr ((toRat_eq_zero_iff small).not.mpr smallNonzero)
  -- The big operand is a grid point: a whole number of tens at the floor.
  obtain ⟨M, bigMultiple⟩ := multiple_of_le (toRat_multiple big) (show floor + 1 ≤ big.exp by omega)
  have grid : big.toRat = ((2 * M : ℤ) : ℚ) * (5 * 10 ^ floor) := by
    rw [bigMultiple, zpow_add_one₀ (by norm_num)]
    push_cast
    ring
  -- The sum keeps the big operand's leading digit, or the one below, far above the floor.
  have large : (10 : ℚ) ^ (floor + c.precision) ≤ |big.toRat + small.toRat| := by
    have bigAbove := pow_adjusted_le bigNonzero
    have triangle := abs_sub_abs_le_abs_add big.toRat small.toRat
    have lowered : (10 : ℚ) ^ (floor + c.precision) ≤ 10 ^ (big.adjusted - 1) :=
      zpow_le_zpow_right₀ (by norm_num) (by unfold adjusted; omega)
    have floorBelow : (10 : ℚ) ^ floor ≤ 10 ^ (big.adjusted - 1) :=
      zpow_le_zpow_right₀ (by norm_num) (by unfold adjusted; omega)
    have tenfold : (10 : ℚ) ^ (big.adjusted - 1) * 10 = 10 ^ big.adjusted := by
      rw [← zpow_add_one₀ (by norm_num), sub_add_cancel]
    linarith
  have cells := SameCell.of_offsets (2 * M) grid smallPos unitPos (by linarith) (by linarith)
  refine (Context.round_eq_of_cell positive ?_ large).symm
  -- The unit takes the sign of the small operand.
  rcases small with ⟨negative, coeff, exp⟩
  cases negative
  · have value : (⟨false, coeff, exp⟩ : Decimal).toRat = |(⟨false, coeff, exp⟩ : Decimal).toRat| :=
      (abs_of_nonneg (by simp only [toRat, signed_cast, Bool.false_eq_true, if_false]; positivity)).symm
    have unit : (⟨false, 1, floor⟩ : Decimal).toRat = 10 ^ floor := by simp [toRat]
    rw [unit, value]
    exact cells.1
  · have value : (⟨true, coeff, exp⟩ : Decimal).toRat = -|(⟨true, coeff, exp⟩ : Decimal).toRat| := by
      rw [abs_of_nonpos (by simp only [toRat, signed_cast, if_true, neg_mul]; simp only [neg_nonpos]; positivity), neg_neg]
    have unit : (⟨true, 1, floor⟩ : Decimal).toRat = -10 ^ floor := by simp [toRat]
    rw [unit, value, ← sub_eq_add_neg, ← sub_eq_add_neg]
    exact cells.2

/-- A sum is its exact value rounded in the context. -/
theorem add_round (positive : 1 ≤ c.precision) (range : c.emin ≤ c.emax) (a b : Decimal) :
    (add c a b).map toRat = c.round (a.toRat + b.toRat) := by
  by_cases aZero : a.coeff = 0 <;> by_cases bZero : b.coeff = 0
  · -- Two zeros add up to zero.
    simp only [add, isZero_eq_true aZero, isZero_eq_true bZero, Bool.and_self, if_true]
    rw [Context.fit_round positive range, (toRat_eq_zero_iff a).mpr aZero,
      (toRat_eq_zero_iff b).mpr bZero, add_zero]
    simp [toRat]
  · -- A zero operand leaves the other one, brought down to a lower exponent.
    simp only [add, isZero_eq_true aZero, isZero_eq_false bZero, Bool.true_and, Bool.false_eq_true,
      if_false, if_true, pow10_eq]
    rw [Context.fit_round positive range, (toRat_eq_zero_iff a).mpr aZero, zero_add,
      toRat_lowered (by omega)]
  · -- The same with the zero on the right.
    simp only [add, isZero_eq_false aZero, isZero_eq_true bZero, Bool.false_and,
      Bool.false_eq_true, if_false, if_true, pow10_eq]
    rw [Context.fit_round positive range, (toRat_eq_zero_iff b).mpr bZero, add_zero,
      toRat_lowered (by omega)]
  · simp only [add, isZero_eq_false aZero, isZero_eq_false bZero, Bool.false_and,
      Bool.false_eq_true, if_false, pow10_eq]
    -- Name the operands by size of exponent; both orders are handled alike.
    obtain ⟨big, small, pairEq, ordered, same, bigNonzero, smallNonzero⟩ :
        ∃ big small : Decimal, (if a.exp < b.exp then (b, a) else (a, b)) = (big, small) ∧
          small.exp ≤ big.exp ∧ big.toRat + small.toRat = a.toRat + b.toRat ∧
          big.coeff ≠ 0 ∧ small.coeff ≠ 0 := by
      split_ifs with order
      · exact ⟨b, a, rfl, by omega, add_comm _ _, bZero, aZero⟩
      · exact ⟨a, b, rfl, by omega, rfl, aZero, bZero⟩
    rw [pairEq, ← same]
    -- The smaller operand, or the unit in its place, gives the same rounded sum.
    set floor := big.exp + min (-1) ((big.digits : Int) - c.precision - 2) with floorIs
    set small' := if small.adjusted < floor then (⟨small.negative, 1, floor⟩ : Decimal) else small
      with replacedIs
    -- The unit sits at the floor, below the big operand's exponent, as the small one did.
    have lowered : small'.exp ≤ big.exp := by
      rw [replacedIs]
      split_ifs
      · simp only
        omega
      · exact ordered
    have replaced : c.round (big.toRat + small'.toRat) = c.round (big.toRat + small.toRat) := by
      rw [replacedIs]
      split_ifs with tiny
      · exact round_add_unit positive bigNonzero smallNonzero tiny
      · rfl
    rw [← replaced]
    exact fit_aligned positive range lowered _

/-- A difference is its exact value rounded in the context. -/
theorem sub_round (positive : 1 ≤ c.precision) (range : c.emin ≤ c.emax) (a b : Decimal) :
    (sub c a b).map toRat = c.round (a.toRat - b.toRat) := by
  -- A difference is the sum with the negated subtrahend.
  rw [sub, add_round positive range, toRat_negate, sub_eq_add_neg]

/-! #### Quotients -/

/-- A decimal is its sign times its magnitude. -/
theorem toRat_eq_sign (negative : Bool) (n : Nat) (e : Int) :
    (⟨negative, n, e⟩ : Decimal).toRat = (signed negative 1 : ℚ) * (n * 10 ^ e) := by
  -- The sign is one or minus one.
  cases negative <;> simp [toRat]

/-- A quotient of decimals is the quotient of the coefficients moved by the exponents, negative
when exactly one operand is. -/
theorem toRat_div_eq_sign {a b : Decimal} (divisor : b.coeff ≠ 0) :
    a.toRat / b.toRat =
      (signed (a.negative != b.negative) 1 : ℚ) * (a.coeff / b.coeff * 10 ^ (a.exp - b.exp)) := by
  obtain ⟨aNegative, aCoeff, aExp⟩ := a
  obtain ⟨bNegative, bCoeff, bExp⟩ := b
  have nonzero : (bCoeff : ℚ) ≠ 0 := by exact_mod_cast divisor
  have power : (10 : ℚ) ^ bExp ≠ 0 := zpow_ne_zero _ (by norm_num)
  rw [zpow_sub₀ (by norm_num)]
  -- For each pair of signs, cleared of denominators.
  cases aNegative <;> cases bNegative <;> simp [toRat] <;> field_simp

/-- Numbers of one sign round alike when their magnitudes do. -/
theorem round_sign_mul (negative : Bool) {u v : ℚ} (same : c.round u = c.round v) :
    c.round ((signed negative 1 : ℚ) * u) = c.round ((signed negative 1 : ℚ) * v) := by
  -- A negative sign is taken out of the rounding on both sides.
  cases negative
  · simpa using same
  · simp only [signed_cast, if_true, Nat.cast_one, neg_mul, one_mul, Context.round_neg, same]

/-- The division at a shift is a division of naturals whose quotient is the quotient of the
coefficients at that shift. -/
theorem scaled_division (a : Decimal) {b : Decimal} (divisor : b.coeff ≠ 0) (shift : Int) :
    ∃ N den : Nat, 0 < den ∧
      (if 0 ≤ shift then
        (a.coeff * 10 ^ shift.toNat / b.coeff, a.coeff * 10 ^ shift.toNat % b.coeff)
        else (a.coeff / (b.coeff * 10 ^ (-shift).toNat),
          a.coeff % (b.coeff * 10 ^ (-shift).toNat))) = (N / den, N % den) ∧
      (N : ℚ) / den = a.coeff / b.coeff * 10 ^ shift := by
  have bPositive : (b.coeff : ℚ) ≠ 0 := by exact_mod_cast divisor
  -- A shift up scales the dividend; a shift down scales the divisor.
  split_ifs with up
  · refine ⟨a.coeff * 10 ^ shift.toNat, b.coeff, Nat.pos_of_ne_zero divisor, rfl, ?_⟩
    rw [← Int.toNat_of_nonneg up, zpow_natCast, Int.toNat_of_nonneg up]
    push_cast
    ring
  · refine ⟨a.coeff, b.coeff * 10 ^ (-shift).toNat, by positivity, rfl, ?_⟩
    have back : shift = -((-shift).toNat : Int) := by omega
    rw [back, zpow_neg, zpow_natCast, ← back]
    push_cast
    field_simp

/-- A quotient cut after its whole part, with one added when that part ends in 0 or 5 and
something was cut, stays in the cell of the grid of fives around the exact quotient. -/
theorem sameCell_sticky {n den : Nat} (positive : 0 < den) (inexact : n % den ≠ 0) (e : Int) :
    SameCell e ((n : ℚ) / den * 10 ^ e)
      (((if n / den % 5 = 0 then n / den + 1 else n / den : Nat) : ℚ) * 10 ^ e) := by
  have power : (0 : ℚ) < 10 ^ e := zpow_pos (by norm_num) _
  have denominator : (0 : ℚ) < den := by exact_mod_cast positive
  -- The exact quotient is its whole part and a fraction strictly between zero and one.
  have split : (n : ℚ) / den = (n / den : Nat) + ((n % den : Nat) : ℚ) / den := by
    have whole : (n : ℚ) = ((n / den * den + n % den : Nat) : ℚ) := by rw [Nat.div_add_mod']
    rw [div_eq_iff denominator.ne', add_mul, div_mul_cancel₀ _ denominator.ne', whole,
      Nat.cast_add, Nat.cast_mul]
  have fractionPos : (0 : ℚ) < ((n % den : Nat) : ℚ) / den :=
    div_pos (by exact_mod_cast Nat.pos_of_ne_zero inexact) denominator
  have fractionLt : ((n % den : Nat) : ℚ) / den < 1 := by
    rw [div_lt_one denominator]
    exact_mod_cast Nat.mod_lt n positive
  -- The whole part, and the cut quotient, lie inside one block of five.
  set k := n / den / 5
  have block : 5 * k ≤ n / den ∧ n / den < 5 * k + 5 := by omega
  have cut : 5 * k < (if n / den % 5 = 0 then n / den + 1 else n / den) ∧
      (if n / den % 5 = 0 then n / den + 1 else n / den) < 5 * k + 5 := by
    split_ifs <;> omega
  have blockLow : ((5 * k : Nat) : ℚ) ≤ (n / den : Nat) := by exact_mod_cast block.1
  have blockHigh : ((n / den : Nat) : ℚ) + 1 ≤ ((5 * k + 5 : Nat) : ℚ) := by exact_mod_cast block.2
  have cutLow : ((5 * k : Nat) : ℚ) <
      ((if n / den % 5 = 0 then n / den + 1 else n / den : Nat) : ℚ) := by exact_mod_cast cut.1
  have cutHigh : ((if n / den % 5 = 0 then n / den + 1 else n / den : Nat) : ℚ) <
      ((5 * k + 5 : Nat) : ℚ) := by exact_mod_cast cut.2
  apply SameCell.of_block (k : ℤ)
  · rw [split]
    push_cast at blockLow ⊢
    linarith
  · rw [split]
    push_cast at blockHigh ⊢
    linarith
  · push_cast at cutLow ⊢
    exact cutLow
  · push_cast at cutHigh ⊢
    exact cutHigh

/-- The quotient cut one digit past the precision, with a sticky last digit, rounds as the exact
quotient does; a quotient that comes out whole at that digit is exact. -/
theorem roundedQuotient_round (positive : 1 ≤ c.precision) (range : c.emin ≤ c.emax)
    {a b : Decimal} (dividend : a.coeff ≠ 0) (divisor : b.coeff ≠ 0) :
    (roundedQuotient c (a.negative != b.negative) a b).map toRat = c.round (a.toRat / b.toRat) := by
  -- The scaled quotient reaches ten to the precision, so rounding it is decided by its cell.
  have large := pow_le_scaled_quotient dividend divisor c.precision
  unfold roundedQuotient
  simp only [pow10_eq]
  generalize (b.digits : Int) - a.digits + c.precision + 1 = shift at large ⊢
  obtain ⟨N, den, denominator, scaledEq, value⟩ := scaled_division a divisor shift
  simp only [scaledEq]
  rw [toRat_div_eq_sign divisor]
  -- The exact magnitude is the scaled quotient at the exponent of the cut.
  have magnitude : (a.coeff : ℚ) / b.coeff * 10 ^ (a.exp - b.exp) =
      N / den * 10 ^ (a.exp - b.exp - shift) := by
    rw [value, mul_assoc, ← zpow_add₀ (by norm_num), add_sub_cancel]
  rw [magnitude]
  by_cases exact : N % den = 0
  · -- Nothing was cut: shedding trailing zeros keeps the exact quotient.
    have whole : ((N / den : Nat) : ℚ) = N / den :=
      Nat.cast_div (Nat.dvd_of_mod_eq_zero exact) (by exact_mod_cast denominator.ne')
    have shed := stripZeros_value (N / den) (a.exp - b.exp - shift) (a.exp - b.exp)
    rw [if_neg (not_not.mpr exact), Context.fit_round positive range, toRat_eq_sign, shed, whole]
  · -- Something was cut: the sticky digit keeps the cut quotient in the cell of the exact one.
    have cell := sameCell_sticky denominator exact (a.exp - b.exp - shift)
    have power : (0 : ℚ) < 10 ^ (a.exp - b.exp - shift) := zpow_pos (by norm_num) _
    have nonneg : (0 : ℚ) ≤ N / den * 10 ^ (a.exp - b.exp - shift) := by positivity
    have sized : (10 : ℚ) ^ (a.exp - b.exp - shift + c.precision) ≤
        |(N : ℚ) / den * 10 ^ (a.exp - b.exp - shift)| := by
      rw [abs_of_nonneg nonneg, zpow_add₀ (by norm_num), value, mul_comm]
      exact mul_le_mul_of_nonneg_right large power.le
    rw [if_pos exact, Context.fit_round positive range, toRat_eq_sign]
    exact round_sign_mul _ (Context.round_eq_of_cell positive cell sized).symm

/-- A quotient by a nonzero divisor is its exact value rounded in the context. -/
theorem div_round (positive : 1 ≤ c.precision) (range : c.emin ≤ c.emax) (a : Decimal)
    {b : Decimal} (divisor : b.coeff ≠ 0) :
    (div c a b).map toRat = c.round (a.toRat / b.toRat) := by
  simp only [div, isZero_eq_false divisor, Bool.false_eq_true, if_false]
  by_cases dividend : a.coeff = 0
  · -- Zero divided by anything nonzero is zero.
    simp only [isZero_eq_true dividend, if_true]
    rw [Context.fit_round positive range, (toRat_eq_zero_iff a).mpr dividend, zero_div]
    simp [toRat]
  · simp only [isZero_eq_false dividend, Bool.false_eq_true, if_false]
    -- A finite expansion short enough is used; otherwise the quotient is cut and rounded.
    split
    · rename_i q places found
      split_ifs with short
      · -- The finite expansion is the exact quotient.
        have expansion := exactQuotient?_spec divisor found
        have magnitude : (q : ℚ) * 10 ^ (a.exp - b.exp - places) =
            a.coeff / b.coeff * 10 ^ (a.exp - b.exp) := by
          rw [zpow_sub₀ (by norm_num), zpow_natCast, ← expansion]
          ring
        rw [Context.fit_round positive range, toRat_quotient divisor magnitude]
      · exact roundedQuotient_round positive range dividend divisor
    · exact roundedQuotient_round positive range dividend divisor

end Decimal

namespace Operation

variable {c : Context}

/-- Every operation, on a nonzero divisor when it divides, gives its exact result rounded in the
context, or the overflow signal. -/
theorem perform_round (positive : 1 ≤ c.precision) (range : c.emin ≤ c.emax) (op : Operation)
    (a b : Decimal) (divisor : op = .div → b.coeff ≠ 0) :
    (op.perform c a b).map Decimal.toRat = c.round (op.exact a.toRat b.toRat) := by
  -- Each operation's own lemma.
  cases op with
  | add => exact Decimal.add_round positive range a b
  | sub => exact Decimal.sub_round positive range a b
  | mul => exact Decimal.mul_round positive range a b
  | div => exact Decimal.div_round positive range a (divisor rfl)

/-- Applying an operation refuses a zero divisor, and otherwise gives the exact result rounded in
the context, or reports its overflow: what it gives depends on the values of its operands
alone. -/
theorem apply_round (positive : 1 ≤ c.precision) (range : c.emin ≤ c.emax) (op : Operation)
    (a b : Decimal) :
    (op.apply c a b).map Decimal.toRat =
      if op = .div ∧ b.toRat = 0 then .error .divisionByZero
      else (c.round (op.exact a.toRat b.toRat)).mapError fun _ => .overflow := by
  -- A zero divisor is refused before anything is computed; its value is zero as well.
  by_cases refused : op = .div ∧ b.coeff = 0
  · obtain ⟨rfl, zero⟩ := refused
    have guard : (Operation.div = .div && b.isZero) = true := by
      simp [Decimal.isZero_eq_true zero]
    rw [apply, if_pos guard, if_pos ⟨rfl, (Decimal.toRat_eq_zero_iff b).mpr zero⟩]
    rfl
  · -- Past the guard, the decimal operation's signal is reported as overflow.
    have guard : ¬(op = .div && b.isZero) = true := by
      cases op <;> simp_all [Decimal.isZero]
    have kept : ¬(op = .div ∧ b.toRat = 0) := by
      rwa [Decimal.toRat_eq_zero_iff]
    have performed := perform_round positive range op a b fun dividing zero => refused ⟨dividing, zero⟩
    rw [apply, if_neg guard, if_neg kept, ← performed]
    cases op.perform c a b <;> rfl

end Operation

end Calculator
