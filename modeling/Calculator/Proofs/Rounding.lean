import Calculator.Display
import Calculator.Proofs.FixedText

/-! Rounding half to even, and the decimal operations a result is shown with: rescaling to a
number of places rounds the value half to even at that place, fitting a decimal the context
holds changes nothing, and normalizing keeps the value and leaves no trailing zero below the
unit. -/

namespace Calculator

/-! ### Rounding a rational number -/

/-- The whole number nearest to x; of two equally near, the even one. -/
def roundHalfEven (x : ℚ) : ℤ :=
  if x - ⌊x⌋ < 1 / 2 then ⌊x⌋
  else if 1 / 2 < x - ⌊x⌋ then ⌊x⌋ + 1
  else ⌊x⌋ + ⌊x⌋ % 2

/-- x rounded half to even to `places` decimal places. -/
def roundPlaces (x : ℚ) (places : Nat) : ℚ := roundHalfEven (x * 10 ^ places) / 10 ^ places

/-- Rounding a whole number plus a fraction below one looks only at the fraction, and at the
parity of the whole number on a tie. -/
theorem roundHalfEven_add {k : ℤ} {f : ℚ} (nonneg : 0 ≤ f) (lt : f < 1) :
    roundHalfEven (k + f) = if f < 1 / 2 then k else if 1 / 2 < f then k + 1 else k + k % 2 := by
  -- The floor is the whole number, and what is left over is the fraction.
  have floor : ⌊(k : ℚ) + f⌋ = k := Int.floor_eq_iff.mpr ⟨by linarith, by linarith⟩
  simp only [roundHalfEven, floor, add_sub_cancel_left]

@[simp] theorem roundHalfEven_intCast (k : ℤ) : roundHalfEven k = k := by
  -- A whole number has fraction zero, which is below a half.
  simpa using roundHalfEven_add (k := k) le_rfl one_pos

@[simp] theorem roundHalfEven_zero : roundHalfEven 0 = 0 := by
  -- Zero is a whole number.
  simpa using roundHalfEven_intCast 0

/-- Rounding half to even is symmetric about zero. -/
theorem roundHalfEven_neg (x : ℚ) : roundHalfEven (-x) = -roundHalfEven x := by
  -- Write x as its floor and a fraction, and compare the fraction with a half on both sides.
  set k := ⌊x⌋
  set f := x - k with fIs
  have nonneg : 0 ≤ f := by
    simp only [f, k]
    linarith [Int.floor_le x]
  have lt : f < 1 := by
    simp only [f, k]
    linarith [Int.lt_floor_add_one x]
  have split : x = k + f := by ring
  rcases nonneg.eq_or_lt with whole | positive
  · -- On the grid both sides are whole numbers already.
    rw [split, ← whole, add_zero, ← Int.cast_neg, roundHalfEven_intCast, roundHalfEven_intCast]
  -- Off the grid, -x lies one below -k by the complement of the fraction.
  have mirrored : -x = ((-k - 1 : ℤ) : ℚ) + (1 - f) := by
    rw [split]
    push_cast
    ring
  rw [mirrored, split, roundHalfEven_add (by linarith) (by linarith),
    roundHalfEven_add nonneg lt]
  rcases lt_trichotomy f (1 / 2) with below | tie | above
  · -- x rounds down to k, and -x, over half above -k - 1, rounds up to -k.
    rw [if_neg (by linarith), if_pos (by linarith), if_pos below]
    ring
  · -- On a tie k and -k - 1 have opposite parities, so both go to the same even neighbour.
    rw [if_neg (by linarith), if_neg (by linarith), if_neg (by linarith), if_neg (by linarith)]
    omega
  · -- x rounds up to k + 1, and -x, under half above -k - 1, rounds down to it.
    rw [if_pos (by linarith), if_neg (by linarith), if_pos above]
    ring

-- Ties go to the even neighbour, on both sides of zero.
example :
    roundHalfEven (5 / 2) = 2 ∧ roundHalfEven (7 / 2) = 4 ∧ roundHalfEven (-5 / 2) = -2 := by
  decide +kernel

/-- A number on the grid of `places` places is left as it is. -/
theorem roundPlaces_of_grid {x : ℚ} {places : Nat} {k : ℤ} (onGrid : x * 10 ^ places = k) :
    roundPlaces x places = x := by
  -- The scaled number is whole, so rounding keeps it and scaling back undoes the scaling.
  rw [roundPlaces, onGrid, roundHalfEven_intCast, ← onGrid,
    mul_div_cancel_right₀ _ (pow_ne_zero _ (by norm_num))]

/-- Rounding a quotient of naturals: the whole quotient, one more when the remainder is over half
the divisor, or exactly half of it and the quotient odd. -/
theorem roundHalfEven_div (n u : Nat) (positive : 0 < u) :
    roundHalfEven ((n : ℚ) / u) =
      ((if u < 2 * (n % u) ∨ (2 * (n % u) = u ∧ n / u % 2 = 1) then n / u + 1 else n / u :
        Nat) : ℤ) := by
  have divisor : (0 : ℚ) < u := by exact_mod_cast positive
  have remainder : n % u < u := Nat.mod_lt n positive
  -- The quotient is the whole part, the remainder over the divisor the fraction.
  have split : (n : ℚ) / u = ((n / u : Nat) : ℤ) + ((n % u : Nat) : ℚ) / u := by
    have whole : (n : ℚ) = ((n / u * u + n % u : Nat) : ℚ) := by rw [Nat.div_add_mod']
    rw [div_eq_iff divisor.ne', add_mul, div_mul_cancel₀ _ divisor.ne', whole, Nat.cast_add,
      Nat.cast_mul, Int.cast_natCast]
  have fraction : ((n % u : Nat) : ℚ) / u < 1 := by
    rw [div_lt_one divisor]
    exact_mod_cast remainder
  rw [split, roundHalfEven_add (by positivity) fraction]
  -- The fraction against one half is the doubled remainder against the divisor.
  have half : ∀ a b : Nat, 0 < b → ((a : ℚ) / b < 1 / 2 ↔ 2 * a < b) := by
    intro a b pos
    rw [div_lt_div_iff₀ (by exact_mod_cast pos) (by norm_num)]
    norm_cast
    omega
  have overHalf : ∀ a b : Nat, 0 < b → (1 / 2 < (a : ℚ) / b ↔ b < 2 * a) := by
    intro a b pos
    rw [div_lt_div_iff₀ (by norm_num) (by exact_mod_cast pos)]
    norm_cast
    omega
  -- Each side's three cases then match, the tie going to the even quotient.
  simp only [half _ _ positive, overHalf _ _ positive]
  split_ifs <;> omega

/-! ### Rounding a decimal -/

namespace Decimal

/-- Dropping k digits of a coefficient rounds the coefficient over ten to the k half to even. -/
theorem roundOff_eq (coeff k : Nat) :
    (roundOff coeff k : ℤ) = roundHalfEven ((coeff : ℚ) / 10 ^ k) := by
  -- Both sides are the rounding of a quotient of naturals.
  have power : 0 < 10 ^ k := Nat.pow_pos (by decide)
  have cast : ((10 ^ k : Nat) : ℚ) = 10 ^ k := by push_cast; rfl
  rw [← cast, roundHalfEven_div coeff (10 ^ k) power]
  by_cases short : digitCount coeff < k
  · -- With fewer digits than are dropped, the coefficient is below a tenth of the unit.
    have below : 2 * coeff < 10 ^ k := by
      have fewer := lt_pow_digitCount coeff
      have tenth : 10 ^ digitCount coeff * 10 ≤ 10 ^ k := by
        rw [← Nat.pow_succ]
        exact Nat.pow_le_pow_right (by decide) short
      omega
    have quotient : coeff / 10 ^ k = 0 := Nat.div_eq_of_lt (by omega)
    have remainder : coeff % 10 ^ k = coeff := Nat.mod_eq_of_lt (by omega)
    simp only [roundOff, short, if_true, quotient, remainder]
    rw [if_neg (by omega)]
  · -- Otherwise the rule on quotient and remainder is the one the rounding states.
    simp only [roundOff, short, if_false, pow10_eq]
    rfl

/-- Rescaling to `places` places below the unit rounds the value half to even at that place. -/
theorem rescale_toRat (d : Decimal) (places : Nat) :
    (d.rescale (-places)).toRat = roundPlaces d.toRat places := by
  unfold rescale
  -- One case per branch of rescaling: a zero, zeros appended, digits dropped.
  split_ifs with zero lower
  · -- A zero stays zero, at any exponent.
    have value : d.toRat = 0 := (toRat_eq_zero_iff d).mpr (by simpa [isZero] using zero)
    rw [roundPlaces, value]
    simp [toRat]
  · -- Zeros appended: the value is kept, and it is already on the grid.
    have shifted := toRat_shift d.negative d.coeff (d.exp - -(places : Int)).toNat (-places)
    rw [show -(places : Int) + ((d.exp - -(places : Int)).toNat : Int) = d.exp by omega] at shifted
    rw [pow10_eq, shifted]
    obtain ⟨k, gap⟩ : ∃ k : Nat, d.exp + places = k := ⟨(d.exp + places).toNat, by omega⟩
    have grid : d.toRat * 10 ^ places = ((signed d.negative (d.coeff * 10 ^ k) : Int) : ℚ) := by
      rw [toRat, mul_assoc, ← zpow_natCast, ← zpow_add₀ (by norm_num), gap, zpow_natCast]
      simp only [signed_cast, Nat.cast_mul, Nat.cast_pow, Nat.cast_ofNat]
      split <;> ring
    exact (roundPlaces_of_grid grid).symm
  · -- Digits dropped: the coefficient over ten to their number is rounded half to even.
    obtain ⟨m, gap⟩ : ∃ m : Nat, -(places : Int) - d.exp = m :=
      ⟨(-(places : Int) - d.exp).toNat, by omega⟩
    have magnitude : (d.coeff : ℚ) * 10 ^ d.exp * 10 ^ places = d.coeff / 10 ^ m := by
      rw [mul_assoc, ← zpow_natCast, ← zpow_add₀ (by norm_num),
        show d.exp + (places : Int) = -(m : Int) by omega, zpow_neg, zpow_natCast, div_eq_mul_inv]
    have rounded := roundOff_eq d.coeff m
    rw [gap, Int.toNat_natCast]
    simp only [roundPlaces, toRat, signed_cast, zpow_neg, zpow_natCast]
    -- A negative value rounds as its magnitude does, mirrored.
    cases d.negative
    · simp only [Bool.false_eq_true, if_false]
      rw [magnitude, ← rounded, div_eq_mul_inv]
      norm_cast
    · simp only [if_true, neg_mul]
      rw [magnitude, roundHalfEven_neg, ← rounded, div_eq_mul_inv]
      push_cast
      ring

/-! ### Comparing values -/

/-- A decimal's value is its coefficient brought down to any lower exponent, at that exponent. -/
theorem toRat_at {d : Decimal} {e : Int} (lower : e ≤ d.exp) :
    d.toRat = ((signed d.negative (d.coeff * 10 ^ (d.exp - e).toNat) : Int) : ℚ) * 10 ^ e := by
  -- Zeros appended to the coefficient are taken off the exponent.
  have shifted := toRat_shift d.negative d.coeff (d.exp - e).toNat e
  rw [show e + ((d.exp - e).toNat : Int) = d.exp by omega] at shifted
  exact shifted.symm

/-- Signed magnitudes agree when both are zero, or when sign and magnitude agree. -/
theorem signed_eq_iff (x y : Bool) (m n : Nat) :
    signed x m = signed y n ↔ (m = 0 ∧ n = 0) ∨ (x = y ∧ m = n) := by
  -- Opposite signs meet only at zero.
  cases x <;> cases y <;> simp [signed] <;> omega

/-- Coefficients brought to a common exponent that agree give the same leading digit. -/
theorem adjusted_eq_of_aligned {a b : Decimal} {e : Int} (nonzero : a.coeff ≠ 0)
    (lowerA : e ≤ a.exp) (lowerB : e ≤ b.exp)
    (same : a.coeff * 10 ^ (a.exp - e).toNat = b.coeff * 10 ^ (b.exp - e).toNat) :
    a.adjusted = b.adjusted := by
  -- Equal aligned coefficients have equal digit counts, each its own count plus its zeros.
  have nonzeroB : b.coeff ≠ 0 := by
    rintro zero
    simp [zero, nonzero] at same
  have digits := congrArg digitCount same
  rw [digitCount_mul_pow nonzero, digitCount_mul_pow nonzeroB] at digits
  simp only [adjusted, Decimal.digits]
  omega

/-- Swapping an order or not leaves it equal exactly when it was. -/
theorem ite_swap_eq_eq (c : Prop) [Decidable c] (o : Ordering) :
    (if c then o.swap else o) = .eq ↔ o = .eq := by
  -- Swapping keeps equality where it is.
  split <;> simp [Ordering.swap_eq_eq]

/-- Two decimals compare equal exactly when they have the same value. -/
theorem sameValue_iff (a b : Decimal) : a.sameValue b = true ↔ a.toRat = b.toRat := by
  have lowerA : min a.exp b.exp ≤ a.exp := min_le_left _ _
  have lowerB : min a.exp b.exp ≤ b.exp := min_le_right _ _
  -- At the lower exponent the values are equal exactly when the signed coefficients are.
  rw [toRat_at lowerA, toRat_at lowerB, mul_left_inj' (zpow_ne_zero _ (by norm_num)),
    Int.cast_inj, signed_eq_iff]
  have zeroA : a.coeff * 10 ^ (a.exp - min a.exp b.exp).toNat = 0 ↔ a.coeff = 0 := by simp
  have zeroB : b.coeff * 10 ^ (b.exp - min a.exp b.exp).toNat = 0 ↔ b.coeff = 0 := by simp
  rw [zeroA, zeroB]
  simp only [sameValue, compare, beq_iff_eq, isZero, Bool.and_eq_true]
  -- Two zeros compare equal whatever their signs.
  by_cases both : a.coeff = 0 ∧ b.coeff = 0
  · simp [both]
  rw [if_neg both]
  by_cases signs : a.negative = b.negative
  · -- Same sign: the magnitudes decide, and the sign only swaps the order.
    rw [if_neg (by simp [signs]), ite_swap_eq_eq]
    simp only [both, signs, false_or, true_and]
    by_cases zero : a.coeff = 0
    · simp [zero, show b.coeff ≠ 0 by tauto]
    by_cases zero' : b.coeff = 0
    · simp [zero, zero']
    by_cases leading : a.adjusted = b.adjusted
    · simp [zero, zero', leading]
    · -- Different leading digits: neither the order nor the aligned coefficients agree.
      have differ : a.coeff * 10 ^ (a.exp - min a.exp b.exp).toNat ≠
          b.coeff * 10 ^ (b.exp - min a.exp b.exp).toNat :=
        fun same => leading (adjusted_eq_of_aligned zero lowerA lowerB same)
      simp [zero, zero', leading, differ]
  · -- Opposite signs: the order is strict, and the values differ unless both are zero.
    rw [if_pos (by simpa using signs)]
    simp only [signs, false_and, or_false, both, iff_false]
    split <;> simp

end Decimal

/-! ### Fitting and normalizing -/

namespace Context

/-- A decimal with at most `precision` digits, none below `etiny` and its leading digit at most
`emax`, is fitted as it is. -/
theorem fit_of_fits {c : Context} {negative : Bool} {coeff : Nat} {exp : Int}
    (short : Decimal.digitCount coeff ≤ c.precision) (tiny : c.etiny ≤ exp)
    (leading : (Decimal.digitCount coeff : Int) + exp - 1 ≤ c.emax) :
    c.fit negative coeff exp = .ok ⟨negative, coeff, exp⟩ := by
  by_cases zero : coeff = 0
  · -- A zero in range keeps its exponent.
    subst zero
    simp only [Decimal.digitCount_eq, Nat.log_zero_right] at leading
    simp only [fit, if_true, Except.ok.injEq, Decimal.mk.injEq, true_and]
    omega
  · -- Nothing overflows, and no digit lies below the lowest one kept.
    have noOverflow : ¬ c.etop < (Decimal.digitCount coeff : Int) + exp - c.precision := by
      unfold etop
      omega
    have noRounding :
        ¬ exp < max ((Decimal.digitCount coeff : Int) + exp - c.precision) c.etiny := by
      omega
    simp only [fit, zero, noOverflow, noRounding, if_false]

/-- Fitting never leaves a digit below `etiny`. -/
theorem etiny_le_fit {c : Context} {negative : Bool} {coeff : Nat} {exp : Int} {d : Decimal}
    (fitted : c.fit negative coeff exp = .ok d) : c.etiny ≤ d.exp := by
  unfold fit at fitted
  dsimp only at fitted
  -- Every result stands at the lowest exponent kept, which is at least etiny, or above it.
  split_ifs at fitted <;> cases fitted <;> dsimp only <;> omega

end Context

namespace Decimal

/-- Shedding trailing zeros from a nonzero coefficient leaves it nonzero and stops at a last
digit that is not zero, or at the limit; it only raises the exponent. -/
theorem stripZeros_stops {coeff : Nat} (nonzero : coeff ≠ 0) (exp limit : Int) :
    (stripZeros coeff exp limit).1 ≠ 0 ∧
      ((stripZeros coeff exp limit).1 % 10 ≠ 0 ∨ limit ≤ (stripZeros coeff exp limit).2) ∧
      exp ≤ (stripZeros coeff exp limit).2 := by
  fun_induction stripZeros coeff exp limit with
  | case1 coeff exp shed ih =>
    -- A coefficient ending in zero is at least ten, so a tenth of it is still nonzero.
    obtain ⟨nonzero', stop, raised⟩ := ih (by omega)
    exact ⟨nonzero', stop, by omega⟩
  | case2 coeff exp kept =>
    -- Shedding stopped: the last digit is not zero, or the exponent reached the limit.
    refine ⟨nonzero, ?_, le_rfl⟩
    by_contra going
    exact kept ⟨nonzero, by omega, by omega⟩

end Decimal

/-- A decimal as normalizing leaves it: no trailing zero below the unit, no digit below `etiny`
(a zero has exponent zero), and its leading digit at most `emax`. -/
structure Context.Normal (c : Context) (n : Decimal) : Prop where
  trimmed : n.exp < 0 → n.coeff % 10 ≠ 0
  tiny : min c.etiny 0 ≤ n.exp
  leading : n.adjusted ≤ max c.emax 0

namespace Decimal

/-- Normalizing a decimal that fits into a normal decimal keeps the value of the fitted one and
leaves it normal. -/
theorem normalize_of_fit {c : Context} {d fitted : Decimal} (nonnegative : 0 ≤ c.emax)
    (fits : c.fitDecimal d = .ok fitted) (tiny : c.etiny ≤ fitted.exp)
    (leading : fitted.coeff ≠ 0 → fitted.adjusted ≤ c.emax) :
    ∃ n, d.normalize c = .ok n ∧ n.toRat = fitted.toRat ∧ c.Normal n := by
  -- Normalizing fits first, then sheds trailing zeros from what fitting gave.
  have normalized : d.normalize c =
      if fitted.isZero then .ok ⟨fitted.negative, 0, 0⟩
      else .ok ⟨fitted.negative, (stripZeros fitted.coeff fitted.exp c.emax).1,
        (stripZeros fitted.coeff fitted.exp c.emax).2⟩ := by
    rw [normalize, fits]
    rfl
  by_cases zero : fitted.coeff = 0
  · -- A zero becomes zero with exponent zero.
    refine ⟨⟨fitted.negative, 0, 0⟩, by simp [normalized, isZero, zero],
      by simp [toRat, zero], ⟨by simp, by simp, ?_⟩⟩
    simp only [adjusted, digits, digitCount_eq, Nat.log_zero_right]
    omega
  · -- Otherwise the trailing zeros move into the exponent.
    obtain ⟨nonzero, stop, raised⟩ := stripZeros_stops zero fitted.exp c.emax
    set stripped := stripZeros fitted.coeff fitted.exp c.emax with strippedIs
    have kept : (⟨fitted.negative, stripped.1, stripped.2⟩ : Decimal).toRat = fitted.toRat := by
      simp only [toRat, signed_cast, strippedIs]
      split <;> simp only [neg_mul, stripZeros_value]
    refine ⟨⟨fitted.negative, stripped.1, stripped.2⟩,
      by simp [normalized, isZero, zero, strippedIs], kept,
      ⟨fun below => stop.resolve_right (by dsimp only at below; omega), by dsimp only; omega,
        ?_⟩⟩
    -- Of the same value, it has the same leading digit.
    have same := congrArg (fun x => Int.log 10 |x|) kept
    have shed : (⟨fitted.negative, stripped.1, stripped.2⟩ : Decimal).coeff ≠ 0 := nonzero
    simp only [log_abs_toRat shed, log_abs_toRat zero] at same
    exact same.trans_le ((leading zero).trans (le_max_left _ _))

/-- Normalizing a decimal whose value the context holds keeps the value and leaves it normal. -/
theorem normalize_exact {c : Context} {d : Decimal} (nonnegative : 0 ≤ c.emax)
    (holds : c.Holds d.toRat) :
    ∃ n, d.normalize c = .ok n ∧ n.toRat = d.toRat ∧ c.Normal n := by
  obtain ⟨fitted, fits, value⟩ := Context.fit_exact holds
  -- The fitted decimal has the value's leading digit, which the context holds in range.
  have leading : fitted.coeff ≠ 0 → fitted.adjusted ≤ c.emax := by
    intro nonzero
    have nonzeroValue : d.toRat ≠ 0 := by
      rw [← value, ne_eq, toRat_eq_zero_iff]
      exact nonzero
    have range := (holds.range nonzeroValue).2
    rwa [← value, log_abs_toRat nonzero] at range
  obtain ⟨n, normalized, kept, normal⟩ :=
    normalize_of_fit nonnegative fits (Context.etiny_le_fit fits) leading
  exact ⟨n, normalized, kept.trans value, normal⟩

/-! ### Quantizing -/

/-- Rounding off digits leaves at most one more than the quotient. -/
theorem roundOff_le (coeff k : Nat) : roundOff coeff k ≤ coeff / 10 ^ k + 1 := by
  unfold roundOff
  -- Everything dropped leaves zero; otherwise the quotient, or one more when rounding up.
  split
  · exact Nat.zero_le _
  · dsimp only
    split <;> simp only [pow10_eq] <;> omega

/-- A rescaled decimal has at most one digit more than the places from the leading digit down to
the new exponent: one more only when rounding carries. -/
theorem rescale_digits (d : Decimal) (e : Int) :
    ((d.rescale e).digits : Int) ≤ max 1 (d.adjusted - e + 2) := by
  have one := one_le_digitCount d.coeff
  unfold rescale
  split_ifs with zero lower
  · -- A zero has one digit.
    simp [digits, digitCount_eq]
  · -- Zeros appended: exactly one digit per place below the old exponent.
    have nonzero : d.coeff ≠ 0 := by simpa [isZero] using zero
    simp only [digits, pow10_eq, digitCount_mul_pow nonzero, adjusted]
    omega
  · -- Digits dropped: what is left is below ten to the digits kept, one more after a carry.
    by_cases fewer : digitCount d.coeff < (e - d.exp).toNat
    · -- More dropped than there are digits: nothing is left but a zero.
      have vanished : roundOff d.coeff (e - d.exp).toNat = 0 := by simp [roundOff, fewer]
      simp [digits, vanished, digitCount_eq]
    have quotient : d.coeff / 10 ^ (e - d.exp).toNat <
        10 ^ (digitCount d.coeff - (e - d.exp).toNat) := by
      rw [Nat.div_lt_iff_lt_mul (Nat.pow_pos (by decide)), ← Nat.pow_add,
        Nat.sub_add_cancel (by omega)]
      exact lt_pow_digitCount _
    have carry : 10 ^ (digitCount d.coeff - (e - d.exp).toNat) * 10 =
        10 ^ (digitCount d.coeff - (e - d.exp).toNat + 1) := (Nat.pow_succ _ _).symm
    have below : roundOff d.coeff (e - d.exp).toNat <
        10 ^ (digitCount d.coeff - (e - d.exp).toNat + 1) := by
      have := roundOff_le d.coeff (e - d.exp).toNat
      have positive : 0 < 10 ^ (digitCount d.coeff - (e - d.exp).toNat) := Nat.pow_pos (by decide)
      omega
    have counted := (digitCount_le_iff (by omega)).mpr below
    simp only [digits, adjusted]
    omega

/-- Rescaling sets the exponent. -/
@[simp] theorem rescale_exp (d : Decimal) (e : Int) : (d.rescale e).exp = e := by
  unfold rescale
  -- Every branch puts the new exponent in place.
  split_ifs <;> rfl

/-- A rescaled decimal's leading digit lies at most one above the old one, after a carry, or at
the new exponent. -/
theorem rescale_adjusted_le (d : Decimal) (e : Int) :
    (d.rescale e).adjusted ≤ max e (d.adjusted + 1) := by
  -- The leading digit is the new exponent plus the digits, which the digit bound limits.
  have bound := rescale_digits d e
  have leading : (d.rescale e).adjusted = e + (d.rescale e).digits - 1 := by
    simp only [adjusted, rescale_exp]
  omega

section Quantize

variable {c : Context} {d : Decimal} {e : Int}

/-- A decimal rescaled to an exponent at or above `etiny` is fitted as it is, when the places
from its leading digit down to the exponent, with one more for a carry, fit the precision and the
rescaled leading digit is at most `emax`. -/
theorem rescale_fits_of_kept (tiny : c.etiny ≤ e) (kept : (d.rescale e).adjusted ≤ c.emax)
    (room : d.adjusted - e + 2 ≤ c.precision) (positive : 1 ≤ c.precision) :
    c.fitDecimal (d.rescale e) = .ok (d.rescale e) := by
  -- The rescaled digits fit the precision, and the leading one lies in range.
  have bound := rescale_digits d e
  have short : (d.rescale e).digits ≤ c.precision := by omega
  have below : ((d.rescale e).digits : Int) + (d.rescale e).exp - 1 ≤ c.emax := by
    have leading : (d.rescale e).adjusted = (d.rescale e).exp + (d.rescale e).digits - 1 := rfl
    omega
  exact Context.fit_of_fits short (by rwa [rescale_exp]) below

/-- A decimal rescaled to an exponent in range is fitted as it is, when the places from its
leading digit down to the exponent, with one more for a carry, fit the precision, and a carry
still leaves the leading digit at most `emax`. -/
theorem rescale_fits (tiny : c.etiny ≤ e) (high : e ≤ c.emax)
    (leading : d.adjusted + 1 ≤ c.emax) (room : d.adjusted - e + 2 ≤ c.precision)
    (positive : 1 ≤ c.precision) :
    c.fitDecimal (d.rescale e) = .ok (d.rescale e) := by
  -- After a carry the leading digit is at most one higher, still within `emax`.
  have top := rescale_adjusted_le d e
  exact rescale_fits_of_kept tiny (by omega) room positive

/-- Quantizing a nonzero decimal whose leading digit is at most `emax` to an exponent in range
gives its rescaling, when the places down to the exponent and one more fit the precision and the
rounding leaves the leading digit at most `emax`. -/
theorem quantize_of_kept (nonzero : d.coeff ≠ 0) (tiny : c.etiny ≤ e) (high : e ≤ c.emax)
    (notAbove : d.adjusted ≤ c.emax) (room : d.adjusted - e + 2 ≤ c.precision)
    (kept : (d.rescale e).adjusted ≤ c.emax) (positive : 1 ≤ c.precision) :
    d.quantize c e = .ok (d.rescale e) := by
  -- Each refusal of the quantizing is ruled out in turn.
  have bound := rescale_digits d e
  have inRange : ¬ (e < c.etiny ∨ c.emax < e) := by omega
  have notAbove' : ¬ c.emax < d.adjusted := by omega
  have fits : ¬ (c.precision : Int) < d.adjusted - e + 1 := by omega
  -- The result has room for its digits, and its leading digit is in range.
  have resultFits :
      ¬ (c.emax < (d.rescale e).adjusted ∨ c.precision < (d.rescale e).digits) := by
    omega
  simp only [quantize, inRange, isZero_eq_false nonzero, notAbove', fits, resultFits,
    Bool.false_eq_true, if_false]
  exact rescale_fits_of_kept tiny kept room positive

/-- A nonzero decimal whose leading digit lies above `emax` is refused, at every exponent. -/
theorem quantize_above (nonzero : d.coeff ≠ 0) (above : c.emax < d.adjusted) :
    d.quantize c e = .error .invalidOperation := by
  -- The exponent is checked first, and refused or not, the leading digit is refused next.
  simp only [quantize, isZero_eq_false nonzero, above, Bool.false_eq_true, if_false, if_true,
    ite_self]

/-- A rounding that carries the leading digit past `emax` is refused. -/
theorem quantize_carry (nonzero : d.coeff ≠ 0) (carried : c.emax < (d.rescale e).adjusted) :
    d.quantize c e = .error .invalidOperation := by
  -- Every check refuses, the last one at the latest.
  simp only [quantize, isZero_eq_false nonzero, carried, true_or, Bool.false_eq_true, if_false,
    if_true, ite_self]

/-- Quantizing a nonzero decimal to an exponent in range gives its rescaling, under the same
conditions. -/
theorem quantize_rescale (nonzero : d.coeff ≠ 0) (tiny : c.etiny ≤ e) (high : e ≤ c.emax)
    (leading : d.adjusted + 1 ≤ c.emax) (room : d.adjusted - e + 2 ≤ c.precision)
    (positive : 1 ≤ c.precision) :
    d.quantize c e = .ok (d.rescale e) := by
  -- Room for a carry below `emax` keeps the rescaled leading digit in range.
  have top := rescale_adjusted_le d e
  exact quantize_of_kept nonzero tiny high (by omega) room (by omega) positive

end Quantize

/-- The unit decimal scaled by a power of ten in range is that power. -/
theorem scale_one {c : Context} {k : Int} (tiny : c.etiny ≤ k) (high : k ≤ c.emax)
    (near : k.natAbs ≤ 2 * (c.emax + c.precision)) (positive : 1 ≤ c.precision) :
    (⟨false, 1, 0⟩ : Decimal).scale c k = .ok ⟨false, 1, k⟩ := by
  have one : digitCount 1 = 1 := by simp [digitCount_eq]
  -- The shift is allowed, and the one digit at `k` is fitted as it is.
  rw [scale, if_neg (by omega), zero_add]
  exact Context.fit_of_fits (show digitCount 1 ≤ c.precision by omega) tiny
    (show (digitCount 1 : Int) + k - 1 ≤ c.emax by omega)

/-- Rounding off at least one digit of one leaves zero. -/
theorem roundOff_one {k : Nat} (dropped : 1 ≤ k) : roundOff 1 k = 0 := by
  have one : digitCount 1 = 1 := by simp [digitCount_eq]
  unfold roundOff
  by_cases more : 1 < k
  · -- More digits dropped than one has: nothing is left.
    rw [if_pos (by omega)]
  · -- One digit dropped: the remainder one is below half of ten.
    have single : k = 1 := by omega
    subst single
    simp [one, pow10_eq]

/-- The unit decimal scaled below `etiny`, by a shift the context allows, rounds to a zero at
`etiny`. -/
theorem scale_one_below {c : Context} {k : Int} (below : k < c.etiny) (high : k ≤ c.emax)
    (near : k.natAbs ≤ 2 * (c.emax + c.precision)) (positive : 1 ≤ c.precision) :
    (⟨false, 1, 0⟩ : Decimal).scale c k = .ok ⟨false, 0, c.etiny⟩ := by
  have one : digitCount 1 = 1 := by simp [digitCount_eq]
  have zero : digitCount 0 = 1 := by simp [digitCount_eq]
  have noOverflow : ¬ c.etop < (digitCount 1 : Int) + k - c.precision := by
    unfold Context.etop
    omega
  -- The lowest digit kept is at `etiny`, above the one digit of the unit.
  have lowest : max ((digitCount 1 : Int) + k - c.precision) c.etiny = c.etiny := by omega
  -- The shift is allowed; fitting then rounds the one digit off, with no carry.
  rw [scale, if_neg (by omega), zero_add]
  simp only [Context.fit, one_ne_zero, if_false, noOverflow, lowest, below, if_true,
    roundOff_one (show 1 ≤ (c.etiny - k).toNat by omega), zero]
  rw [if_neg (by omega)]

/-- A decimal that is a whole number has a whole value. -/
theorem isIntegral_whole {d : Decimal} (whole : d.isIntegral = true) :
    ∃ z : Int, d.toRat = z := by
  -- Whole means a zero, no digit below the unit, or only zeros there.
  simp only [isIntegral, Bool.or_eq_true, decide_eq_true_eq, Bool.and_eq_true, beq_iff_eq,
    isZero, pow10_eq] at whole
  by_cases nonneg : 0 ≤ d.exp
  · -- No digit below the unit.
    refine ⟨signed d.negative (d.coeff * 10 ^ d.exp.toNat), ?_⟩
    rw [toRat_at nonneg, zpow_zero, mul_one, Int.sub_zero]
  rcases whole with (zero | nonneg') | ⟨-, zeros⟩
  · -- Zero is whole.
    exact ⟨0, by rw [Int.cast_zero, toRat_eq_zero_iff, zero]⟩
  · -- The case taken first.
    exact absurd nonneg' nonneg
  · -- The digits below the unit are all zeros.
    refine ⟨signed d.negative (d.coeff / 10 ^ (-d.exp).toNat), ?_⟩
    have shifted := toRat_shift d.negative (d.coeff / 10 ^ (-d.exp).toNat) (-d.exp).toNat d.exp
    rw [Nat.div_mul_cancel (Nat.dvd_of_mod_eq_zero zeros)] at shifted
    rw [show d = ⟨d.negative, d.coeff, d.exp⟩ from rfl, shifted,
      show d.exp + ((-d.exp).toNat : Int) = 0 by omega, toRat, zpow_zero, mul_one]

/-- A nonzero whole number has its leading digit at or above the unit. -/
theorem isIntegral_adjusted {d : Decimal} (whole : d.isIntegral = true) (nonzero : d.coeff ≠ 0) :
    0 ≤ d.adjusted := by
  have one := one_le_digitCount d.coeff
  simp only [isIntegral, Bool.or_eq_true, decide_eq_true_eq, Bool.and_eq_true, beq_iff_eq,
    isZero, nonzero, false_or, pow10_eq, digits] at whole
  -- Either no digit lies below the unit, or fewer lie below it than the coefficient has.
  simp only [adjusted, digits]
  rcases whole with nonneg | ⟨fewer, -⟩
  · omega
  · -- The zeros below the unit are fewer than the digits, so one is left above it.
    have below : (-d.exp).toNat < digitCount d.coeff := of_decide_eq_true fewer
    omega

end Decimal

end Calculator
