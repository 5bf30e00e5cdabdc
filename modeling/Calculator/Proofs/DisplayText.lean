import Calculator.Proofs.Rounding

/-! The text a result is shown as. A number is shown as a plain numeral, with no exponent and no
trailing zero after its point, that reads back as the number rounded half to even to the places
asked for; a whole number is shown whole, and the rounding is marked exactly when it changed the
value. All of this rests on the working precision `max 128 (adjusted + places + 2)`: past the
largest precision a context may have nothing is shown, and with negative places it is too small
for numbers with more than 127 digits above the unit. -/

namespace Calculator

/-- The fixed text of a normal decimal is a numeral, with a minus sign or none, that has no
trailing zero after its point; it reads back as a decimal of the same value, when the context's
exponent range lies within the reader's. -/
theorem Context.Normal.fixedText {c : Context} {n : Decimal} (normal : c.Normal n)
    (low : Numeric.readEtiny ≤ c.etiny) (high : c.emax ≤ Numeric.readEmax) :
    (∃ (negative : Bool) (numeral : Grammar.Numeral),
        n.toFixedText.toList = (if negative then ['-'] else []) ++ numeral.text ∧
        ∀ f ∈ numeral.fraction, f.getLast? ≠ some '0') ∧
      ∃ m, Numeric.ofString? n.toFixedText = some (.finite m) ∧ m.toRat = n.toRat := by
  obtain ⟨numeral, spelled, -, fraction⟩ := n.toFixedText_numeral
  -- The normal decimal's digits lie in the context's range, which lies in the reader's.
  have tiny := normal.tiny
  have leading := normal.leading
  have readable : Numeric.readEtiny ≤ n.exp ∧ n.adjusted ≤ Numeric.readEmax := by
    simp only [Numeric.readEtiny, Numeric.readEmax] at low high ⊢
    omega
  refine ⟨⟨n.negative, numeral, spelled, fun f member last => ?_⟩,
    _, Numeric.ofString?_toFixedText n readable.1 readable.2, Decimal.toRat_raised n⟩
  -- A fraction stands only below the unit, where the normal coefficient has no trailing zero.
  obtain ⟨below, zero⟩ := fraction f member
  exact normal.trimmed below (zero.mp last)

/-- The contexts results are shown in have exponent ranges within the reader's. -/
theorem Context.ofPrecision_readable {precision : Nat} (fits : precision ≤ Context.maxPrecision) :
    Numeric.readEtiny ≤ (Context.ofPrecision precision).etiny ∧
      (Context.ofPrecision precision).emax ≤ Numeric.readEmax := by
  -- Every context has the exponent limit 999999; the reader allows more than the largest context.
  simp only [Context.ofPrecision, Context.etiny, Numeric.readEtiny, Numeric.readEmax,
    Context.maxPrecision] at fits ⊢
  omega

namespace Numeric

section Shown

variable {d : Decimal} {places : Int}

/-- A working precision within the largest a context may have also fits a word. -/
theorem working_precision_fits (fits : d.adjusted + places + 2 ≤ Context.maxPrecision) :
    ¬ (wordMax : Int) < max 128 (d.adjusted + places + 2) ∧
      ¬ (Context.maxPrecision : Int) < max 128 (d.adjusted + places + 2) := by
  -- The largest precision is itself below a word, and 128 is below both.
  simp only [wordMax, Context.maxPrecision] at fits ⊢
  omega

/-- A whole number is shown normalized and unmarked, when the working precision fits and has room
for its digits above the unit. -/
theorem display_integral (whole : d.isIntegral = true)
    (inRange : d.coeff = 0 ∨ (-999999 ≤ d.adjusted ∧ d.adjusted ≤ 999999))
    (fits : d.adjusted + places + 2 ≤ Context.maxPrecision)
    (room : d.adjusted + 1 ≤ max 128 (d.adjusted + places + 2)) :
    ∃ n, (Numeric.finite d).display places = .ok (n.toFixedText, false) ∧
      (Context.ofPrecision (max 128 (d.adjusted + places + 2)).toNat).Normal n ∧
      n.toRat = d.toRat := by
  -- Past the precision guards a whole number is only normalized, and that is exact.
  obtain ⟨wordFits, precisionFits⟩ := working_precision_fits fits
  set c := Context.ofPrecision (max 128 (d.adjusted + places + 2)).toNat with cIs
  have precision : (c.precision : Int) = max 128 (d.adjusted + places + 2) := by
    simp only [c, Context.ofPrecision]
    omega
  -- The context holds the value: a whole number with no more digits than the precision.
  have holds : c.Holds d.toRat := by
    obtain ⟨z, value⟩ := Decimal.isIntegral_whole whole
    refine ⟨⟨z.natAbs, 0, by rw [value, zpow_zero, mul_one, Nat.cast_natAbs, Int.cast_abs],
      ?_⟩, fun nonzero => ?_⟩
    · have below : |(z : ℚ)| < 10 ^ (c.precision : Int) := by
        rw [← value]
        exact (Decimal.abs_toRat_lt d).trans_le (zpow_le_zpow_right₀ (by norm_num) (by omega))
      rw [zpow_natCast, ← Int.cast_abs, ← Nat.cast_natAbs] at below
      exact_mod_cast below
    · -- Its leading digit is the adjusted exponent, which lies in the range.
      have nonzero' : d.coeff ≠ 0 := fun zero => nonzero ((Decimal.toRat_eq_zero_iff d).mpr zero)
      rw [Decimal.log_abs_toRat nonzero']
      simp only [c, Context.ofPrecision]
      omega
  obtain ⟨n, normalized, kept, normal⟩ :=
    Decimal.normalize_exact (by simp [c, Context.ofPrecision]) holds
  refine ⟨n, ?_, normal, kept⟩
  -- The display takes its whole branch, which only normalizes.
  simp only [display, adjusted, wordFits, precisionFits, if_false, whole, if_true, ← cIs]
  rw [normalized]
  rfl

/-- Any other number is rounded half to even to the places (to a whole number when they are not
positive), normalized, and marked when rounding changed its value, when the working precision
fits, the number lies in the exponent range with room for a carry, and it is below ten to the 127
when the places are negative. -/
theorem display_rounded (notWhole : d.isIntegral = false)
    (inRange : -999999 ≤ d.adjusted ∧ d.adjusted ≤ 999998)
    (fits : d.adjusted + places + 2 ≤ Context.maxPrecision)
    (room : 0 ≤ places ∨ d.adjusted ≤ 126) :
    ∃ n, (Numeric.finite d).display places =
        .ok (n.toFixedText, !(d.rescale (-places.toNat)).sameValue d) ∧
      (Context.ofPrecision (max 128 (d.adjusted + places + 2)).toNat).Normal n ∧
      n.toRat = roundPlaces d.toRat places.toNat := by
  -- Past the precision guards the number is quantized at the places, then normalized.
  obtain ⟨wordFits, precisionFits⟩ := working_precision_fits fits
  set c := Context.ofPrecision (max 128 (d.adjusted + places + 2)).toNat with cIs
  have precision : (c.precision : Int) = max 128 (d.adjusted + places + 2) := by
    simp only [c, Context.ofPrecision]
    omega
  have etiny : c.etiny = -999999 - c.precision + 1 := rfl
  have emax : c.emax = 999999 := rfl
  have nonzero : d.coeff ≠ 0 := by
    intro zero
    simp [Decimal.isIntegral, Decimal.isZero, zero] at notWhole
  -- Rounding to the last place kept needs the places from the leading digit down to it, and one
  -- more for a carry; the working precision has them.
  have quantized := Decimal.quantize_rescale nonzero (c := c) (e := -places.toNat)
    (by omega) (by omega) (by omega) (by omega) (by omega)
  have fitted := Decimal.rescale_fits (d := d) (c := c) (e := -places.toNat)
    (by omega) (by omega) (by omega) (by omega) (by omega)
  have top := Decimal.rescale_adjusted_le d (-places.toNat)
  -- The rounded number fits the context, so normalizing it changes no digit.
  obtain ⟨n, normalized, kept, normal⟩ := Decimal.normalize_of_fit (by omega) fitted
    (by rw [Decimal.rescale_exp]; omega) (fun _ => by omega)
  refine ⟨n, ?_, normal, by rw [kept, Decimal.rescale_toRat]⟩
  simp only [display, adjusted, wordFits, precisionFits, if_false, notWhole, Bool.false_eq_true,
    ← cIs]
  split_ifs with positive
  · -- The last place kept is a power of ten inside the context's range.
    have scaled : (⟨false, 1, 0⟩ : Decimal).scale c (-places) =
        .ok ⟨false, 1, -places.toNat⟩ := by
      rw [Decimal.scale_one (by omega) (by omega) (by omega) (by omega)]
      congr 3
      omega
    simp only [scaled, bind, Except.bind, quantized, normalized, pure, Except.pure,
      Except.mapError]
  · -- With no places the unit itself is the last place kept.
    have whole : -(places.toNat : Int) = 0 := by omega
    rw [whole] at quantized normalized ⊢
    simp only [bind, Except.bind, quantized, normalized, pure, Except.pure, Except.mapError]

end Shown

/-- A finite number is shown as a plain numeral, with a minus sign or none and no trailing zero
after its point, that reads back as the number rounded half to even to the places, or to a whole
number when they are not positive; the mark says exactly whether that changed the value. This
holds for zero and for every number whose leading digit lies between -999999 and 999998, as long
as the working precision is one a context may have and, for negative places, the number lies
below ten to the 127. -/
theorem display_rounds_half_even (d : Decimal) (places : Int)
    (inRange : d.coeff = 0 ∨ (-999999 ≤ d.adjusted ∧ d.adjusted ≤ 999998))
    (fits : d.adjusted + places + 2 ≤ Context.maxPrecision)
    (room : 0 ≤ places ∨ d.adjusted ≤ 126) :
    ∃ text rounded, (Numeric.finite d).display places = .ok (text, rounded) ∧
      (∃ (negative : Bool) (numeral : Grammar.Numeral),
        text.toList = (if negative then ['-'] else []) ++ numeral.text ∧
        ∀ f ∈ numeral.fraction, f.getLast? ≠ some '0') ∧
      ∃ n, ofString? text = some (.finite n) ∧
        n.toRat = roundPlaces d.toRat places.toNat ∧
        (rounded = true ↔ n.toRat ≠ d.toRat) := by
  -- The text is read back in the reader's range, which holds the context's.
  have readable := Context.ofPrecision_readable
    (show (max 128 (d.adjusted + places + 2)).toNat ≤ Context.maxPrecision by
      simp only [Context.maxPrecision] at fits ⊢
      omega)
  cases whole : d.isIntegral
  · -- Rounded to the places: the mark compares the rounded value with the number.
    have nonzero : d.coeff ≠ 0 := by
      intro zero
      simp [Decimal.isIntegral, Decimal.isZero, zero] at whole
    obtain ⟨n, shown, normal, value⟩ :=
      display_rounded whole (inRange.resolve_left nonzero) fits room
    obtain ⟨plain, m, read, same⟩ := normal.fixedText readable.1 readable.2
    refine ⟨_, _, shown, plain, m, read, same.trans value, ?_⟩
    rw [Bool.not_eq_true', Bool.eq_false_iff, ne_eq, Decimal.sameValue_iff,
      Decimal.rescale_toRat, same, value]
  · -- A whole number keeps its value, and rounding it to any places changes nothing.
    have room' : d.adjusted + 1 ≤ max 128 (d.adjusted + places + 2) := by omega
    obtain ⟨n, shown, normal, value⟩ := display_integral whole
      (inRange.imp_right fun bounds => ⟨bounds.1, by omega⟩) fits room'
    obtain ⟨plain, m, read, same⟩ := normal.fixedText readable.1 readable.2
    obtain ⟨z, integer⟩ := Decimal.isIntegral_whole whole
    have unchanged : roundPlaces d.toRat places.toNat = d.toRat :=
      roundPlaces_of_grid (show d.toRat * 10 ^ places.toNat = ((z * 10 ^ places.toNat : Int) : ℚ)
        by push_cast; rw [integer])
    refine ⟨_, _, shown, plain, m, read, by rw [same, value, unchanged], ?_⟩
    simp [same, value]

/-- Showing 2.675 to two places rounds the tie to the even 2.68, and marks it. -/
theorem display_rounds_tie_to_even :
    ((⟨false, 2675, -3⟩ : Decimal).coeff = 0 ∨
        (-999999 ≤ (⟨false, 2675, -3⟩ : Decimal).adjusted ∧
          (⟨false, 2675, -3⟩ : Decimal).adjusted ≤ 999998)) ∧
      (⟨false, 2675, -3⟩ : Decimal).adjusted + 2 + 2 ≤ Context.maxPrecision ∧
      (0 ≤ (2 : Int) ∨ (⟨false, 2675, -3⟩ : Decimal).adjusted ≤ 126) ∧
      ∃ text rounded, (Numeric.finite ⟨false, 2675, -3⟩).display 2 = .ok (text, rounded) ∧
        (∃ (negative : Bool) (numeral : Grammar.Numeral),
          text.toList = (if negative then ['-'] else []) ++ numeral.text ∧
          ∀ f ∈ numeral.fraction, f.getLast? ≠ some '0') ∧
        ∃ n, ofString? text = some (.finite n) ∧
          n.toRat = roundPlaces (⟨false, 2675, -3⟩ : Decimal).toRat (2 : Int).toNat ∧
          (rounded = true ↔ n.toRat ≠ (⟨false, 2675, -3⟩ : Decimal).toRat) :=
  -- The conditions are checked on the number; the rest is the general theorem at it.
  ⟨by decide +kernel, by decide +kernel, by decide,
    display_rounds_half_even ⟨false, 2675, -3⟩ 2 (by decide +kernel) (by decide +kernel)
      (by decide)⟩

/-- Outside those conditions the text is refused or wrong: `1` to 10^18 places is refused, as its
working precision passes the largest a context may have; the whole number 10^200 + 1 to -2 places
loses its last digit without a mark, as normalizing rounds it to the 200 digits of the working
precision; and 10^130 + 1/2 to -2 places is refused, as quantizing it needs 131 digits. -/
theorem display_outside_room :
    (Numeric.finite ⟨false, 1, 0⟩).display 1000000000000000000 = .error .precisionTooLarge ∧
      (Numeric.finite ⟨false, 10 ^ 200 + 1, 0⟩).display (-2) =
        .ok (String.ofList ('1' :: List.replicate 200 '0'), false) ∧
      (Numeric.finite ⟨false, 10 ^ 131 + 5, -1⟩).display (-2) =
        .error (.signal .invalidOperation) :=
  -- Each display is computed in full.
  ⟨by decide +kernel, by decide +kernel, by decide +kernel⟩

end Numeric

end Calculator
