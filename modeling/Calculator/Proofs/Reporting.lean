import Mathlib
import Calculator.Console
import Calculator.Proofs.DisplayText
import Calculator.Proofs.Session

/-! Reporting one problem: a fault is printed as its report with status one, and a result as its
line with status zero, marked `≈` exactly when rounding changed it. Showing the result is the one
step left that can fail, and its failure is not caught; with places that are not negative it fails
exactly for the results `Numeric.Unshowable` names. The dialogue reads its turns from its input
whatever the problems evaluate to, and answers each as one run on a fresh evaluator does. -/

namespace Calculator

/-- An outcome that is an error fails, and so does whatever condition holds. -/
theorem exists_error_iff_of_error {ε α : Type} {x : Except ε α} {P : Prop} {e : ε}
    (failed : x = .error e) (holds : P) : (∃ e, x = .error e) ↔ P :=
  ⟨fun _ => holds, fun _ => ⟨e, failed⟩⟩

/-- An outcome that is a value does not fail, and neither does a condition that does not hold. -/
theorem exists_error_iff_of_ok {ε α : Type} {x : Except ε α} {P : Prop} {a : α}
    (shown : x = .ok a) (fails : ¬ P) : (∃ e, x = .error e) ↔ P := by
  refine ⟨fun ⟨e, failed⟩ => ?_, fun holds => absurd holds fails⟩
  -- The outcome is a value, which no error equals.
  rw [shown] at failed
  cases failed

/-- A decimal that is not whole is not zero. -/
theorem Decimal.coeff_ne_zero_of_notWhole {d : Decimal} (notWhole : d.isIntegral = false) :
    d.coeff ≠ 0 := by
  intro zero
  -- Zero counts as whole, whatever its exponent.
  simp [Decimal.isIntegral, Decimal.isZero, zero] at notWhole

namespace Context

/-- A nonzero coefficient whose leading digit lies above the largest exponent overflows, whatever
the precision. -/
theorem fit_overflow (c : Context) (negative : Bool) {coeff : Nat} {exp : Int} (nonzero : coeff ≠ 0)
    (above : c.emax < Decimal.digitCount coeff + exp - 1) :
    c.fit negative coeff exp = .error .overflow := by
  -- At any precision the last digit kept then lies above the top exponent.
  have tooHigh : c.etop < (Decimal.digitCount coeff : Int) + exp - c.precision := by
    unfold etop
    omega
  simp [fit, nonzero, tooHigh]

end Context

namespace Numeric

/-- No value is shown when its working precision passes the largest precision a context may
have. -/
theorem display_precision_refused (v : Numeric) {places : Int}
    (large : (Context.maxPrecision : Int) < v.adjusted + places + 2) :
    v.display places = .error .precisionTooLarge ∨
      v.display places = .error .precisionBeyondWord := by
  -- The working precision is at least the places plus two past the leading digit.
  have above : (Context.maxPrecision : Int) < max 128 (v.adjusted + places + 2) := by omega
  -- Past a signed word the precision cannot even be formed; below it, it is only too large.
  by_cases word : (wordMax : Int) < max 128 (v.adjusted + places + 2)
  · exact .inr (by simp [display, word])
  · exact .inl (by simp [display, word, above])

/-- A whole nonzero number whose leading digit lies above the exponent range is not shown:
normalizing it overflows, whatever the places. -/
theorem display_whole_overflow {d : Decimal} {places : Int} (whole : d.isIntegral = true)
    (nonzero : d.coeff ≠ 0) (above : 999999 < d.adjusted)
    (fits : d.adjusted + places + 2 ≤ Context.maxPrecision) :
    (Numeric.finite d).display places = .error (.signal .overflow) := by
  -- The precision can be formed, so the display reaches the value itself.
  have precisionFits : ¬ (Context.maxPrecision : Int) < max 128 (d.adjusted + places + 2) := by
    simp only [Context.maxPrecision] at fits ⊢
    omega
  have wordFits : ¬ (wordMax : Int) < max 128 (d.adjusted + places + 2) := by
    simp only [wordMax, Context.maxPrecision] at fits ⊢
    omega
  -- The context keeps the exponent range of every context, so the leading digit is out of it.
  have overflow : ∀ precision : Nat,
      d.normalize (Context.ofPrecision precision) = .error .overflow := by
    intro precision
    have outOfRange :
        (Context.ofPrecision precision).emax < Decimal.digitCount d.coeff + d.exp - 1 := by
      simp only [Context.ofPrecision]
      simp only [Decimal.adjusted, Decimal.digits] at above
      omega
    rw [Decimal.normalize, Context.fitDecimal,
      Context.fit_overflow _ d.negative nonzero outOfRange]
    rfl
  -- A whole result is only normalized, with no quantizing before it.
  simp only [display, adjusted, precisionFits, wordFits, whole, overflow, if_false, if_true]
  rfl

/-- A result is not shown when its working precision passes the largest a context may have, or
when it is a whole number above the exponent range. -/
theorem display_refused {d : Decimal} {places : Int}
    (beyond : (Context.maxPrecision : Int) < d.adjusted + places + 2 ∨
      (d.isIntegral ∧ d.coeff ≠ 0 ∧ 999999 < d.adjusted)) :
    ∃ e, (Numeric.finite d).display places = .error e := by
  by_cases fits : d.adjusted + places + 2 ≤ Context.maxPrecision
  · -- Within the precision only the whole number above the range is left, and it overflows.
    rcases beyond with large | ⟨whole, nonzero, above⟩
    · omega
    · exact ⟨_, display_whole_overflow whole nonzero above fits⟩
  · -- Past it, the working precision itself is refused.
    have large : (Context.maxPrecision : Int) < (Numeric.finite d).adjusted + places + 2 := by
      simp only [adjusted]
      omega
    rcases (Numeric.finite d).display_precision_refused large with refused | refused
    · exact ⟨_, refused⟩
    · exact ⟨_, refused⟩

/-- The context a finite result is shown in: the working precision for the places, and the
exponent range of every context. -/
def showContext (d : Decimal) (places : Int) : Context :=
  Context.ofPrecision (max 128 (d.adjusted + places + 2)).toNat

/-- The context a result is shown in has the working precision, which is never below 128. -/
theorem showContext_precision (d : Decimal) (places : Int) :
    ((showContext d places).precision : Int) = max 128 (d.adjusted + places + 2) := by
  -- The working precision is positive, so nothing is lost in taking it as a natural number.
  simp only [showContext, Context.ofPrecision]
  omega

/-- The exponent range of the context a result is shown in is that of every context: `emax` is
999999, and `etiny` lies the precision below `-999999`. -/
theorem showContext_range (d : Decimal) (places : Int) :
    (showContext d places).emax = 999999 ∧
      (showContext d places).etiny = -999999 - (showContext d places).precision + 1 :=
  ⟨rfl, rfl⟩

/-- When a finite result cannot be shown to places that are not negative: its working precision
passes the largest a context may have; it is nonzero with its leading digit above the exponent
range; it is not whole, its leading digit is the top of the range, and rounding it to the places
carries past the top; or it is nonzero below the range and the places are more than a context may
shift by. -/
def Unshowable (d : Decimal) (places : Int) : Prop :=
  (Context.maxPrecision : Int) < d.adjusted + places + 2 ∨
    (d.coeff ≠ 0 ∧ 999999 < d.adjusted) ∨
    (d.isIntegral = false ∧ d.adjusted = 999999 ∧ 999999 < (d.rescale (-places)).adjusted) ∨
    (d.coeff ≠ 0 ∧ d.adjusted < -999999 ∧
      2 * (999999 + max 128 (d.adjusted + places + 2)) < places)

instance (d : Decimal) (places : Int) : Decidable (Unshowable d places) :=
  inferInstanceAs (Decidable (_ ∨ _ ∨ _ ∨ _))

section Exact

variable {d : Decimal} {places : Int}

/-- With places that are not negative and a working precision that fits, a result that is not
whole is quantized at the places, or at `etiny` when the places lie below it, and normalized; the
places must be a shift the context allows. -/
theorem display_notWhole (notWhole : d.isIntegral = false) (nonneg : 0 ≤ places)
    (fits : d.adjusted + places + 2 ≤ Context.maxPrecision)
    (near : places ≤ 2 * (999999 + max 128 (d.adjusted + places + 2))) :
    (Numeric.finite d).display places =
      (do
        let rounded ← d.quantize (showContext d places)
          (max (-places) (showContext d places).etiny)
        let n ← rounded.normalize (showContext d places)
        pure (n.toFixedText, !rounded.sameValue d)).mapError .signal := by
  -- Past the precision guards the display works in the context of the working precision.
  obtain ⟨wordFits, precisionFits⟩ := working_precision_fits fits
  set c := showContext d places with cIs
  have cEq : c = Context.ofPrecision (max 128 (d.adjusted + places + 2)).toNat := rfl
  have precision : (c.precision : Int) = _ := showContext_precision d places
  obtain ⟨emax, etiny⟩ : c.emax = 999999 ∧ c.etiny = -999999 - c.precision + 1 :=
    showContext_range d places
  simp only [display, adjusted, wordFits, precisionFits, if_false, notWhole, Bool.false_eq_true,
    ← cEq]
  split_ifs with positive
  · -- The unit is one at the places, or a zero at `etiny` when the places lie below it.
    by_cases below : -places < c.etiny
    · rw [Decimal.scale_one_below below (by omega) (by omega) (by omega), max_eq_right below.le]
      rfl
    · rw [Decimal.scale_one (by omega) (by omega) (by omega) (by omega),
        max_eq_left (not_lt.mp below)]
      rfl
  · -- With no places the unit itself is the last place kept.
    have whole : max (-places) c.etiny = 0 := by omega
    rw [whole]
    rfl

/-- A result that is not whole is refused when the places are more than the context may shift by:
twice the sum of the exponent limit and the working precision. -/
theorem display_notWhole_refused (notWhole : d.isIntegral = false)
    (fits : d.adjusted + places + 2 ≤ Context.maxPrecision)
    (far : 2 * (999999 + max 128 (d.adjusted + places + 2)) < places) :
    (Numeric.finite d).display places = .error (.signal .invalidOperation) := by
  -- The precision fits, so the guards pass and the places are the first thing refused.
  obtain ⟨wordFits, precisionFits⟩ := working_precision_fits fits
  set c := showContext d places with cIs
  have cEq : c = Context.ofPrecision (max 128 (d.adjusted + places + 2)).toNat := rfl
  have precision : (c.precision : Int) = _ := showContext_precision d places
  have positive : 0 < places := by omega
  -- The shift by the places is refused before the unit is formed.
  have refused : (⟨false, 1, 0⟩ : Decimal).scale c (-places) = .error .invalidOperation := by
    have emax : c.emax = 999999 := (showContext_range d places).1
    rw [Decimal.scale, if_pos (by omega)]
  simp only [display, adjusted, wordFits, precisionFits, if_false, notWhole, Bool.false_eq_true,
    ← cEq, if_pos positive, refused]
  rfl

/-- A result that is not whole is refused with the signal of its quantizing, when that is
refused. -/
theorem display_notWhole_error (notWhole : d.isIntegral = false) (nonneg : 0 ≤ places)
    (fits : d.adjusted + places + 2 ≤ Context.maxPrecision)
    (near : places ≤ 2 * (999999 + max 128 (d.adjusted + places + 2))) {s : Signal}
    (refused : d.quantize (showContext d places) (max (-places) (showContext d places).etiny) =
      .error s) :
    (Numeric.finite d).display places = .error (.signal s) := by
  -- The quantizing comes first, and its signal is passed on as it is.
  rw [display_notWhole notWhole nonneg fits near, refused]
  rfl

/-- A nonzero result that is not whole is shown when its rounding at the last place kept leaves
its leading digit within the exponent range. -/
theorem display_notWhole_shown (notWhole : d.isIntegral = false) (nonneg : 0 ≤ places)
    (fits : d.adjusted + places + 2 ≤ Context.maxPrecision)
    (near : places ≤ 2 * (999999 + max 128 (d.adjusted + places + 2))) (nonzero : d.coeff ≠ 0)
    (notAbove : d.adjusted ≤ 999999)
    (kept : (d.rescale (max (-places) (showContext d places).etiny)).adjusted ≤ 999999) :
    ∃ shown, (Numeric.finite d).display places = .ok shown := by
  set c := showContext d places with cIs
  have precision : (c.precision : Int) = _ := showContext_precision d places
  obtain ⟨emax, etiny⟩ : c.emax = 999999 ∧ c.etiny = -999999 - c.precision + 1 :=
    showContext_range d places
  -- The last place kept lies in range, at or above the places, so the digits down to it fit.
  have tiny : c.etiny ≤ max (-places) c.etiny := le_max_right _ _
  have room : d.adjusted - max (-places) c.etiny + 2 ≤ c.precision := by omega
  have quantized := Decimal.quantize_of_kept nonzero tiny (by omega) (by omega) room (by omega)
    (by omega)
  obtain ⟨n, normalized, -, -⟩ := Decimal.normalize_of_fit (by omega)
    (Decimal.rescale_fits_of_kept tiny (by omega) room (by omega))
    (by rw [Decimal.rescale_exp]; exact tiny) (fun _ => by omega)
  -- Quantizing and normalizing both give values, so the display gives its text.
  rw [display_notWhole notWhole nonneg fits near, ← cIs, quantized]
  simp only [bind, Except.bind, normalized, pure, Except.pure, Except.mapError]
  exact ⟨_, rfl⟩

/-- A result that is not whole with its leading digit above the exponent range is refused. -/
theorem display_notWhole_above (notWhole : d.isIntegral = false) (nonneg : 0 ≤ places)
    (fits : d.adjusted + places + 2 ≤ Context.maxPrecision) (above : 999999 < d.adjusted) :
    (Numeric.finite d).display places = .error (.signal .invalidOperation) := by
  -- Refused as a shift, or else by the quantizing, whatever the last place kept.
  by_cases near : places ≤ 2 * (999999 + max 128 (d.adjusted + places + 2))
  · -- The quantizing is refused whatever the place, since the leading digit is out of range.
    exact display_notWhole_error notWhole nonneg fits near (Decimal.quantize_above
      (Decimal.coeff_ne_zero_of_notWhole notWhole)
      (show (showContext d places).emax < d.adjusted from above))
  · exact display_notWhole_refused notWhole fits (by omega)

/-- A result that is not whole, with its leading digit at the top of the exponent range, is refused
exactly when rounding it to the places carries past the top. -/
theorem display_top_fails_iff (notWhole : d.isIntegral = false) (nonneg : 0 ≤ places)
    (fits : d.adjusted + places + 2 ≤ Context.maxPrecision) (top : d.adjusted = 999999) :
    (∃ e, (Numeric.finite d).display places = .error e) ↔
      999999 < (d.rescale (-places)).adjusted := by
  have nonzero := Decimal.coeff_ne_zero_of_notWhole notWhole
  have precision := showContext_precision d places
  have etiny := (showContext_range d places).2
  -- The working precision exceeds the places, so the last place kept is at the places.
  have near : places ≤ 2 * (999999 + max 128 (d.adjusted + places + 2)) := by omega
  have last : max (-places) (showContext d places).etiny = -places := by omega
  -- Quantizing at the places is refused exactly when the rounding carries past the top.
  by_cases carried : 999999 < (d.rescale (-places)).adjusted
  · have refused : d.quantize (showContext d places) (max (-places) (showContext d places).etiny) =
        .error .invalidOperation := by
      rw [last]
      exact Decimal.quantize_carry nonzero carried
    exact exists_error_iff_of_error (display_notWhole_error notWhole nonneg fits near refused)
      carried
  · -- Without a carry the rounded value keeps its leading digit at the top, and is shown.
    obtain ⟨shown, displayed⟩ := display_notWhole_shown notWhole nonneg fits near nonzero
      (by omega) (by rw [last]; omega)
    exact exists_error_iff_of_ok displayed carried

/-- A nonzero result below the exponent range is refused exactly when the places are more than
the context may shift by. -/
theorem display_below_fails_iff (nonneg : 0 ≤ places)
    (fits : d.adjusted + places + 2 ≤ Context.maxPrecision) (nonzero : d.coeff ≠ 0)
    (below : d.adjusted < -999999) :
    (∃ e, (Numeric.finite d).display places = .error e) ↔
      2 * (999999 + max 128 (d.adjusted + places + 2)) < places := by
  -- A nonzero whole number has its leading digit at or above the unit, so this one is not whole.
  have notWhole : d.isIntegral = false := by
    cases whole : d.isIntegral with
    | false => rfl
    | true =>
      have atUnit := Decimal.isIntegral_adjusted whole nonzero
      omega
  by_cases far : 2 * (999999 + max 128 (d.adjusted + places + 2)) < places
  · -- So many places are refused as a shift, before anything is quantized.
    exact exists_error_iff_of_error (display_notWhole_refused notWhole fits far) far
  · -- The rounding, carry included, stays far below the top of the range.
    have etiny := (showContext_range d places).2
    have top := Decimal.rescale_adjusted_le d (max (-places) (showContext d places).etiny)
    obtain ⟨shown, displayed⟩ := display_notWhole_shown notWhole nonneg fits (by omega) nonzero
      (by omega) (by omega)
    exact exists_error_iff_of_ok displayed far

/-- A whole result, shown to places that are not negative within the largest precision, fails
exactly when it is unshowable: only by overflowing above the exponent range. -/
theorem display_whole_fails_iff (whole : d.isIntegral = true) (nonneg : 0 ≤ places)
    (fits : d.adjusted + places + 2 ≤ Context.maxPrecision) :
    (∃ e, (Numeric.finite d).display places = .error e) ↔ Unshowable d places := by
  have within : ¬ (Context.maxPrecision : Int) < d.adjusted + places + 2 := by omega
  -- A whole number is only normalized, which overflows exactly above the range.
  by_cases above : d.coeff ≠ 0 ∧ 999999 < d.adjusted
  · exact exists_error_iff_of_error (display_whole_overflow whole above.1 above.2 fits)
      (.inr (.inl above))
  · -- Any other whole number is zero, or has its leading digit between the unit and the top.
    have inRange : d.coeff = 0 ∨ (-999999 ≤ d.adjusted ∧ d.adjusted ≤ 999999) := by
      by_cases zero : d.coeff = 0
      · exact .inl zero
      · have atUnit := Decimal.isIntegral_adjusted whole zero
        have notAbove : ¬ 999999 < d.adjusted := fun high => above ⟨zero, high⟩
        exact .inr ⟨by omega, by omega⟩
    obtain ⟨n, shown, -, -⟩ := display_integral whole inRange fits (by omega)
    refine exists_error_iff_of_ok shown ?_
    -- The other conditions need a fraction or a leading digit below the unit.
    rintro (large | high | ⟨notWhole, -⟩ | ⟨nonzero, below, -⟩)
    · exact within large
    · exact above high
    · rw [whole] at notWhole
      cases notWhole
    · have atUnit := Decimal.isIntegral_adjusted whole nonzero
      omega

/-- A result that is not whole, shown to places that are not negative within the largest
precision, fails exactly when it is unshowable: above the range, carried past its top, or below
it with too many places. -/
theorem display_notWhole_fails_iff (notWhole : d.isIntegral = false) (nonneg : 0 ≤ places)
    (fits : d.adjusted + places + 2 ≤ Context.maxPrecision) :
    (∃ e, (Numeric.finite d).display places = .error e) ↔ Unshowable d places := by
  have nonzero := Decimal.coeff_ne_zero_of_notWhole notWhole
  have within : ¬ (Context.maxPrecision : Int) < d.adjusted + places + 2 := by omega
  -- Where the leading digit lies, above the range, at its top, below it or within it, picks the
  -- one condition that can hold.
  rcases lt_or_ge 999999 d.adjusted with above | notAbove
  · exact exists_error_iff_of_error (display_notWhole_above notWhole nonneg fits above)
      (.inr (.inl ⟨nonzero, above⟩))
  rcases eq_or_lt_of_le notAbove with top | belowTop
  · -- At the top of the range only a carry is refused.
    rw [display_top_fails_iff notWhole nonneg fits top]
    constructor
    · exact fun carried => .inr (.inr (.inl ⟨notWhole, top, carried⟩))
    · rintro (large | ⟨-, high⟩ | ⟨-, -, carried⟩ | ⟨-, below, -⟩)
      · exact absurd large within
      · omega
      · exact carried
      · omega
  rcases lt_or_ge d.adjusted (-999999) with below | inRange
  · -- Below the range only a shift too far is refused.
    rw [display_below_fails_iff nonneg fits nonzero below]
    constructor
    · exact fun far => .inr (.inr (.inr ⟨nonzero, below, far⟩))
    · rintro (large | ⟨-, high⟩ | ⟨-, top, -⟩ | ⟨-, -, far⟩)
      · exact absurd large within
      · omega
      · omega
      · exact far
  · -- Within the range, with room for a carry, every result is shown.
    obtain ⟨n, shown, -, -⟩ := display_rounded notWhole ⟨inRange, by omega⟩ fits (.inl nonneg)
    refine exists_error_iff_of_ok shown ?_
    rintro (large | ⟨-, high⟩ | ⟨-, top, -⟩ | ⟨-, below, -⟩)
    · exact within large
    · omega
    · omega
    · omega

/-- A finite result shown to places that are not negative fails exactly when it is unshowable. -/
theorem display_fails_iff (d : Decimal) {places : Int} (nonneg : 0 ≤ places) :
    (∃ e, (Numeric.finite d).display places = .error e) ↔ Unshowable d places := by
  by_cases fits : d.adjusted + places + 2 ≤ Context.maxPrecision
  · -- Within the precision, a whole result is normalized and any other one quantized first.
    cases whole : d.isIntegral with
    | true => exact display_whole_fails_iff whole nonneg fits
    | false => exact display_notWhole_fails_iff whole nonneg fits
  · -- Past the largest precision nothing is shown.
    have large : (Context.maxPrecision : Int) < (Numeric.finite d).adjusted + places + 2 := by
      simp only [adjusted]
      omega
    rcases (Numeric.finite d).display_precision_refused large with refused | refused
    · exact exists_error_iff_of_error refused (.inl (by omega))
    · exact exists_error_iff_of_error refused (.inl (by omega))

end Exact

example : ¬ Unshowable ⟨false, 15, -1⟩ 2 ∧ Unshowable ⟨false, 1, 0⟩ 1000000000000000000 := by
  decide +kernel

end Numeric

namespace Console

section Once

variable {ev : Evaluator} {problem : Option String} {value : Value} {places : Int}

/-- A problem whose evaluation faults is reported with status one, the report naming the
expression. -/
theorem runOnce_fault {f : Fault} (failed : (ev.evaluate problem value).2 = .error f) :
    (runOnce ev problem value places).2 = .ok ⟨1, f.report (problem.getD "") ++ "\n"⟩ := by
  -- Whatever evaluator the evaluation leaves, a fault is turned into its report.
  rcases evaluated : ev.evaluate problem value with ⟨after, result⟩
  rw [evaluated] at failed
  subst failed
  simp [runOnce, evaluated]

/-- A result that can be shown is printed on its line with status zero. -/
theorem runOnce_shown {d : Decimal} {text : String} {rounded : Bool}
    (computed : (ev.evaluate problem value).2 = .ok d)
    (shown : (Numeric.finite d).display places = .ok (text, rounded)) :
    (runOnce ev problem value places).2 = .ok ⟨0, resultLine text rounded ++ "\n"⟩ := by
  -- Once the text is shown nothing else can fail before the line is printed.
  rcases evaluated : ev.evaluate problem value with ⟨after, result⟩
  rw [evaluated] at computed
  subst computed
  simp [runOnce, evaluated, shown]

/-- A result that cannot be shown ends the run with the reason, and nothing is printed. -/
theorem runOnce_unshown {d : Decimal} {e : ShowError}
    (computed : (ev.evaluate problem value).2 = .ok d)
    (refused : (Numeric.finite d).display places = .error e) :
    (runOnce ev problem value places).2 = .error e := by
  -- The display's reason leaves the run as it is, with no report printed.
  rcases evaluated : ev.evaluate problem value with ⟨after, result⟩
  rw [evaluated] at computed
  subst computed
  simp [runOnce, evaluated, refused]

/-- A problem whose evaluation gives a result fails to run exactly when the result cannot be
shown. -/
theorem runOnce_fails_iff {d : Decimal} (computed : (ev.evaluate problem value).2 = .ok d) :
    (∃ e, (runOnce ev problem value places).2 = .error e) ↔
      ∃ e, (Numeric.finite d).display places = .error e := by
  -- The run's outcome follows the display's, a value for a value and an error for an error.
  rcases shown : (Numeric.finite d).display places with e | ⟨text, rounded⟩
  · exact exists_error_iff_of_error (runOnce_unshown computed shown) ⟨e, rfl⟩
  · refine exists_error_iff_of_ok (runOnce_shown computed shown) ?_
    rintro ⟨e, refused⟩
    cases refused

end Once

/-- A turn of the dialogue: the prompts it prints, and the problem it runs with the value given
for it. -/
structure Turn where
  prompts : String
  problem : String
  value : Value

set_option linter.unusedVariables false in
/-- What the dialogue reads from its input, whatever its problems evaluate to: the turns that run
a problem, in order, and the prompts it prints before it stops at an empty problem or at the end
of the input. -/
def script (input : List Char) : List Turn × String :=
  match read : readLine input with
  | none => ([], "Enter the problem: ")
  | some (problem, rest) =>
    -- Only a problem naming a variable asks for a value; an empty one ends the dialogue.
    if problem.toList.any Text.isLetter then
      match answer : readLine rest with
      | none => ([], "Enter the problem: " ++ "Enter the value: ")
      -- A blank answer stands for the value zero.
      | some (given, after) =>
        let value := if given.isEmpty then Value.integer 0 else Value.text (.ofString given)
        let later := script after
        (⟨"Enter the problem: " ++ "Enter the value: ", problem, value⟩ :: later.1, later.2)
    else if problem.isEmpty then ([], "Enter the problem: ")
    else
      let later := script rest
      (⟨"Enter the problem: ", problem, .integer 0⟩ :: later.1, later.2)
termination_by input.length
decreasing_by
  · have first := length_lt_of_readLine read
    have second := length_lt_of_readLine answer
    omega
  · exact length_lt_of_readLine read

/-- What answering turns prints: each turn's prompts and what running its problem once prints, or
the first reason a result could not be shown. -/
def answers (ev : Evaluator) (places : Int) : List Turn → Except ShowError String
  | [] => .ok ""
  | turn :: rest => do
    let outcome ← (runOnce ev (some turn.problem) turn.value places).2
    let later ← answers ev places rest
    pure (turn.prompts ++ outcome.output ++ later)

/-- Running a problem once leaves the evaluator that its evaluation leaves. -/
theorem runOnce_evaluator (ev : Evaluator) (problem : Option String) (value : Value)
    (places : Int) : (runOnce ev problem value places).1 = (ev.evaluate problem value).1 := by
  unfold runOnce
  -- Every branch hands on the evaluator of the evaluation.
  rcases ev.evaluate problem value with ⟨after, f | d⟩
  · rfl
  · dsimp only
    split <;> rfl

/-- Running a problem once answers alike from every machine: its evaluation starts afresh. -/
theorem runOnce_any_machine (ev : Evaluator) (m : Machine) (problem : Option String)
    (value : Value) (places : Int) :
    (runOnce { ev with machine := m } problem value places).2 =
      (runOnce ev problem value places).2 := by
  -- Evaluating resets the machine before it reads, so the one it started with is never seen.
  have same := Evaluator.evaluate_any_machine ev m problem value
  -- The evaluation has the same outcome, and what is printed depends on the outcome alone.
  rcases evaluated : (ev.evaluate problem value).2 with f | d
  · rw [runOnce_fault evaluated, runOnce_fault (same.trans evaluated)]
  · rcases shown : (Numeric.finite d).display places with e | ⟨text, rounded⟩
    · rw [runOnce_unshown evaluated shown, runOnce_unshown (same.trans evaluated) shown]
    · rw [runOnce_shown evaluated shown, runOnce_shown (same.trans evaluated) shown]

/-- Running a problem once changes only the machine of the evaluator. -/
theorem runOnce_machine_only {ev ev' : Evaluator} (same : ∃ m, ev' = { ev with machine := m })
    (problem : Option String) (value : Value) (places : Int) :
    ∃ m, (runOnce ev' problem value places).1 = { ev with machine := m } := by
  obtain ⟨m, rfl⟩ := same
  -- An evaluation keeps the precision and the nesting limit it runs with.
  have kept : ({ ev with machine := m }.evaluate problem value).1.precision = ev.precision ∧
      ({ ev with machine := m }.evaluate problem value).1.maxDepth = ev.maxDepth :=
    Evaluator.call_settings { ev with machine := m } (.evaluate problem value)
  refine ⟨(runOnce { ev with machine := m } problem value places).1.machine, ?_⟩
  rw [runOnce_evaluator]
  -- The settings are kept, so the evaluator is the first one with another machine.
  generalize ({ ev with machine := m }.evaluate problem value).1 = after at kept ⊢
  obtain ⟨precisionKept, depthKept⟩ := kept
  cases after
  simp only at precisionKept depthKept
  simp [precisionKept, depthKept]

/-- A turn that runs a problem prints what running it once on the first evaluator prints, and the
dialogue goes on from the rest of its input as it would on the first evaluator. -/
theorem dialogue_turn {ev ev' : Evaluator} (same : ∃ m, ev' = { ev with machine := m })
    {places : Int} {rest : List Char} {prompts problem : String} {value : Value} (output : String)
    (later : ∀ ev'' : Evaluator, (∃ m, ev'' = { ev with machine := m }) → ∀ output,
      dialogue ev'' places rest output =
        (answers ev places (script rest).1).map fun printed => output ++ printed ++ (script rest).2) :
    (match runOnce ev' (some problem) value places with
      | (ev'', .ok outcome) => dialogue ev'' places rest (output ++ prompts ++ outcome.output)
      | (_, .error s) => .error s) =
      (answers ev places (⟨prompts, problem, value⟩ :: (script rest).1)).map
        fun printed => output ++ printed ++ (script rest).2 := by
  obtain ⟨m, rfl⟩ := same
  -- The machine the turn starts from changes neither what it prints nor the settings after it.
  have answered := runOnce_any_machine ev m (some problem) value places
  obtain ⟨m', kept⟩ := runOnce_machine_only ⟨m, rfl⟩ (some problem) value places
  rcases ran : runOnce { ev with machine := m } (some problem) value places with ⟨next, s | outcome⟩
  · -- A result that cannot be shown ends both.
    rw [ran] at answered
    simp only [answers, ← answered, bind, Except.bind, Except.map]
  · -- Otherwise both print the same report and go on alike.
    rw [ran] at answered kept
    dsimp only at kept ⊢
    rw [later next ⟨m', kept⟩]
    simp only [answers, ← answered, bind, Except.bind]
    cases answers ev places (script rest).1 <;> simp [Except.map, pure, Except.pure,
      String.append_assoc]

/-- The dialogue answers the turns its input gives, in order, each as running its problem once on
the evaluator it started with answers it, and ends with its closing prompts; the first result
that cannot be shown ends it instead. -/
theorem dialogue_script (ev : Evaluator) (places : Int) (input : List Char) (output : String) :
    dialogue ev places input output =
      (answers ev places (script input).1).map
        fun printed => output ++ printed ++ (script input).2 := by
  -- The evaluator it goes on with differs from the first only in its machine.
  suffices carried : ∀ ev' : Evaluator, (∃ m, ev' = { ev with machine := m }) → ∀ output,
      dialogue ev' places input output =
        (answers ev places (script input).1).map
          fun printed => output ++ printed ++ (script input).2 from
    carried ev ⟨ev.machine, rfl⟩ output
  -- Along the script's own recursion: in each case the dialogue reads the line the script read,
  -- and the answer to a problem naming a variable as well.
  fun_induction script input with
  | case1 input read =>
    -- The input has ended: only the prompt for a problem is printed.
    intro ev' same output
    rw [dialogue]
    dsimp only
    rw [read]
    simp [answers, Except.map]
  | case2 input problem rest read letter answer =>
    -- The input ends where the value is asked for.
    intro ev' same output
    rw [dialogue]
    dsimp only
    rw [read]
    dsimp only
    rw [if_pos letter, answer]
    simp [answers, Except.map, String.append_assoc]
  | case3 input problem rest read letter given after answer value later ih =>
    -- A problem naming a variable, with its value read: a turn after both prompts.
    intro ev' same output
    rw [dialogue]
    dsimp only
    rw [read]
    dsimp only
    rw [if_pos letter, answer]
    dsimp only
    -- Both prompts are printed before the problem is run.
    have prompted : output ++ "Enter the problem: " ++ "Enter the value: " =
        output ++ ("Enter the problem: " ++ "Enter the value: ") := String.append_assoc
    rw [prompted]
    exact dialogue_turn same output ih
  | case4 input problem rest read noLetter empty =>
    -- An empty problem ends the dialogue.
    intro ev' same output
    rw [dialogue]
    dsimp only
    rw [read]
    dsimp only
    rw [if_neg noLetter, if_pos empty]
    simp [answers, Except.map]
  | case5 input problem rest read noLetter nonempty later ih =>
    -- A problem with no variable runs with the value zero, after one prompt.
    intro ev' same output
    rw [dialogue]
    dsimp only
    rw [read]
    dsimp only
    rw [if_neg noLetter, if_neg nonempty]
    exact dialogue_turn same output ih

/-- From settings that load, the program runs a problem from the command line as running it once
does, at the places of the settings. -/
theorem run_argv {file : Option String} {settings : List (Text.CodeText × Json)}
    (loaded : Settings.load file = .ok settings) (problem : String) (rest : List String)
    (input : String) :
    run file (problem :: rest) input =
      (runOnce (Evaluator.ofSettings settings) (some problem) (argValue rest)
        (placesOf settings)).2.mapError .display := by
  -- Once the settings load, an argument selects the single run.
  simp [run, loaded, bind, Except.bind, Except.mapError]

/-- From settings that load and no argument, the program holds the dialogue with status zero, or
ends with the reason a result could not be shown. -/
theorem run_dialogue {file : Option String} {settings : List (Text.CodeText × Json)}
    (loaded : Settings.load file = .ok settings) (input : String) :
    run file [] input =
      ((dialogue (Evaluator.ofSettings settings) (placesOf settings) input.toList "").map
        (⟨0, ·⟩)).mapError .display := by
  -- With no argument the program falls through to the dialogue.
  simp [run, loaded, bind, Except.bind, Except.mapError]

/-- Running one problem prints exactly one report when its evaluation faults, with status one, or
when its result can be shown, with status zero and the mark `≈` exactly when rounding changed the
value. Showing is not guarded, so its failure escapes the run: it fails for every result whose
working precision passes the largest a context may have, and for every whole result above the
exponent range; with places that are not negative it fails exactly for the unshowable results.
The dialogue runs every problem its input gives as running it once on the evaluator it started
with does, in order; and the program runs a problem from the command line in the same way, at the
places of its settings, which are never negative, and holds the dialogue with status zero. -/
theorem runOnce_reports (ev : Evaluator) (problem : Option String) (value : Value) (places : Int) :
    (∀ f, (ev.evaluate problem value).2 = .error f →
      (runOnce ev problem value places).2 = .ok ⟨1, f.report (problem.getD "") ++ "\n"⟩) ∧
    (∀ d, (ev.evaluate problem value).2 = .ok d →
      (∀ text rounded, (Numeric.finite d).display places = .ok (text, rounded) →
        (runOnce ev problem value places).2 =
          .ok ⟨0, (if rounded then "≈ " else "= ") ++ text ++ "\n"⟩) ∧
      (∀ e, (Numeric.finite d).display places = .error e →
        (runOnce ev problem value places).2 = .error e) ∧
      ((Context.maxPrecision : Int) < d.adjusted + places + 2 ∨
          (d.isIntegral ∧ d.coeff ≠ 0 ∧ 999999 < d.adjusted) →
        ∃ e, (runOnce ev problem value places).2 = .error e) ∧
      (0 ≤ places → ((∃ e, (runOnce ev problem value places).2 = .error e) ↔
        Numeric.Unshowable d places))) ∧
    (∀ input output, dialogue ev places input output =
      (answers ev places (script input).1).map
        fun printed => output ++ printed ++ (script input).2) ∧
    ∀ file settings input, Settings.load file = .ok settings →
      (∀ given rest, run file (given :: rest) input =
        (runOnce (Evaluator.ofSettings settings) (some given) (argValue rest)
          (placesOf settings)).2.mapError .display) ∧
      run file [] input =
        ((dialogue (Evaluator.ofSettings settings) (placesOf settings) input.toList "").map
          (⟨0, ·⟩)).mapError .display := by
  refine ⟨fun f failed => runOnce_fault failed, fun d computed => ⟨?_, ?_, ?_, ?_⟩,
    dialogue_script ev places,
    fun file settings input loaded => ⟨fun given rest => run_argv loaded given rest input,
      run_dialogue loaded input⟩⟩
  -- What is printed is read off the outcomes of the evaluation and of the display.
  · intro text rounded shown
    exact runOnce_shown computed shown
  · intro e refused
    exact runOnce_unshown computed refused
  · -- Either condition makes the display refuse the result, at any places.
    intro beyond
    obtain ⟨e, refused⟩ := Numeric.display_refused beyond
    exact ⟨e, runOnce_unshown computed refused⟩
  · -- With places that are not negative the run fails exactly when showing does.
    intro nonneg
    rw [runOnce_fails_iff computed]
    exact Numeric.display_fails_iff d nonneg

/-- The problem `1` shown to 10^18 places escapes the run: its working precision is past the
largest a context may have, and no report is printed. -/
theorem runOnce_many_places_escapes :
    (runOnce Evaluator.withDefaults (some "1") (.integer 0) 1000000000000000000).2 =
      .error .precisionTooLarge := by
  -- The literal evaluates to one, and a working precision of 10^18 + 2 is refused.
  have computed :
      (Evaluator.withDefaults.evaluate (some "1") (.integer 0)).2 = .ok ⟨false, 1, 0⟩ := by
    decide +kernel
  have refused : (Numeric.finite ⟨false, 1, 0⟩).display 1000000000000000000 =
      .error .precisionTooLarge := by
    decide +kernel
  exact runOnce_unshown computed refused

end Console

end Calculator
