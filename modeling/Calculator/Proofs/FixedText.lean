import Calculator.Proofs.Blank
import Calculator.Proofs.Exactness
import Calculator.Proofs.Grammar

/-! Fixed text read back. The fixed text of a decimal is the digits of its coefficient with the
point placed by the exponent, and a minus sign when it is negative. It holds only digits, a
minus sign and a point; the reader of numeric text reads it back as a decimal of the same value;
and when the decimal has no trailing zero below the unit, the text has none after its point. -/

namespace Calculator

namespace Decimal

/-! ### The digits of a coefficient -/

/-- Digits read after a start value shift it up by one place each. -/
theorem ofDigitChars_init (cs : List Char) (init : Nat) :
    Nat.ofDigitChars 10 cs init = 10 ^ cs.length * init + Nat.ofDigitChars 10 cs 0 := by
  induction cs generalizing init with
  | nil => simp
  | cons c rest ih =>
    -- The first digit is folded into the start value, which the rest then shifts.
    rw [Nat.ofDigitChars_cons, Nat.ofDigitChars_cons, ih, ih (10 * 0 + _), List.length_cons,
      Nat.pow_succ]
    ring

/-- Digits written one after the other: the first ones move up past the second. -/
theorem ofDigitChars_append (l r : List Char) :
    Nat.ofDigitChars 10 (l ++ r) 0 =
      Nat.ofDigitChars 10 l 0 * 10 ^ r.length + Nat.ofDigitChars 10 r 0 := by
  -- The second list is read with the first one's value as its start.
  rw [Nat.ofDigitChars_append, ofDigitChars_init, Nat.mul_comm]

/-- A decimal digit is an ASCII code from 48 to 57. -/
theorem digit_code {c : Char} (digit : c.isDigit) : 48 ≤ c.toNat ∧ c.toNat ≤ 57 := by
  -- The test compares the code with those of the characters zero and nine.
  have code : c.toNat = c.val.toNat := rfl
  have zero : '0'.val.toNat = 48 := rfl
  have nine : '9'.val.toNat = 57 := rfl
  simp only [Char.isDigit, Bool.and_eq_true, decide_eq_true_eq, UInt32.le_iff_toNat_le] at digit
  omega

/-- The reader's value of a list of digits is the number they write. -/
theorem ofDigitList_chars (cs : List Char) :
    ofDigitList (cs.map fun c => c.toNat - 48) = Nat.ofDigitChars 10 cs 0 := by
  -- Both fold the digits from the left, shifting by ten at each one.
  simp only [ofDigitList, Nat.ofDigitChars, List.foldl_map]
  rfl

/-- A number below ten to a positive width is written in exactly that many digits, leading zeros
included, which write it back. -/
theorem paddedDigits_spec (width n : Nat) (positive : 0 < width) (small : n < 10 ^ width) :
    (paddedDigits width n).length = width ∧ (∀ c ∈ paddedDigits width n, c.isDigit) ∧
      Nat.ofDigitChars 10 (paddedDigits width n) 0 = n := by
  -- One case per branch of the definition, which splits long numbers in two.
  fun_induction paddedDigits width n with
  | case1 width n short digits =>
    -- Short numbers: the library's digits, padded with zeros on the left.
    have fewer : digits.length ≤ width := by
      simpa [digits, Nat.toList_repr] using
        (Nat.length_toDigits_le_iff (by decide) positive).mpr small
    refine ⟨by simp; omega, fun c member => ?_, ?_⟩
    · -- Padding zeros and the library's digits are all digits.
      rcases List.mem_append.mp member with padding | digit
      · rw [List.eq_of_mem_replicate padding]
        rfl
      · exact @Nat.isDigit_of_mem_toDigits 10 n c (by decide) (by decide)
          (by simpa [digits, Nat.toList_repr] using digit)
    · rw [Nat.ofDigitChars_append, Nat.ofDigitChars_replicate_zero, Nat.mul_zero]
      simp [digits, Nat.toList_repr, Nat.ofDigitChars_ten_toDigits]
  | case2 width n long low unit ih ih' =>
    -- Long numbers: the high digits above `low` places, then the low ones.
    have lowPos : 0 < low := by omega
    have split : 10 ^ width = unit * 10 ^ (width - low) := by
      rw [show unit = 10 ^ low from rfl, ← Nat.pow_add]
      congr 1
      omega
    obtain ⟨highLength, highDigits, highValue⟩ := ih (by omega)
      (Nat.div_lt_of_lt_mul (split ▸ small))
    obtain ⟨lowLength, lowDigits, lowValue⟩ :=
      ih' lowPos (Nat.mod_lt _ (Nat.pow_pos (by decide)))
    refine ⟨by simp [highLength, lowLength]; omega, fun c member => ?_, ?_⟩
    · rcases List.mem_append.mp member with high | low
      · exact highDigits c high
      · exact lowDigits c low
    · -- The high digits write the quotient, the low ones the remainder.
      rw [ofDigitChars_append, highValue, lowLength, lowValue]
      exact Nat.div_add_mod' n unit

/-- The digits of a coefficient: as many as its digit count, all decimal digits, writing it. -/
theorem digitList_spec (n : Nat) :
    (digitList n).length = digitCount n ∧ (∀ c ∈ digitList n, c.isDigit) ∧
      Nat.ofDigitChars 10 (digitList n) 0 = n :=
  -- A number lies below ten to its digit count, which is at least one.
  paddedDigits_spec _ n (one_le_digitCount n) (lt_pow_digitCount n)

/-- The last digit of a coefficient is a zero exactly when ten divides it. -/
theorem digitList_last {n : Nat} {c : Char} (last : (digitList n).getLast? = some c) :
    (c = '0' ↔ n % 10 = 0) := by
  obtain ⟨-, digits, value⟩ := digitList_spec n
  obtain ⟨init, split⟩ : ∃ init, digitList n = init ++ [c] :=
    ⟨(digitList n).dropLast, (List.dropLast_append_getLast? c last).symm⟩
  rw [split] at digits value
  have code := digit_code (digits c (by simp))
  -- The value is the other digits shifted up one place, plus this one.
  rw [ofDigitChars_append] at value
  have lastValue : Nat.ofDigitChars 10 [c] 0 = c.toNat - 48 := by simp [Nat.ofDigitChars]
  rw [lastValue] at value
  have remainder : n % 10 = c.toNat - 48 := by
    rw [← value]
    simp only [List.length_singleton, pow_one]
    omega
  rw [remainder]
  -- The character zero has code 48, and no other digit does.
  constructor
  · rintro rfl
    rfl
  · intro zero
    exact Char.toNat_inj.mp (by rw [show '0'.toNat = 48 from rfl]; omega)

/-- Appending k zeros to a nonzero coefficient gives it k more digits. -/
theorem digitCount_mul_pow {n : Nat} (nonzero : n ≠ 0) (k : Nat) :
    digitCount (n * 10 ^ k) = digitCount n + k := by
  induction k with
  | zero => simp
  | succ k ih =>
    -- Each zero appended raises the logarithm by one.
    have positive : n * 10 ^ k ≠ 0 := Nat.mul_ne_zero nonzero (Nat.pow_pos (by decide)).ne'
    rw [Nat.pow_succ, ← Nat.mul_assoc, digitCount_eq, Nat.log_mul_base (by decide) positive,
      ← digitCount_eq, ih]
    omega

/-! ### The point -/

/-- Zeros are digits. -/
theorem replicate_zero_digits (k : Nat) : ∀ c ∈ List.replicate k '0', c.isDigit := by
  intro c member
  -- Every member of the list is the character zero.
  rw [List.eq_of_mem_replicate member]
  rfl

/-- The digits with the point placed are a numeral: the digits themselves, after a zero, the
point and zeros when the point stands at or before the first digit, and followed by zeros when it
stands past the last. Its value is theirs, shifted by where the point stands; it has a fraction
only when the point stands before the last digit, and the fraction ends with the last digit. -/
theorem placePoint_numeral {ds : List Char} (nonempty : ds ≠ [])
    (digits : ∀ c ∈ ds, c.isDigit) (point : Int) :
    ∃ numeral : Grammar.Numeral, placePoint ds point = numeral.text ∧
      numeral.value = ⟨false, Nat.ofDigitChars 10 ds 0 * 10 ^ (point - ds.length).toNat,
        min (point - ds.length) 0⟩ ∧
      ∀ f ∈ numeral.fraction, point < ds.length ∧ f.getLast? = ds.getLast? := by
  have length : 0 < ds.length := List.length_pos_iff.mpr nonempty
  unfold placePoint
  -- Three places for the point: before the digits, past them, or between two of them.
  split_ifs with before past
  · -- At or before the first digit: a zero, the point, zeros, then all the digits.
    set zeros := List.replicate (-point).toNat '0'
    have fraction : zeros ++ ds ≠ [] ∧ ∀ c ∈ zeros ++ ds, c.isDigit :=
      ⟨by simp [nonempty], List.forall_mem_append.mpr ⟨replicate_zero_digits _, digits⟩⟩
    refine ⟨⟨['0'], some (zeros ++ ds), by simp, by simpa using fraction⟩,
      by simp [Grammar.Numeral.text], ?_, ?_⟩
    · -- The leading zero and the zeros after the point add nothing to the value.
      have leading : Nat.ofDigitChars 10 (['0'] ++ zeros) 0 = 0 := by
        have same : ['0'] ++ zeros = List.replicate ((-point).toNat + 1) '0' := by
          simp [zeros, List.replicate_succ]
        rw [same, Nat.ofDigitChars_replicate_zero, Nat.mul_zero]
      simp only [Grammar.Numeral.value, Grammar.Numeral.fractionDigits, Option.getD_some,
        ofDigitList_chars]
      rw [← List.append_assoc, ofDigitChars_append, leading,
        Int.toNat_of_nonpos (show point - ds.length ≤ 0 by omega)]
      simp only [zeros, List.length_append, List.length_replicate, Nat.zero_mul, Nat.zero_add,
        pow_zero, Nat.mul_one, Decimal.mk.injEq, true_and]
      omega
    · -- The fraction ends with the digits, so with their last one.
      simp only [Option.mem_def, Option.some.injEq]
      rintro f rfl
      exact ⟨by omega, List.getLast?_append_of_ne_nil _ nonempty⟩
  · -- Past the last digit: the digits and zeros up to the point, and no point.
    set zeros := List.replicate (point.toNat - ds.length) '0'
    refine ⟨⟨ds ++ zeros, none,
      ⟨by simp [nonempty], List.forall_mem_append.mpr ⟨digits, replicate_zero_digits _⟩⟩,
      by simp⟩, by simp [Grammar.Numeral.text], ?_, by simp⟩
    simp only [Grammar.Numeral.value, Grammar.Numeral.fractionDigits, Option.getD_none,
      List.append_nil, ofDigitList_chars, List.length_nil, Nat.cast_zero, neg_zero]
    -- The zeros after the digits shift their value up by as many places.
    rw [ofDigitChars_append, Nat.ofDigitChars_replicate_zero]
    have shift : zeros.length = (point - ds.length).toNat := by
      simp only [zeros, List.length_replicate]
      omega
    simp only [shift, Nat.mul_zero, Nat.add_zero, Decimal.mk.injEq, true_and]
    omega
  · -- Between the digits: those before the point, the point, and those after it.
    have inside : point.toNat < ds.length := by omega
    have fraction : ds.drop point.toNat ≠ [] := by
      simpa [List.drop_eq_nil_iff] using inside
    refine ⟨⟨ds.take point.toNat, some (ds.drop point.toNat),
      ⟨by simp [nonempty]; omega, fun c member => digits c (List.mem_of_mem_take member)⟩,
      by simpa using ⟨inside, fun c member => digits c (List.mem_of_mem_drop member)⟩⟩,
      by simp [Grammar.Numeral.text], ?_, ?_⟩
    · simp only [Grammar.Numeral.value, Grammar.Numeral.fractionDigits, Option.getD_some,
        ofDigitList_chars, List.take_append_drop, List.length_drop]
      rw [Int.toNat_of_nonpos (show point - ds.length ≤ 0 by omega)]
      simp only [pow_zero, Nat.mul_one, Decimal.mk.injEq, true_and]
      omega
    · -- The fraction is a nonempty tail of the digits, so it ends with their last one.
      simp only [Option.mem_def, Option.some.injEq]
      rintro f rfl
      refine ⟨by omega, ?_⟩
      rw [List.getLast?_drop, if_neg (by omega)]

/-! ### Fixed text -/

/-- The fixed text of a decimal is its sign and a numeral. The numeral's value is the decimal's
magnitude, its exponent raised to zero by appending zeros when it is positive; it has a fraction
only when the exponent is negative, and that fraction ends with a zero exactly when the
coefficient does. -/
theorem toFixedText_numeral (d : Decimal) :
    ∃ numeral : Grammar.Numeral,
      d.toFixedText.toList = (if d.negative then ['-'] else []) ++ numeral.text ∧
      numeral.value = ⟨false, d.coeff * 10 ^ d.exp.toNat, min d.exp 0⟩ ∧
      ∀ f ∈ numeral.fraction, d.exp < 0 ∧ (f.getLast? = some '0' ↔ d.coeff % 10 = 0) := by
  obtain ⟨length, digits, value⟩ := digitList_spec d.coeff
  have nonempty : digitList d.coeff ≠ [] := by
    have := one_le_digitCount d.coeff
    exact List.ne_nil_of_length_pos (by omega)
  -- A zero's positive exponent is dropped; any other exponent stays.
  set shown := if d.isZero then min d.exp 0 else d.exp with shownIs
  obtain ⟨numeral, placed, numeralValue, fraction⟩ :=
    placePoint_numeral nonempty digits (shown + (digitList d.coeff).length)
  simp only [add_sub_cancel_right, value] at numeralValue fraction
  refine ⟨numeral, by simp [toFixedText, ← shownIs, placed], ?_, fun f member => ?_⟩
  · rw [numeralValue]
    -- For zero the value is zero whatever the exponent shown.
    by_cases zero : d.coeff = 0
    · simp only [zero, Nat.zero_mul, Decimal.mk.injEq, true_and]
      simp only [shownIs, isZero_eq_true zero, if_true]
      omega
    · simp only [shownIs, isZero_eq_false zero, Bool.false_eq_true, if_false]
  · obtain ⟨below, last⟩ := fraction f member
    -- The fraction ends with the last digit of the coefficient.
    obtain ⟨c, lastIs⟩ : ∃ c, (digitList d.coeff).getLast? = some c :=
      ⟨_, List.getLast?_eq_some_getLast nonempty⟩
    rw [last, lastIs, Option.some.injEq]
    refine ⟨?_, digitList_last lastIs⟩
    by_cases zero : d.isZero <;> simp only [shownIs, zero, if_true, Bool.false_eq_true,
      if_false] at below <;> omega

-- Trailing zeros of the coefficient stay in the fixed text; normalizing is what removes them.
example : (⟨true, 12500, -4⟩ : Decimal).toFixedText = "-1.2500" := by
  decide +kernel

end Decimal

namespace Numeric

/-! ### Reading the text back -/

/-- Visible ASCII other than the underscore is its own plain form: nothing is trimmed, dropped
or replaced. -/
theorem plainChars_visible {cs : List Char}
    (visible : ∀ c ∈ cs, 32 < c.toNat ∧ c.toNat < 128 ∧ c.toNat ≠ 95) :
    plainChars (cs.map Char.toNat) = some cs := by
  -- No visible character is blank, so nothing is trimmed at either end.
  have kept : ∀ l : List Nat, (∀ n ∈ l, Text.isBlank n = false) →
      l.dropWhile Text.isBlank = l := by
    intro l none
    cases l with
    | nil => rfl
    | cons n rest => simp [none n (by simp)]
  have notBlank : ∀ n ∈ cs.map Char.toNat, Text.isBlank n = false := by
    intro n member
    obtain ⟨c, within, rfl⟩ := List.mem_map.mp member
    obtain ⟨above, below, _⟩ := visible c within
    cases blank : Text.isBlank c.toNat with
    | false => rfl
    | true => rcases Text.blank_code blank with code | code | code <;> omega
  unfold plainChars
  rw [kept _ notBlank, kept _ (by simpa using notBlank), List.reverse_reverse]
  clear notBlank
  -- Each code point is then kept as its own character.
  induction cs with
  | nil => rfl
  | cons c rest ih =>
    obtain ⟨above, below, notUnderscore⟩ := visible c (by simp)
    have positive : 0 < c.toNat := by omega
    simp [mapPoints, ih (fun d member => visible d (by simp [member])), notUnderscore, positive,
      below]

/-- The sign read before the digits is the sign of the number read, and nothing else. -/
theorem finiteValue?_negative (negative : Bool) (cs : List Char) :
    finiteValue? negative cs =
      (finiteValue? false cs).map fun d => ⟨negative, d.coeff, d.exp⟩ := by
  simp only [finiteValue?]
  -- Both sides read the same digits and exponent; only the sign put on the result differs.
  split <;> split_ifs <;> simp [Option.map_map, Function.comp_def]

/-- A digit is neither a sign nor the first letter of a special value's name, and it is its own
lower case. -/
theorem digit_plain {c : Char} (digit : c.isDigit) :
    c ≠ '-' ∧ c ≠ '+' ∧ c ≠ 'i' ∧ c ≠ 's' ∧ c ≠ 'n' ∧ c.toLower = c := by
  have code := Decimal.digit_code digit
  refine ⟨?_, ?_, ?_, ?_, ?_, ?_⟩
  all_goals try (rintro rfl; revert code; decide)
  -- Only the capitals are lowered, and they lie above the digits.
  have asCode : c.toNat = c.val.toNat := rfl
  have capitalA : 'A'.val.toNat = 65 := rfl
  unfold Char.toLower
  rw [dif_neg]
  simp only [ge_iff_le, UInt32.le_iff_toNat_le, not_and, Nat.not_le]
  omega

/-- A numeral, with a minus sign or none before it, is read as the decimal of its digits with
that sign, when that decimal is readable: the names of the special values start with a letter,
and a numeral with a digit. -/
theorem ofPlain?_numeral (negative : Bool) (numeral : Grammar.Numeral) :
    ofPlain? ((if negative then ['-'] else []) ++ numeral.text) =
      if readable ⟨negative, numeral.value.coeff, numeral.value.exp⟩ then
        some (.finite ⟨negative, numeral.value.coeff, numeral.value.exp⟩)
      else none := by
  -- The numeral starts with a digit, which no name of a special value does.
  obtain ⟨c, run, spelled, digit, -⟩ := numeral.text_spelled
  obtain ⟨notMinus, notPlus, notI, notS, notN, lowered⟩ := digit_plain digit
  have read : finiteValue? negative (c :: run) =
      some ⟨negative, numeral.value.coeff, numeral.value.exp⟩ := by
    rw [finiteValue?_negative, ← spelled, numeral.finiteValue?_text]
    rfl
  cases negative
  · -- With no sign the first character is a digit, so the whole text is the body.
    simp only [Bool.false_eq_true, if_false, List.nil_append, spelled, ofPlain?]
    split
    · rename_i same
      exact absurd (List.cons.inj same).1 notMinus
    · rename_i same
      exact absurd (List.cons.inj same).1 notPlus
    · simp [lowered, notI, notS, notN, read]
  · -- The minus sign is taken off, and the rest is read as with no sign.
    simp [spelled, ofPlain?, lowered, notI, notS, notN, read]

/-- A text that is a numeral, with a minus sign or none before it, is read as the decimal of the
numeral's digits with that sign, when that decimal is readable. -/
theorem ofString?_numeral {s : String} (negative : Bool) (numeral : Grammar.Numeral)
    (spelledOut : s.toList = (if negative then ['-'] else []) ++ numeral.text) :
    ofString? s =
      if readable ⟨negative, numeral.value.coeff, numeral.value.exp⟩ then
        some (.finite ⟨negative, numeral.value.coeff, numeral.value.exp⟩)
      else none := by
  obtain ⟨c, run, spelled, digit, within⟩ := numeral.text_spelled
  -- Every character is a digit, the point or the minus sign: visible ASCII.
  have visible : ∀ d ∈ s.toList, 32 < d.toNat ∧ d.toNat < 128 ∧ d.toNat ≠ 95 := by
    intro d member
    have kinds : d.isDigit ∨ d = '.' ∨ d = '-' := by
      rw [spelledOut, spelled] at member
      simp only [List.mem_append, List.mem_cons] at member
      rcases member with sign | rfl | rest
      · cases negative <;> simp at sign
        exact .inr (.inr sign)
      · exact .inl digit
      · have literal := within d rest
        simp only [Token.isLiteralChar, Bool.or_eq_true, decide_eq_true_eq] at literal
        exact literal.imp_right .inl
    rcases kinds with isDigit | rfl | rfl
    · have := Decimal.digit_code isDigit
      omega
    all_goals decide
  -- So the plain form is the text itself, read as a numeral.
  unfold ofString? ofPoints?
  rw [plainChars_visible visible, Option.bind_some, spelledOut, ofPlain?_numeral]

/-- The fixed text of a decimal is read back as the decimal with a positive exponent turned into
zeros of the coefficient, when no digit of it lies past the reader's exponent range. -/
theorem ofString?_toFixedText (d : Decimal) (low : readEtiny ≤ d.exp)
    (high : d.adjusted ≤ readEmax) :
    ofString? d.toFixedText =
      some (.finite ⟨d.negative, d.coeff * 10 ^ d.exp.toNat, min d.exp 0⟩) := by
  obtain ⟨numeral, spelled, value, -⟩ := d.toFixedText_numeral
  rw [ofString?_numeral d.negative numeral spelled, value, if_pos]
  -- The exponent only rises, and the leading digit stays where it was.
  have tiny : readEtiny ≤ min d.exp 0 := by
    simp only [readEtiny, readEmax] at low ⊢
    omega
  -- Zero is readable at any exponent the reader allows; any other needs its leading digit too.
  by_cases zero : d.coeff = 0
  · simp [readable, Decimal.isZero, zero, tiny, readEmax]
  · have digits := Decimal.digitCount_mul_pow zero d.exp.toNat
    simp only [Decimal.adjusted, Decimal.digits] at high
    simp only [readable, Decimal.isZero, Decimal.adjusted, Decimal.digits, digits, tiny,
      decide_true, Bool.true_and, beq_iff_eq, Nat.mul_eq_zero, zero, false_or,
      (Nat.pow_pos (by decide) : 0 < 10 ^ d.exp.toNat).ne', if_false, decide_eq_true_eq]
    omega

end Numeric

namespace Decimal

/-- Turning a positive exponent into zeros of the coefficient keeps the value. -/
theorem toRat_raised (d : Decimal) :
    (⟨d.negative, d.coeff * 10 ^ d.exp.toNat, min d.exp 0⟩ : Decimal).toRat = d.toRat := by
  obtain ⟨negative, coeff, exp⟩ := d
  -- The zeros appended are the exponent taken off.
  rw [toRat_shift]
  simp only
  rw [show min exp 0 + (exp.toNat : Int) = exp by omega]

end Decimal

end Calculator
