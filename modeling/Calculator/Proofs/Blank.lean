import Calculator.Text.Blank
import Calculator.Evaluator
import Calculator.Proofs.Lexing
import Calculator.Proofs.Machine

/-! Blank texts are never read: every blank character other than the space is a stray token,
so the machine stops at the first one, and a text of spaces alone leaves no operand. -/

namespace Calculator

namespace Text.RangeTable

/-- The search finds only a range that holds the code point. -/
theorem findBetween_sound (t : RangeTable) (n lo hi : Nat) {start : Nat}
    (found : t.findBetween n lo hi = some start) :
    ∃ range ∈ t.ranges.toList, range.1 ≤ n ∧ n ≤ range.2 := by
  fun_induction t.findBetween n lo hi with
  -- The search goes on in the lower or the upper half, where the hypothesis applies.
  | case1 lo hi _ mid _ range _ ih => exact ih found
  | case2 lo hi _ mid _ range _ _ ih => exact ih found
  | case3 lo hi _ mid present range notBelow notAbove =>
    -- The range at the middle is neither above nor below n.
    exact ⟨range, Array.getElem_mem_toList present, Nat.not_lt.mp notBelow,
      Nat.not_lt.mp notAbove⟩
  -- A middle past the array, or an empty interval, finds nothing.
  | case4 => cases found
  | case5 => cases found

/-- A code point the table contains lies in one of its ranges. -/
theorem contains_sound {t : RangeTable} {n : Nat} (contained : t.contains n = true) :
    ∃ range ∈ t.ranges.toList, range.1 ≤ n ∧ n ≤ range.2 := by
  unfold contains at contained
  -- Containment is a search over the whole array that found a range.
  obtain ⟨start, found⟩ := Option.isSome_iff_exists.mp contained
  exact findBetween_sound t n 0 t.ranges.size found

end Text.RangeTable

namespace Text

/-- Every blank code point is the space, an ASCII control character, or a code point past ASCII
that is no letter. -/
theorem blank_code {n : Nat} (blank : isBlank n = true) :
    n = 32 ∨ n < 32 ∨ (128 ≤ n ∧ letterTable.contains n = false) := by
  obtain ⟨range, member, lower, upper⟩ := RangeTable.contains_sound blank
  -- The ten ranges of blanks hold twenty-nine code points, each checked against the letters.
  have everyBlank : ∀ range ∈ blankTable.ranges.toList, ∀ i < range.2 + 1 - range.1,
      range.1 + i = 32 ∨ range.1 + i < 32 ∨
        (128 ≤ range.1 + i ∧ letterTable.contains (range.1 + i) = false) := by
    decide +kernel
  -- The code point is its range's start plus its offset in the range.
  have checked := everyBlank range member (n - range.1) (by omega)
  rwa [Nat.add_sub_cancel' lower] at checked

end Text

namespace Token

/-- A blank character other than the space starts no token: it is read as a stray. -/
theorem blank_stray {c : Char} (blank : Text.isBlank c.toNat = true) (notSpace : c ≠ ' ') :
    (Token.stray c).Lexeme := by
  -- Each condition of a stray lexeme is a bound on the code point.
  have spaceCode : ' '.toNat = 32 := rfl
  have code : c.toNat ≠ 32 := fun same => notSpace (Char.toNat_inj.mp (same.trans spaceCode.symm))
  have asDigit : c.toNat = c.val.toNat := rfl
  have zero : '0'.val.toNat = 48 := rfl
  have nine : '9'.val.toNat = 57 := rfl
  -- Blanks lie below every printable ASCII character, or past ASCII.
  have outside : c.toNat < 32 ∨ (128 ≤ c.toNat ∧ Text.letterTable.contains c.toNat = false) := by
    rcases Text.blank_code blank with space | control | wide
    · exact absurd space code
    · exact .inl control
    · exact .inr wide
  have notDigit : c.isDigit = false := by
    simp only [Char.isDigit, Bool.and_eq_false_iff, decide_eq_false_iff_not,
      UInt32.le_iff_toNat_le, ge_iff_le]
    omega
  have notLetter : Text.isLetter c = false := by
    unfold Text.isLetter
    -- Below ASCII's letters the test is the ASCII one; past ASCII it is the table's.
    rcases outside with control | ⟨wide, notInTable⟩
    · have upperA : 'A'.val.toNat = 65 := rfl
      have lowerA : 'a'.val.toNat = 97 := rfl
      simp only [control.trans (by decide : 32 < 128), if_true, Char.isAlpha, Char.isUpper,
        Char.isLower, Bool.or_eq_false_iff, Bool.and_eq_false_iff, decide_eq_false_iff_not,
        UInt32.le_iff_toNat_le, ge_iff_le]
      omega
    · simp only [Nat.not_lt.mpr wide, if_false, notInTable]
  -- The operation symbols and the parentheses are printable ASCII.
  have notChar : ∀ d : Char, 32 < d.toNat → d.toNat < 128 → c ≠ d := by
    rintro d printable ascii rfl
    omega
  refine ⟨notSpace, notDigit, notLetter, ?_, notChar '(' (by decide) (by decide),
    notChar ')' (by decide) (by decide)⟩
  simp only [Operation.ofChar?, notChar '+' (by decide) (by decide),
    notChar '-' (by decide) (by decide), notChar '*' (by decide) (by decide),
    notChar '/' (by decide) (by decide), if_false]

/-- A text of blanks is cut into strays only. -/
theorem scan_blanks (cs : List Char) (blanks : ∀ c ∈ cs, Text.isBlank c.toNat = true)
    (position : Nat) : ∀ token ∈ (scan cs position).map Prod.snd, ∃ c, token = .stray c := by
  -- Induction on the text: every character is skipped or read as a stray of its own.
  induction cs generalizing position with
  | nil => simp [scan]
  | cons c rest ih =>
    have restBlank : ∀ d ∈ rest, Text.isBlank d.toNat = true :=
      fun d member => blanks d (List.mem_cons_of_mem c member)
    by_cases space : c = ' '
    · -- A space is skipped.
      rw [scan, if_pos space]
      exact ih restBlank (position + 1)
    · -- Any other blank is a stray of its own.
      have stray := blank_stray (blanks c List.mem_cons_self) space
      have single : scan ((Token.stray c).text ++ rest) position =
          (position, .stray c) :: scan rest (position + (Token.stray c).text.length) :=
        scan_lexeme stray (fun _ _ => rfl) position
      simp only [text, List.singleton_append] at single
      rw [single]
      rintro token member
      simp only [List.map_cons, List.mem_cons] at member
      rcases member with first | later
      · exact ⟨c, first⟩
      · exact ih restBlank _ token later

end Token

/-- Every character of a blank expression is blank. -/
theorem Evaluator.blank_chars {s : String} (blank : Evaluator.isBlankExpr s = true) :
    ∀ c ∈ s.toList, Text.isBlank c.toNat = true := by
  simp only [Evaluator.isBlankExpr, Text.isBlankText, Bool.or_eq_true, Bool.and_eq_true,
    Bool.not_eq_true', List.all_eq_true] at blank
  -- An empty text has no characters; any other blank text has blank ones only.
  rcases blank with emptyText | ⟨_, all⟩
  · simp only [String.isEmpty_iff] at emptyText
    simp [emptyText]
  · exact all

namespace Machine

/-- Reading stops at the first stray token. -/
theorem run_strays (limit : Nat) (m : Machine) (tokens : List (Nat × Token))
    (strays : ∀ token ∈ tokens.map Prod.snd, ∃ c, token = .stray c) (nonempty : tokens ≠ []) :
    ∃ f, (m.run limit tokens).2 = some f := by
  obtain ⟨⟨position, token⟩, rest, rfl⟩ := List.exists_cons_of_ne_nil nonempty
  -- The first token is already a stray, and its step faults.
  obtain ⟨c, rfl⟩ := strays token (by simp)
  exact ⟨.invalidCharacter c position, by simp [run, step]⟩

/-- A blank text, or an empty one, is never read into a tree. -/
theorem parse_blank (limit : Nat) {s : String} (blank : Evaluator.isBlankExpr s = true)
    (root : Expr) : (empty.parse limit s).2 ≠ .ok root := by
  have strays := Token.scan_blanks s.toList (Evaluator.blank_chars blank) 0
  unfold parse
  by_cases none : Token.ofString s = []
  · -- Spaces alone leave the machine empty, with no operand to take.
    simp [none, run, finish, empty, reduce]
  · -- Any other blank text has a stray token, which stops the run with a fault.
    obtain ⟨f, stopped⟩ := run_strays limit empty (Token.ofString s) strays none
    rcases ran : empty.run limit (Token.ofString s) with ⟨m', result⟩
    rw [ran] at stopped
    simp only at stopped
    subst stopped
    simp

end Machine

end Calculator
