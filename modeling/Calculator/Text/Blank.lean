import Calculator.Text.RangeTable

/-! Blank characters: the separators and the bidirectional classes WS, B and S (Unicode 14.0). -/

namespace Calculator.Text

/-- Ranges of the blank code points. -/
def blankTable : RangeTable := ⟨#[
  (9, 13), (28, 32), (133, 133), (160, 160), (5760, 5760), (8192, 8202), (8232, 8233),
  (8239, 8239), (8287, 8287), (12288, 12288)]⟩

/-- A code point is blank when it separates words or lines. -/
def isBlank (n : Nat) : Bool := blankTable.contains n

/-- A text is blank when it is not empty and all its characters are blank. -/
def isBlankText (s : String) : Bool := !s.isEmpty && s.toList.all (isBlank ·.toNat)

end Calculator.Text
