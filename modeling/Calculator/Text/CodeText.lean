/-! Texts as lists of code points, in which a surrogate may stand alone: a JSON escape such as
`\ud800` writes one, and no `String` can hold it. Every string is a code text. -/

namespace Calculator.Text

/-- A text as its code points; a surrogate (`0xD800` to `0xDFFF`) may stand alone. -/
structure CodeText where
  points : List Nat
deriving DecidableEq, Hashable, Inhabited

namespace CodeText

/-- Whether a code point is a surrogate, which only a pair of them can turn into a character. -/
def isSurrogate (n : Nat) : Bool := 0xD800 ≤ n && n < 0xE000

/-- The code points of a string. -/
def ofString (s : String) : CodeText := ⟨s.toList.map Char.toNat⟩

/-- The string of a code text that holds no lone surrogate. -/
def toString? (t : CodeText) : Option String :=
  if t.points.any isSurrogate then none else some (String.ofList (t.points.map Char.ofNat))

/-- The string of a code text with each lone surrogate replaced by U+FFFD, the replacement
character, which like a surrogate is neither blank, nor a letter, nor a digit. -/
def toStringLossy (t : CodeText) : String :=
  String.ofList (t.points.map fun n => if isSurrogate n then '\uFFFD' else Char.ofNat n)

/-- Whether the text has no code point. -/
def isEmpty (t : CodeText) : Bool := t.points.isEmpty

end CodeText

end Calculator.Text
