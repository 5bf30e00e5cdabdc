import Calculator.Text.Printable
import Calculator.Text.CodeText

/-! Quoted literals of text: the quote that needs no escape, and escapes for what does not print. -/

namespace Calculator.Text

/-- The hexadecimal digits of n, lower case, padded with zeros to the given width. -/
def hexDigits (width n : Nat) : List Char :=
  let digits := Nat.toDigits 16 n
  List.replicate (width - digits.length) '0' ++ digits

/-- A single quote encloses the literal unless the text has one and no double quote. -/
def quoteFor (ps : List Nat) : Nat :=
  if ps.contains 39 && !ps.contains 34 then 34 else 39

/-- How one code point is written between the given quotes. -/
def escapePoint (quote n : Nat) : List Char :=
  if n = quote || n = 92 then ['\\', Char.ofNat n]
  else if n = 9 then ['\\', 't']
  else if n = 10 then ['\\', 'n']
  else if n = 13 then ['\\', 'r']
  else if isPrintable n then [Char.ofNat n]
  -- Code points that do not print are written in hexadecimal, in the narrowest of three widths.
  else if n < 0x100 then '\\' :: 'x' :: hexDigits 2 n
  else if n < 0x10000 then '\\' :: 'u' :: hexDigits 4 n
  else '\\' :: 'U' :: hexDigits 8 n

/-- The quoted literal of a text given by its code points, as it is shown inside messages. -/
def quotePoints (ps : List Nat) : String :=
  let q := quoteFor ps
  String.ofList (Char.ofNat q :: ps.flatMap (escapePoint q) ++ [Char.ofNat q])

/-- The quoted literal of a code text. -/
def CodeText.quote (t : CodeText) : String := quotePoints t.points

/-- The quoted literal of a string. -/
def quote (s : String) : String := quotePoints (s.toList.map Char.toNat)

end Calculator.Text
