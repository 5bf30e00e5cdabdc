import Calculator.Decimal.Basic
import Calculator.Text.Blank
import Calculator.Text.DecimalDigit

/-! Reading numeric text: a sign, digits with an optional point and exponent, or the names of the
special values, with blank ends, digit separators and digits of any script allowed. -/

namespace Calculator.Numeric

open Calculator.Text

/-- The largest exponent of a leading digit that a read number may have. -/
def readEmax : Int := 999999999999999999

/-- The smallest exponent of a last digit that a read number may have. -/
def readEtiny : Int := -readEmax - readEmax + 1

/-- Applies f to every code point: it gives a character to keep, drops the point (`some none`),
or makes the whole text unreadable (`none`). -/
def mapPoints (f : Nat → Option (Option Char)) : List Nat → Option (List Char)
  | [] => some []
  | n :: rest => do
    let head ← f n
    let tail ← mapPoints f rest
    pure (match head with | some h => h :: tail | none => tail)

/-- Brings a numeric text to plain ASCII: blank code points at both ends are dropped, every
underscore is dropped, blank code points inside become spaces, and a decimal digit of any script
becomes its ASCII digit. Any other code point outside ASCII, or a NUL, makes the text
unreadable. -/
def plainChars (ps : List Nat) : Option (List Char) :=
  let ps := ((ps.dropWhile isBlank).reverse.dropWhile isBlank).reverse
  ps |> mapPoints fun n =>
    if n = 95 then some none
    else if 0 < n ∧ n < 128 then some (some (Char.ofNat n))
    else if isBlank n then some (some ' ')
    else (decimalDigit? n).map fun d => some (Char.ofNat (48 + d))

/-- The value of a nonempty list of ASCII digits, or none when a character is not a digit. -/
def digitsValue? (cs : List Char) : Option Nat :=
  if !cs.isEmpty && cs.all Char.isDigit then
    some (Decimal.ofDigitList (cs.map fun c => c.toNat - 48))
  else none

/-- A signed exponent: an optional sign and at least one digit. -/
def exponentValue? : List Char → Option Int
  | '+' :: ds => (digitsValue? ds).map Int.ofNat
  | '-' :: ds => (digitsValue? ds).map fun n => -(n : Int)
  | ds => (digitsValue? ds).map Int.ofNat

/-- A payload of a not-a-number value: any number of digits. -/
def payloadValue? (cs : List Char) : Option Nat :=
  if cs.isEmpty then some 0 else digitsValue? cs

/-- A finite number: digits with at most one point and at least one digit, then an optional
exponent after `e` or `E`. -/
def finiteValue? (negative : Bool) (cs : List Char) : Option Decimal :=
  let whole := cs.takeWhile Char.isDigit
  let rest := cs.dropWhile Char.isDigit
  let (fraction, rest) := match rest with
    | '.' :: more => (more.takeWhile Char.isDigit, more.dropWhile Char.isDigit)
    | _ => ([], rest)
  if whole.isEmpty && fraction.isEmpty then none
  else
    let exponent? : Option Int := match rest with
      | [] => some 0
      | 'e' :: more => exponentValue? more
      | 'E' :: more => exponentValue? more
      | _ => none
    exponent?.map fun e =>
      ⟨negative, Decimal.ofDigitList ((whole ++ fraction).map fun c => c.toNat - 48),
        e - fraction.length⟩

/-- Whether a finite number read from text fits the widest context: zeros and all digits at or
above `readEtiny`, leading digits at or below `readEmax`. -/
def readable (d : Decimal) : Bool :=
  readEtiny ≤ d.exp && (if d.isZero then d.exp ≤ readEmax else d.adjusted ≤ readEmax)

/-- Reads plain ASCII numeric text, with the special names in any case. -/
def ofPlain? (cs : List Char) : Option Numeric :=
  let (negative, body) := match cs with
    | '-' :: rest => (true, rest)
    | '+' :: rest => (false, rest)
    | rest => (false, rest)
  let lower := body.map Char.toLower
  if lower = "inf".toList || lower = "infinity".toList then some (.infinity negative)
  else if lower.take 4 = "snan".toList then (payloadValue? (body.drop 4)).map (.nan negative true)
  else if lower.take 3 = "nan".toList then (payloadValue? (body.drop 3)).map (.nan negative false)
  else match finiteValue? negative body with
    | some d => if readable d then some (.finite d) else none
    | none => none

/-- Reads a numeric text given by its code points, or none when it is not one. -/
def ofPoints? (ps : List Nat) : Option Numeric := (plainChars ps).bind ofPlain?

/-- Reads a numeric text, or none when it is not one. -/
def ofString? (s : String) : Option Numeric := ofPoints? (s.toList.map Char.toNat)

end Calculator.Numeric
