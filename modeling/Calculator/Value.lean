import Calculator.Binary.Shortest
import Calculator.Decimal.Read
import Calculator.Decimal.Text
import Calculator.Fault

/-! Values supplied for the variable, and their conversion to a finite decimal: every value that
is not already a decimal is read from its text. -/

namespace Calculator

/-- A value supplied for the variable of an expression. -/
inductive Value where
  | integer (n : Int)
  | float (x : Binary64)
  | text (s : Text.CodeText)
  | truth (b : Bool)
  | nothing
  | decimal (d : Numeric)
deriving Inhabited

namespace Value

/-- The text of a value that is not a text, from which it is read as a number. -/
def digitsText : Value → String
  | .integer n => (if n < 0 then "-" else "") ++ String.ofList (Decimal.digitList n.natAbs)
  | .float x => x.toText
  | .text _ => ""
  | .truth b => if b then "True" else "False"
  | .nothing => "None"
  | .decimal d => d.toText

/-- How a value is shown in messages: texts quoted, decimals as `Decimal('…')`. -/
def shown : Value → String
  | .text s => s.quote
  | .decimal d => "Decimal('" ++ d.toText ++ "')"
  | v => v.digitsText

/-- The numeric text of a value: a text as it is, any other value as its written form. -/
def codeText : Value → Text.CodeText
  | .text s => s
  | v => Text.CodeText.ofString v.digitsText

/-- The finite decimal a value stands for. A text that is no number, and any infinity or
not-a-number, is refused with the value shown. -/
def toDecimal : Value → Except Fault Decimal
  | .decimal (.finite d) => .ok d
  | .decimal d => .error (.badValue (Value.decimal d).shown)
  | v => match Numeric.ofPoints? v.codeText.points with
    | some (.finite d) => .ok d
    | some d => .error (.badValue (Value.decimal d).shown)
    | none => .error (.badValue v.shown)

end Value

end Calculator
