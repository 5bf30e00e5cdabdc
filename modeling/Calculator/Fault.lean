import Calculator.Expr.Operation
import Calculator.Text.Quoted

/-! Faults: why an expression could not be read or computed, each with its kind, its four-digit
code and its message. -/

namespace Calculator

/-- A reason why an expression has no value. -/
inductive Fault where
  /-- A run of digits and points that is not a number. -/
  | badLiteral (literal : String)
  /-- The supplied value of the variable, as shown, is not a finite number. -/
  | badValue (shown : String)
  /-- A character that no token starts with, at its position. -/
  | invalidCharacter (c : Char) (position : Nat)
  /-- An operation found fewer than two operands. -/
  | missingOperand (op : Operation)
  /-- The expression did not reduce to exactly one tree. -/
  | operandCount (count : Nat)
  /-- The tree names a variable but no value was given. -/
  | noValue (name : String)
  /-- An open parenthesis was never closed. -/
  | missingClose
  /-- A closing parenthesis at this position has no open one. -/
  | missingOpen (position : Nat)
  /-- A second variable name appeared. -/
  | multipleVariables (first second : String)
  /-- An open parenthesis at this position went past the nesting limit. -/
  | tooDeep (limit position : Nat)
  /-- A result's leading digit went past the largest exponent. -/
  | overflow
  /-- A division by zero. -/
  | divisionByZero
deriving DecidableEq, Inhabited

namespace Fault

/-- The name of the fault's kind, as reports give it. -/
def kindName : Fault → String
  | .badLiteral _ | .badValue _ => "FormatError"
  | .invalidCharacter _ _ => "InvalidCharacter"
  | .missingOperand _ | .operandCount _ | .noValue _ => "MalformedExpression"
  | .missingClose | .missingOpen _ => "UnbalancedParenthesis"
  | .multipleVariables _ _ => "MultipleVariables"
  | .tooDeep _ _ => "NestingTooDeep"
  | .overflow => "CalculationError"
  | .divisionByZero => "DivisionByZero"

/-- The four-digit code of the fault. -/
def code : Fault → String
  | .badLiteral _ | .badValue _ => "3008"
  | .invalidCharacter _ _ => "3011"
  | .missingOperand _ | .operandCount _ | .noValue _ => "3012"
  | .missingClose => "3009"
  | .missingOpen _ => "3010"
  | .multipleVariables _ _ => "3002"
  | .tooDeep _ _ => "3032"
  | .overflow => "3026"
  | .divisionByZero => "3003"

/-- The message of the fault, naming what went wrong and where. -/
def message : Fault → String
  | .badLiteral literal => "Invalid number: " ++ literal
  | .badValue shown => "Invalid variable value: " ++ shown
  | .invalidCharacter c position =>
    "Encountered invalid character " ++ Text.quote (String.singleton c) ++ " at position " ++
      toString position
  | .missingOperand op => "Missing operand for '" ++ String.singleton op.symbol ++ "'"
  | .operandCount count => "Expected one result, found " ++ toString count ++ " operands"
  | .noValue name => "No value supplied for variable '" ++ name ++ "'"
  | .missingClose => "Missing closing parenthesis ')'"
  | .missingOpen position => "Missing '(' for ')' at position " ++ toString position
  | .multipleVariables first second =>
    "Multiple variables found: '" ++ first ++ "' and '" ++ second ++ "'"
  | .tooDeep limit position =>
    "More than " ++ toString limit ++ " nested parentheses at position " ++ toString position
  | .overflow => "Number too large (Arithmetic overflow)."
  | .divisionByZero => "Division by zero"

/-- The heading that a report gives for a code: the area named by its first digit. -/
def area (code : String) : String :=
  match code.toList.head? with
  | some '3' => "Calculator Error"
  | some '5' => "Configuration Error"
  | _ => "Unexpected Error"

/-- The fixed summary that a report gives for a code. -/
def summary (code : String) : String :=
  if code = "3002" then "Multiple Variables in problem: "
  else if code = "3003" then "Division by Zero"
  else if code = "3008" then "Invalid number: "
  else if code = "3009" then "Missing ')'. "
  else if code = "3010" then "Missing '('. "
  else if code = "3011" then "Invalid character: "
  else if code = "3012" then "Invalid equation: "
  else if code = "3026" then "Number too big."
  else if code = "3032" then "Too many nested parentheses."
  else if code = "9999" then "Unexpected Error: "
  else "Unknown error"

/-- The three-line report of a fault raised by an equation. -/
def report (f : Fault) (equation : String) : String :=
  area f.code ++ " " ++ f.code ++ ": " ++ summary f.code ++ "\nDetails: " ++ f.message ++
    "\nEquation: " ++ equation

end Fault

end Calculator
