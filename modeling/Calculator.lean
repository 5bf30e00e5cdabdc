import Calculator.Text.RangeTable
import Calculator.Text.Letter
import Calculator.Text.Printable
import Calculator.Text.Blank
import Calculator.Text.DecimalDigit
import Calculator.Text.Quoted
import Calculator.Decimal.Digits
import Calculator.Decimal.Basic
import Calculator.Decimal.Context
import Calculator.Decimal.Arith
import Calculator.Decimal.Text
import Calculator.Decimal.Read
import Calculator.Expr.Operation
import Calculator.Fault
import Calculator.Expr.Basic
import Calculator.Expr.Eval
import Calculator.Expr.Token
import Calculator.Machine
import Calculator.Binary.Basic
import Calculator.Binary.Shortest
import Calculator.Settings.Json
import Calculator.Value
import Calculator.Settings.Basic
import Calculator.Evaluator
import Calculator.Display
import Calculator.Console
import Calculator.Main
import Calculator.Proofs.Evaluation
import Calculator.Proofs.Machine
import Calculator.Proofs.Grammar
import Calculator.Proofs.Outcome
import Calculator.Proofs.Digits
import Calculator.Proofs.Exactness
import Calculator.Proofs.Blank
import Calculator.Proofs.Session
import Calculator.Proofs.Reporting
import Calculator.Proofs.Leniency
import Calculator.Proofs.Accounting
import Calculator.Proofs.Nesting
import Calculator.Proofs.Grouping
import Calculator.Proofs.FixedText
import Calculator.Proofs.Rounding
import Calculator.Proofs.DisplayText
import Calculator.Proofs.Layers
import Calculator.Proofs.Locality
import Calculator.Proofs.CorrectRounding
import Calculator.Proofs.Substitution
