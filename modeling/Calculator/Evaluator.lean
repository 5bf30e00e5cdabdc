import Calculator.Machine
import Calculator.Expr.Eval
import Calculator.Value
import Calculator.Settings.Basic
import Calculator.Text.Blank

/-! The evaluator: a precision, a nesting limit and a reading machine. Evaluating an expression
starts from an empty machine, reads the tree, converts the supplied value when the tree names the
variable, and computes the tree in the context of the precision. -/

namespace Calculator

/-- An evaluator with its settings and the machine state left by its last call. -/
structure Evaluator where
  precision : Nat
  maxDepth : Nat
  machine : Machine := {}
deriving Inhabited

namespace Evaluator

/-- The evaluator with the default settings. -/
def withDefaults : Evaluator := ⟨Settings.defaultPrecision, Settings.defaultMaxDepth, {}⟩

/-- An evaluator from setting values; the precision is checked first. -/
def create? (precision maxDepth : Json) : Except SettingError Evaluator := do
  let p ← Settings.checkPositive "precision" precision (some Context.maxPrecision)
  let d ← Settings.checkPositive "max_nesting_depth" maxDepth none
  pure ⟨p, d, {}⟩

/-- The evaluator of a settings object, where each refused setting falls back to its default. -/
def ofSettings (settings : List (Text.CodeText × Json)) : Evaluator :=
  let p := Settings.orDefault settings "precision" Settings.defaultPrecision
    (Settings.checkPositive "precision" · (some Context.maxPrecision))
  let d := Settings.orDefault settings "max_nesting_depth" Settings.defaultMaxDepth
    (Settings.checkPositive "max_nesting_depth" · none)
  ⟨p, d, {}⟩

/-- The context that trees are computed in. -/
def context (ev : Evaluator) : Context := Context.ofPrecision ev.precision

/-- Reads an expression from the current machine state, without starting afresh. -/
def parse (ev : Evaluator) (s : String) : Evaluator × Except Fault Expr :=
  let (m, result) := ev.machine.parse ev.maxDepth s
  ({ ev with machine := m }, result)

/-- Whether an expression text is empty or all blank; such an expression is zero. -/
def isBlankExpr (s : String) : Bool := s.isEmpty || Text.isBlankText s

/-- Evaluates an expression with a value for its variable.

An absent or blank expression is zero and leaves the machine as it was. Otherwise the machine
starts empty, the value is converted only when the tree names the variable, and the tree is
computed left subtree first. -/
def evaluate (ev : Evaluator) (expr : Option String) (value : Value) : Evaluator × Except Fault Decimal :=
  match expr with
  | none => (ev, .ok Decimal.zero)
  | some s =>
    if isBlankExpr s then (ev, .ok Decimal.zero)
    else
      let (ev, parsed) := { ev with machine := Machine.empty }.parse s
      let result := parsed.bind fun root =>
        match ev.machine.variableName with
        | none => root.evalLoop ev.context none
        | some _ => value.toDecimal.bind fun v => root.evalLoop ev.context (some v)
      (ev, result)

end Evaluator

end Calculator
