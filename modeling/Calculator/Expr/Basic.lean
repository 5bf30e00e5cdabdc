import Calculator.Expr.Operation
import Calculator.Decimal.Text

/-! Expression trees: numbers, the variable, and binary operations, with their written form. -/

namespace Calculator

/-- An expression tree. -/
inductive Expr where
  /-- A number written in the expression. -/
  | num (value : Decimal)
  /-- The variable, by name. -/
  | var (name : String)
  /-- An operation on a left and a right subtree. -/
  | bin (op : Operation) (left right : Expr)
deriving DecidableEq, Inhabited

namespace Expr

/-- The number of nodes of a tree. -/
def size : Expr → Nat
  | .num _ => 1
  | .var _ => 1
  | .bin _ l r => l.size + r.size + 1

/-- Appends the written form of a tree to a text: `Number(v)`, `Variable('x')` and
`BinOp('+', left=l, right=r)`, with numbers in scientific text. -/
def renderOnto : Expr → String → String
  | .num value, out => out ++ "Number(" ++ value.toText ++ ")"
  | .var name, out => out ++ "Variable('" ++ name ++ "')"
  | .bin op l r, out =>
    let out := l.renderOnto (out ++ "BinOp('" ++ String.singleton op.symbol ++ "', left=")
    r.renderOnto (out ++ ", right=") ++ ")"

/-- The written form of a tree. -/
def render (e : Expr) : String := e.renderOnto ""

end Expr

end Calculator
