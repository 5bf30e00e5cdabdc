import Calculator.Expr.Token
import Calculator.Expr.Basic
import Calculator.Decimal.Read
import Calculator.Fault

/-! The reading machine: operands and pending operations on two stacks, turned into one tree by
reducing operations as soon as a looser one, a closing parenthesis or the end arrives.

The machine keeps its state when a fault stops it, so a caller sees what was read before. -/

namespace Calculator

/-- An entry of the pending stack: an operation waiting for its right operand, or the mark of an
open parenthesis. -/
inductive Pending where
  | operation (op : Operation)
  | openParen
deriving DecidableEq, Inhabited

/-- The state of the reading machine; the tops of both stacks are the heads of the lists. -/
structure Machine where
  /-- Trees read so far. -/
  operands : List Expr := []
  /-- Operations and open parentheses still waiting. -/
  pending : List Pending := []
  /-- The name of the variable, once one was read. -/
  variableName : Option String := none
  /-- Open parentheses counted so far, less those closed. -/
  depth : Nat := 0
deriving DecidableEq, Inhabited

namespace Machine

/-- The machine before reading anything. -/
def empty : Machine := {}

/-- Applies pending operations from the top while they bind at least as tightly as `least`,
stopping at an open parenthesis. An operation is taken off the stack before its operands are
checked, so a missing operand leaves it removed. -/
def reduce (least : Nat) : Machine → Machine × Option Fault
  | m@⟨operands, .operation op :: rest, name, depth⟩ =>
    if op.precedence < least then (m, none)
    else match operands with
      | r :: l :: more => reduce least ⟨.bin op l r :: more, rest, name, depth⟩
      | _ => (⟨operands, rest, name, depth⟩, some (.missingOperand op))
  | m => (m, none)
termination_by m => m.pending.length

/-- Reads a literal token onto the operand stack. -/
def pushLiteral (m : Machine) (text : String) : Machine × Option Fault :=
  match Numeric.finiteValue? false text.toList with
  | some d => ({ m with operands := .num d :: m.operands }, none)
  | none => (m, some (.badLiteral text))

/-- Reads a name token: the first name becomes the variable, and every later name must be the
same. -/
def pushName (m : Machine) (name : String) : Machine × Option Fault :=
  match m.variableName with
  | none => ({ m with variableName := some name, operands := .var name :: m.operands }, none)
  | some first =>
    if first = name then ({ m with operands := .var name :: m.operands }, none)
    else (m, some (.multipleVariables first name))

/-- Opens a parenthesis. The depth is raised before it is checked against the limit, so a refused
parenthesis leaves the depth one above the open marks. -/
def openParen (limit : Nat) (m : Machine) (position : Nat) : Machine × Option Fault :=
  let m := { m with depth := m.depth + 1 }
  if limit < m.depth then (m, some (.tooDeep limit position))
  else ({ m with pending := .openParen :: m.pending }, none)

/-- Closes a parenthesis: reduces down to the open mark and removes it. -/
def closeParen (m : Machine) (position : Nat) : Machine × Option Fault :=
  match m.reduce 0 with
  | (m, some f) => (m, some f)
  | (m, none) => match m.pending with
    | [] => (m, some (.missingOpen position))
    | _ :: rest => ({ m with pending := rest, depth := m.depth - 1 }, none)

/-- Reads one token at its position. -/
def step (limit : Nat) (m : Machine) (position : Nat) : Token → Machine × Option Fault
  | .literal text => m.pushLiteral text
  | .name text => m.pushName text
  | .operation op => match m.reduce op.precedence with
    | (m, some f) => (m, some f)
    | (m, none) => ({ m with pending := .operation op :: m.pending }, none)
  | .openParen => m.openParen limit position
  | .closeParen => m.closeParen position
  | .stray c => (m, some (.invalidCharacter c position))

/-- Reads tokens in order until they run out or one of them faults. -/
def run (limit : Nat) (m : Machine) : List (Nat × Token) → Machine × Option Fault
  | [] => (m, none)
  | (position, token) :: rest => match m.step limit position token with
    | (m, none) => m.run limit rest
    | (m, some f) => (m, some f)

/-- Ends the reading: reduces everything, then requires no open parenthesis and exactly one
operand, which is taken off the stack as the tree. -/
def finish (m : Machine) : Machine × Except Fault Expr :=
  match m.reduce 0 with
  | (m, some f) => (m, .error f)
  | (m, none) =>
    if !m.pending.isEmpty then (m, .error .missingClose)
    else match m.operands with
      | [root] => ({ m with operands := [] }, .ok root)
      | operands => (m, .error (.operandCount operands.length))

/-- Reads a whole expression text from the given state, with at most `limit` nested
parentheses. -/
def parse (limit : Nat) (m : Machine) (s : String) : Machine × Except Fault Expr :=
  match m.run limit (Token.ofString s) with
  | (m, some f) => (m, .error f)
  | (m, none) => m.finish

end Machine

end Calculator
