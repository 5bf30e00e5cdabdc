import Calculator.Expr.Basic
import Calculator.Decimal.Arith
import Calculator.Fault

/-! Computing the value of a tree in a context: by recursion on the tree, and by a loop over an
explicit stack of pending nodes that needs no recursion depth. Both reduce the left subtree, then
the right one, then the node, so the first fault met is the same. -/

namespace Calculator

namespace Operation

/-- The decimal operation that an operation performs on two values in a context, which may
signal instead of giving a result. -/
def perform (c : Context) (op : Operation) (a b : Decimal) : Except Signal Decimal :=
  match op with
  | .add => Decimal.add c a b
  | .sub => Decimal.sub c a b
  | .mul => Decimal.mul c a b
  | .div => Decimal.div c a b

/-- Applies an operation to two values in a context; a zero divisor is refused before dividing. -/
def apply (c : Context) (op : Operation) (a b : Decimal) : Except Fault Decimal :=
  if op = .div && b.isZero then .error .divisionByZero
  else
    -- With a nonzero divisor the only signal left is overflow.
    match op.perform c a b with
    | .ok d => .ok d
    | .error _ => .error .overflow

end Operation

namespace Expr

/-- The value of a tree, with `value` for the variable. -/
def eval (c : Context) (value : Option Decimal) : Expr → Except Fault Decimal
  | .num d => .ok d
  | .var name => match value with
    | some v => .ok v
    | none => .error (.noValue name)
  | .bin op l r => do
    let a ← l.eval c value
    let b ← r.eval c value
    op.apply c a b

/-- A task of the evaluation loop: a tree still to reduce, or an operation whose operands are
the two values on top of the value stack. -/
inductive Task where
  | visit (e : Expr)
  | combine (op : Operation)

/-- The work a task still needs: a tree needs one step per node and one per operation. -/
def Task.weight : Task → Nat
  | .visit e => 2 * e.size
  | .combine _ => 1

/-- The work of all tasks. -/
def workOf : List Task → Nat
  | [] => 0
  | task :: rest => task.weight + workOf rest

/-- Whether every pop of the loop finds a value, when `n` values are on the stack: a leaf pushes
one, an operation pops two and pushes one, and the value of the tree is popped at the end. -/
def Task.Fits : List Task → Nat → Prop
  | [], n => 0 < n
  | .visit _ :: rest, n => Task.Fits rest (n + 1)
  | .combine _ :: rest, n + 2 => Task.Fits rest (n + 1)
  | .combine _ :: _, _ => False

/-- One tree, on an empty stack, leaves exactly the value popped at the end. -/
theorem Task.fits_visit (e : Expr) : Task.Fits [.visit e] 0 := Nat.zero_lt_one

/-- Runs the evaluation loop: a leaf pushes its value, a node schedules its left subtree, its
right subtree and then itself, and an operation replaces the two top values by its result. The
tasks fit the stack, so every operation finds its two values. -/
def runTasks (c : Context) (value : Option Decimal) :
    (tasks : List Task) → (values : List Decimal) → Task.Fits tasks values.length →
      Except Fault (List Decimal)
  | [], values, _ => .ok values
  | .visit (.num d) :: rest, values, fits => runTasks c value rest (d :: values) fits
  | .visit (.var name) :: rest, values, fits => match value with
    | some v => runTasks c value rest (v :: values) fits
    | none => .error (.noValue name)
  | .visit (.bin op l r) :: rest, values, fits =>
    runTasks c value (.visit l :: .visit r :: .combine op :: rest) values fits
  | .combine op :: rest, b :: a :: more, fits => match op.apply c a b with
    | .ok v => runTasks c value rest (v :: more) fits
    | .error f => .error f
termination_by tasks => workOf tasks
decreasing_by
  all_goals simp only [workOf, Task.weight, size]
  all_goals omega

/-- A loop whose tasks fit its stack ends with a value on it. -/
theorem runTasks_ne_nil {c : Context} {value : Option Decimal} {tasks : List Task}
    {values : List Decimal} {fits : Task.Fits tasks values.length} {result : List Decimal}
    (ran : runTasks c value tasks values fits = .ok result) : result ≠ [] := by
  fun_induction runTasks c value tasks values fits with
  | case1 values fits =>
    -- With no task left the stack is what the fit promised for the last pop.
    rw [Except.ok.injEq] at ran
    subst ran
    exact List.ne_nil_of_length_pos fits
  | case2 d rest values fits _ ih => exact ih ran
  | case3 name rest values fits v given _ ih =>
    subst given
    exact ih ran
  | case4 => cases ran
  | case5 op l r rest values fits _ ih => exact ih ran
  | case6 op rest b a more fits v applied _ ih => exact ih ran
  | case7 => cases ran

/-- The value of a tree computed by the evaluation loop: the value popped last. -/
def evalLoop (c : Context) (value : Option Decimal) (e : Expr) : Except Fault Decimal :=
  match ran : runTasks c value [.visit e] [] (Task.fits_visit e) with
  | .ok values => .ok (values.head (runTasks_ne_nil ran))
  | .error f => .error f

end Expr

end Calculator
