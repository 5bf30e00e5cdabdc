import Calculator.Expr.Eval
import Mathlib

/-! The evaluation loop computes what the recursion on the tree computes: a subtree on top of the
tasks is reduced completely, left subtree first, before the loop goes on. -/

namespace Calculator

/-! ### Signals of the decimal operations

Every operation ends by fitting an exact (or sticky) result into the context, and fitting can only
overflow; a zero divisor is the one other way for an operation to stop. -/

/-- Fitting a value into a context fails only by overflow. -/
theorem Context.fit_error {c : Context} {negative : Bool} {coeff : Nat} {exp : Int} {s : Signal}
    (failed : c.fit negative coeff exp = .error s) : s = .overflow := by
  simp only [Context.fit] at failed
  -- Both error branches of fitting are an exponent past the top, before or after a carry.
  split_ifs at failed <;> cases failed <;> rfl

namespace Decimal

variable {c : Context} {a b : Decimal} {s : Signal}

/-- A sum stops only on overflow, in each of its cases. -/
theorem add_error (failed : add c a b = .error s) : s = .overflow := by
  simp only [add] at failed
  -- Zero operands, a zero sum and any other sum all end in a fit.
  split_ifs at failed <;> exact Context.fit_error failed

/-- A difference stops only on overflow. -/
theorem sub_error (failed : sub c a b = .error s) : s = .overflow := add_error failed

/-- A product stops only on overflow. -/
theorem mul_error (failed : mul c a b = .error s) : s = .overflow := Context.fit_error failed

/-- A quotient rounded at one digit past the precision stops only on overflow. -/
theorem roundedQuotient_error {negative : Bool} (failed : roundedQuotient c negative a b = .error s) :
    s = .overflow := by
  simp only [roundedQuotient] at failed
  -- Whether the quotient was exact or not, it is fitted.
  split_ifs at failed <;> exact Context.fit_error failed

/-- A quotient stops on a zero divisor, or else only on overflow. -/
theorem div_error (failed : div c a b = .error s) : b.isZero ∨ s = .overflow := by
  by_cases zero : b.isZero
  · exact .inl zero
  -- Past the zero divisor every branch ends in a fit.
  right
  simp only [div] at failed
  rw [if_neg zero] at failed
  split_ifs at failed
  · exact Context.fit_error failed
  · -- A short exact quotient is fitted as it is; any other is rounded first.
    split at failed
    · split_ifs at failed
      · exact Context.fit_error failed
      · exact roundedQuotient_error failed
    · exact roundedQuotient_error failed

end Decimal

/-- An operation signals something other than overflow only when it divides by zero. -/
theorem Operation.perform_error {c : Context} {op : Operation} {a b : Decimal} {s : Signal}
    (failed : op.perform c a b = .error s) : (op = .div ∧ b.isZero) ∨ s = .overflow := by
  -- Each operation carries its own lemma; only the quotient has a second way to stop.
  cases op with
  | add => exact .inr (Decimal.add_error failed)
  | sub => exact .inr (Decimal.sub_error failed)
  | mul => exact .inr (Decimal.mul_error failed)
  | div =>
    rcases Decimal.div_error failed with zero | overflow
    · exact .inl ⟨rfl, zero⟩
    · exact .inr overflow

/-- Applying an operation fails only on a zero divisor or an overflowing result. -/
theorem Operation.apply_error {c : Context} {op : Operation} {a b : Decimal} {f : Fault}
    (failed : op.apply c a b = .error f) : f = .divisionByZero ∨ f = .overflow := by
  unfold Operation.apply at failed
  -- The zero guard comes first; any signal of the decimal operation is reported as overflow.
  split at failed
  · cases failed
    exact .inl rfl
  · split at failed
    · cases failed
    · cases failed
      exact .inr rfl

/-- Applying an operation reports a division by zero exactly when it divides by zero, and an
overflow exactly when otherwise the decimal operation overflows: the guard comes first, and no
other signal is ever renamed. -/
theorem Operation.apply_error_iff (c : Context) (op : Operation) (a b : Decimal) (f : Fault) :
    op.apply c a b = .error f ↔
      (f = .divisionByZero ∧ op = .div ∧ b.isZero) ∨
      (f = .overflow ∧ ¬(op = .div ∧ b.isZero) ∧ op.perform c a b = .error .overflow) := by
  unfold Operation.apply
  by_cases zero : op = .div ∧ b.isZero
  · -- The guard answers a zero divisor before the decimal division is tried.
    obtain ⟨rfl, zero⟩ := zero
    simp only [zero, decide_true, Bool.and_self, if_true, Except.error.injEq, and_self,
      not_true_eq_false, false_and, and_false, and_true, or_false]
    exact eq_comm
  · have guard : ¬(op = .div && b.isZero) := by simpa using zero
    rw [if_neg guard]
    -- Past the guard, a failing decimal operation can only have overflowed.
    cases performed : op.perform c a b with
    | ok d => simp [zero]
    | error signal =>
      have overflow : signal = .overflow := (Operation.perform_error performed).resolve_left zero
      simp only [overflow, Except.error.injEq, zero, not_false_eq_true, and_false,
        and_true, false_or]
      exact eq_comm

namespace Expr

/-- The names of the variable leaves of a tree, from left to right. -/
def names : Expr → List String
  | .num _ => []
  | .var name => [name]
  | .bin _ l r => l.names ++ r.names

/-- A tree fails on a zero divisor, on an overflow, or on a variable leaf when no value is
given. -/
theorem eval_error {c : Context} {value : Option Decimal} {e : Expr} {f : Fault}
    (failed : e.eval c value = .error f) :
    f = .divisionByZero ∨ f = .overflow ∨ (value = none ∧ ∃ name ∈ e.names, f = .noValue name) := by
  -- Induction on the tree; a fault of a subtree is passed on unchanged.
  induction e with
  | num d => cases failed
  | var name =>
    -- Only a missing value makes a leaf fail.
    cases value with
    | none =>
      cases failed
      exact .inr (.inr ⟨rfl, name, by simp [names]⟩)
    | some v => cases failed
  | bin op l r ihl ihr =>
    -- The first of the left subtree, the right subtree and the node that fails gives the fault.
    cases left : l.eval c value with
    | error g =>
      have same : g = f := by simpa [eval, left, bind, Except.bind] using failed
      subst same
      rcases ihl left with zero | overflow | ⟨absent, name, named, rfl⟩
      · exact .inl zero
      · exact .inr (.inl overflow)
      · exact .inr (.inr ⟨absent, name, by simp [names, named], rfl⟩)
    | ok a =>
      cases right : r.eval c value with
      | error g =>
        have same : g = f := by simpa [eval, left, right, bind, Except.bind] using failed
        subst same
        rcases ihr right with zero | overflow | ⟨absent, name, named, rfl⟩
        · exact .inl zero
        · exact .inr (.inl overflow)
        · exact .inr (.inr ⟨absent, name, by simp [names, named], rfl⟩)
      | ok b =>
        -- Both subtrees gave values, so the node's own operation failed.
        have applied : op.apply c a b = .error f := by
          simpa [eval, left, right, bind, Except.bind] using failed
        rcases Operation.apply_error applied with zero | overflow
        · exact .inl zero
        · exact .inr (.inl overflow)

/-- A tree scheduled on top of the tasks leaves its value on top of the values, or ends the loop
with the fault that its recursion meets first. -/
theorem runTasks_visit (c : Context) (value : Option Decimal) (e : Expr) :
    ∀ (rest : List Task) (values : List Decimal) (fits : Task.Fits (.visit e :: rest) values.length),
      runTasks c value (.visit e :: rest) values fits =
        match e.eval c value with
        | .ok v => runTasks c value rest (v :: values) fits
        | .error f => .error f := by
  -- The tasks below the tree and the values under its result are carried through unchanged.
  induction e with
  -- A leaf pushes its value, or ends the loop for want of one.
  | num d =>
    intro rest values fits
    simp [runTasks, eval]
  | var name =>
    intro rest values fits
    cases value <;> simp [runTasks, eval]
  | bin op l r ihl ihr =>
    intro rest values fits
    -- The node schedules its left subtree, its right subtree and itself, in that order.
    rw [runTasks, ihl (.visit r :: .combine op :: rest) values fits]
    cases left : l.eval c value with
    | error f => simp [eval, left, bind, Except.bind]
    | ok a =>
      simp only
      rw [ihr (.combine op :: rest) (a :: values) fits]
      cases right : r.eval c value with
      | error f => simp [eval, left, right, bind, Except.bind]
      | ok b =>
        -- Both operands are on top of the values, the right one above the left one.
        simp only
        rw [runTasks.eq_6 c value op rest b a values fits]
        cases applied : op.apply c a b <;> simp [eval, left, right, applied, bind, Except.bind]

/-- Started on one tree, the loop ends with exactly its value on the stack of values. -/
theorem runTasks_single (c : Context) (value : Option Decimal) (e : Expr) :
    runTasks c value [.visit e] [] (Task.fits_visit e) = (e.eval c value).map fun v => [v] := by
  -- With no task below the tree, the loop stops once the tree is reduced.
  rw [runTasks_visit]
  cases e.eval c value with
  | error f => rfl
  | ok v => exact runTasks.eq_1 c value [v] _

/-- The loop over an explicit stack computes the value that the recursion on the tree does. -/
theorem evalLoop_eq_eval (c : Context) (value : Option Decimal) (e : Expr) :
    e.evalLoop c value = e.eval c value := by
  unfold evalLoop
  -- The loop ends with the tree's value alone on the stack, or with the tree's fault.
  split
  · rename_i values ran
    rw [runTasks_single] at ran
    -- The stack holds the tree's value alone, and its head is that value.
    cases evaluated : e.eval c value with
    | error f =>
      rw [evaluated] at ran
      cases ran
    | ok v =>
      rw [evaluated, Except.map, Except.ok.injEq] at ran
      subst ran
      rfl
  · -- The loop's fault is the tree's.
    rename_i f ran
    rw [runTasks_single] at ran
    cases evaluated : e.eval c value with
    | error g =>
      rw [evaluated, Except.map, Except.error.injEq] at ran
      rw [ran]
    | ok v =>
      rw [evaluated] at ran
      cases ran

end Expr

end Calculator
