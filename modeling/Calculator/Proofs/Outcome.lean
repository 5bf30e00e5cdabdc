import Calculator.Proofs.Blank
import Calculator.Proofs.Exactness

/-! What evaluating an expression text gives: a blank text is zero; any other is read by a fresh
machine, and its tree is computed by the recursion on the tree, with the value converted only
when the tree names the variable. -/

namespace Calculator

/-- A value is refused only as a value that is not a finite number. -/
theorem Value.toDecimal_error {value : Value} {f : Fault} (failed : value.toDecimal = .error f) :
    ∃ shown, f = .badValue shown := by
  unfold Value.toDecimal at failed
  -- Each refusal names the value as shown; the finite cases give a result.
  split at failed
  · cases failed
  · cases failed
    exact ⟨_, rfl⟩
  · split at failed
    · cases failed
    · cases failed
      exact ⟨_, rfl⟩
    · cases failed
      exact ⟨_, rfl⟩

namespace Evaluator

variable (ev : Evaluator) {s : String} (value : Value)

/-- A text that is not blank and that the fresh machine cannot read fails with the reading's
fault. -/
theorem evaluate_unread (notBlank : isBlankExpr s = false) {m : Machine} {f : Fault}
    (parsed : Machine.empty.parse ev.maxDepth s = (m, .error f)) :
    (ev.evaluate (some s) value).2 = .error f := by
  -- Past the blank test the text is read, and the reading's fault ends the evaluation.
  simp only [evaluate, notBlank, Bool.false_eq_true, if_false, parse]
  simp [parsed, Except.bind]

/-- A text that is not blank and is read into a tree gives what the recursion on the tree gives:
with no value when the tree names no variable, and otherwise with the converted value. -/
theorem evaluate_read (notBlank : isBlankExpr s = false) {m : Machine} {root : Expr}
    (parsed : Machine.empty.parse ev.maxDepth s = (m, .ok root)) :
    (ev.evaluate (some s) value).2 =
      if root.names = [] then root.eval ev.context none
      else value.toDecimal.bind fun v => root.eval ev.context (some v) := by
  -- The machine registers a variable exactly when the tree names one.
  have registers := (Machine.parse_registers parsed).2
  simp only [evaluate, notBlank, Bool.false_eq_true, if_false, parse]
  simp only [parsed, Except.bind]
  -- The value is converted only when a variable was registered.
  cases named : m.variableName with
  | none =>
    have unnamed : root.names = [] := registers.mp named
    simp [unnamed, Expr.evalLoop_eq_eval, context]
  | some name =>
    have nonempty : root.names ≠ [] := fun unnamed => by
      simp [registers.mpr unnamed] at named
    simp [nonempty, Expr.evalLoop_eq_eval, context]

/-- The loop with explicit stacks computes, for every tree, what the recursion on the tree
computes: the same number, or the fault of the first failing node in left-to-right post-order.
So a text evaluates to zero when blank, and otherwise to the reading's fault, or to the
conversion's fault when its tree names the variable, or to the recursion's outcome on its tree. -/
theorem evaluate_as_recursion :
    (∀ (c : Context) (value : Option Decimal) (t : Expr), t.evalLoop c value = t.eval c value) ∧
    ∀ (ev : Evaluator) (s : String) (value : Value),
      (ev.evaluate (some s) value).2 =
        if isBlankExpr s then .ok Decimal.zero
        else match ({ ev with machine := Machine.empty }.parse s).2 with
          | .error f => .error f
          | .ok t =>
            if t.names = [] then t.eval ev.context none
            else value.toDecimal.bind fun v => t.eval ev.context (some v) := by
  refine ⟨Expr.evalLoop_eq_eval, ?_⟩
  intro ev s value
  -- A blank text is zero without being read.
  cases blank : isBlankExpr s with
  | true => simp [evaluate, blank]
  | false =>
    -- The outcome follows how the fresh machine's reading ended.
    rcases parsed : Machine.empty.parse ev.maxDepth s with ⟨m, f | root⟩
    · simp [parse, parsed, evaluate_unread ev value blank parsed]
    · simp [parse, parsed, evaluate_read ev value blank parsed]

/-- Evaluation never stops for want of a value: a tree that names the variable is computed only
with the converted value. Every fault an operation reports is its own, a zero divisor caught
before the decimal division or a real overflow, and the loop ends with exactly the one result of
the tree on its stack. -/
theorem evaluate_reports_own_faults :
    (∀ (ev : Evaluator) (expr : Option String) (value : Value) (name : String),
      (ev.evaluate expr value).2 ≠ .error (.noValue name)) ∧
    (∀ (c : Context) (op : Operation) (a b : Decimal) (f : Fault),
      op.apply c a b = .error f ↔
        (f = .divisionByZero ∧ op = .div ∧ b.isZero) ∨
        (f = .overflow ∧ ¬(op = .div ∧ b.isZero) ∧ op.perform c a b = .error .overflow)) ∧
    (∀ (c : Context) (value : Option Decimal) (t : Expr),
      Expr.runTasks c value [.visit t] [] (Expr.Task.fits_visit t) =
        (t.eval c value).map fun v => [v]) := by
  refine ⟨?_, Operation.apply_error_iff, Expr.runTasks_single⟩
  intro ev expr value name failed
  -- Follow the evaluation: no problem, a blank one, a reading fault, or a computed tree.
  cases expr with
  | none => cases failed
  | some s =>
    cases blank : isBlankExpr s with
    | true => simp [evaluate, blank] at failed
    | false =>
      rcases parsed : Machine.empty.parse ev.maxDepth s with ⟨m, f | root⟩
      · -- A fault of the reading is one of the reading's own kinds.
        rw [evaluate_unread ev value blank parsed] at failed
        have reading : f.IsReading := Machine.parse_fault (by rw [parsed])
        cases failed
        exact reading
      · rw [evaluate_read ev value blank parsed] at failed
        split at failed
        · -- A tree without variable leaves never asks for the value.
          rename_i unnamed
          rcases Expr.eval_error failed with zero | overflow | ⟨_, leaf, named, _⟩
          · cases zero
          · cases overflow
          · simp [unnamed] at named
        · -- The value is converted first, and then the tree is computed with it.
          cases converted : value.toDecimal with
          | error g =>
            -- A refused value is reported as a bad value, not as a missing one.
            rw [converted] at failed
            obtain ⟨shown, refused⟩ := Value.toDecimal_error converted
            cases failed
            cases refused
          | ok v =>
            -- With the value given, no leaf can be missing one.
            rw [converted] at failed
            rcases Expr.eval_error failed with zero | overflow | ⟨given, _⟩
            · cases zero
            · cases overflow
            · cases given

/-- A text that a fresh machine reads into a tree, with a finite decimal for its variable,
evaluates to the exact value of the tree, whenever no divisor in the tree is zero and the
evaluator's context holds the exact value of every operation: at most `precision` significant
digits and, unless zero, a leading digit between -999999 and 999999. -/
theorem evaluate_exact (ev : Evaluator) (s : String) (t : Expr) (v : Decimal)
    (accepted : ({ ev with machine := Machine.empty }.parse s).2 = .ok t)
    (exact : t.Exact (Context.ofPrecision ev.precision) v.toRat) :
    ∃ d, (ev.evaluate (some s) (.decimal (.finite v))).2 = .ok d ∧ d.toRat = t.exact v.toRat := by
  simp only [parse] at accepted
  -- A text that is read is not blank, so it is evaluated through its tree.
  have notBlank : isBlankExpr s = false := by
    cases blank : isBlankExpr s with
    | false => rfl
    | true => exact absurd accepted (Machine.parse_blank ev.maxDepth blank t)
  rcases parsed : Machine.empty.parse ev.maxDepth s with ⟨m, result⟩
  rw [parsed] at accepted
  cases accepted
  rw [evaluate_read ev _ notBlank parsed]
  -- A finite decimal converts to itself, so both branches compute the tree at `v`.
  split
  · -- Without variable leaves the tree is computed with no value, to the same result.
    rename_i unnamed
    rw [Expr.eval_of_names_nil _ none (some v) t unnamed]
    exact Expr.eval_exact _ v t exact
  · exact Expr.eval_exact _ v t exact

/-- One divided by four evaluates with the default settings to exactly a quarter. -/
theorem evaluate_quarter :
    ∃ d, (withDefaults.evaluate (some "1/4") (.decimal (.finite Decimal.zero))).2 = .ok d ∧
      d.toRat = 1 / 4 := by
  -- A quarter is 25 hundredths, with its leading digit at the tenths.
  have quarter : (Context.ofPrecision withDefaults.precision).Holds (1 / 4) := by
    have leading : Int.log 10 |(1 / 4 : ℚ)| = -1 := Decimal.log_ten_eq (by norm_num) (by norm_num)
    refine ⟨⟨25, -2, by norm_num, by decide⟩, fun _ => ?_⟩
    rw [leading]
    decide
  -- The text reads as one divided by four, and both operands and the quotient fit the context.
  obtain ⟨d, result, value⟩ := evaluate_exact withDefaults "1/4"
    (.bin .div (.num ⟨false, 1, 0⟩) (.num ⟨false, 4, 0⟩)) Decimal.zero (by decide +kernel)
    ⟨trivial, trivial, fun _ => by simp [Expr.exact, Decimal.toRat],
      by simpa [Operation.exact, Expr.exact, Decimal.toRat] using quarter⟩
  refine ⟨d, result, ?_⟩
  rw [value]
  simp [Operation.exact, Expr.exact, Decimal.toRat]

end Evaluator

end Calculator
