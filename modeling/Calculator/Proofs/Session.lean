import Calculator.Proofs.Outcome

/-! An evaluator used for call after call, each starting from the state the one before left. An
evaluation empties the machine before it reads, so what it gives does not depend on the calls
before it. The count of open parentheses runs ahead of the open marks by one for each parenthesis
refused since the machine was last emptied, and the marks never exceed the limit. -/

namespace Calculator

namespace Fault

/-- How many parentheses an outcome refused as nested too deep: one for that fault, none for any
other fault or for no fault. -/
def refusals : Option Fault → Nat
  | some (.tooDeep _ _) => 1
  | _ => 0

/-- The fault an outcome raised, if it raised one. -/
def raisedBy {α : Type} : Except Fault α → Option Fault
  | .error f => some f
  | .ok _ => none

end Fault

namespace Machine

/-- The open marks on the pending stack. -/
def marks (m : Machine) : Nat := m.pending.count .openParen

/-- How far the count of open parentheses runs ahead of the open marks. -/
def drift (m : Machine) : Nat := m.depth - m.marks

/-- The open marks are counted, and there are no more of them than the limit. -/
structure Nested (limit : Nat) (m : Machine) : Prop where
  counted : m.marks ≤ m.depth
  bounded : m.marks ≤ limit

/-- Nothing is open before anything is read. -/
theorem nested_empty (limit : Nat) : empty.Nested limit where
  counted := by simp [marks, empty]
  bounded := by simp [marks, empty]

@[simp] theorem drift_empty : empty.drift = 0 := rfl

/-- Reducing takes off operations only: it keeps the open marks and the count of open
parentheses, and its only fault, an operation short of operands, refuses no parenthesis. -/
theorem reduce_nesting (least : Nat) (m : Machine) :
    (m.reduce least).1.marks = m.marks ∧ (m.reduce least).1.depth = m.depth ∧
      Fault.refusals (m.reduce least).2 = 0 := by
  refine ⟨?_, reduce_depth least m, ?_⟩
  · -- A mark stops the reduction, so only operations are taken off.
    fun_induction reduce least m <;> simp_all [marks]
  · -- A missing operand is the one fault, and it is no refusal.
    cases fault : (m.reduce least).2 with
    | none => rfl
    | some f =>
      obtain ⟨op, rfl⟩ := reduce_fault fault
      rfl

/-- A reduction that ends well leaves on top no operation that binds at least as tightly as
asked. -/
theorem reduce_open {least : Nat} {m m' : Machine} (reduced : m.reduce least = (m', none)) :
    m'.Open least := by
  fun_induction reduce least m with
  | case1 operands op rest name depth looser =>
    -- The reduction stopped at once under an operation that binds looser.
    simp only [Prod.mk.injEq] at reduced
    rw [← reduced.1]
    intro top isTop
    simp_all
  -- After a join the reduction goes on, and its end is open by induction.
  | case2 operands op rest name depth tight r l more ih => exact ih reduced
  -- A missing operand faults, which this reduction did not.
  | case3 => simp at reduced
  | case4 m notOperation =>
    -- No operation is on top at all.
    simp only [Prod.mk.injEq] at reduced
    rw [← reduced.1]
    intro op isTop
    rcases m with ⟨operands, _ | ⟨top, rest⟩, name, depth⟩
    · simp at isTop
    · simp only [List.head?_cons, Option.some.injEq] at isTop
      exact absurd (isTop ▸ rfl) (notOperation operands op rest name depth)

/-- What one token does to the open marks and the count of open parentheses: an open parenthesis
within the limit raises both, one past the limit raises the count alone and is refused, a closing
parenthesis that finds its mark lowers both, and every other step keeps both. -/
theorem step_nesting (limit position : Nat) (m : Machine) (token : Token) :
    let next := m.step limit position token
    (next.1.marks = m.marks ∧ next.1.depth = m.depth ∧ Fault.refusals next.2 = 0) ∨
    (next.1.marks = m.marks + 1 ∧ next.1.depth = m.depth + 1 ∧ m.depth + 1 ≤ limit ∧
      Fault.refusals next.2 = 0) ∨
    (next.1.marks = m.marks ∧ next.1.depth = m.depth + 1 ∧ Fault.refusals next.2 = 1) ∨
    (next.1.marks + 1 = m.marks ∧ next.1.depth = m.depth - 1 ∧ Fault.refusals next.2 = 0) := by
  cases token with
  -- Operands and strays touch neither the marks nor the count.
  | literal text =>
    simp only [step, pushLiteral]
    split <;> simp [marks, Fault.refusals]
  | name text =>
    simp only [step, pushName]
    split
    · simp [marks, Fault.refusals]
    · split <;> simp [marks, Fault.refusals]
  | operation op =>
    -- The reduction keeps both, and the operation pushed is no mark.
    simp only [step]
    obtain ⟨keptMarks, keptDepth, noRefusal⟩ := reduce_nesting op.precedence m
    split
    · rename_i state f reduced
      rw [reduced] at keptMarks keptDepth noRefusal
      exact .inl ⟨keptMarks, keptDepth, noRefusal⟩
    · rename_i state reduced
      rw [reduced] at keptMarks keptDepth
      refine .inl ⟨?_, keptDepth, rfl⟩
      simpa [marks] using keptMarks
  | openParen =>
    simp only [step, openParen]
    -- Refused, it raises the count alone; within the limit it raises both.
    split
    · simp [marks, Fault.refusals]
    · rename_i within
      simp [marks, Fault.refusals]
      omega
  | closeParen =>
    simp only [step, closeParen]
    obtain ⟨keptMarks, keptDepth, noRefusal⟩ := reduce_nesting 0 m
    split
    · rename_i state f reduced
      rw [reduced] at keptMarks keptDepth noRefusal
      exact .inl ⟨keptMarks, keptDepth, noRefusal⟩
    · rename_i state reduced
      rw [reduced] at keptMarks keptDepth
      simp only at keptMarks keptDepth
      -- What the reduction left on top is no operation, so a closing parenthesis takes a mark.
      have onTop := reduce_open reduced
      split
      · exact .inl ⟨keptMarks, keptDepth, rfl⟩
      · rename_i top rest stacked
        have mark : top = .openParen := by
          cases top with
          | openParen => rfl
          | operation op =>
            have looser := onTop op (by simp [stacked])
            omega
        subst mark
        refine .inr (.inr (.inr ⟨?_, by simp [keptDepth], rfl⟩))
        simp [marks, stacked] at keptMarks ⊢
        omega
  | stray c => simp [step, Fault.refusals]

/-- One token keeps the marks counted and within the limit, and moves the count ahead of them by
the parentheses it refused. -/
theorem Nested.step {limit : Nat} {m : Machine} (nested : m.Nested limit) (position : Nat)
    (token : Token) :
    (m.step limit position token).1.Nested limit ∧
      (m.step limit position token).1.drift =
        m.drift + Fault.refusals (m.step limit position token).2 := by
  obtain ⟨counted, bounded⟩ := nested
  simp only [drift]
  -- A mark is added only within the limit, and taken only where the count has one to lose.
  rcases step_nesting limit position m token with
    ⟨markEq, depthEq, refusedEq⟩ | ⟨markEq, depthEq, room, refusedEq⟩ |
      ⟨markEq, depthEq, refusedEq⟩ | ⟨markEq, depthEq, refusedEq⟩ <;>
  exact ⟨⟨by omega, by omega⟩, by omega⟩

/-- A run keeps the marks counted and within the limit, and moves the count ahead of them by the
parentheses refused: at most one, by the token that stopped it. -/
theorem Nested.run {limit : Nat} {m : Machine} (nested : m.Nested limit)
    (tokens : List (Nat × Token)) :
    (m.run limit tokens).1.Nested limit ∧
      (m.run limit tokens).1.drift = m.drift + Fault.refusals (m.run limit tokens).2 := by
  -- The step lemma carries the invariant and the drift over each token.
  induction tokens generalizing m with
  | nil => exact ⟨nested, rfl⟩
  | cons entry rest ih =>
    rcases entry with ⟨position, token⟩
    obtain ⟨nestedNext, driftNext⟩ := nested.step position token
    simp only [Machine.run]
    -- A token read without a fault hands its state on; one with a fault ends the run there.
    split
    · rename_i next stepped
      rw [stepped] at nestedNext driftNext
      obtain ⟨nestedAfter, driftAfter⟩ := ih nestedNext
      exact ⟨nestedAfter, by rw [driftAfter, driftNext]; rfl⟩
    · rename_i next f stepped
      rw [stepped] at nestedNext driftNext
      exact ⟨nestedNext, driftNext⟩

/-- Ending a reading keeps the open marks and the count of open parentheses, and refuses none. -/
theorem finish_nesting (m : Machine) :
    m.finish.1.marks = m.marks ∧ m.finish.1.depth = m.depth ∧
      Fault.refusals (Fault.raisedBy m.finish.2) = 0 := by
  obtain ⟨keptMarks, keptDepth, noRefusal⟩ := reduce_nesting 0 m
  unfold finish
  -- The last reduction, a parenthesis left open, or other than one operand left.
  split
  · rename_i state f reduced
    rw [reduced] at keptMarks keptDepth noRefusal
    exact ⟨keptMarks, keptDepth, noRefusal⟩
  · -- The checks after the reduction touch neither the marks nor the count.
    rename_i state reduced
    rw [reduced] at keptMarks keptDepth
    split
    · exact ⟨keptMarks, keptDepth, rfl⟩
    · split
      · exact ⟨keptMarks, keptDepth, rfl⟩
      · exact ⟨keptMarks, keptDepth, rfl⟩

/-- Reading a text keeps the marks counted and within the limit, and moves the count ahead of them
by the parentheses it refused: one if it stopped at a parenthesis too deep, none otherwise. -/
theorem Nested.parse {limit : Nat} {m : Machine} (nested : m.Nested limit) (s : String) :
    (m.parse limit s).1.Nested limit ∧
      (m.parse limit s).1.drift =
        m.drift + Fault.refusals (Fault.raisedBy (m.parse limit s).2) := by
  obtain ⟨nestedRun, driftRun⟩ := nested.run (Token.ofString s)
  unfold Machine.parse
  -- A faulted run is where the reading stops; otherwise the ending keeps what the run left.
  split
  · rename_i state f ran
    rw [ran] at nestedRun driftRun
    exact ⟨nestedRun, driftRun⟩
  · rename_i state ran
    rw [ran] at nestedRun driftRun
    obtain ⟨keptMarks, keptDepth, noRefusal⟩ := finish_nesting state
    refine ⟨⟨?_, ?_⟩, ?_⟩
    · rw [keptMarks, keptDepth]
      exact nestedRun.counted
    · rw [keptMarks]
      exact nestedRun.bounded
    · rw [noRefusal, drift, keptMarks, keptDepth]
      exact driftRun

end Machine

namespace Evaluator

/-- A call made on an evaluator: an evaluation of an expression with a value for its variable, or
a reading of a text that goes on from whatever the machine holds. -/
inductive Call where
  | evaluate (expr : Option String) (value : Value)
  | parse (text : String)

/-- Whether a call empties the machine before it reads: an evaluation of a text that is not
blank. -/
def Call.resets : Call → Bool
  | .evaluate (some s) _ => !isBlankExpr s
  | _ => false

/-- Makes one call: the evaluator afterwards, and the fault the call raised, if any. -/
def call (ev : Evaluator) : Call → Evaluator × Option Fault
  | .evaluate expr value =>
    ((ev.evaluate expr value).1, Fault.raisedBy (ev.evaluate expr value).2)
  | .parse text => ((ev.parse text).1, Fault.raisedBy (ev.parse text).2)

/-- The evaluator after a history of calls, each made on what the one before left. -/
def replay (ev : Evaluator) : List Call → Evaluator
  | [] => ev
  | c :: rest => (ev.call c).1.replay rest

/-- Computing a tree refuses no parenthesis: it fails only on a zero divisor, an overflow or a
missing value. -/
theorem refusals_evalLoop (c : Context) (value : Option Decimal) (e : Expr) :
    Fault.refusals (Fault.raisedBy (e.evalLoop c value)) = 0 := by
  -- The loop's faults are the recursion's, none of which is a refusal.
  rw [Expr.evalLoop_eq_eval]
  cases computed : e.eval c value with
  | ok d => rfl
  | error f =>
    rcases Expr.eval_error computed with rfl | rfl | ⟨_, name, _, rfl⟩ <;> rfl

/-- An absent or blank expression is zero and leaves the evaluator as it was. -/
theorem evaluate_without_reset {ev : Evaluator} {expr : Option String} (value : Value)
    (kept : (Call.evaluate expr value).resets = false) :
    ev.evaluate expr value = (ev, .ok Decimal.zero) := by
  -- Only a blank text is left, and the evaluation answers it before touching the machine.
  cases expr with
  | none => rfl
  | some s =>
    simp only [Call.resets, Bool.not_eq_false'] at kept
    simp [evaluate, kept]

/-- An evaluation of a text that is not blank leaves the machine that reading the text from
nothing leaves, and refuses a parenthesis only where that reading does. -/
theorem evaluate_reads (ev : Evaluator) (value : Value) {s : String}
    (notBlank : isBlankExpr s = false) :
    (ev.evaluate (some s) value).1 = { ev with machine := (Machine.empty.parse ev.maxDepth s).1 } ∧
      Fault.refusals (Fault.raisedBy (ev.evaluate (some s) value).2) =
        Fault.refusals (Fault.raisedBy (Machine.empty.parse ev.maxDepth s).2) := by
  refine ⟨by simp [evaluate, notBlank, parse], ?_⟩
  simp only [evaluate, notBlank, Bool.false_eq_true, if_false, parse]
  -- A tree that was read is computed, with or without the converted value.
  cases (Machine.empty.parse ev.maxDepth s).2 with
  | error f => rfl
  | ok root =>
    simp only [Except.bind]
    split
    · exact refusals_evalLoop _ _ root
    · cases converted : value.toDecimal with
      | error f =>
        -- A value that is no finite number is refused as such.
        obtain ⟨shown, rfl⟩ := Value.toDecimal_error converted
        rfl
      | ok v => exact refusals_evalLoop _ _ root

/-- A call keeps the settings of the evaluator. -/
theorem call_settings (ev : Evaluator) (c : Call) :
    (ev.call c).1.precision = ev.precision ∧ (ev.call c).1.maxDepth = ev.maxDepth := by
  cases c with
  | evaluate expr value =>
    cases expr with
    | none => exact ⟨rfl, rfl⟩
    | some s =>
      -- A blank text leaves the evaluator as it is; any other only replaces its machine.
      by_cases blank : isBlankExpr s
      · simp [call, evaluate, blank]
      · simp [call, evaluate, blank, parse]
  | parse text => exact ⟨rfl, rfl⟩

/-- Any history of calls keeps the settings of the evaluator. -/
theorem replay_settings (ev : Evaluator) (calls : List Call) :
    (ev.replay calls).precision = ev.precision ∧ (ev.replay calls).maxDepth = ev.maxDepth := by
  -- Each call keeps the settings, and the rest of the history starts from its result.
  induction calls generalizing ev with
  | nil => exact ⟨rfl, rfl⟩
  | cons c rest ih =>
    obtain ⟨precisionKept, depthKept⟩ := ih (ev.call c).1
    obtain ⟨precisionCall, depthCall⟩ := call_settings ev c
    exact ⟨precisionKept.trans precisionCall, depthKept.trans depthCall⟩

/-- One call keeps the marks counted and within the nesting limit, and sets how far the count runs
ahead of them: from zero again when the call empties the machine, plus one when it refused a
parenthesis as too deep. -/
theorem nested_call {ev : Evaluator} (nested : ev.machine.Nested ev.maxDepth) (c : Call) :
    (ev.call c).1.machine.Nested ev.maxDepth ∧
      (ev.call c).1.machine.drift =
        (if c.resets then 0 else ev.machine.drift) + Fault.refusals (ev.call c).2 := by
  cases c with
  | parse text =>
    -- Reading goes on from the machine as it is.
    exact nested.parse text
  | evaluate expr value =>
    cases resets : (Call.evaluate expr value).resets with
    | false =>
      -- A blank problem changes nothing.
      simp only [call, evaluate_without_reset value resets, Bool.false_eq_true, if_false]
      exact ⟨nested, rfl⟩
    | true =>
      -- The machine is emptied, and the text is read from nothing.
      obtain ⟨s, rfl, notBlank⟩ : ∃ s, expr = some s ∧ isBlankExpr s = false := by
        cases expr with
        | none => cases resets
        | some s => exact ⟨s, rfl, by simpa [Call.resets] using resets⟩
      obtain ⟨machineEq, refusedEq⟩ := evaluate_reads ev value notBlank
      have fresh := (Machine.nested_empty ev.maxDepth).parse s
      rw [Machine.drift_empty, Nat.zero_add] at fresh
      simp only [call, machineEq, refusedEq, if_true, Nat.zero_add]
      exact fresh

/-- Every history of calls keeps the marks counted and within the nesting limit. -/
theorem nested_replay {ev : Evaluator} (nested : ev.machine.Nested ev.maxDepth)
    (calls : List Call) :
    (ev.replay calls).machine.Nested ev.maxDepth := by
  induction calls generalizing ev with
  | nil => exact nested
  | cons c rest ih =>
    -- The call keeps the invariant under its limit, which it does not change.
    have next := (nested_call nested c).1
    rw [← (call_settings ev c).2] at next ⊢
    exact ih next

/-- In every state an evaluator reaches from its making, by calls that each returned or raised, the
open marks on the pending stack are counted and number at most the nesting limit. The count of open
parentheses runs ahead of the marks: a call that empties the machine starts it from zero, and each
parenthesis refused as too deep adds one. -/
theorem open_count_after_history (precision maxDepth : Nat) (calls : List Call) (c : Call) :
    let ev := ({ precision, maxDepth } : Evaluator).replay calls
    ev.machine.marks ≤ maxDepth ∧ ev.machine.marks ≤ ev.machine.depth ∧
      (ev.call c).1.machine.drift =
        (if c.resets then 0 else ev.machine.drift) + Fault.refusals (ev.call c).2 := by
  intro ev
  -- A new evaluator starts from the empty machine, where the invariant holds.
  have start : ({ precision, maxDepth } : Evaluator).machine.Nested
      ({ precision, maxDepth } : Evaluator).maxDepth :=
    Machine.nested_empty maxDepth
  have reached := nested_replay start calls
  refine ⟨reached.bounded, reached.counted, ?_⟩
  -- The history kept the limit, so the next call is made under the same one.
  have limit : ev.maxDepth = maxDepth := (replay_settings { precision, maxDepth } calls).2
  have underLimit : ev.machine.Nested ev.maxDepth := by
    rw [limit]
    exact reached
  exact (nested_call underLimit c).2

/-- At a nesting limit of one, reading `((` refuses the second parenthesis after counting it: the
count of open parentheses is two over a single open mark. -/
theorem refused_parenthesis_counted :
    let ev := ({ precision := 50, maxDepth := 1 } : Evaluator).replay [.parse "(("]
    ev.machine.depth = 2 ∧ ev.machine.marks = 1 := by
  -- The reading of two characters is computed in full.
  decide +kernel

/-- An evaluation does not read the machine it finds: from any state it gives what it gives from
an empty one. -/
theorem evaluate_any_machine (ev : Evaluator) (m : Machine) (expr : Option String)
    (value : Value) :
    ({ ev with machine := m }.evaluate expr value).2 = (ev.evaluate expr value).2 := by
  cases expr with
  | none => rfl
  | some s =>
    -- A blank text is zero, and any other is read from the empty machine.
    by_cases blank : isBlankExpr s
    · simp [evaluate, blank]
    · simp [evaluate, blank]

/-- A history of calls changes only the machine, which an evaluation does not read: after any
history, an evaluator evaluates every expression as it did before it. -/
theorem evaluate_replay (ev : Evaluator) (calls : List Call) (expr : Option String)
    (value : Value) : ((ev.replay calls).evaluate expr value).2 = (ev.evaluate expr value).2 := by
  -- After the history the evaluator has the same settings, and some machine.
  obtain ⟨precisionKept, depthKept⟩ := replay_settings ev calls
  generalize ev.replay calls = after at precisionKept depthKept ⊢
  obtain ⟨precision, maxDepth, m⟩ := after
  simp only at precisionKept depthKept
  subst precisionKept depthKept
  exact evaluate_any_machine ev m expr value

/-- An evaluator reused after any history of calls, whatever each returned, raised or left on the
stacks, evaluates every expression as a freshly made evaluator with the same settings does; with
precision 50 and nesting limit 256, as the default evaluator does. -/
theorem evaluate_after_history :
    (∀ (precision maxDepth : Nat) (calls : List Call) (expr : Option String) (value : Value),
      ((({ precision, maxDepth } : Evaluator).replay calls).evaluate expr value).2 =
        (({ precision, maxDepth } : Evaluator).evaluate expr value).2) ∧
    ∀ (calls : List Call) (expr : Option String) (value : Value),
      ((({ precision := 50, maxDepth := 256 } : Evaluator).replay calls).evaluate expr value).2 =
        (withDefaults.evaluate expr value).2 :=
  -- The defaults are precision 50 and limit 256, so the second part is the first at them.
  ⟨fun _ _ calls expr value => evaluate_replay _ calls expr value,
    fun calls expr value => evaluate_replay _ calls expr value⟩

end Evaluator

end Calculator
