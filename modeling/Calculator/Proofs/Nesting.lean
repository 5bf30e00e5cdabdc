import Calculator.Proofs.Accounting

/-! The nesting limit. An evaluation refuses a text as nested too deep exactly when, with nothing
refused before it, it reaches an open parenthesis that makes more parentheses open at once than
the limit allows, counted off the text itself. The limit is read at open parentheses only, so an
evaluation that refuses nothing under one limit gives the same outcome under every higher one. -/

namespace Calculator

namespace Machine

/-! ### A higher limit -/

/-- A step that refuses no parenthesis under one limit does the same under any higher limit: the
limit is read at an open parenthesis only, and there it was not reached. -/
theorem step_deeper {limit deeper position : Nat} {m : Machine} {token : Token}
    (le : limit ≤ deeper) (kept : Fault.refusals (m.step limit position token).2 = 0) :
    m.step deeper position token = m.step limit position token := by
  cases token with
  | openParen =>
    simp only [step, openParen] at kept ⊢
    -- The parenthesis was within the lower limit, so it is within the higher one.
    split at kept
    · simp [Fault.refusals] at kept
    · rename_i within
      rw [if_neg within, if_neg (by omega)]
  -- No other token reads the limit.
  | _ => rfl

/-- A run that refuses no parenthesis under one limit does the same under any higher limit. -/
theorem run_deeper {limit deeper : Nat} {m : Machine} {tokens : List (Nat × Token)}
    (le : limit ≤ deeper) (kept : Fault.refusals (m.run limit tokens).2 = 0) :
    m.run deeper tokens = m.run limit tokens := by
  -- The step lemma token by token, as long as the run goes on.
  induction tokens generalizing m with
  | nil => rfl
  | cons entry rest ih =>
    rcases entry with ⟨position, token⟩
    simp only [run] at kept ⊢
    -- The first step refuses nothing either: a refusal there would have ended the run.
    cases stepped : m.step limit position token with
    | mk next fault =>
      rw [stepped] at kept
      cases fault with
      | none =>
        rw [step_deeper le (by simp [stepped, Fault.refusals]), stepped]
        exact ih kept
      | some f => rw [step_deeper le (by simpa [stepped] using kept), stepped]

/-- Reading a text that refuses no parenthesis under one limit does the same under any higher
limit: the ending does not read the limit at all. -/
theorem parse_deeper {limit deeper : Nat} {m : Machine} {s : String} (le : limit ≤ deeper)
    (kept : Fault.refusals (Fault.raisedBy (m.parse limit s).2) = 0) :
    m.parse deeper s = m.parse limit s := by
  unfold Machine.parse at kept ⊢
  -- The run reads the same under both limits, and the ending is the same function of its state.
  cases ran : m.run limit (Token.ofString s) with
  | mk next fault =>
    rw [ran] at kept
    cases fault with
    | none => rw [run_deeper le (by simp [ran, Fault.refusals]), ran]
    | some f => rw [run_deeper le (by simpa [ran, Fault.raisedBy] using kept), ran]

/-! ### The parenthesis refused -/

/-- A step refuses a parenthesis as nested too deep exactly when it reads an open parenthesis
that the open ones already counted leave no room for; the fault names the limit and the
parenthesis's position. -/
theorem step_tooDeep {limit position l p : Nat} {m : Machine} {token : Token} :
    (m.step limit position token).2 = some (.tooDeep l p) ↔
      token = .openParen ∧ l = limit ∧ p = position ∧ limit < m.depth + 1 := by
  cases token with
  -- Operands fault only as a bad literal or a second variable.
  | literal text =>
    simp only [step, pushLiteral]
    split <;> simp
  | name x =>
    simp only [step, pushName]
    split
    · simp
    · split <;> simp
  | operation op =>
    -- The only fault of a reduction is an operation short of operands.
    simp only [step]
    split
    · rename_i state f reduced
      obtain ⟨missing, rfl⟩ := reduce_fault (by rw [reduced])
      simp
    · simp
  | openParen =>
    simp only [step, openParen]
    -- The refusal is this branch: the raised count passes the limit.
    split
    · rename_i full
      simp [full]
      omega
    · rename_i within
      simp [within]
  | closeParen =>
    -- A closing parenthesis faults in its reduction or for want of a mark.
    simp only [step, closeParen]
    split
    · rename_i state f reduced
      obtain ⟨missing, rfl⟩ := reduce_fault (by rw [reduced])
      simp
    · split <;> simp
  | stray c => simp [step]

/-- A run that faults read every token before the one that faulted without a fault. -/
theorem run_stops {limit : Nat} {m : Machine} {tokens : List (Nat × Token)} {f : Fault}
    (stopped : (m.run limit tokens).2 = some f) :
    ∃ pre position token rest, tokens = pre ++ (position, token) :: rest ∧
      (m.run limit pre).2 = none ∧
      ((m.run limit pre).1.step limit position token).2 = some f := by
  -- Induction on the tokens: the fault is at the first one, or further on.
  induction tokens generalizing m with
  | nil => simp [run] at stopped
  | cons entry rest ih =>
    rcases entry with ⟨position, token⟩
    cases stepped : m.step limit position token with
    | mk next fault =>
      cases fault with
      | none =>
        -- The first token is read; the fault comes later in the run from the next state.
        obtain ⟨pre, q, t, more, rfl, clean, faulted⟩ :=
          ih (by simpa [run, stepped] using stopped)
        exact ⟨(position, token) :: pre, q, t, more, rfl, by simpa [run, stepped] using clean,
          by simpa [run, stepped] using faulted⟩
      | some g =>
        -- The first token faulted.
        exact ⟨[], position, token, rest, rfl, rfl, by simpa [run, stepped] using stopped⟩

/-- A run refuses a parenthesis as nested too deep exactly when, having read the tokens before it
without a fault, it reaches an open parenthesis that the open ones counted leave no room for. -/
theorem run_tooDeep {limit l p : Nat} {m : Machine} {tokens : List (Nat × Token)} :
    (m.run limit tokens).2 = some (.tooDeep l p) ↔
      l = limit ∧ ∃ pre rest, tokens = pre ++ (p, .openParen) :: rest ∧
        (m.run limit pre).2 = none ∧ limit < (m.run limit pre).1.depth + 1 := by
  constructor
  · -- The refused token is the step that stopped the run, and only a parenthesis is refused.
    intro refused
    obtain ⟨pre, position, token, rest, rfl, clean, stepped⟩ := run_stops refused
    obtain ⟨rfl, rfl, rfl, full⟩ := step_tooDeep.mp stepped
    exact ⟨rfl, pre, rest, rfl, clean, full⟩
  · rintro ⟨rfl, pre, rest, rfl, clean, full⟩
    -- The tokens before are read cleanly, and the parenthesis is refused.
    have refused : ((m.run l pre).1.step l p .openParen).2 = some (.tooDeep l p) :=
      step_tooDeep.mpr ⟨rfl, rfl, rfl, full⟩
    rw [run_append]
    rcases ran : m.run l pre with ⟨mid, _ | f⟩
    · rw [ran] at refused
      simp only [run]
      rcases stepped : mid.step l p .openParen with ⟨next, _ | g⟩
      · simp [stepped] at refused
      · simpa [stepped] using refused
    · simp [ran] at clean

/-! ### Open parentheses in the text -/

/-- A run from nothing that reads its tokens without a fault counts as open exactly the marks it
left: the count runs ahead of the marks only at a refusal. -/
theorem run_depth_marks {limit : Nat} {tokens : List (Nat × Token)} {m : Machine}
    (ran : empty.run limit tokens = (m, none)) : m.depth = m.marks := by
  -- The count drifts from the marks by the refusals, and a clean run has none.
  obtain ⟨⟨counted, -⟩, drifted⟩ := (nested_empty limit).run tokens
  simp only [ran, Fault.refusals, drift_empty, Nat.zero_add] at counted drifted
  simp only [drift] at drifted
  omega

/-- Reading the tokens before a position without a fault leaves as many parentheses counted open
as the text before that position opens and does not close. -/
theorem depth_before {limit q : Nat} {s : String} {t : Token} {pre rest : List (Nat × Token)}
    {m : Machine} (scanned : Token.ofString s = pre ++ (q, t) :: rest)
    (ran : empty.run limit pre = (m, none)) :
    m.depth + (s.toList.take q).count ')' = (s.toList.take q).count '(' := by
  have counted := run_depth_marks ran
  -- The marks are the parentheses the tokens before opened and did not close.
  have marked := (bracketed_empty.run ran).marked
  rw [List.nil_append] at marked
  -- The parentheses of the text before the position are those of the tokens before it.
  rw [← Token.count_parens ')' rfl, ← Token.count_parens '(' rfl,
    Token.parens_before s.toList scanned]
  omega

/-- Running over the tokens of a text refuses a parenthesis exactly when, having read the tokens
before it without a fault, it reaches an open parenthesis at which the text has more parentheses
opened and not yet closed, that one included, than the limit. -/
theorem run_refuses_text {limit l p : Nat} {s : String} :
    (empty.run limit (Token.ofString s)).2 = some (.tooDeep l p) ↔
      l = limit ∧ ∃ pre rest, Token.ofString s = pre ++ (p, .openParen) :: rest ∧
        (empty.run limit pre).2 = none ∧
        limit < (s.toList.take (p + 1)).count '(' - (s.toList.take (p + 1)).count ')' := by
  -- Only the last condition changes: the count of the machine becomes the count of the text.
  rw [run_tooDeep]
  refine and_congr_right fun _ => exists_congr fun pre => exists_congr fun rest => ?_
  refine and_congr_right fun scanned => and_congr_right fun clean => ?_
  -- Before the parenthesis the count is what the text opened and did not close; the parenthesis
  -- itself opens one more.
  obtain ⟨m, ran⟩ : ∃ m, empty.run limit pre = (m, none) := ⟨_, Prod.ext rfl clean⟩
  have before := depth_before scanned ran
  have opening :=
    Token.take_at s.toList scanned (rfl : Token.openParen.text.head? = some '(')
  have opened : ['('].count '(' = 1 := by decide
  have unclosed : ['('].count ')' = 0 := by decide
  rw [ran, opening, List.count_append, List.count_append, opened, unclosed]
  dsimp only
  omega

/-- A text whose parentheses are never open more than the limit at once is read without a
refusal. -/
theorem run_shallow {limit : Nat} {s : String}
    (shallow : ∀ k, (s.toList.take k).count '(' - (s.toList.take k).count ')' ≤ limit) :
    Fault.refusals (empty.run limit (Token.ofString s)).2 = 0 := by
  rcases refused : (empty.run limit (Token.ofString s)).2 with _ | f
  · rfl
  · cases f with
    | tooDeep l p =>
      -- A refusal would need a prefix of the text opened past the limit.
      obtain ⟨-, pre, rest, -, -, deep⟩ := run_refuses_text.mp refused
      exact absurd (shallow (p + 1)) (by omega)
    | _ => rfl

/-- Reading a text refuses a parenthesis exactly when running over its tokens does: the ending
refuses none. -/
theorem parse_tooDeep {limit l p : Nat} {m : Machine} {s : String} :
    (m.parse limit s).2 = .error (.tooDeep l p) ↔
      (m.run limit (Token.ofString s)).2 = some (.tooDeep l p) := by
  unfold Machine.parse
  rcases ran : m.run limit (Token.ofString s) with ⟨next, _ | f⟩
  · -- A reading that ran through ends, and the ending refuses nothing.
    have ended := (finish_nesting next).2.2
    simp only [reduceCtorEq, iff_false]
    intro refused
    rw [refused] at ended
    simp [Fault.raisedBy, Fault.refusals] at ended
  · -- A run that faulted ends the reading with its fault.
    simp

end Machine

namespace Evaluator

/-- An outcome refuses no parenthesis exactly when it is no refusal as nested too deep. -/
theorem refusals_eq_zero {α : Type} {r : Except Fault α} :
    Fault.refusals (Fault.raisedBy r) = 0 ↔ ∀ l p, r ≠ .error (.tooDeep l p) := by
  -- The count of refusals is one for a refusal and zero for any other outcome.
  cases r with
  | ok a => simp [Fault.raisedBy, Fault.refusals]
  | error f => cases f <;> simp [Fault.raisedBy, Fault.refusals]

/-- An evaluation refuses a parenthesis exactly when running over the tokens of its text does:
a blank text has no parenthesis, and computing a tree refuses none. -/
theorem evaluate_tooDeep (ev : Evaluator) (s : String) (value : Value) {l p : Nat} :
    (ev.evaluate (some s) value).2 = .error (.tooDeep l p) ↔
      (Machine.empty.run ev.maxDepth (Token.ofString s)).2 = some (.tooDeep l p) := by
  cases blank : isBlankExpr s
  · rw [← Machine.parse_tooDeep]
    rcases parsed : Machine.empty.parse ev.maxDepth s with ⟨m, result | root⟩
    · -- A fault of the reading is the evaluation's.
      rw [evaluate_unread ev value blank parsed]
      simp
    · -- A tree that was read is computed, and computing refuses nothing.
      have computed := (evaluate_reads ev value blank).2
      rw [parsed] at computed
      simp only [reduceCtorEq, iff_false]
      exact (refusals_eq_zero.mp computed) l p
  · -- A blank text is zero, and its tokens are strays, none of them a parenthesis.
    simp only [evaluate, blank, if_true, reduceCtorEq, false_iff]
    intro refused
    obtain ⟨-, pre, rest, scanned, -⟩ := Machine.run_tooDeep.mp refused
    have strays := Token.scan_blanks s.toList (blank_chars blank) 0
    obtain ⟨c, stray⟩ := strays .openParen (by simp [Token.ofString] at scanned; simp [scanned])
    cases stray

/-- An evaluation that refuses no parenthesis under one nesting limit gives the same outcome
under any higher limit. -/
theorem evaluate_deeper (ev : Evaluator) (s : String) (value : Value) {deeper : Nat}
    (le : ev.maxDepth ≤ deeper)
    (kept : ∀ l p, (ev.evaluate (some s) value).2 ≠ .error (.tooDeep l p)) :
    ({ ev with maxDepth := deeper }.evaluate (some s) value).2 =
      (ev.evaluate (some s) value).2 := by
  cases blank : isBlankExpr s
  · -- The reading refuses nothing, so it reads the same under the higher limit.
    have readKept := (evaluate_reads ev value blank).2
    rw [refusals_eq_zero.mpr kept] at readKept
    have same := Machine.parse_deeper le readKept.symm
    simp [evaluate, blank, parse, same, context]
  · -- A blank text is zero under any limit.
    simp [evaluate, blank]

/-- The nesting limit of an evaluation: it refuses a text as nested too deep exactly when, having
read the tokens before it without a fault, it reaches an open parenthesis at which the text has
more parentheses opened and not yet closed, that one included, than the limit; the fault names
the limit and that parenthesis's position. An evaluation that refuses nothing so gives the same
outcome under every higher limit. -/
theorem evaluate_nesting_limit (precision limit deeper : Nat) (value : Value) (s : String)
    (le : limit ≤ deeper) :
    (∀ l p, (({ precision := precision, maxDepth := limit } : Evaluator).evaluate (some s)
        value).2 = .error (.tooDeep l p) ↔
      l = limit ∧ ∃ pre rest, Token.ofString s = pre ++ (p, .openParen) :: rest ∧
        (Machine.empty.run limit pre).2 = none ∧
        limit < (s.toList.take (p + 1)).count '(' - (s.toList.take (p + 1)).count ')') ∧
    ((∀ l p, (({ precision := precision, maxDepth := limit } : Evaluator).evaluate (some s)
        value).2 ≠ .error (.tooDeep l p)) →
      (({ precision := precision, maxDepth := deeper } : Evaluator).evaluate (some s)
          value).2 =
        (({ precision := precision, maxDepth := limit } : Evaluator).evaluate (some s)
          value).2) := by
  refine ⟨fun l p => ?_, evaluate_deeper _ s value le⟩
  -- The evaluation refuses as its run does, and the run as the text's count says.
  rw [evaluate_tooDeep]
  exact Machine.run_refuses_text

/-- The nesting limit at one and two, read on `((1))`. -/
theorem nesting_limit_one_two :
    1 ≤ 2 ∧
    (∀ l p, (({ precision := 28, maxDepth := 1 } : Evaluator).evaluate (some "((1))")
        .nothing).2 = .error (.tooDeep l p) ↔
      l = 1 ∧ ∃ pre rest, Token.ofString "((1))" = pre ++ (p, .openParen) :: rest ∧
        (Machine.empty.run 1 pre).2 = none ∧
        1 < ("((1))".toList.take (p + 1)).count '(' - ("((1))".toList.take (p + 1)).count ')') ∧
    ((∀ l p, (({ precision := 28, maxDepth := 1 } : Evaluator).evaluate (some "((1))")
        .nothing).2 ≠ .error (.tooDeep l p)) →
      (({ precision := 28, maxDepth := 2 } : Evaluator).evaluate (some "((1))") .nothing).2 =
        (({ precision := 28, maxDepth := 1 } : Evaluator).evaluate (some "((1))") .nothing).2) :=
  ⟨by decide, evaluate_nesting_limit 28 1 2 .nothing "((1))" (by decide)⟩

end Evaluator

end Calculator
