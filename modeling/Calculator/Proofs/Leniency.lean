import Calculator.Proofs.Grammar

/-! The reading machine accepts more than the documented grammar. It reduces by precedence and by
how many operands are on the stack, and it never records whether an operand or an operation comes
next, so an operation may stand after its two operands or before them. No sentence of the grammar
does either: each starts with an operand or an open parenthesis, and ends with an operand or a
closing parenthesis. -/

namespace Calculator.Grammar

/-- A token that may start a sentence: a literal, a name or an open parenthesis. -/
def StartsOperand : Token → Prop
  | .literal _ | .name _ | .openParen => True
  | _ => False

/-- A token that may end a sentence: a literal, a name or a closing parenthesis. -/
def EndsOperand : Token → Prop
  | .literal _ | .name _ | .closeParen => True
  | _ => False

mutual

/-- A sentence starts with an operand or an open parenthesis. -/
theorem Expression.first : (e : Expression) → ∃ t, e.tokens.head? = some t ∧ StartsOperand t
  | .term t => t.first
  -- A longer sum starts where its first summand starts.
  | .more e _ _ _ => by
    obtain ⟨token, first, starts⟩ := e.first
    exact ⟨token, by simp [Expression.tokens, List.head?_append, first], starts⟩

/-- A term starts with an operand or an open parenthesis. -/
theorem Term.first : (t : Term) → ∃ token, t.tokens.head? = some token ∧ StartsOperand token
  | .factor f => f.first
  -- A longer product starts where its first factor starts.
  | .more t _ _ _ => by
    obtain ⟨token, first, starts⟩ := t.first
    exact ⟨token, by simp [Term.tokens, List.head?_append, first], starts⟩

/-- A factor starts with its literal, its name or its open parenthesis. -/
theorem Factor.first : (f : Factor) → ∃ token, f.tokens.head? = some token ∧ StartsOperand token
  -- Each kind of factor opens with its own token, read off its spelling.
  | .number _ => ⟨_, rfl, trivial⟩
  | .ident _ => ⟨_, rfl, trivial⟩
  | .paren _ => ⟨_, rfl, trivial⟩

end

mutual

/-- A sentence ends with an operand or a closing parenthesis. -/
theorem Expression.last : (e : Expression) → ∃ t, e.tokens.getLast? = some t ∧ EndsOperand t
  | .term t => t.last
  -- A longer sum ends where its last term ends.
  | .more _ _ _ t => by
    obtain ⟨token, last, ends⟩ := t.last
    exact ⟨token, by simp [Expression.tokens, List.getLast?_append, List.getLast?_cons, last], ends⟩

/-- A term ends with an operand or a closing parenthesis. -/
theorem Term.last : (t : Term) → ∃ token, t.tokens.getLast? = some token ∧ EndsOperand token
  | .factor f => f.last
  -- A longer product ends where its last factor ends.
  | .more _ _ _ f => by
    obtain ⟨token, last, ends⟩ := f.last
    exact ⟨token, by simp [Term.tokens, List.getLast?_append, List.getLast?_cons, last], ends⟩

/-- A factor ends with its literal, its name or its closing parenthesis. -/
theorem Factor.last : (f : Factor) → ∃ token, f.tokens.getLast? = some token ∧ EndsOperand token
  | .number _ => ⟨_, rfl, trivial⟩
  | .ident _ => ⟨_, rfl, trivial⟩
  -- A group ends with the parenthesis that closes it, whatever it holds.
  | .paren _ =>
    ⟨.closeParen, by simp [Factor.tokens, List.getLast?_cons, List.getLast?_append], trivial⟩

end

/-- No sentence ends with an operation. -/
theorem Expression.tokens_ne_append_operation (e : Expression) (front : List Token)
    (op : Operation) : e.tokens ≠ front ++ [.operation op] := by
  intro spelled
  -- The last token would be the operation, and an operation ends no sentence.
  obtain ⟨token, last, ends⟩ := e.last
  simp only [spelled, List.getLast?_append, List.getLast?_singleton, Option.some_or,
    Option.some.injEq] at last
  subst last
  exact ends

/-- No sentence starts with an operation. -/
theorem Expression.tokens_ne_operation_cons (e : Expression) (op : Operation)
    (rest : List Token) : e.tokens ≠ .operation op :: rest := by
  intro spelled
  -- The first token would be the operation, and an operation starts no sentence.
  obtain ⟨token, first, starts⟩ := e.first
  simp only [spelled, List.head?_cons, Option.some.injEq] at first
  subst first
  exact starts

/-! ### Operations after or before two groups -/

/-- The tokens of two parenthesised sentences are read back as themselves. -/
theorem groups_lexemes (left right : Expression) :
    ∀ t ∈ (Factor.paren left).tokens ++ (Factor.paren right).tokens, t.Lexeme := by
  intro t member
  -- A token comes from one of the groups, and every token of a group reads back as itself.
  rcases List.mem_append.mp member with inLeft | inRight
  · exact (Factor.paren left).lexemes t inLeft
  · exact (Factor.paren right).lexemes t inRight

/-- The closing parenthesis of the first group keeps it apart from the second. -/
theorem groups_apart (left right : Expression) :
    ((Factor.paren left).tokens ++ (Factor.paren right).tokens).IsChain Token.Apart := by
  refine List.isChain_append.mpr ⟨(Factor.paren left).apart, (Factor.paren right).apart, ?_⟩
  -- Only the seam is new: the first group ends with its closing parenthesis.
  intro last isLast next _
  have closing : last = .closeParen := by
    simpa [Factor.tokens, List.getLast?_cons, List.getLast?_append] using isLast.symm
  subst closing
  -- A closing parenthesis runs on into no character at all.
  intro c _
  rfl

/-- Ending a reading where one operation waits over exactly two trees joins them. -/
theorem finish_pair {m : Machine} {op : Operation} {first second : Expr}
    (two : m.operands = [second, first]) (waiting : m.pending = [.operation op]) :
    m.finish.2 = .ok (.bin op first second) := by
  unfold Machine.finish
  -- The waiting operation takes both trees, and then nothing is left to reduce.
  rw [Machine.reduce_apply waiting (Nat.zero_le _) two,
    Machine.reduce_of_open (by simp [Machine.Open])]
  rfl

/-- Two parenthesised sentences read one after the other push their trees, the second on top,
whatever is pending, as long as their parentheses fit under the limit and their identifiers are
the one registered, if any. -/
theorem run_groups (limit : Nat) {x : String} {m : Machine} (admits : Admits x m)
    {left right : Expression}
    (named : ∀ n ∈ left.names ++ right.names, n = x)
    (room : m.depth + (max left.nesting right.nesting + 1) ≤ limit) {tokens : List (Nat × Token)}
    (spelled : tokens.map Prod.snd = (Factor.paren left).tokens ++ (Factor.paren right).tokens) :
    m.run limit tokens =
      (pushTree (pushTree m left.tree left.names) right.tree right.names, none) := by
  -- Cut the numbered tokens where the first group's spelling ends.
  obtain ⟨first, second, rfl, firstSpelled, secondSpelled⟩ := List.map_eq_append_iff.mp spelled
  have namedLeft : ∀ n ∈ (Factor.paren left).names, n = x :=
    fun n member => named n (List.mem_append_left _ member)
  have namedRight : ∀ n ∈ (Factor.paren right).names, n = x :=
    fun n member => named n (List.mem_append_right _ member)
  -- The second group is read over the tree of the first, with its name admitted.
  rw [Machine.run_append, Factor.run (.paren left) admits namedLeft
    (by simp only [Factor.nesting]; omega) firstSpelled]
  exact Factor.run (.paren right) (admits.pushTree _ namedLeft) namedRight
    (by simp only [pushTree_depth, Factor.nesting]; omega) secondSpelled

/-- Two groups followed by an operation, written with any spacing, are lexed into exactly those
tokens. -/
theorem lex_operation_after {left right : Expression} {op : Operation} {s : String}
    (spaced : Token.Spaced
      ((Factor.paren left).tokens ++ (Factor.paren right).tokens ++ [.operation op]) s.toList) :
    (Token.ofString s).map Prod.snd =
      (Factor.paren left).tokens ++ (Factor.paren right).tokens ++ [.operation op] := by
  -- Spaced lexemes that do not run on into each other are lexed back into themselves.
  refine Token.scan_spaced spaced ?_ ?_ 0
  · intro t member
    rcases List.mem_append.mp member with inGroups | isOp
    · exact groups_lexemes left right t inGroups
    · simp only [List.mem_singleton] at isOp
      subst isOp
      trivial
  · -- Nothing runs on into the operation after the closing parenthesis.
    refine List.isChain_append.mpr ⟨groups_apart left right, List.isChain_singleton _, ?_⟩
    intro last _ next first
    simp only [List.head?_cons, Option.mem_def, Option.some.injEq] at first
    exact first ▸ apart_operation last op

/-- An operation followed by two groups, written with any spacing, is lexed into exactly those
tokens. -/
theorem lex_operation_before {left right : Expression} {op : Operation} {s : String}
    (spaced : Token.Spaced
      (.operation op :: ((Factor.paren left).tokens ++ (Factor.paren right).tokens)) s.toList) :
    (Token.ofString s).map Prod.snd =
      .operation op :: ((Factor.paren left).tokens ++ (Factor.paren right).tokens) := by
  -- As after the groups: the same tokens, with the operation moved to the front.
  refine Token.scan_spaced spaced ?_ ?_ 0
  · intro t member
    rcases List.mem_cons.mp member with isOp | inGroups
    · subst isOp
      trivial
    · exact groups_lexemes left right t inGroups
  · -- An operation symbol runs on into nothing.
    refine List.isChain_cons.mpr ⟨?_, groups_apart left right⟩
    intro next _ c _
    rfl

section Reading

variable (limit : Nat) {x : String} {left right : Expression} {op : Operation} {s : String}

/-- After two groups an operation finds nothing pending above them, waits, and joins them when the
reading ends. -/
theorem parse_operation_after (named : ∀ n ∈ left.names ++ right.names, n = x)
    (room : max left.nesting right.nesting + 1 ≤ limit)
    (lexed : (Token.ofString s).map Prod.snd =
      (Factor.paren left).tokens ++ (Factor.paren right).tokens ++ [.operation op]) :
    (Machine.empty.parse limit s).2 = .ok (.bin op left.tree right.tree) := by
  -- The lexed tokens are the two groups and then the operation, at some position.
  obtain ⟨groups, rest, split, groupsSpelled, restSpelled⟩ := List.map_eq_append_iff.mp lexed
  obtain ⟨⟨position, token⟩, rfl, same⟩ := List.map_eq_singleton_iff.mp restSpelled
  simp only at same
  subst same
  have read := run_groups limit (m := Machine.empty) (by simp [Admits, Machine.empty]) named
    (by simpa [Machine.empty] using room) groupsSpelled
  have stops : (pushTree (pushTree Machine.empty left.tree left.names) right.tree
      right.names).reduce op.precedence = (pushTree (pushTree Machine.empty left.tree left.names)
        right.tree right.names, none) :=
    -- Nothing is pending over the two trees, so the operation reduces nothing and waits.
    Machine.reduce_of_open (by simp [Machine.Open, Machine.empty])
  simp only [Machine.parse, split, Machine.run_append, read, Machine.run_singleton, Machine.step,
    stops]
  -- The end of the reading joins the two trees under the waiting operation.
  exact finish_pair (by simp [Machine.empty]) (by simp [Machine.empty])

/-- An operation before two groups waits at the bottom of the pending stack, the groups are read
above it, and it joins them when the reading ends. -/
theorem parse_operation_before (named : ∀ n ∈ left.names ++ right.names, n = x)
    (room : max left.nesting right.nesting + 1 ≤ limit)
    (lexed : (Token.ofString s).map Prod.snd =
      .operation op :: ((Factor.paren left).tokens ++ (Factor.paren right).tokens)) :
    (Machine.empty.parse limit s).2 = .ok (.bin op left.tree right.tree) := by
  obtain ⟨⟨position, token⟩, groups, split, same, groupsSpelled⟩ := List.map_eq_cons_iff.mp lexed
  simp only at same
  subst same
  -- The operation comes first: it finds an empty machine and waits at the bottom.
  have stops : Machine.empty.reduce op.precedence = (Machine.empty, none) :=
    Machine.reduce_of_open (by simp [Machine.Open, Machine.empty])
  -- The groups are read above it without ever reaching down to it.
  have read := run_groups limit
    (m := ⟨Machine.empty.operands, .operation op :: Machine.empty.pending,
      Machine.empty.variableName, Machine.empty.depth⟩)
    (by simp [Admits, Machine.empty]) named (by simpa [Machine.empty] using room) groupsSpelled
  simp only [Machine.parse, split, Machine.run, Machine.step, stops]
  rw [read]
  -- Only then does it take the two trees, at the end of the reading.
  exact finish_pair (by simp [Machine.empty]) (by simp [Machine.empty])

end Reading

/-- The machine reads an operation written after two parenthesised sentences, or before them, as
the operation joining their trees, with any spacing; yet no sentence of the grammar ends or starts
with an operation. -/
theorem reads_outside_grammar (ev : Evaluator) (left right : Expression) (op : Operation)
    (oneName : ∀ a ∈ left.names ++ right.names, ∀ b ∈ left.names ++ right.names, a = b)
    (shallow : max left.nesting right.nesting + 1 ≤ ev.maxDepth) :
    (∀ s : String, Token.Spaced
        ((Factor.paren left).tokens ++ (Factor.paren right).tokens ++ [.operation op]) s.toList →
      ({ ev with machine := Machine.empty }.parse s).2 = .ok (.bin op left.tree right.tree)) ∧
    (∀ s : String, Token.Spaced
        (.operation op :: ((Factor.paren left).tokens ++ (Factor.paren right).tokens)) s.toList →
      ({ ev with machine := Machine.empty }.parse s).2 = .ok (.bin op left.tree right.tree)) ∧
    ∀ e : Expression,
      e.tokens ≠ (Factor.paren left).tokens ++ (Factor.paren right).tokens ++ [.operation op] ∧
      e.tokens ≠ .operation op :: ((Factor.paren left).tokens ++ (Factor.paren right).tokens) := by
  -- Every identifier is the first one.
  have named : ∀ n ∈ left.names ++ right.names, n = (left.names ++ right.names).headD "" := by
    intro n member
    cases namesEq : left.names ++ right.names with
    | nil => simp [namesEq] at member
    | cons first rest => exact oneName n member first (by simp [namesEq])
  -- Both readings are lexing then parsing; the refusals are the first and last tokens of a sentence.
  exact ⟨fun s spaced =>
      parse_operation_after ev.maxDepth named shallow (lex_operation_after spaced),
    fun s spaced =>
      parse_operation_before ev.maxDepth named shallow (lex_operation_before spaced),
    fun e => ⟨e.tokens_ne_append_operation _ op, e.tokens_ne_operation_cons op _⟩⟩

/-- One and two in parentheses, with a sum after them or before them, are read as their sum. -/
theorem reads_grouped_sum :
    ({ Evaluator.withDefaults with machine := Machine.empty }.parse "(1) (2) +").2 =
        .ok (.bin .add (.num ⟨false, 1, 0⟩) (.num ⟨false, 2, 0⟩)) ∧
      ({ Evaluator.withDefaults with machine := Machine.empty }.parse "+ (1) (2)").2 =
        .ok (.bin .add (.num ⟨false, 1, 0⟩) (.num ⟨false, 2, 0⟩)) := by
  have digit : ∀ d : Char, d.isDigit → [d] ≠ [] ∧ ∀ c ∈ [d], c.isDigit := fun d isDigit =>
    ⟨List.cons_ne_nil _ _, fun c member => List.mem_singleton.mp member ▸ isDigit⟩
  -- Each group is a one-digit literal, one parenthesis deep, well inside the default limit.
  have read := reads_outside_grammar Evaluator.withDefaults
    (.term (.factor (.number ⟨['1'], none, digit '1' rfl, by simp⟩)))
    (.term (.factor (.number ⟨['2'], none, digit '2' rfl, by simp⟩))) .add
    (by simp [Expression.names, Term.names, Factor.names])
    (by simp [Expression.nesting, Term.nesting, Factor.nesting, Evaluator.withDefaults,
      Settings.defaultMaxDepth])
  have after : "(1) (2) +".toList = ['(', '1', ')', ' ', '(', '2', ')', ' ', '+'] := by decide
  have before : "+ (1) (2)".toList = ['+', ' ', '(', '1', ')', ' ', '(', '2', ')'] := by decide
  refine ⟨read.1 _ ?_, read.2.1 _ ?_⟩
  -- Each text spells the tokens with one space between the groups and the sum.
  · rw [after]
    exact .cons 0 .openParen (.cons 0 (.literal (String.ofList ['1'])) (.cons 0 .closeParen
      (.cons 1 .openParen (.cons 0 (.literal (String.ofList ['2'])) (.cons 0 .closeParen
        (.cons 1 (.operation .add) (.nil 0)))))))
  · rw [before]
    exact .cons 0 (.operation .add) (.cons 1 .openParen (.cons 0 (.literal (String.ofList ['1']))
      (.cons 0 .closeParen (.cons 1 .openParen (.cons 0 (.literal (String.ofList ['2']))
        (.cons 0 .closeParen (.nil 0)))))))

/-- The text `1 2 +` is read into the sum of one and two, though its tokens end with an operation
and so are no sentence of the grammar. -/
theorem reads_postfix_sum :
    ({ Evaluator.withDefaults with machine := Machine.empty }.parse "1 2 +").2 =
        .ok (.bin .add (.num ⟨false, 1, 0⟩) (.num ⟨false, 2, 0⟩)) ∧
      ∀ e : Expression, e.tokens ≠ (Token.ofString "1 2 +").map Prod.snd := by
  -- The text lexes into two literals and then the operation, which ends no sentence.
  have lexed : (Token.ofString "1 2 +").map Prod.snd =
      [.literal "1", .literal "2"] ++ [.operation .add] := by
    decide +kernel
  refine ⟨by decide +kernel, fun e => ?_⟩
  rw [lexed]
  exact e.tokens_ne_append_operation _ .add

end Calculator.Grammar
