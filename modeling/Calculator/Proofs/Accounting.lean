import Calculator.Proofs.Lexing
import Calculator.Proofs.Session

/-! Reading accounts for every token of a text: the leaves of the tree read are the operand tokens
in order, its nodes the operation characters, every name the registered variable, and the
parentheses close in order and are all closed. Each is an invariant of the reading,
`Machine.Tallies` for the trees and the variable and `Machine.Bracketed` for the parentheses, kept
by every step that `Machine.step_cases` lists. -/

namespace Calculator

namespace Expr

/-- The leaves of a tree, from left to right. -/
def leaves : Expr → List Expr
  | .bin _ l r => l.leaves ++ r.leaves
  | leaf => [leaf]

/-- The operations at the nodes of a tree: the left subtree's, the right subtree's, then the
node's own. -/
def operations : Expr → List Operation
  | .bin op l r => l.operations ++ r.operations ++ [op]
  | _ => []

/-- A tree has one leaf more than it has nodes. -/
theorem leaves_length (e : Expr) : e.leaves.length = e.operations.length + 1 := by
  induction e with
  | num d => rfl
  | var name => rfl
  | bin op l r left right =>
    -- The node adds one operation and joins two counts that are each one ahead.
    simp only [leaves, operations, List.length_append, List.length_singleton, left, right]
    omega

end Expr

namespace Token

/-- Whether a token is an operand: a literal or a name. -/
def isOperand : Token → Bool
  | .literal _ | .name _ => true
  | _ => false

/-- The leaf an operand token is read as: the number its literal writes, or the variable it
names. -/
def leaf? : Token → Option Expr
  | .literal text => (Numeric.finiteValue? false text.toList).map .num
  | .name x => some (.var x)
  | _ => none

/-- No prefix of a text closes more parentheses than it opened. -/
def ClosesInOrder (cs : List Char) : Prop := ∀ k, (cs.take k).count ')' ≤ (cs.take k).count '('

/-- A text closing in order goes on doing so with one more character that closes no parenthesis
left unopened. -/
theorem ClosesInOrder.snoc {cs : List Char} {c : Char} (ordered : ClosesInOrder cs)
    (within : (cs ++ [c]).count ')' ≤ (cs ++ [c]).count '(') : ClosesInOrder (cs ++ [c]) := by
  intro k
  -- A prefix is a prefix of the old text, or the whole new one.
  by_cases old : k ≤ cs.length
  · rw [List.take_append_of_le_length old]
    exact ordered k
  · rw [List.take_of_length_le (by simp; omega)]
    exact within

/-- A text closes in order when its parentheses alone do. -/
theorem ClosesInOrder.of_parens {cs : List Char} (ordered : ClosesInOrder (cs.filter isParen)) :
    ClosesInOrder cs := by
  intro k
  -- The parentheses of a prefix are a prefix of the parentheses of the text.
  obtain ⟨j, prefixEq⟩ : ∃ j, (cs.take k).filter isParen = (cs.filter isParen).take j :=
    ⟨_, List.prefix_iff_eq_take.mp ((List.take_prefix k cs).filter isParen)⟩
  have counted := ordered j
  rw [← prefixEq, count_parens ')' rfl, count_parens '(' rfl] at counted
  exact counted

end Token

namespace Pending

/-- The operation a pending entry waits with, if it is one. -/
def operation? : Pending → Option Operation
  | .operation op => some op
  | .openParen => none

end Pending

namespace Machine

/-- What a step that reads a token without a fault does: a literal pushes the number it writes, a
name pushes the variable and registers it unless it is registered already, an operation reduces
what binds at least as tightly and waits, an open parenthesis within the limit is counted and
marked, and a closing parenthesis reduces down to its mark and removes it. -/
theorem step_cases {limit position : Nat} {m m' : Machine} {token : Token}
    (stepped : m.step limit position token = (m', none)) :
    (∃ text d, token = .literal text ∧ Numeric.finiteValue? false text.toList = some d ∧
      m' = { m with operands := .num d :: m.operands }) ∨
    (∃ x, token = .name x ∧ (∀ y ∈ m.variableName, y = x) ∧
      m' = { m with variableName := some x, operands := .var x :: m.operands }) ∨
    (∃ op reduced, token = .operation op ∧ m.reduce op.precedence = (reduced, none) ∧
      m' = { reduced with pending := .operation op :: reduced.pending }) ∨
    (token = .openParen ∧ m.depth + 1 ≤ limit ∧
      m' = { m with depth := m.depth + 1, pending := .openParen :: m.pending }) ∨
    (∃ reduced rest, token = .closeParen ∧ m.reduce 0 = (reduced, none) ∧
      reduced.pending = .openParen :: rest ∧
      m' = { reduced with pending := rest, depth := reduced.depth - 1 }) := by
  -- Each kind of token, with the branches of its step that fault set aside.
  cases token with
  | literal text =>
    simp only [step, pushLiteral] at stepped
    split at stepped
    · rename_i d read
      cases stepped
      exact .inl ⟨text, d, rfl, read, rfl⟩
    · cases stepped
  | name x =>
    simp only [step, pushName] at stepped
    split at stepped
    · -- The first name registers itself.
      rename_i unnamed
      cases stepped
      exact .inr (.inl ⟨x, rfl, by simp [unnamed], rfl⟩)
    · rename_i first registered
      split at stepped
      · rename_i same
        cases stepped
        -- The same name again: registering it changes nothing.
        refine .inr (.inl ⟨x, rfl, by simp [registered, same], ?_⟩)
        cases m
        simp_all
      · cases stepped
  | operation op =>
    simp only [step] at stepped
    split at stepped
    · cases stepped
    · rename_i reduced reducedEq
      cases stepped
      exact .inr (.inr (.inl ⟨op, reduced, rfl, reducedEq, rfl⟩))
  | openParen =>
    simp only [step, openParen] at stepped
    -- Only a parenthesis within the limit reads without a fault.
    split at stepped
    · cases stepped
    · rename_i within
      cases stepped
      exact .inr (.inr (.inr (.inl ⟨rfl, by omega, rfl⟩)))
  | closeParen =>
    simp only [step, closeParen] at stepped
    split at stepped
    · cases stepped
    · rename_i reduced reducedEq
      -- What the reduction left on top is no operation, so it is the mark.
      have onTop := reduce_open reducedEq
      split at stepped
      · cases stepped
      · rename_i top rest stacked
        cases stepped
        have mark : top = .openParen := by
          cases top with
          | openParen => rfl
          | operation op =>
            have looser := onTop op (by simp [stacked])
            omega
        subst mark
        exact .inr (.inr (.inr (.inr ⟨reduced, rest, rfl, reducedEq, stacked, rfl⟩)))
  -- A stray character always faults.
  | stray c => simp [step] at stepped

/-- What every step that reads a token without a fault keeps, a run that reads all its tokens
without a fault keeps, with all of them read. -/
theorem run_keeps {P : List Token → Machine → Prop}
    (step : ∀ {read : List Token} {limit position : Nat} {m m' : Machine} {token : Token},
      P read m → m.step limit position token = (m', none) → P (read ++ [token]) m')
    {read : List Token} {limit : Nat} {m m' : Machine} {tokens : List (Nat × Token)}
    (holds : P read m) (ran : m.run limit tokens = (m', none)) :
    P (read ++ tokens.map Prod.snd) m' := by
  -- Induction on the tokens, with what was read so far growing by one token a step.
  induction tokens generalizing m read with
  | nil =>
    simp only [Machine.run, Prod.mk.injEq] at ran
    simpa [← ran.1] using holds
  | cons entry rest ih =>
    rcases entry with ⟨position, token⟩
    simp only [Machine.run] at ran
    -- Each token is one step; a step that faulted would have ended the run with its fault.
    split at ran
    · rename_i next stepped
      simpa using ih (step holds stepped) ran
    · cases ran

/-! ### The trees and the variable -/

/-- The trees and the variable account for the tokens read: the leaves on the operand stack, from
the bottom up, are the operand tokens, each read as its leaf; the operations in the trees and on
the pending stack are the operation tokens; and the registered variable is every name read. -/
structure Tallies (read : List Token) (m : Machine) : Prop where
  leaves : List.Forall₂ (fun leaf token => token.leaf? = some leaf)
    (m.operands.reverse.flatMap Expr.leaves) (read.filter Token.isOperand)
  operations : (m.operands.flatMap Expr.operations ++ m.pending.filterMap Pending.operation?).Perm
    (read.filterMap Token.operation?)
  named : ∀ x, Token.name x ∈ read → m.variableName = some x
  registered : ∀ x ∈ m.variableName, Token.name x ∈ read

/-- Nothing is read before anything is read. -/
theorem tallies_empty : empty.Tallies [] where
  leaves := by simp [empty]
  operations := by simp [empty]
  named := by simp
  registered := by simp [empty]

/-- Joining the two top operands under the top operation keeps the account: the leaves keep their
order, and the operation moves from the pending stack into the tree. -/
theorem Tallies.join {read : List Token} {op : Operation} {r l : Expr} {more : List Expr}
    {rest : List Pending} {name : Option String} {depth : Nat}
    (tallies : Tallies read ⟨r :: l :: more, .operation op :: rest, name, depth⟩) :
    Tallies read ⟨.bin op l r :: more, rest, name, depth⟩ where
  -- The left operand was below the right one, so its leaves still come first.
  leaves := by simpa [Expr.leaves, List.append_assoc] using tallies.leaves
  operations := by
    -- Each operation is counted as often as before: the node's moved from pending to the tree.
    refine List.Perm.trans (List.perm_iff_count.mpr fun o => ?_) tallies.operations
    simp only [List.flatMap_cons, Expr.operations, List.filterMap_cons, Pending.operation?,
      List.append_assoc, List.count_append, List.count_cons, List.count_nil]
    omega
  named := tallies.named
  registered := tallies.registered

/-- A reduction that ends well keeps the account. -/
theorem Tallies.reduce {read : List Token} {least : Nat} {m m' : Machine}
    (tallies : m.Tallies read) (reduced : m.reduce least = (m', none)) : m'.Tallies read := by
  fun_induction Machine.reduce least m with
  -- Stopping changes nothing.
  | case1 => simp only [Prod.mk.injEq] at reduced; exact reduced.1 ▸ tallies
  -- Each join keeps the account, and the rest of the reduction does by induction.
  | case2 operands op rest name depth tight r l more ih => exact ih tallies.join reduced
  -- A missing operand faults, which this reduction did not.
  | case3 => simp at reduced
  | case4 => simp only [Prod.mk.injEq] at reduced; exact reduced.1 ▸ tallies

/-- A step that reads a token without a fault keeps the account, with that token read. -/
theorem Tallies.step {read : List Token} {limit position : Nat} {m m' : Machine} {token : Token}
    (tallies : m.Tallies read) (stepped : m.step limit position token = (m', none)) :
    m'.Tallies (read ++ [token]) := by
  rcases step_cases stepped with ⟨text, d, rfl, readEq, rfl⟩ | ⟨x, rfl, admits, rfl⟩ |
    ⟨op, reduced, rfl, reducedEq, rfl⟩ | ⟨rfl, -, rfl⟩ |
    ⟨reduced, rest, rfl, reducedEq, marked, rfl⟩
  · -- A literal: its number is the last leaf.
    refine ⟨?_, ?_, ?_, ?_⟩
    · simpa [List.filter_singleton, Token.isOperand, Expr.leaves] using
        List.rel_append tallies.leaves (.cons (by simp [Token.leaf?, readEq]) .nil)
    · simpa [Expr.operations, Token.operation?, List.filterMap_cons] using tallies.operations
    · simpa using tallies.named
    · simpa using tallies.registered
  · -- A name: its variable is the last leaf, and it is the registered one.
    refine ⟨?_, ?_, ?_, ?_⟩
    · simpa [List.filter_singleton, Token.isOperand, Expr.leaves] using
        List.rel_append tallies.leaves (.cons (by simp [Token.leaf?]) .nil)
    · simpa [Expr.operations, Token.operation?, List.filterMap_cons] using tallies.operations
    · -- A name read earlier was admitted only as the same name.
      intro y member
      simp only [List.mem_append, List.mem_singleton, Token.name.injEq] at member
      rcases member with earlier | rfl
      · exact congrArg some (admits y (tallies.named y earlier)).symm
      · rfl
    · intro y registered
      simp only [Option.mem_def, Option.some.injEq] at registered
      simp [registered]
  · -- An operation: the reduction keeps the account, and the operation waits on top.
    have reducedTallies := tallies.reduce reducedEq
    refine ⟨?_, ?_, ?_, ?_⟩
    · simpa [List.filter_singleton, Token.isOperand] using reducedTallies.leaves
    · simpa [Pending.operation?, Token.operation?, List.filterMap_append] using
        List.perm_middle.trans ((List.perm_append_singleton _ _).symm.trans
          (reducedTallies.operations.append_right [op]))
    · simpa using reducedTallies.named
    · simpa using reducedTallies.registered
  · -- An open parenthesis only adds a mark.
    refine ⟨?_, ?_, ?_, ?_⟩
    · simpa [List.filter_singleton, Token.isOperand] using tallies.leaves
    · simpa [Pending.operation?, Token.operation?, List.filterMap_cons] using tallies.operations
    · simpa using tallies.named
    · simpa using tallies.registered
  · -- A closing parenthesis: the reduction keeps the account, and the mark it removes is no
    -- operation.
    have reducedTallies := tallies.reduce reducedEq
    refine ⟨?_, ?_, ?_, ?_⟩
    · simpa [List.filter_singleton, Token.isOperand] using reducedTallies.leaves
    · simpa [marked, Pending.operation?, Token.operation?, List.filterMap_cons] using
        reducedTallies.operations
    · simpa using reducedTallies.named
    · simpa using reducedTallies.registered

/-- A run that reads all its tokens without a fault keeps the account, with all of them read. -/
theorem Tallies.run {read : List Token} {limit : Nat} {m m' : Machine}
    {tokens : List (Nat × Token)} (tallies : m.Tallies read)
    (ran : m.run limit tokens = (m', none)) : m'.Tallies (read ++ tokens.map Prod.snd) :=
  -- The step lemma, carried over the run.
  run_keeps (fun held stepped => held.step stepped) tallies ran

/-! ### The parentheses -/

/-- The parentheses read close in order, and those still open are the open marks pending. -/
structure Bracketed (read : List Token) (m : Machine) : Prop where
  ordered : Token.ClosesInOrder (read.filterMap Token.paren?)
  marked : m.marks + (read.filterMap Token.paren?).count ')' =
    (read.filterMap Token.paren?).count '('

/-- Nothing is open before anything is read. -/
theorem bracketed_empty : empty.Bracketed [] where
  -- No parenthesis was read, and no mark is pending.
  ordered := by simp [Token.ClosesInOrder]
  marked := by simp [marks, empty]

/-- A step that reads a token without a fault keeps the parentheses accounted for, with that token
read. -/
theorem Bracketed.step {read : List Token} {limit position : Nat} {m m' : Machine}
    {token : Token} (bracketed : m.Bracketed read)
    (stepped : m.step limit position token = (m', none)) :
    m'.Bracketed (read ++ [token]) := by
  -- One case per kind of step that reads without a fault.
  obtain ⟨ordered, marked⟩ := bracketed
  rcases step_cases stepped with ⟨text, d, rfl, -, rfl⟩ | ⟨x, rfl, -, rfl⟩ |
    ⟨op, reduced, rfl, reducedEq, rfl⟩ | ⟨rfl, -, rfl⟩ |
    ⟨reduced, rest, rfl, reducedEq, stacked, rfl⟩
  · -- A literal and a name neither open nor close anything, and leave the marks alone.
    exact ⟨by simpa [List.filterMap_cons, Token.paren?] using ordered,
      by simpa [marks, List.filterMap_cons, Token.paren?] using marked⟩
  · -- The name, like the literal.
    exact ⟨by simpa [List.filterMap_cons, Token.paren?] using ordered,
      by simpa [marks, List.filterMap_cons, Token.paren?] using marked⟩
  · -- An operation: the reduction keeps the marks, and the operation pushed is none.
    have kept := (reduce_nesting op.precedence m).1
    rw [reducedEq] at kept
    refine ⟨by simpa [List.filterMap_cons, Token.paren?] using ordered, ?_⟩
    simp only [marks] at kept
    simpa [marks, List.filterMap_cons, Token.paren?, kept] using marked
  · -- An open parenthesis: one mark more, and one more parenthesis opened.
    refine ⟨?_, ?_⟩
    · simp only [List.filterMap_append, List.filterMap_cons, List.filterMap_nil, Token.paren?]
      exact ordered.snoc (by simp; omega)
    · simp [marks, Token.paren?] at marked ⊢
      omega
  · -- A closing parenthesis takes off the mark the reduction left on top, so one was open.
    have kept := (reduce_nesting 0 m).1
    rw [reducedEq] at kept
    have taken : rest.count .openParen + 1 = m.marks := by simpa [marks, stacked] using kept
    refine ⟨?_, ?_⟩
    · simp only [List.filterMap_append, List.filterMap_cons, List.filterMap_nil, Token.paren?]
      exact ordered.snoc (by simp; omega)
    · simp [marks, Token.paren?] at marked taken ⊢
      omega

/-- A run that reads all its tokens without a fault keeps the parentheses accounted for, with all
of them read. -/
theorem Bracketed.run {read : List Token} {limit : Nat} {m m' : Machine}
    {tokens : List (Nat × Token)} (bracketed : m.Bracketed read)
    (ran : m.run limit tokens = (m', none)) : m'.Bracketed (read ++ tokens.map Prod.snd) :=
  -- The step lemma, carried over the run.
  run_keeps (fun held stepped => held.step stepped) bracketed ran

/-! ### Ending the reading -/

/-- What ending a reading with a tree does: the last reduction ends well and leaves no mark and a
single operand, which is taken off as the tree. -/
theorem finish_cases {m m' : Machine} {root : Expr} (finished : m.finish = (m', .ok root)) :
    ∃ reduced, m.reduce 0 = (reduced, none) ∧ reduced.pending = [] ∧
      reduced.operands = [root] ∧ m' = { reduced with operands := [] } := by
  unfold finish at finished
  -- Every other branch of the ending faults: the reduction, an open mark, a count of operands.
  split at finished
  · cases finished
  · rename_i reduced reducedEq
    split at finished
    · cases finished
    · rename_i settled
      split at finished
      · rename_i tree single
        simp only [Prod.mk.injEq, Except.ok.injEq] at finished
        obtain ⟨rfl, rfl⟩ := finished
        exact ⟨reduced, reducedEq, by simpa using settled, single, rfl⟩
      · cases finished

/-- A tree that ends a reading accounts for every token read: its leaves are the operand tokens,
its nodes the operation tokens, and the registered variable every name read. -/
theorem Tallies.finish {read : List Token} {m m' : Machine} {root : Expr}
    (tallies : m.Tallies read) (finished : m.finish = (m', .ok root)) :
    List.Forall₂ (fun leaf token => token.leaf? = some leaf) root.leaves
        (read.filter Token.isOperand) ∧
      root.operations.Perm (read.filterMap Token.operation?) ∧
      (∀ x, Token.name x ∈ read → m'.variableName = some x) ∧
      (∀ x ∈ m'.variableName, Token.name x ∈ read) := by
  obtain ⟨reduced, reducedEq, settled, single, rfl⟩ := finish_cases finished
  -- After the last reduction the one tree holds every leaf, and nothing else holds an operation.
  have last := tallies.reduce reducedEq
  have leaves := last.leaves
  have operations := last.operations
  rw [single] at leaves operations
  rw [settled] at operations
  exact ⟨by simpa using leaves, by simpa using operations, last.named, last.registered⟩

/-- A reading that ends with a tree has closed every parenthesis it opened. -/
theorem Bracketed.finish {read : List Token} {m m' : Machine} {root : Expr}
    (bracketed : m.Bracketed read) (finished : m.finish = (m', .ok root)) :
    Token.ClosesInOrder (read.filterMap Token.paren?) ∧
      (read.filterMap Token.paren?).count ')' = (read.filterMap Token.paren?).count '(' := by
  obtain ⟨reduced, reducedEq, settled, -, -⟩ := finish_cases finished
  -- The last reduction keeps the marks, and leaves none.
  have kept := (reduce_nesting 0 m).1
  rw [reducedEq] at kept
  have none : m.marks = 0 := by simpa [marks, settled] using kept.symm
  exact ⟨bracketed.ordered, by simpa [none] using bracketed.marked⟩

/-- What reading a text into a tree does: the whole text is read without a fault, and then the
reading ends with the tree. -/
theorem parse_cases {limit : Nat} {s : String} {m m' : Machine} {root : Expr}
    (parsed : m.parse limit s = (m', .ok root)) :
    ∃ read, m.run limit (Token.ofString s) = (read, none) ∧ read.finish = (m', .ok root) := by
  unfold Machine.parse at parsed
  -- A run that faulted would have ended the reading with its fault.
  split at parsed
  · cases parsed
  · rename_i read ran
    exact ⟨read, ran, parsed⟩

end Machine

namespace Evaluator

/-- Reading a text on an evaluator reads it with its machine, under its nesting limit. -/
theorem parse_machine {ev ev' : Evaluator} {s : String} {result : Except Fault Expr}
    (parsed : ev.parse s = (ev', result)) :
    ev.machine.parse ev.maxDepth s = (ev'.machine, result) := by
  -- The evaluator hands its machine and its limit to the reading, and keeps what it leaves.
  simp only [parse, Prod.mk.injEq] at parsed
  obtain ⟨rfl, rfl⟩ := parsed
  rfl

/-- A tree read from a text on an emptied evaluator accounts for every token of the text: its
leaves, from left to right, are the operand tokens in the order they were read, each read as its
number or its variable; every name is the registered variable, which is registered exactly when the
text names one; its nodes are the operation characters of the text, one node each, so there is one
operand token more than there are operation characters; and the parentheses of the text close in
order and are all closed. -/
theorem parse_accounts_every_token (ev : Evaluator) (s : String) {ev' : Evaluator} {t : Expr}
    (parsed : { ev with machine := Machine.empty }.parse s = (ev', .ok t)) :
    List.Forall₂ (fun leaf token => token.leaf? = some leaf) t.leaves
        (((Token.ofString s).map Prod.snd).filter Token.isOperand) ∧
      (∀ x, Token.name x ∈ (Token.ofString s).map Prod.snd →
        ev'.machine.variableName = some x) ∧
      (ev'.machine.variableName = none ↔
        ∀ x, Token.name x ∉ (Token.ofString s).map Prod.snd) ∧
      t.operations.Perm (s.toList.filterMap Operation.ofChar?) ∧
      (((Token.ofString s).map Prod.snd).filter Token.isOperand).length =
        (s.toList.filterMap Operation.ofChar?).length + 1 ∧
      s.toList.count ')' = s.toList.count '(' ∧ Token.ClosesInOrder s.toList := by
  obtain ⟨read, ran, finished⟩ := Machine.parse_cases (parse_machine parsed)
  -- Both invariants hold of the whole token list once it is read, and so of the tree.
  have tallies := Machine.tallies_empty.run ran
  have bracketed := Machine.bracketed_empty.run ran
  rw [List.nil_append] at tallies bracketed
  obtain ⟨leaves, operations, named, registered⟩ := tallies.finish finished
  obtain ⟨ordered, closed⟩ := bracketed.finish finished
  -- The parentheses and operation characters of the text are those of its tokens.
  have parens := Token.scan_parens s.toList 0
  have symbols := Token.scan_operations s.toList 0
  rw [← Token.ofString] at parens symbols
  rw [← symbols] at operations
  refine ⟨leaves, named, ⟨fun unnamed x named' => ?_, fun unnamed => ?_⟩, operations, ?_, ?_,
    ?_⟩
  -- A name read would be registered, and a registered one was read.
  · simp [named x named'] at unnamed
  · cases registeredEq : ev'.machine.variableName with
    | none => rfl
    | some x => exact absurd (registered x registeredEq) (unnamed x)
  -- A tree has one leaf more than it has nodes.
  · rw [← leaves.length_eq, Expr.leaves_length, operations.length_eq]
  · rw [← Token.count_parens ')' rfl, ← Token.count_parens '(' rfl, parens]
    exact closed
  · exact Token.ClosesInOrder.of_parens (parens ▸ ordered)

/-- Reading `(x + 2) * x` gives a tree with the three operands and the two operations of the text,
and the variable `x` registered. -/
theorem parse_accounts_product :
    { withDefaults with machine := Machine.empty }.parse "(x + 2) * x" =
        ({ withDefaults with machine := ⟨[], [], some "x", 0⟩ },
          .ok (.bin .mul (.bin .add (.var "x") (.num ⟨false, 2, 0⟩)) (.var "x"))) ∧
      List.Forall₂ (fun leaf token => token.leaf? = some leaf)
        (Expr.bin .mul (.bin .add (.var "x") (.num ⟨false, 2, 0⟩)) (.var "x")).leaves
        (((Token.ofString "(x + 2) * x").map Prod.snd).filter Token.isOperand) ∧
      (∀ x, Token.name x ∈ (Token.ofString "(x + 2) * x").map Prod.snd →
        some "x" = some x) ∧
      (some "x" = none ↔ ∀ x, Token.name x ∉ (Token.ofString "(x + 2) * x").map Prod.snd) ∧
      (Expr.bin .mul (.bin .add (.var "x") (.num ⟨false, 2, 0⟩)) (.var "x")).operations.Perm
        ("(x + 2) * x".toList.filterMap Operation.ofChar?) ∧
      (((Token.ofString "(x + 2) * x").map Prod.snd).filter Token.isOperand).length =
        ("(x + 2) * x".toList.filterMap Operation.ofChar?).length + 1 ∧
      "(x + 2) * x".toList.count ')' = "(x + 2) * x".toList.count '(' ∧
      Token.ClosesInOrder "(x + 2) * x".toList := by
  -- The reading itself is computed; what it accounts for follows from the general theorem.
  have read : Machine.empty.parse withDefaults.maxDepth "(x + 2) * x" =
      (⟨[], [], some "x", 0⟩,
        .ok (.bin .mul (.bin .add (.var "x") (.num ⟨false, 2, 0⟩)) (.var "x"))) := by
    decide +kernel
  have parsed : { withDefaults with machine := Machine.empty }.parse "(x + 2) * x" =
      ({ withDefaults with machine := ⟨[], [], some "x", 0⟩ },
        .ok (.bin .mul (.bin .add (.var "x") (.num ⟨false, 2, 0⟩)) (.var "x"))) := by
    simp only [parse, read]
  exact ⟨parsed, parse_accounts_every_token withDefaults "(x + 2) * x" parsed⟩

end Evaluator

end Calculator
