import Calculator.Proofs.Leniency
import Calculator.Proofs.Nesting

/-! Parenthesised groups. A text that a fresh machine reads into a tree reads, in parentheses,
into the same tree, and two such groups joined by an operation into that operation's node. An open
parenthesis fences off only the pending stack (`1(+2)` reads as `1 + 2`); what keeps a group apart
is that a run without a fault never reduces into operands below its own: `Machine.run_atop`. -/

namespace Calculator

namespace Machine

/-! ### One machine on top of another -/

/-- A machine's stacks on top of another's: its operands and pending entries above the other's,
its open parentheses counted with the other's, and its variable, or the other's while it has
none. -/
def atop (m base : Machine) : Machine :=
  ⟨m.operands ++ base.operands, m.pending ++ base.pending, m.variableName.or base.variableName,
    m.depth + base.depth⟩

/-- Nothing on top of a machine is that machine. -/
@[simp] theorem empty_atop (base : Machine) : empty.atop base = base := by
  -- Every stack of the empty machine is empty, and it names no variable.
  simp [atop, empty]

variable {base : Machine}

/-- On top of an open mark, a reduction that ends well does what it does alone: it stops where it
stopped alone, at the latest at the mark. -/
theorem reduce_atop {least : Nat} {m m' : Machine}
    (fenced : base.pending.head? = some .openParen) (reduced : m.reduce least = (m', none)) :
    (m.atop base).reduce least = (m'.atop base, none) := by
  -- Along the reduction alone: each step it takes is taken on top, and its stop is a stop there.
  fun_induction reduce least m with
  | case1 operands op rest name depth looser =>
    -- An operation on top that binds looser stops the reduction here as well.
    simp only [Prod.mk.injEq] at reduced
    rw [← reduced.1]
    refine reduce_of_open fun top isTop => ?_
    simp only [atop, List.cons_append, List.head?_cons, Option.some.injEq,
      Pending.operation.injEq] at isTop
    exact isTop ▸ looser
  | case2 operands op rest name depth tight r l more ih =>
    -- Joining the two top operands takes none of the other's.
    rw [← ih reduced]
    exact reduce_apply (by simp [atop]) (by omega) (by simp [atop])
  -- A missing operand is a fault, which a reduction that ends well never meets.
  | case3 => simp at reduced
  | case4 m notOperation =>
    simp only [Prod.mk.injEq] at reduced
    rw [← reduced.1]
    -- With no operation on top, the top is a mark of its own or the other's.
    refine reduce_of_open fun op isTop => ?_
    rcases m with ⟨operands, _ | ⟨top, rest⟩, name, depth⟩
    · simp [atop, fenced] at isTop
    · simp only [atop, List.cons_append, List.head?_cons, Option.some.injEq] at isTop
      exact absurd (isTop ▸ rfl) (notOperation operands op rest name depth)

/-- On top of an open mark, a step that reads a token without a fault does what it does alone, at
any position and under a limit raised by the other's open parentheses, when the other's variable,
if any, is the one read. -/
theorem step_atop {limit position position' : Nat} {m m' : Machine} {token : Token}
    (fenced : base.pending.head? = some .openParen) (counted : m.marks ≤ m.depth)
    (agrees : ∀ x ∈ base.variableName, ∀ y, token = .name y → x = y)
    (stepped : m.step limit position token = (m', none)) :
    (m.atop base).step (limit + base.depth) position' token = (m'.atop base, none) := by
  -- One case for each way a step reads a token without a fault.
  rcases step_cases stepped with ⟨text, d, rfl, readEq, rfl⟩ | ⟨x, rfl, admits, rfl⟩ |
    ⟨op, reduced, rfl, reducedEq, rfl⟩ | ⟨rfl, within, rfl⟩ |
    ⟨reduced, rest, rfl, reducedEq, marked, rfl⟩
  · -- A literal goes on top of both operand stacks alike.
    simp [step, pushLiteral, readEq, atop]
  · -- The variable registered on top or below is the one read.
    have agreed : ∀ y ∈ m.variableName.or base.variableName, y = x := by
      intro y member
      cases named : m.variableName with
      | none =>
        rw [named, Option.none_or] at member
        exact agrees y member x rfl
      | some z =>
        rw [named, Option.some_or, Option.mem_def, Option.some.injEq] at member
        exact admits y (member ▸ named)
    simp only [step, pushName, atop]
    cases named : m.variableName.or base.variableName with
    | none => simp
    | some first =>
      have same := agreed first named
      subst same
      simp
  · -- An operation reduces only down to the other's open mark, then waits on top of it.
    simp only [step]
    rw [reduce_atop fenced reducedEq]
    simp [atop]
  · -- The raised limit leaves the same room above the other's open parentheses.
    simp only [step, openParen]
    split
    · rename_i full
      simp only [atop] at full
      omega
    · simp only [atop, Machine.mk.injEq, Prod.mk.injEq, List.cons_append, and_true, true_and]
      omega
  · -- The mark taken off is one of its own, so its count of open parentheses has one to lose.
    have kept := reduce_nesting 0 m
    rw [reducedEq] at kept
    have opened : 1 ≤ reduced.depth := by
      have marks : 1 ≤ reduced.marks := by simp [marks, marked]
      simp only at kept
      omega
    simp only [step, closeParen]
    rw [reduce_atop fenced reducedEq]
    simp only [atop, marked, List.cons_append, Machine.mk.injEq, Prod.mk.injEq, and_true,
      true_and]
    omega

/-- On top of an open mark, a run that reads its tokens without a fault does what it does alone,
whatever the positions of the tokens, under a limit raised by the other's open parentheses, when
the other's variable, if any, is every name read. -/
theorem run_atop {limit : Nat} {m m' : Machine} {tokens tokens' : List (Nat × Token)}
    (fenced : base.pending.head? = some .openParen) (nested : m.Nested limit)
    (agrees : ∀ x ∈ base.variableName, ∀ y, Token.name y ∈ tokens.map Prod.snd → x = y)
    (same : tokens'.map Prod.snd = tokens.map Prod.snd)
    (ran : m.run limit tokens = (m', none)) :
    (m.atop base).run (limit + base.depth) tokens' = (m'.atop base, none) := by
  -- Induction on the tokens read alone, the machine and the other positions generalised.
  induction tokens generalizing m tokens' with
  | nil =>
    -- No token on either side: both machines are as they were.
    rw [List.map_nil, List.map_eq_nil_iff] at same
    subst same
    simp only [run, Prod.mk.injEq, and_true] at ran ⊢
    rw [ran]
  | cons entry rest ih =>
    rcases entry with ⟨position, token⟩
    obtain ⟨⟨position', token'⟩, rest', rfl, sameToken, sameRest⟩ :=
      List.map_eq_cons_iff.mp same
    simp only at sameToken
    subst sameToken
    simp only [run] at ran ⊢
    -- The first token is read alone without a fault, so on top as well; the rest follows.
    split at ran
    · rename_i next stepped
      have nestedNext := (nested.step position token').1
      rw [stepped] at nestedNext
      rw [step_atop fenced nested.counted
        (fun x named y isName => agrees x named y (by simp [isName])) stepped]
      exact ih nestedNext (fun x named y member => agrees x named y (by simp [member]))
        sameRest ran
    · cases ran

/-- On top of an open mark, a text that reads alone into a tree reads, closed by a parenthesis,
into that tree on top of the other's operands, with the mark taken off, under any limit with room
for the other's open parentheses. -/
theorem run_group {limit outer position : Nat} {m m' : Machine} {t : Expr} {rest : List Pending}
    {tokens tokens' more : List (Nat × Token)} (fenced : base.pending = .openParen :: rest)
    (agrees : ∀ x ∈ base.variableName, ∀ y, Token.name y ∈ tokens.map Prod.snd → x = y)
    (same : tokens'.map Prod.snd = tokens.map Prod.snd)
    (ran : empty.run limit tokens = (m, none)) (finished : m.finish = (m', .ok t))
    (room : limit + base.depth ≤ outer) :
    base.run outer (tokens' ++ (position, .closeParen) :: more) =
      (⟨t :: base.operands, rest, m.variableName.or base.variableName, base.depth - 1⟩ :
        Machine).run outer more := by
  have top : base.pending.head? = some .openParen := by simp [fenced]
  obtain ⟨reduced, reducedEq, settled, single, -⟩ := finish_cases finished
  -- Nothing was refused, so the count of open parentheses is the marks, which the last
  -- reduction leaves at none.
  have counted := run_depth_marks ran
  obtain ⟨keptMarks, keptDepth, -⟩ := reduce_nesting 0 m
  simp only [reducedEq] at keptMarks keptDepth
  have unmarked : reduced.marks = 0 := by simp [marks, settled]
  have unopened : reduced.depth = 0 := by omega
  have named : reduced.variableName = m.variableName := by
    simpa [reducedEq] using reduce_variableName 0 m
  -- The text reads on top of the mark as it reads alone, refusing nothing, so under the outer
  -- limit as well; the parenthesis then closes the mark.
  have ranAtop := run_atop top (nested_empty limit) agrees same ran
  rw [empty_atop] at ranAtop
  have ranOuter : base.run outer tokens' = base.run (limit + base.depth) tokens' :=
    run_deeper room (by simp [ranAtop, Fault.refusals])
  rw [run_append, ranOuter, ranAtop]
  simp only [run, step, closeParen]
  rw [reduce_atop top reducedEq]
  simp [atop, settled, single, fenced, unopened, named]

/-- A text in parentheses that reads alone into a tree, read on any machine under a limit with
room for one more open parenthesis, pushes that tree and leaves the rest as it was. -/
theorem run_paren {limit outer position position' : Nat} {m m' : Machine} {t : Expr}
    {tokens tokens' more : List (Nat × Token)}
    (agrees : ∀ x ∈ base.variableName, ∀ y, Token.name y ∈ tokens.map Prod.snd → x = y)
    (same : tokens'.map Prod.snd = tokens.map Prod.snd)
    (ran : empty.run limit tokens = (m, none)) (finished : m.finish = (m', .ok t))
    (room : limit + base.depth + 1 ≤ outer) :
    base.run outer ((position, .openParen) :: (tokens' ++ (position', .closeParen) :: more)) =
      (⟨t :: base.operands, base.pending, m.variableName.or base.variableName, base.depth⟩ :
        Machine).run outer more := by
  -- The open parenthesis fits under the limit and is marked; the group then reads on top of
  -- the mark and takes it off.
  have opened : base.step outer position .openParen =
      ({ base with depth := base.depth + 1, pending := .openParen :: base.pending }, none) := by
    simp only [step, openParen]
    rw [if_neg (by omega)]
  rw [run, opened]
  exact @run_group { base with depth := base.depth + 1, pending := .openParen :: base.pending }
    limit outer position' m m' t base.pending tokens tokens' more rfl agrees same ran finished
    (by omega)

/-- A machine holding a single tree and nothing pending ends the reading with that tree. -/
theorem finish_single {t : Expr} {name : Option String} {depth : Nat} :
    (⟨[t], [], name, depth⟩ : Machine).finish.2 = .ok t := by
  -- Nothing pending, so the last reduction does nothing and one tree is left.
  unfold finish
  rw [reduce_of_open (by simp [Open])]
  rfl

end Machine

namespace Token

/-! ### The tokens of a group -/

/-- A text in parentheses is read as an open parenthesis, the text's tokens one place on, and a
closing parenthesis after them. -/
theorem scan_group (cs ds : List Char) (position : Nat) :
    scan ('(' :: (cs ++ ')' :: ds)) position =
      (position, .openParen) :: (scan cs (position + 1) ++
        (position + 1 + cs.length, .closeParen) :: scan ds (position + 1 + cs.length + 1)) := by
  have opening := @scan_lexeme .openParen trivial (cs ++ ')' :: ds) (fun _ _ => rfl) position
  have closing := @scan_lexeme .closeParen trivial ds (fun _ _ => rfl) (position + 1 + cs.length)
  -- The closing parenthesis ends the text's last token.
  have ends : ∀ d ∈ (')' :: ds).head?, isLiteralChar d = false ∧ Text.isLetter d = false := by
    intro d first
    rw [List.head?_cons, Option.mem_some_iff] at first
    subst first
    decide
  simp only [text, List.singleton_append, List.length_singleton] at opening closing
  rw [opening, scan_append ends cs (position + 1), closing]

/-- An operation symbol is read as that operation, whatever follows it. -/
theorem scan_symbol (op : Operation) (rest : List Char) (position : Nat) :
    scan (op.symbol :: rest) position = (position, .operation op) :: scan rest (position + 1) :=
  -- A symbol is a lexeme of one character, which ends at itself.
  @scan_lexeme (.operation op) trivial rest (fun _ _ => rfl) position

/-- Where a text starts changes the positions of its tokens only. -/
theorem snd_scan (cs : List Char) (position : Nat) :
    (scan cs position).map Prod.snd = (scan cs 0).map Prod.snd := by
  -- Scanning from a later position shifts every position by the same amount.
  have shifted := scan_shift cs 0 position
  rw [Nat.zero_add] at shifted
  simp [shifted]

@[simp] theorem scan_nil (position : Nat) : scan [] position = [] := by
  rw [scan]

end Token

namespace Machine

/-! ### Reading groups -/

/-- A text that reads alone into a tree reads, in parentheses, into the same tree, under a limit
one higher. -/
theorem parse_paren {limit : Nat} {s : String} {m m' : Machine} {t : Expr}
    (ran : empty.run limit (Token.ofString s) = (m, none)) (finished : m.finish = (m', .ok t)) :
    (empty.parse (limit + 1) ("(" ++ s ++ ")")).2 = .ok t := by
  -- The group is read on the empty machine, which then holds the tree alone.
  have spelled : ("(" ++ s ++ ")").toList = '(' :: (s.toList ++ ')' :: []) := by simp
  unfold Machine.parse
  rw [Token.ofString, spelled, Token.scan_group,
    run_paren (by simp [empty]) (Token.snd_scan s.toList _) ran finished (by simp [empty])]
  simp only [Token.scan_nil, run]
  exact finish_single

/-- Two texts that read alone into trees read, each in parentheses and joined by an operation,
into that operation's node over the two trees, under a limit one higher, when the variable the
first registers, if any, is every name of the second. -/
theorem parse_paren_operation {limit : Nat} {s s' : String} {m m' n n' : Machine} {t t' : Expr}
    (ran : empty.run limit (Token.ofString s) = (m, none)) (finished : m.finish = (m', .ok t))
    (ran' : empty.run limit (Token.ofString s') = (n, none))
    (finished' : n.finish = (n', .ok t'))
    (agrees : ∀ x ∈ m.variableName, ∀ y, Token.name y ∈ (Token.ofString s').map Prod.snd →
      x = y)
    (op : Operation) :
    (empty.parse (limit + 1)
        ("(" ++ s ++ ")" ++ String.singleton op.symbol ++ "(" ++ s' ++ ")")).2 =
      .ok (.bin op t t') := by
  have spelled : ("(" ++ s ++ ")" ++ String.singleton op.symbol ++ "(" ++ s' ++ ")").toList =
      '(' :: (s.toList ++ ')' :: op.symbol :: '(' :: (s'.toList ++ ')' :: [])) := by simp
  -- The operation waits on the first tree, with nothing to reduce under it.
  have waits : ∀ (name : Option String) (position : Nat),
      (⟨[t], [], name, 0⟩ : Machine).step (limit + 1) position (.operation op) =
        (⟨[t], [.operation op], name, 0⟩, none) := by
    intro name position
    simp only [step]
    rw [reduce_of_open (by simp [Open])]
  -- The first group, the operation, then the second group on top of it.
  unfold Machine.parse
  rw [Token.ofString, spelled, Token.scan_group, Token.scan_symbol, Token.scan_group,
    run_paren (by simp [empty]) (Token.snd_scan s.toList _) ran finished (by simp [empty])]
  rw [run, show (⟨t :: empty.operands, empty.pending, m.variableName.or empty.variableName,
      empty.depth⟩ : Machine) = ⟨[t], [], m.variableName, 0⟩ by simp [empty], waits]
  dsimp only
  rw [run_paren (by simpa [Token.ofString] using agrees) (Token.snd_scan s'.toList _) ran'
    finished' (by simp)]
  -- The end joins the two trees under the waiting operation.
  simp only [Token.scan_nil, run]
  exact Grammar.finish_pair rfl rfl

/-- A text read into a tree whose parentheses are never open as many as the limit at once is read
the same under a limit one lower. -/
theorem parse_lowered {limit : Nat} {s : String} {t : Expr}
    (parsed : (empty.parse limit s).2 = .ok t)
    (shallow : ∀ k, (s.toList.take k).count '(' - (s.toList.take k).count ')' < limit) :
    ∃ m m', empty.run (limit - 1) (Token.ofString s) = (m, none) ∧ m.finish = (m', .ok t) := by
  obtain ⟨m, ran, finished⟩ :=
    parse_cases (Prod.ext rfl parsed : empty.parse limit s = (_, .ok t))
  -- One limit lower, nothing is refused, so the run is the same.
  have kept := @run_shallow (limit - 1) s fun k => by
    have bounded := shallow k
    omega
  have same := run_deeper (Nat.sub_le limit 1) kept
  exact ⟨m, _, same ▸ ran, finished⟩

end Machine

namespace Evaluator

/-- Parenthesised groups read on their own. Two texts that an emptied evaluator reads into trees,
whose parentheses are never open as many as the nesting limit at once and whose names are one
variable between them, read: the first in parentheses, into its own tree; and the two in
parentheses joined by any operation, into that operation's node over the two trees. -/
theorem parse_groups (ev : Evaluator) {s s' : String} {t t' : Expr}
    (first : ({ ev with machine := Machine.empty }.parse s).2 = .ok t)
    (second : ({ ev with machine := Machine.empty }.parse s').2 = .ok t')
    (shallow : ∀ k, (s.toList.take k).count '(' - (s.toList.take k).count ')' < ev.maxDepth)
    (shallow' : ∀ k, (s'.toList.take k).count '(' - (s'.toList.take k).count ')' < ev.maxDepth)
    (oneName : ∀ x y, Token.name x ∈ (Token.ofString s).map Prod.snd →
      Token.name y ∈ (Token.ofString s').map Prod.snd → x = y) :
    ({ ev with machine := Machine.empty }.parse ("(" ++ s ++ ")")).2 = .ok t ∧
      ∀ op : Operation, ({ ev with machine := Machine.empty }.parse
        ("(" ++ s ++ ")" ++ String.singleton op.symbol ++ "(" ++ s' ++ ")")).2 =
          .ok (.bin op t t') := by
  obtain ⟨m, m', ran, finished⟩ := Machine.parse_lowered first shallow
  obtain ⟨n, n', ran', finished'⟩ := Machine.parse_lowered second shallow'
  -- The limit leaves room for the outer parenthesis: nothing is open before the text starts.
  have room : ev.maxDepth = ev.maxDepth - 1 + 1 := by
    have := shallow 0
    simp only [List.take_zero, List.count_nil] at this
    omega
  -- The variable the first text registers is one of its names.
  have agrees : ∀ x ∈ m.variableName, ∀ y,
      Token.name y ∈ (Token.ofString s').map Prod.snd → x = y := fun x named y member =>
    oneName x y (by simpa using (Machine.tallies_empty.run ran).registered x named) member
  -- Only the machine of the evaluator is read, which is empty.
  refine ⟨?_, fun op => ?_⟩
  · show (Machine.empty.parse ev.maxDepth _).2 = _
    rw [room]
    exact Machine.parse_paren ran finished
  · show (Machine.empty.parse ev.maxDepth _).2 = _
    rw [room]
    exact Machine.parse_paren_operation ran finished ran' finished' agrees op

/-- The groups of `(x + 1) * (2 * x)` and of every other operation between the same two texts. -/
theorem groups_of_sum_and_product :
    ({ withDefaults with machine := Machine.empty }.parse "x + 1").2 =
        .ok (.bin .add (.var "x") (.num ⟨false, 1, 0⟩)) ∧
      ({ withDefaults with machine := Machine.empty }.parse "2 * x").2 =
        .ok (.bin .mul (.num ⟨false, 2, 0⟩) (.var "x")) ∧
      (∀ k, ("x + 1".toList.take k).count '(' - ("x + 1".toList.take k).count ')' <
        withDefaults.maxDepth) ∧
      (∀ k, ("2 * x".toList.take k).count '(' - ("2 * x".toList.take k).count ')' <
        withDefaults.maxDepth) ∧
      (∀ a b, Token.name a ∈ (Token.ofString "x + 1").map Prod.snd →
        Token.name b ∈ (Token.ofString "2 * x").map Prod.snd → a = b) ∧
      ({ withDefaults with machine := Machine.empty }.parse ("(" ++ "x + 1" ++ ")")).2 =
          .ok (.bin .add (.var "x") (.num ⟨false, 1, 0⟩)) ∧
      ∀ op : Operation, ({ withDefaults with machine := Machine.empty }.parse
        ("(" ++ "x + 1" ++ ")" ++ String.singleton op.symbol ++ "(" ++ "2 * x" ++ ")")).2 =
          .ok (.bin op (.bin .add (.var "x") (.num ⟨false, 1, 0⟩))
            (.bin .mul (.num ⟨false, 2, 0⟩) (.var "x"))) := by
  have first : ({ withDefaults with machine := Machine.empty }.parse "x + 1").2 =
      .ok (.bin .add (.var "x") (.num ⟨false, 1, 0⟩)) := by decide +kernel
  have second : ({ withDefaults with machine := Machine.empty }.parse "2 * x").2 =
      .ok (.bin .mul (.num ⟨false, 2, 0⟩) (.var "x")) := by decide +kernel
  -- Neither text has a parenthesis, so none is ever open.
  have unbracketed : ∀ u : String, u.toList.count '(' = 0 →
      ∀ k, (u.toList.take k).count '(' - (u.toList.take k).count ')' < withDefaults.maxDepth := by
    intro u none k
    have within := (List.take_sublist k u.toList).count_le '('
    simp only [withDefaults, Settings.defaultMaxDepth]
    omega
  have lexed : (Token.ofString "x + 1").map Prod.snd =
      [.name "x", .operation .add, .literal "1"] := by decide +kernel
  have lexed' : (Token.ofString "2 * x").map Prod.snd =
      [.literal "2", .operation .mul, .name "x"] := by decide +kernel
  have oneName : ∀ a b, Token.name a ∈ (Token.ofString "x + 1").map Prod.snd →
      Token.name b ∈ (Token.ofString "2 * x").map Prod.snd → a = b := by
    intro a b named named'
    simp only [lexed, lexed', List.mem_cons, Token.name.injEq, reduceCtorEq, List.not_mem_nil,
      or_false, false_or] at named named'
    rw [named, named']
  have shallow := unbracketed "x + 1" (by decide)
  have shallow' := unbracketed "2 * x" (by decide)
  exact ⟨first, second, shallow, shallow', oneName,
    parse_groups withDefaults first second shallow shallow' oneName⟩

end Evaluator

end Calculator
