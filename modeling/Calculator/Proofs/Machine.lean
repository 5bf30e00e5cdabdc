import Calculator.Machine
import Calculator.Proofs.Evaluation

/-! Laws of the reading machine: what one reduction does, that a run over joined token lists is
the two runs one after the other, and the invariant that ties the registered variable to the
variable leaves on the operand stack. -/

namespace Calculator

namespace Fault

/-- The faults that reading an expression meets: everything but a bad value of the variable,
the faults of computing, and a missing value. -/
def IsReading : Fault → Prop
  | .badLiteral _ | .invalidCharacter _ _ | .missingOperand _ | .operandCount _ | .missingClose
  | .missingOpen _ | .multipleVariables _ _ | .tooDeep _ _ => True
  | .badValue _ | .noValue _ | .overflow | .divisionByZero => False

end Fault

/-- Every operation binds: its precedence is at least one. -/
theorem Operation.precedence_pos (op : Operation) : 0 < op.precedence := by
  -- Sums bind at one and products at two, both above the zero of an empty reduction.
  cases op <;> decide

namespace Machine

/-- The top of the pending stack is no operation, or one that binds looser than `least`: reducing
down to `least` does nothing. -/
def Open (least : Nat) (m : Machine) : Prop :=
  ∀ op, m.pending.head? = some (.operation op) → op.precedence < least

/-- A top that binds looser than one precedence binds looser than any higher one. -/
theorem Open.mono {least higher : Nat} {m : Machine} (loose : m.Open least)
    (raised : least ≤ higher) : m.Open higher := fun op top => by
  -- Looser than the lower bound is looser than any bound above it.
  have looser := loose op top
  omega

/-- Reducing stops at once under a top that binds looser than asked, or that is no operation. -/
theorem reduce_of_open {least : Nat} {m : Machine} (loose : m.Open least) :
    m.reduce least = (m, none) := by
  rcases m with ⟨operands, pending, name, depth⟩
  -- An empty stack or a mark on top falls to the last case of the reduction.
  cases pending with
  | nil => simp [reduce]
  | cons top rest =>
    cases top with
    | openParen => simp [reduce]
    | operation op =>
      -- The top binds looser than `least`, so the first test already stops.
      have looser : op.precedence < least := loose op rfl
      unfold reduce
      split <;> simp_all

/-- An operation on top that binds at least as tightly as asked, with two operands under it,
takes them off and pushes their tree; reducing then goes on. -/
theorem reduce_apply {least : Nat} {m : Machine} {op : Operation} {rest : List Pending}
    {r l : Expr} {more : List Expr} (top : m.pending = .operation op :: rest)
    (tight : least ≤ op.precedence) (two : m.operands = r :: l :: more) :
    m.reduce least = reduce least { m with operands := .bin op l r :: more, pending := rest } := by
  rcases m with ⟨operands, pending, name, depth⟩
  simp only at top two
  subst top two
  -- The precedence test passes, and the operand match takes its first branch.
  rw [reduce, if_neg (by omega)]

/-- An operation on top that binds at least as tightly as asked, with fewer than two operands
under it, is taken off and reported. -/
theorem reduce_missing {least : Nat} {m : Machine} {op : Operation} {rest : List Pending}
    (top : m.pending = .operation op :: rest) (tight : least ≤ op.precedence)
    (short : ∀ r l more, m.operands ≠ r :: l :: more) :
    m.reduce least = ({ m with pending := rest }, some (.missingOperand op)) := by
  rcases m with ⟨operands, pending, name, depth⟩
  simp only at top short
  subst top
  -- With no operand or a single one, the reduction takes the operation off and stops.
  cases operands with
  | nil => simp [reduce, show ¬ op.precedence < least by omega]
  | cons r more =>
    cases more with
    | nil => simp [reduce, show ¬ op.precedence < least by omega]
    | cons l more => exact absurd rfl (short r l more)

/-- Reducing keeps the registered variable, whether it ends well or not. -/
theorem reduce_variableName (least : Nat) (m : Machine) :
    (m.reduce least).1.variableName = m.variableName := by
  -- No case of the reduction touches the name; the joining case keeps it by induction.
  fun_induction reduce least m <;> simp_all

/-- Reducing keeps the count of open parentheses, whether it ends well or not. -/
theorem reduce_depth (least : Nat) (m : Machine) : (m.reduce least).1.depth = m.depth := by
  -- Marks are never taken off by a reduction, so no case changes the count.
  fun_induction reduce least m <;> simp_all

/-- The only fault of a reduction is an operation short of operands. -/
theorem reduce_fault {least : Nat} {m : Machine} {f : Fault}
    (failed : (m.reduce least).2 = some f) : ∃ op, f = .missingOperand op := by
  fun_induction reduce least m with
  -- The case with too few operands is the one that reports.
  | case3 _ op => exact ⟨op, by simp_all⟩
  -- The others stop without a fault, or pass on the fault of the rest of the reduction.
  | _ => simp_all

/-- A run over one token is the step that reads it. -/
theorem run_singleton (limit : Nat) (m : Machine) (position : Nat) (token : Token) :
    m.run limit [(position, token)] = m.step limit position token := by
  simp only [run]
  -- After the step nothing is left to read, whether it faulted or not.
  split <;> simp_all

/-- A run over joined token lists is the run over the first, then, unless it faulted, the run
over the second from where the first ended. -/
theorem run_append (limit : Nat) (m : Machine) (first second : List (Nat × Token)) :
    m.run limit (first ++ second) =
      match m.run limit first with
      | (m, none) => m.run limit second
      | (m, some f) => (m, some f) := by
  -- Induction on the first list, from whatever state its next token is read in.
  induction first generalizing m with
  | nil => simp [run]
  | cons entry rest ih =>
    rcases entry with ⟨position, token⟩
    -- The first token decides whether the run goes on, on both sides alike.
    simp only [List.cons_append, run]
    cases m.step limit position token with
    | mk m' fault =>
      cases fault with
      | none => exact ih m'
      | some f => rfl

/-- The registered variable names every variable leaf on the operand stack, and a variable is
registered only once a leaf on the stack names it. -/
structure Registered (m : Machine) : Prop where
  named : ∀ o ∈ m.operands, ∀ n ∈ o.names, m.variableName = some n
  witnessed : m.variableName ≠ none → ∃ o ∈ m.operands, o.names ≠ []

/-- Nothing is registered before anything is read. -/
theorem registered_empty : empty.Registered where
  named := by simp [empty]
  witnessed := by simp [empty]

/-- Joining the two top operands into one tree keeps its leaves on the stack. -/
theorem Registered.join {op : Operation} {r l : Expr} {more : List Expr} {rest : List Pending}
    {name : Option String} {depth : Nat} (reg : Registered ⟨r :: l :: more, .operation op :: rest, name, depth⟩) :
    Registered ⟨.bin op l r :: more, rest, name, depth⟩ where
  named := by
    -- A leaf of the new tree was a leaf of one of its two operands.
    intro o member n leaf
    simp only [List.mem_cons] at member
    rcases member with rfl | deeper
    · simp only [Expr.names, List.mem_append] at leaf
      rcases leaf with inLeft | inRight
      · exact reg.named l (by simp) n inLeft
      · exact reg.named r (by simp) n inRight
    · exact reg.named o (by simp [deeper]) n leaf
  witnessed := by
    -- The leaf that witnessed the name is now inside the joined tree, or still below it.
    intro registered
    obtain ⟨o, member, leaves⟩ := reg.witnessed registered
    simp only [List.mem_cons] at member
    rcases member with rfl | rfl | deeper
    · exact ⟨.bin op l o, by simp, by simp [Expr.names, leaves]⟩
    · exact ⟨.bin op o r, by simp, by simp [Expr.names, leaves]⟩
    · exact ⟨o, by simp [deeper], leaves⟩

/-- Reducing keeps the invariant, whether it ends well or not: trees are only joined, and a
failed reduction drops no operand. -/
theorem Registered.reduce (least : Nat) :
    ∀ (pending : List Pending) (m : Machine), m.pending = pending → m.Registered →
      (m.reduce least).1.Registered := by
  -- Each joined operation leaves the pending stack shorter.
  intro pending
  induction pending with
  | nil =>
    -- Nothing pending: the reduction does nothing.
    intro m stacked reg
    rw [reduce_of_open (by simp [Open, stacked])]
    exact reg
  | cons top rest ih =>
    intro m stacked reg
    -- A mark or a looser operation on top stops the reduction where it is.
    cases top with
    | openParen =>
      rw [reduce_of_open (by simp [Open, stacked])]
      exact reg
    | operation op =>
      by_cases loose : op.precedence < least
      · rw [reduce_of_open (by simp [Open, stacked, loose])]
        exact reg
      · -- The operation binds tightly enough: it joins two operands, or it finds too few.
        rcases m with ⟨operands, pending, name, depth⟩
        simp only at stacked
        subst stacked
        match operands, reg with
        | r :: l :: more, reg =>
          rw [reduce_apply rfl (by omega) rfl]
          exact ih _ rfl reg.join
        -- Too few operands: only the operation goes, and the operands stay as they were.
        | [], reg =>
          rw [reduce_missing rfl (by omega) (by simp)]
          exact ⟨reg.named, reg.witnessed⟩
        | [r], reg =>
          rw [reduce_missing rfl (by omega) (by simp)]
          exact ⟨reg.named, reg.witnessed⟩

/-- Pushing a tree keeps the invariant when its leaves carry the name registered afterwards, that
name is the one before unless none was, and a name registered anew comes with a leaf. -/
theorem Registered.push {m : Machine} {e : Expr} {v : Option String} (reg : m.Registered)
    (kept : m.variableName = none ∨ m.variableName = v) (leaves : ∀ n ∈ e.names, v = some n)
    (fresh : v ≠ none → e.names ≠ [] ∨ m.variableName = v) :
    Registered { m with operands := e :: m.operands, variableName := v } where
  named := by
    -- The new tree's leaves carry the new name by assumption.
    intro o member n leaf
    simp only [List.mem_cons] at member
    rcases member with rfl | deeper
    · exact leaves n leaf
    · -- An old leaf carries the old name, so there was one, and it is kept.
      have old := reg.named o deeper n leaf
      rcases kept with unnamed | same
      · simp [unnamed] at old
      · exact same ▸ old
  witnessed := by
    -- A name is witnessed by the new tree, or it is the old name with its old witness.
    intro registered
    rcases fresh registered with hasLeaves | same
    · exact ⟨e, List.mem_cons_self, hasLeaves⟩
    · obtain ⟨o, member, leaves⟩ := reg.witnessed (same ▸ registered)
      exact ⟨o, List.mem_cons_of_mem e member, leaves⟩

/-- Pushing a tree without variable leaves keeps the invariant. -/
theorem Registered.pushPlain {m : Machine} {e : Expr} (plain : e.names = [])
    (reg : m.Registered) : Registered { m with operands := e :: m.operands } :=
  -- The name is kept, and the tree has no leaf to carry it or witness it.
  reg.push (.inr rfl) (fun n leaf => by simp [plain] at leaf) (fun _ => .inr rfl)

/-- Reading a name keeps the invariant: the first name registers the variable, and a later one
is pushed only when it is the same. -/
theorem Registered.pushName {m m' : Machine} {name : String}
    (pushed : m.pushName name = (m', none)) (reg : m.Registered) : m'.Registered := by
  unfold Machine.pushName at pushed
  split at pushed
  · -- The first name: its leaf registers the variable.
    rename_i unnamed
    cases pushed
    exact reg.push (.inl unnamed) (by simp [Expr.names]) (fun _ => .inl (by simp [Expr.names]))
  · rename_i first registered
    split at pushed
    · -- The same name again: its leaf carries the registered name.
      rename_i same
      cases pushed
      exact reg.push (.inr rfl) (by simp [Expr.names, registered, same]) (fun _ => .inr rfl)
    · -- A second name faults, so there is no state to check.
      cases pushed

/-- A step that reads a token without a fault keeps the invariant. -/
theorem Registered.step {limit position : Nat} {m m' : Machine} {token : Token}
    (stepped : m.step limit position token = (m', none)) (reg : m.Registered) : m'.Registered := by
  cases token with
  | literal text =>
    -- A literal is a tree with no variable leaf.
    simp only [Machine.step, pushLiteral] at stepped
    split at stepped
    · cases stepped
      exact reg.pushPlain rfl
    · cases stepped
  | name text => exact reg.pushName stepped
  | operation op =>
    simp only [Machine.step] at stepped
    -- The reduction keeps the invariant, and pushing the operation touches no operand.
    have reduced := Registered.reduce op.precedence m.pending m rfl reg
    split at stepped
    · cases stepped
    · rename_i state reducedEq
      cases stepped
      rw [reducedEq] at reduced
      exact ⟨reduced.named, reduced.witnessed⟩
  | openParen =>
    -- Parentheses move only marks and the depth, never an operand or the name.
    simp only [Machine.step, Machine.openParen] at stepped
    split at stepped
    · cases stepped
    · cases stepped
      exact ⟨reg.named, reg.witnessed⟩
  | closeParen =>
    simp only [Machine.step, closeParen] at stepped
    -- The reduction down to the mark keeps the invariant, and taking the mark off does too.
    have reduced := Registered.reduce 0 m.pending m rfl reg
    split at stepped
    · cases stepped
    · rename_i state reducedEq
      rw [reducedEq] at reduced
      split at stepped
      · cases stepped
      · cases stepped
        exact ⟨reduced.named, reduced.witnessed⟩
  | stray c => simp [Machine.step] at stepped

/-- A run that reads all its tokens without a fault keeps the invariant. -/
theorem Registered.run {limit : Nat} {m m' : Machine} {tokens : List (Nat × Token)}
    (ran : m.run limit tokens = (m', none)) (reg : m.Registered) : m'.Registered := by
  induction tokens generalizing m with
  | nil =>
    simp only [Machine.run, Prod.mk.injEq] at ran
    exact ran.1 ▸ reg
  | cons entry rest ih =>
    -- The step lemma carries the invariant over the first token, and the rest by induction.
    rcases entry with ⟨position, token⟩
    simp only [Machine.run] at ran
    -- Each token is one step; a step that faulted would have ended the run with its fault.
    split at ran
    · rename_i next stepped
      exact ih ran (reg.step stepped)
    · cases ran

/-- The tree that ends a reading has a variable leaf exactly when a variable is registered, and
every such leaf carries the registered name. -/
theorem Registered.finish {m m' : Machine} {root : Expr} (finished : m.finish = (m', .ok root))
    (reg : m.Registered) :
    (∀ n ∈ root.names, m'.variableName = some n) ∧ (m'.variableName = none ↔ root.names = []) := by
  unfold Machine.finish at finished
  -- The final reduction ended well, and it kept the invariant.
  obtain ⟨state, reducedEq⟩ : ∃ state, m.reduce 0 = (state, none) := by
    cases reducedEq : m.reduce 0 with
    | mk state fault =>
      cases fault with
      | none => exact ⟨state, rfl⟩
      | some f => simp [reducedEq] at finished
  have reduced := Registered.reduce 0 m.pending m rfl reg
  rw [reducedEq] at finished reduced
  simp only at finished reduced
  -- No parenthesis is open and exactly one operand is left: it is the tree.
  split at finished
  · cases finished
  · split at finished
    · rename_i tree single
      simp only [Prod.mk.injEq, Except.ok.injEq] at finished
      obtain ⟨rfl, rfl⟩ := finished
      have named := reduced.named
      have witnessed := reduced.witnessed
      simp only [single, List.mem_singleton, forall_eq] at named witnessed
      refine ⟨named, ⟨fun unnamed => ?_, fun plain => ?_⟩⟩
      · -- With nothing registered, a leaf would have to carry no name at all.
        cases leaves : tree.names with
        | nil => rfl
        | cons n more =>
          have := named n (by simp [leaves])
          simp_all
      · -- A registered variable would have a leaf in the tree.
        cases registered : state.variableName with
        | none => rfl
        | some n =>
          obtain ⟨o, rfl, leaves⟩ := witnessed (by simp [registered])
          exact absurd plain leaves
    · simp at finished

/-- A reading from nothing that ends with a tree has registered the variable exactly when the tree
has a variable leaf, and every such leaf carries the registered name. -/
theorem parse_registers {limit : Nat} {s : String} {m : Machine} {root : Expr}
    (parsed : empty.parse limit s = (m, .ok root)) :
    (∀ n ∈ root.names, m.variableName = some n) ∧ (m.variableName = none ↔ root.names = []) := by
  unfold Machine.parse at parsed
  -- The run ended without a fault; the invariant holds from the empty machine to its end.
  split at parsed
  · cases parsed
  · rename_i state ran
    exact (registered_empty.run ran).finish parsed

/-- A step faults only with a fault of reading. -/
theorem step_fault {limit position : Nat} {m m' : Machine} {token : Token} {f : Fault}
    (stepped : m.step limit position token = (m', some f)) : f.IsReading := by
  -- Each kind of token stops on its own fault: a bad literal, a second variable, an operation
  -- short of operands, a parenthesis too deep or never opened, a stray character.
  cases token with
  | literal text =>
    simp only [Machine.step, pushLiteral] at stepped
    split at stepped
    · cases stepped
    · cases stepped
      trivial
  | name text =>
    simp only [Machine.step, pushName] at stepped
    split at stepped
    · cases stepped
    · split at stepped
      · cases stepped
      · cases stepped
        trivial
  | operation op =>
    simp only [Machine.step] at stepped
    split at stepped
    · -- The reduction before the operation is pushed faulted.
      rename_i state g reducedEq
      cases stepped
      obtain ⟨op', rfl⟩ := reduce_fault (congrArg Prod.snd reducedEq)
      trivial
    · cases stepped
  | openParen =>
    simp only [Machine.step, Machine.openParen] at stepped
    split at stepped
    · cases stepped
      trivial
    · cases stepped
  | closeParen =>
    simp only [Machine.step, closeParen] at stepped
    split at stepped
    · rename_i state g reducedEq
      cases stepped
      obtain ⟨op', rfl⟩ := reduce_fault (congrArg Prod.snd reducedEq)
      trivial
    · split at stepped
      · cases stepped
        trivial
      · cases stepped
  | stray c =>
    simp only [Machine.step, Prod.mk.injEq, Option.some.injEq] at stepped
    rw [← stepped.2]
    trivial

/-- A run faults only with a fault of reading. -/
theorem run_fault {limit : Nat} {m m' : Machine} {tokens : List (Nat × Token)} {f : Fault}
    (ran : m.run limit tokens = (m', some f)) : f.IsReading := by
  -- The fault of a run is the fault of the one step that stopped it.
  induction tokens generalizing m with
  | nil => simp [Machine.run] at ran
  | cons entry rest ih =>
    rcases entry with ⟨position, token⟩
    simp only [Machine.run] at ran
    split at ran
    · exact ih ran
    · rename_i next g stepped
      cases ran
      exact step_fault stepped

/-- Ending a reading faults only with a fault of reading. -/
theorem finish_fault {m m' : Machine} {f : Fault} (finished : m.finish = (m', .error f)) :
    f.IsReading := by
  unfold Machine.finish at finished
  -- The last reduction, a parenthesis left open, or other than one operand left.
  split at finished
  · rename_i state g reducedEq
    cases finished
    obtain ⟨op, rfl⟩ := reduce_fault (congrArg Prod.snd reducedEq)
    trivial
  · split at finished
    · cases finished
      trivial
    · split at finished
      · cases finished
      · cases finished
        trivial

/-- Reading an expression faults only with a fault of reading, whatever state it starts in. -/
theorem parse_fault {limit : Nat} {m : Machine} {s : String} {f : Fault}
    (failed : (m.parse limit s).2 = .error f) : f.IsReading := by
  unfold Machine.parse at failed
  -- The fault comes from the run over the tokens, or from ending the reading.
  split at failed
  · rename_i state g ran
    cases failed
    exact run_fault ran
  · rename_i state ran
    cases finished : state.finish with
    | mk m' result =>
      rw [finished] at failed
      cases failed
      exact finish_fault finished

end Machine

end Calculator
