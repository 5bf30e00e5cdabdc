import Calculator.Proofs.Session

/-! The pending stack in layers. The open marks cut the pending stack into layers, and within a
layer the operations bind strictly more tightly the higher they stand: an operation is pushed
only once every operation of its layer that binds at least as tightly has been applied. With two
levels of binding a layer holds at most a sum or difference below a product or quotient, so a
stack with `k` marks has at most `3 * k + 2` entries; and since the marks never exceed the
nesting limit, neither does the stack, whatever calls an evaluator has made. -/

namespace Calculator

/-- No operation binds more tightly than a product or a quotient. -/
theorem Operation.precedence_le_two (op : Operation) : op.precedence ≤ 2 := by
  -- Sums and differences bind at one, products and quotients at two.
  cases op <;> decide

namespace Pending

/-- Which entry may stand right on which: an operation on an operation must bind strictly more
tightly, and a mark, or an operation on a mark, is bound by nothing. -/
def Above : Pending → Pending → Prop
  | .operation upper, .operation lower => lower.precedence < upper.precedence
  | _, _ => True

/-- How tightly the operation on top of a stack binds, and zero when a mark or nothing is on
top. -/
def tightness : List Pending → Nat
  | .operation op :: _ => op.precedence
  | _ => 0

theorem tightness_le_two (pending : List Pending) : tightness pending ≤ 2 := by
  -- Only an operation on top counts, and none binds more tightly than two.
  rcases pending with _ | ⟨op | _, _⟩
  · exact Nat.zero_le _
  · exact op.precedence_le_two
  · exact Nat.zero_le _

/-- A layered stack has at most three entries per mark, plus the operations of its top layer, as
many as the tightness of its top. -/
theorem length_le_of_layered {pending : List Pending} (layered : pending.IsChain Above) :
    pending.length ≤ 3 * pending.count .openParen + tightness pending := by
  -- Induction from the top down: the bound for the rest, plus what the top entry adds.
  induction pending with
  | nil => simp
  | cons top rest ih =>
    have below := ih layered.tail
    have restTight := tightness_le_two rest
    cases top with
    | openParen =>
      -- A mark starts a new layer: the layer below it holds at most two operations.
      simp only [List.length_cons, List.count_cons_self, tightness]
      omega
    | operation op =>
      -- The operation binds more tightly than the top of the rest, if that is an operation.
      have tighter : tightness rest < op.precedence := by
        rcases rest with _ | ⟨lower | _, more⟩
        · exact op.precedence_pos
        · exact List.IsChain.rel_head? layered rfl
        · exact op.precedence_pos
      simp only [List.length_cons, tightness]
      rw [List.count_cons_of_ne (by simp)]
      omega

end Pending

namespace Machine

/-- Within each layer of the pending stack, cut at the open marks, the operations bind strictly
more tightly from the bottom to the top. -/
def Layered (m : Machine) : Prop := m.pending.IsChain Pending.Above

theorem layered_empty : empty.Layered := List.IsChain.nil

/-- A layered stack holds at most three entries per open mark, and two more. -/
theorem Layered.length_le {m : Machine} (layered : m.Layered) :
    m.pending.length ≤ 3 * m.marks + 2 := by
  -- The top layer holds at most as many operations as the tightest binding, which is two.
  have bound := Pending.length_le_of_layered layered
  have top := Pending.tightness_le_two m.pending
  simp only [marks]
  omega

/-- Reducing only takes entries off the top of the pending stack. -/
theorem reduce_pending_suffix (least : Nat) (m : Machine) :
    (m.reduce least).1.pending <:+ m.pending := by
  fun_induction reduce least m with
  -- An operation binding looser than the least is left where it is.
  | case1 => exact List.suffix_refl _
  -- An operation is applied and taken off, and the reduction goes on below it.
  | case2 operands op rest name depth tight r l more ih =>
    exact ih.trans (List.suffix_cons _ _)
  | case3 =>
    -- Fewer than two operands: the operation is taken off and the reduction stops.
    split
    · rename_i same notTwo _ _
      exact (notTwo _ _ _ same rfl HEq.rfl).elim
    · exact List.suffix_cons _ _
  -- A mark or nothing on top stops the reduction as well.
  | case4 => exact List.suffix_refl _

/-- What one token does to the pending stack, whether or not it faults: it takes entries off the
top, marks an open parenthesis, or pushes an operation onto what a reduction left. -/
theorem step_pending (limit position : Nat) (m : Machine) (token : Token) :
    (m.step limit position token).1.pending <:+ m.pending ∨
      (m.step limit position token).1.pending = .openParen :: m.pending ∨
      ∃ op reduced, m.reduce op.precedence = (reduced, none) ∧
        (m.step limit position token).1.pending = .operation op :: reduced.pending := by
  cases token with
  -- Operands and strays leave the pending stack as it is, whether they fault or not.
  | literal text =>
    simp only [step, pushLiteral]
    split <;> exact .inl (List.suffix_refl _)
  | name text =>
    simp only [step, pushName]
    split
    · exact .inl (List.suffix_refl _)
    · split <;> exact .inl (List.suffix_refl _)
  | operation op =>
    -- The reduction takes entries off; the operation is pushed only if it did not fault.
    have shorter := reduce_pending_suffix op.precedence m
    simp only [step]
    split
    · rename_i state f reduced
      rw [reduced] at shorter
      exact .inl shorter
    · rename_i state reduced
      exact .inr (.inr ⟨op, state, reduced, rfl⟩)
  | openParen =>
    -- Past the nesting limit nothing is pushed; otherwise the mark is.
    simp only [step, openParen]
    split
    · exact .inl (List.suffix_refl _)
    · exact .inr (.inl rfl)
  | closeParen =>
    -- The reduction takes operations off; a mark found under them goes as well.
    have shorter := reduce_pending_suffix 0 m
    simp only [step, closeParen]
    split
    · rename_i state f reduced
      rw [reduced] at shorter
      exact .inl shorter
    · rename_i state reduced
      rw [reduced] at shorter
      split
      · exact .inl shorter
      · rename_i top rest stacked
        rw [stacked] at shorter
        exact .inl ((List.suffix_cons top rest).trans shorter)
  | stray c => exact .inl (List.suffix_refl _)

/-- One token keeps the stack layered: an operation is pushed only on what binds looser than it
or on a mark, since the reduction before it left nothing else on top. -/
theorem Layered.step {limit position : Nat} {m : Machine} (layered : m.Layered) (token : Token) :
    (m.step limit position token).1.Layered := by
  rcases step_pending limit position m token with shorter | marked | ⟨op, reduced, reducedEq, pushed⟩
  -- What is left of a layered stack is layered.
  · exact List.IsChain.suffix layered shorter
  -- A mark starts a new layer and is bound by nothing.
  · rw [Layered, marked]
    exact List.IsChain.cons layered fun _ _ => trivial
  · -- The reduction stopped at a mark, at nothing, or at an operation binding looser.
    have below : reduced.pending <:+ m.pending := by
      have shorter := reduce_pending_suffix op.precedence m
      rwa [reducedEq] at shorter
    have loose := reduce_open reducedEq
    rw [Layered, pushed]
    refine List.IsChain.cons (List.IsChain.suffix layered below) fun lower onTop => ?_
    cases lower with
    | openParen => trivial
    | operation lower => exact loose lower onTop

/-- A run of tokens keeps the stack layered, up to the token that faulted if one did. -/
theorem Layered.run {limit : Nat} {m : Machine} (layered : m.Layered)
    (tokens : List (Nat × Token)) : (m.run limit tokens).1.Layered := by
  -- The step lemma carries the invariant from each token to the next.
  induction tokens generalizing m with
  | nil => exact layered
  | cons entry rest ih =>
    rcases entry with ⟨position, token⟩
    have next : (m.step limit position token).1.Layered := layered.step token
    simp only [Machine.run]
    split
    · rename_i state stepped
      rw [stepped] at next
      exact ih next
    · -- A fault stops the run at the state that token left.
      rename_i state f stepped
      rw [stepped] at next
      exact next

/-- Ending a reading leaves the pending stack that its last reduction left. -/
theorem finish_pending (m : Machine) : m.finish.1.pending = (m.reduce 0).1.pending := by
  unfold finish
  -- The checks after the reduction take the tree off, but leave the pending stack alone.
  split
  · rename_i state f reduced
    rw [reduced]
  · rename_i state reduced
    rw [reduced]
    split
    · rfl
    · split <;> rfl

/-- Reading a text keeps the stack layered, whether it returns or faults. -/
theorem Layered.parse {limit : Nat} {m : Machine} (layered : m.Layered) (s : String) :
    (m.parse limit s).1.Layered := by
  have ran : (m.run limit (Token.ofString s)).1.Layered := layered.run _
  unfold Machine.parse
  -- A fault stops the reading after the run; otherwise the ending only takes entries off.
  split
  · rename_i state f stepped
    rw [stepped] at ran
    exact ran
  · rename_i state stepped
    rw [stepped] at ran
    rw [Layered, finish_pending]
    exact List.IsChain.suffix ran (reduce_pending_suffix 0 state)

end Machine

namespace Evaluator

/-- A call keeps the stack layered: an evaluation reads from an emptied machine or changes
nothing, and a reading goes on from the machine as it is. -/
theorem layered_call {ev : Evaluator} (layered : ev.machine.Layered) (c : Call) :
    (ev.call c).1.machine.Layered := by
  cases c with
  | parse text => exact layered.parse text
  | evaluate expr value =>
    -- A blank problem is answered without touching the machine.
    cases resets : (Call.evaluate expr value).resets with
    | false =>
      simp only [call, evaluate_without_reset value resets]
      exact layered
    | true =>
      -- Any other is read from the empty machine, which is layered.
      obtain ⟨s, rfl, notBlank⟩ : ∃ s, expr = some s ∧ isBlankExpr s = false := by
        cases expr with
        | none => cases resets
        | some s => exact ⟨s, rfl, by simpa [Call.resets] using resets⟩
      simp only [call, (evaluate_reads ev value notBlank).1]
      exact Machine.layered_empty.parse s

/-- Every history of calls keeps the stack layered. -/
theorem layered_replay {ev : Evaluator} (layered : ev.machine.Layered) (calls : List Call) :
    (ev.replay calls).machine.Layered := by
  -- Each call keeps the invariant, and the next call starts where it ended.
  induction calls generalizing ev with
  | nil => exact layered
  | cons c rest ih => exact ih (layered_call layered c)

/-- In every state an evaluator reaches from its making, by calls that each returned or raised,
the pending stack is layered: within each layer between open marks the operations bind strictly
more tightly from the bottom to the top. It holds at most `maxDepth` marks, and so at most
`3 * maxDepth + 2` entries. -/
theorem pending_layered_after_history (precision maxDepth : Nat) (calls : List Call) :
    let m := (({ precision, maxDepth } : Evaluator).replay calls).machine
    m.Layered ∧ m.marks ≤ maxDepth ∧ m.pending.length ≤ 3 * maxDepth + 2 := by
  intro m
  -- Both invariants start at the empty machine; the count of marks is the nesting bound.
  have layered : m.Layered := layered_replay Machine.layered_empty calls
  have marked : m.marks ≤ maxDepth :=
    (nested_replay (Machine.nested_empty maxDepth) calls).bounded
  refine ⟨layered, marked, ?_⟩
  -- The length bound of a layered stack, at no more marks than the limit.
  have bound := layered.length_le
  omega

end Evaluator

end Calculator
