import Calculator.Evaluator
import Calculator.Proofs.Lexing
import Calculator.Proofs.Machine

/-! Sentences of the documented grammar

    expr   := term (('+' | '-') term)*
    term   := factor (('*' | '/') factor)*
    factor := NUMBER | IDENT | '(' expr ')'

as derivation trees chained to the left, with their tokens and the tree that reading them by
recursive descent gives: operations associate to the left, products and quotients bind tighter
than sums and differences, and parentheses only group. -/

namespace Calculator.Grammar

/-- A numeral: ASCII digits, optionally followed by a point and more digits. -/
structure Numeral where
  whole : List Char
  fraction : Option (List Char)
  whole_digits : whole ≠ [] ∧ ∀ c ∈ whole, c.isDigit
  fraction_digits : ∀ f ∈ fraction, f ≠ [] ∧ ∀ c ∈ f, c.isDigit

namespace Numeral

/-- The digits after the point; none when there is no point. -/
def fractionDigits (n : Numeral) : List Char := n.fraction.getD []

/-- The characters of the numeral. -/
def text (n : Numeral) : List Char :=
  n.whole ++ match n.fraction with
    | some f => '.' :: f
    | none => []

/-- The number a numeral writes: all its digits as the coefficient, and as many places below
the unit as it has digits after the point. -/
def value (n : Numeral) : Decimal :=
  ⟨false, Decimal.ofDigitList ((n.whole ++ n.fractionDigits).map fun c => c.toNat - 48),
    -(n.fractionDigits.length : Int)⟩

end Numeral

/-- An identifier: a nonempty run of letters. -/
structure Identifier where
  name : String
  letters : name.toList ≠ [] ∧ ∀ c ∈ name.toList, Text.isLetter c

mutual

/-- A sentence of `expr`: terms joined by sums and differences, chained to the left. -/
inductive Expression where
  | term (t : Term)
  | more (e : Expression) (op : Operation) (additive : op.precedence = 1) (t : Term)

/-- A sentence of `term`: factors joined by products and quotients, chained to the left. -/
inductive Term where
  | factor (f : Factor)
  | more (t : Term) (op : Operation) (multiplicative : op.precedence = 2) (f : Factor)

/-- A sentence of `factor`: a numeral, an identifier, or an `expr` in parentheses. -/
inductive Factor where
  | number (n : Numeral)
  | ident (x : Identifier)
  | paren (e : Expression)

end

mutual

/-- The tokens of a sentence, in order. -/
def Expression.tokens : Expression → List Token
  | .term t => t.tokens
  | .more e op _ t => e.tokens ++ .operation op :: t.tokens

/-- The tokens of a term, in order. -/
def Term.tokens : Term → List Token
  | .factor f => f.tokens
  | .more t op _ f => t.tokens ++ .operation op :: f.tokens

/-- The tokens of a factor, in order. -/
def Factor.tokens : Factor → List Token
  | .number n => [.literal (String.ofList n.text)]
  | .ident x => [.name x.name]
  | .paren e => .openParen :: (e.tokens ++ [.closeParen])

end

mutual

/-- The tree of a sentence: each operation joins what stands to its left with the next term. -/
def Expression.tree : Expression → Expr
  | .term t => t.tree
  | .more e op _ t => .bin op e.tree t.tree

/-- The tree of a term: each operation joins what stands to its left with the next factor. -/
def Term.tree : Term → Expr
  | .factor f => f.tree
  | .more t op _ f => .bin op t.tree f.tree

/-- The tree of a factor: a number leaf, a variable leaf, or the tree inside the parentheses. -/
def Factor.tree : Factor → Expr
  | .number n => .num n.value
  | .ident x => .var x.name
  | .paren e => e.tree

end

mutual

/-- The identifiers of a sentence, in order. -/
def Expression.names : Expression → List String
  | .term t => t.names
  | .more e _ _ t => e.names ++ t.names

/-- The identifiers of a term, in order. -/
def Term.names : Term → List String
  | .factor f => f.names
  | .more t _ _ f => t.names ++ f.names

/-- The identifier of a factor, or those inside its parentheses. -/
def Factor.names : Factor → List String
  | .number _ => []
  | .ident x => [x.name]
  | .paren e => e.names

end

mutual

/-- How deep parentheses nest in a sentence. -/
def Expression.nesting : Expression → Nat
  | .term t => t.nesting
  | .more e _ _ t => max e.nesting t.nesting

/-- How deep parentheses nest in a term. -/
def Term.nesting : Term → Nat
  | .factor f => f.nesting
  | .more t _ _ f => max t.nesting f.nesting

/-- How deep parentheses nest in a factor: one more than inside, for a parenthesised one. -/
def Factor.nesting : Factor → Nat
  | .number _ => 0
  | .ident _ => 0
  | .paren e => e.nesting + 1

end

/-! ### Tokens of a sentence -/

namespace Numeral

/-- A numeral starts with a digit and goes on with digits and at most one point. -/
theorem text_spelled (n : Numeral) :
    ∃ c run, n.text = c :: run ∧ c.isDigit ∧ ∀ d ∈ run, Token.isLiteralChar d := by
  obtain ⟨whole, fraction, ⟨nonempty, digits⟩, fractionOk⟩ := n
  obtain ⟨c, more, rfl⟩ := List.exists_cons_of_ne_nil nonempty
  refine ⟨c, _, rfl, digits c (by simp), ?_⟩
  -- Every character after the first is a digit or the point.
  intro d member
  simp only [List.append_eq, List.mem_append] at member
  rcases member with inWhole | inFraction
  · simp [Token.isLiteralChar, digits d (by simp [inWhole])]
  · cases fraction with
    | none => simp at inFraction
    | some f =>
      simp only [List.mem_cons] at inFraction
      rcases inFraction with rfl | inF
      · simp [Token.isLiteralChar]
      · simp [Token.isLiteralChar, (fractionOk f rfl).2 d inF]

/-- The literal token of a numeral is read back as itself. -/
theorem lexeme (n : Numeral) : (Token.literal (String.ofList n.text)).Lexeme := by
  -- A literal lexeme is a digit followed by literal characters, which is how a numeral is spelled.
  obtain ⟨c, run, spelled, digit, within⟩ := n.text_spelled
  exact ⟨c, run, by simp [spelled], digit, within⟩

/-- The reader of numeric text gives a numeral exactly its value: the digits before the point
stop at the point, and those after it run to the end. -/
theorem finiteValue?_text (n : Numeral) : Numeric.finiteValue? false n.text = some n.value := by
  obtain ⟨whole, fraction, ⟨nonempty, digits⟩, fractionOk⟩ := n
  have wholeEmpty : whole.isEmpty = false := by simpa using nonempty
  cases fraction with
  | none =>
    -- Without a point the whole text is the digits, and nothing follows them.
    have cut : (whole ++ []).takeWhile Char.isDigit = whole ∧
        (whole ++ []).dropWhile Char.isDigit = [] :=
      Token.takeWhile_dropWhile_run digits (by simp)
    simp only [List.append_nil] at cut
    simp [Numeric.finiteValue?, text, value, fractionDigits, cut.1, cut.2, wholeEmpty]
  | some f =>
    -- The point stops the digits before it; the digits after it reach the end of the text.
    obtain ⟨_, fDigits⟩ := fractionOk f rfl
    have cut : (whole ++ '.' :: f).takeWhile Char.isDigit = whole ∧
        (whole ++ '.' :: f).dropWhile Char.isDigit = '.' :: f :=
      Token.takeWhile_dropWhile_run digits (by simp)
    have after : (f ++ []).takeWhile Char.isDigit = f ∧ (f ++ []).dropWhile Char.isDigit = [] :=
      Token.takeWhile_dropWhile_run fDigits (by simp)
    simp only [List.append_nil] at after
    simp [Numeric.finiteValue?, text, value, fractionDigits, cut.1, cut.2, after.1, after.2,
      wholeEmpty]

end Numeral

/-- An identifier token is read back as itself. -/
theorem Identifier.lexeme (x : Identifier) : (Token.name x.name).Lexeme := x.letters

/-- An operation symbol neither continues a literal nor a name. -/
theorem symbol_ends (op : Operation) :
    Token.isLiteralChar op.symbol = false ∧ Text.isLetter op.symbol = false := by
  -- Each of the four symbols is checked.
  cases op <;> decide

/-- Nothing runs on into an operation symbol. -/
theorem apart_operation (t : Token) (op : Operation) : t.Apart (.operation op) := by
  intro c first
  simp only [Token.text, List.head?_cons, Option.mem_def, Option.some.injEq] at first
  subst first
  -- Only literals and names are ever continued, and the symbol continues neither.
  cases t <;> simp [Token.continuesWith, symbol_ends]

/-- Nothing runs on into a closing parenthesis. -/
theorem apart_closeParen (t : Token) : t.Apart .closeParen := by
  intro c first
  simp only [Token.text, List.head?_cons, Option.mem_def, Option.some.injEq] at first
  subst first
  -- As for an operation: the parenthesis continues no literal and no name.
  have ends : Token.isLiteralChar ')' = false ∧ Text.isLetter ')' = false := by decide
  cases t <;> simp [Token.continuesWith, ends]

/-- Tokens joined by an operation are all read back as themselves when those on both sides are. -/
theorem lexemes_join {left right : List Token} (op : Operation) (leftOk : ∀ t ∈ left, t.Lexeme)
    (rightOk : ∀ t ∈ right, t.Lexeme) : ∀ t ∈ left ++ .operation op :: right, t.Lexeme := by
  intro token member
  simp only [List.mem_append, List.mem_cons] at member
  -- A token of either side, or the operation, which is a lexeme of its own.
  rcases member with inLeft | rfl | inRight
  · exact leftOk token inLeft
  · trivial
  · exact rightOk token inRight

/-- An operation keeps apart the tokens it joins. -/
theorem apart_join {left right : List Token} (op : Operation)
    (leftApart : left.IsChain Token.Apart) (rightApart : right.IsChain Token.Apart) :
    (left ++ .operation op :: right).IsChain Token.Apart := by
  refine List.isChain_append.mpr ⟨leftApart, List.isChain_cons.mpr ⟨?_, rightApart⟩, ?_⟩
  · -- An operation symbol runs on into nothing after it.
    intro next _ c _
    simp [Token.continuesWith]
  · -- Nothing on the left runs on into the operation.
    intro last _ next first
    simp only [List.head?_cons, Option.mem_def, Option.some.injEq] at first
    exact first ▸ apart_operation last op

mutual

/-- Every token of a sentence is read back as itself. -/
theorem Expression.lexemes : (e : Expression) → ∀ t ∈ e.tokens, t.Lexeme
  | .term t => t.lexemes
  -- The sum's operation joins the tokens of the sentence before it and of its last term.
  | .more e op _ t => lexemes_join op e.lexemes t.lexemes

/-- Every token of a term is read back as itself. -/
theorem Term.lexemes : (t : Term) → ∀ token ∈ t.tokens, token.Lexeme
  | .factor f => f.lexemes
  | .more t op _ f => lexemes_join op t.lexemes f.lexemes

/-- Every token of a factor is read back as itself. -/
theorem Factor.lexemes : (f : Factor) → ∀ token ∈ f.tokens, token.Lexeme
  -- A numeral and an identifier are one lexeme each.
  | .number n => by
    intro token member
    simp only [Factor.tokens, List.mem_singleton] at member
    exact member ▸ n.lexeme
  | .ident x => by
    intro token member
    simp only [Factor.tokens, List.mem_singleton] at member
    exact member ▸ x.lexeme
  | .paren e => by
    intro token member
    simp only [Factor.tokens, List.mem_cons, List.mem_append, List.not_mem_nil, or_false] at member
    -- A parenthesis, or a token of the sentence inside.
    rcases member with rfl | inside | rfl
    · trivial
    · exact e.lexemes token inside
    · trivial

end

mutual

/-- In a sentence an operation or a parenthesis stands between any two operands, so no token
runs on into the next. -/
theorem Expression.apart : (e : Expression) → e.tokens.IsChain Token.Apart
  | .term t => t.apart
  -- The operation stands between the two sides.
  | .more e op _ t => apart_join op e.apart t.apart

/-- In a term an operation or a parenthesis stands between any two operands. -/
theorem Term.apart : (t : Term) → t.tokens.IsChain Token.Apart
  | .factor f => f.apart
  | .more t op _ f => apart_join op t.apart f.apart

/-- In a factor the parentheses stand apart from what they enclose. -/
theorem Factor.apart : (f : Factor) → f.tokens.IsChain Token.Apart
  | .number _ => List.isChain_singleton _
  | .ident _ => List.isChain_singleton _
  | .paren e => by
    simp only [Factor.tokens]
    refine List.isChain_cons.mpr ⟨?_, ?_⟩
    · -- An open parenthesis runs on into nothing.
      intro next _ c _
      simp [Token.continuesWith]
    · -- Nothing inside runs on into the closing parenthesis.
      refine List.isChain_append.mpr ⟨e.apart, List.isChain_singleton _, ?_⟩
      intro last _ next first
      simp only [List.head?_cons, Option.mem_def, Option.some.injEq] at first
      exact first ▸ apart_closeParen last

end

/-- A sentence written with any spacing is lexed into exactly its tokens. -/
theorem tokens_of_spaced {e : Expression} {s : String} (spaced : Token.Spaced e.tokens s.toList) :
    (Token.ofString s).map Prod.snd = e.tokens :=
  -- The tokens of a sentence are lexemes kept apart, which is what spaced reading needs.
  Token.scan_spaced spaced e.lexemes e.apart 0

/-! ### The reading machine on a sentence

A product or a sum is reduced only when the next operation, a closing parenthesis or the end
arrives, so after the tokens of a term its last product is still pending, and after the tokens
of a sentence also its last sum. `Term.after` and `Expression.after` name these states; the
reductions that the next token makes turn them into the state with the whole tree pushed. -/

/-- The machine once a whole tree has been read onto its operand stack: the first of the names in
it registers the variable, unless one is registered already. -/
def pushTree (m : Machine) (tree : Expr) (names : List String) : Machine :=
  { m with operands := tree :: m.operands, variableName := m.variableName.or names.head? }

@[simp] theorem pushTree_pending (m : Machine) (tree : Expr) (names : List String) :
    (pushTree m tree names).pending = m.pending := rfl

@[simp] theorem pushTree_depth (m : Machine) (tree : Expr) (names : List String) :
    (pushTree m tree names).depth = m.depth := rfl

@[simp] theorem pushTree_variableName (m : Machine) (tree : Expr) (names : List String) :
    (pushTree m tree names).variableName = m.variableName.or names.head? := rfl

@[simp] theorem pushTree_operands (m : Machine) (tree : Expr) (names : List String) :
    (pushTree m tree names).operands = tree :: m.operands := rfl

/-- The machine right after the tokens of a term: its last product or quotient is still pending,
with its two operands on top of the stack. -/
def Term.after (t : Term) (m : Machine) : Machine :=
  match t with
  | .factor f => pushTree m f.tree f.names
  | .more t op _ f =>
    pushTree { pushTree m t.tree t.names with pending := .operation op :: m.pending } f.tree f.names

/-- The machine right after the tokens of a sentence: its last sum or difference is still
pending under what its last term left. -/
def Expression.after (e : Expression) (m : Machine) : Machine :=
  match e with
  | .term t => t.after m
  | .more e op _ t => t.after { pushTree m e.tree e.names with pending := .operation op :: m.pending }

/-- Every name read so far is `x`. -/
def Admits (x : String) (m : Machine) : Prop := ∀ v ∈ m.variableName, v = x

/-- Pushing a tree whose names are all `x` keeps every registered name `x`. -/
theorem Admits.pushTree {x : String} {m : Machine} (admits : Admits x m) (tree : Expr)
    {names : List String} (named : ∀ n ∈ names, n = x) : Admits x (pushTree m tree names) := by
  intro v registered
  simp only [pushTree_variableName, Option.mem_def] at registered
  -- The registered name is the old one, or else the first of the new names.
  cases old : m.variableName with
  | some w =>
    rw [old, Option.some_or, Option.some.injEq] at registered
    exact registered ▸ admits w old
  | none =>
    rw [old, Option.none_or] at registered
    exact named v (List.mem_of_mem_head? registered)

/-- Reducing after a term, down to products or looser, first joins its pending product: it is the
same as reducing with the whole term pushed. -/
theorem Term.reduce_after (t : Term) (m : Machine) {least : Nat} (tight : least ≤ 2) :
    (t.after m).reduce least = (pushTree m t.tree t.names).reduce least := by
  cases t with
  -- A single factor left nothing pending.
  | factor f => rfl
  | more t op multiplicative f =>
    -- The pending product takes its two operands and leaves the joined tree in their place.
    rw [after, Machine.reduce_apply (by rfl) (by omega) (by rfl)]
    congr 1
    simp only [pushTree, tree, names, List.head?_append, Option.or_assoc]

/-- Reducing after a sentence that stands above a parenthesis or the bottom, down to sums or
looser, joins everything it left pending and stops there. -/
theorem Expression.reduce_after (e : Expression) {m : Machine} (closed : m.Open 1) {least : Nat}
    (loose : least ≤ 1) : (e.after m).reduce least = (pushTree m e.tree e.names, none) := by
  -- Below the sentence nothing binds tightly enough to be joined.
  have stops : ∀ tree names, (pushTree m tree names).reduce least = (pushTree m tree names, none) :=
    fun tree names => Machine.reduce_of_open fun op top => by
      have looser := closed op (by simpa using top)
      have binds := op.precedence_pos
      omega
  cases e with
  | term t =>
    -- A single term: its pending product, and then nothing.
    rw [after, t.reduce_after m (by omega), stops]
    rfl
  | more e op additive t =>
    -- The last term is joined first, then the pending sum takes it and what stood before it.
    rw [after, t.reduce_after _ (by omega), Machine.reduce_apply (by rfl) (by omega) (by rfl)]
    have joined := stops (.bin op e.tree t.tree) (e.names ++ t.names)
    simp only [pushTree, Expression.tree, Expression.names, List.head?_append,
      Option.or_assoc] at joined ⊢
    exact joined

/-- Positioned tokens that spell two token lists joined by an operation split at that
operation. -/
theorem spelled_join {tokens : List (Nat × Token)} {left right : List Token} {op : Operation}
    (spelled : tokens.map Prod.snd = left ++ .operation op :: right) :
    ∃ first position second, tokens = first ++ (position, .operation op) :: second ∧
      first.map Prod.snd = left ∧ second.map Prod.snd = right := by
  -- Cut where the left spelling ends; the next token is the operation, at some position.
  obtain ⟨first, rest, rfl, firstSpelled, restSpelled⟩ := List.map_eq_append_iff.mp spelled
  obtain ⟨⟨position, token⟩, second, rfl, same, secondSpelled⟩ :=
    List.map_eq_cons_iff.mp restSpelled
  simp only at same
  subst same
  exact ⟨first, position, second, rfl, firstSpelled, secondSpelled⟩

section Reading

variable {limit : Nat} {x : String}

mutual

/-- The tokens of a factor push its tree, whatever is pending, as long as its parentheses fit
under the limit and its identifier is the one registered, if any. -/
theorem Factor.run : (f : Factor) → {m : Machine} → Admits x m → (∀ n ∈ f.names, n = x) →
    m.depth + f.nesting ≤ limit → {tokens : List (Nat × Token)} →
    tokens.map Prod.snd = f.tokens → m.run limit tokens = (pushTree m f.tree f.names, none)
  | .number n, m, _, _, _, tokens, spelled => by
    obtain ⟨⟨position, token⟩, rfl, same⟩ := List.map_eq_singleton_iff.mp spelled
    simp only at same
    subst same
    -- The literal is read as the value of the numeral.
    rw [Machine.run_singleton]
    simp only [Machine.step, Machine.pushLiteral, String.toList_ofList, n.finiteValue?_text]
    simp [pushTree, Factor.tree, Factor.names]
  | .ident i, m, admits, named, _, tokens, spelled => by
    -- One token, the name.
    obtain ⟨⟨position, token⟩, rfl, same⟩ := List.map_eq_singleton_iff.mp spelled
    simp only at same
    subst same
    rw [Machine.run_singleton]
    simp only [Machine.step, Machine.pushName]
    -- The name registers the variable, or it is the one already registered.
    cases registered : m.variableName with
    | none => simp [pushTree, Factor.tree, Factor.names, registered]
    | some v =>
      have same : v = i.name :=
        (admits v registered).trans (named i.name (by simp [Factor.names])).symm
      simp [pushTree, Factor.tree, Factor.names, registered, same]
  | .paren e, m, admits, named, room, tokens, spelled => by
    -- The tokens are the open parenthesis, the sentence, and the closing parenthesis.
    simp only [Factor.tokens] at spelled
    obtain ⟨⟨position, token⟩, inner, rfl, same, innerSpelled⟩ := List.map_eq_cons_iff.mp spelled
    simp only at same
    subst same
    obtain ⟨body, closing, rfl, bodySpelled, closingSpelled⟩ :=
      List.map_eq_append_iff.mp innerSpelled
    obtain ⟨⟨closePosition, token⟩, rfl, same⟩ := List.map_eq_singleton_iff.mp closingSpelled
    simp only at same
    subst same
    simp only [Factor.nesting] at room
    -- The parenthesis fits under the limit and marks the pending stack.
    have fits : ¬ limit < m.depth + 1 := by omega
    have opened : m.step limit position .openParen =
        ({ m with depth := m.depth + 1, pending := .openParen :: m.pending }, none) := by
      simp [Machine.step, Machine.openParen, fits]
    have marked : Machine.Open 1 { m with depth := m.depth + 1, pending := .openParen :: m.pending } := by
      simp [Machine.Open]
    -- The sentence inside is read above the mark.
    have inside := e.run marked admits (fun n member => named n (by simpa [Factor.names] using member))
      (by simp only; omega) bodySpelled
    rw [Machine.run, opened]
    simp only
    rw [Machine.run_append, inside]
    simp only
    -- The closing parenthesis joins what the sentence left pending and removes the mark.
    rw [Machine.run_singleton]
    simp only [Machine.step, Machine.closeParen, e.reduce_after marked (Nat.zero_le 1)]
    simp [pushTree, Factor.tree, Factor.names]

/-- The tokens of a term, read above a pending stack whose top binds looser than products,
leave the term's last product pending over its two operands. -/
theorem Term.run : (t : Term) → {m : Machine} → m.Open 2 → Admits x m → (∀ n ∈ t.names, n = x) →
    m.depth + t.nesting ≤ limit → {tokens : List (Nat × Token)} →
    tokens.map Prod.snd = t.tokens → m.run limit tokens = (t.after m, none)
  | .factor f, m, _, admits, named, room, tokens, spelled =>
    f.run admits named room spelled
  | .more t op multiplicative f, m, closed, admits, named, room, tokens, spelled => by
    -- The term before, the operation, then the last factor, each read from where the last ended.
    simp only [Term.tokens] at spelled
    obtain ⟨first, position, second, rfl, firstSpelled, secondSpelled⟩ := spelled_join spelled
    simp only [Term.nesting] at room
    have namedT : ∀ n ∈ t.names, n = x := fun n member => named n (by simp [Term.names, member])
    have namedF : ∀ n ∈ f.names, n = x := fun n member => named n (by simp [Term.names, member])
    rw [Machine.run_append, t.run closed admits namedT (by omega) firstSpelled]
    simp only
    -- The operation joins the pending product of the term before it and waits on top.
    have reduced : (t.after m).reduce op.precedence = (pushTree m t.tree t.names, none) := by
      rw [multiplicative, t.reduce_after m (Nat.le_refl 2)]
      exact Machine.reduce_of_open (by simpa [Machine.Open] using closed)
    rw [Machine.run]
    simp only [Machine.step, reduced]
    -- The factor is read with the operation pending over the term's product.
    have admitsNext : Admits x
        { pushTree m t.tree t.names with pending := .operation op :: m.pending } :=
      admits.pushTree t.tree namedT
    exact f.run admitsNext namedF (by simp only [pushTree_depth]; omega) secondSpelled

/-- The tokens of a sentence, read above a parenthesis or the bottom of the pending stack, leave
its last sum and the last product of its last term pending. -/
theorem Expression.run : (e : Expression) → {m : Machine} → m.Open 1 → Admits x m →
    (∀ n ∈ e.names, n = x) → m.depth + e.nesting ≤ limit → {tokens : List (Nat × Token)} →
    tokens.map Prod.snd = e.tokens → m.run limit tokens = (e.after m, none)
  -- A top looser than sums is looser than products.
  | .term t, m, closed, admits, named, room, tokens, spelled =>
    t.run (closed.mono (by decide)) admits named room spelled
  | .more e op additive t, m, closed, admits, named, room, tokens, spelled => by
    -- The sentence before, the operation, then the last term.
    simp only [Expression.tokens] at spelled
    obtain ⟨first, position, second, rfl, firstSpelled, secondSpelled⟩ := spelled_join spelled
    simp only [Expression.nesting] at room
    have namedE : ∀ n ∈ e.names, n = x :=
      fun n member => named n (by simp [Expression.names, member])
    have namedT : ∀ n ∈ t.names, n = x :=
      fun n member => named n (by simp [Expression.names, member])
    rw [Machine.run_append, e.run closed admits namedE (by omega) firstSpelled]
    simp only
    -- The operation joins everything the sentence before it left pending, and waits on top.
    have reduced : (e.after m).reduce op.precedence = (pushTree m e.tree e.names, none) :=
      e.reduce_after closed (by omega)
    rw [Machine.run]
    simp only [Machine.step, reduced]
    -- The sum waiting on top binds looser than the products of the term read over it.
    have loose : Machine.Open 2
        { pushTree m e.tree e.names with pending := .operation op :: m.pending } := by
      intro top isTop
      simp only [List.head?_cons, Option.some.injEq, Pending.operation.injEq] at isTop
      subst isTop
      omega
    have admitsNext : Admits x
        { pushTree m e.tree e.names with pending := .operation op :: m.pending } :=
      admits.pushTree e.tree namedE
    exact t.run loose admitsNext namedT (by simp only [pushTree_depth]; omega) secondSpelled

end

end Reading

/-- A sentence of the grammar, written with any spacing, with one identifier spelled the same way
throughout and parentheses nested no deeper than the limit, is read into its tree by an evaluator
whose machine starts empty; the machine is left with both stacks empty, no parenthesis open and
the identifier, if there is one, registered. -/
theorem parse_sentence (ev : Evaluator) (e : Expression) (s : String)
    (spaced : Token.Spaced e.tokens s.toList) (oneName : ∀ a ∈ e.names, ∀ b ∈ e.names, a = b)
    (shallow : e.nesting ≤ ev.maxDepth) :
    { ev with machine := Machine.empty }.parse s =
      ({ ev with machine := ⟨[], [], e.names.head?, 0⟩ }, .ok e.tree) := by
  -- Every identifier is the first one.
  have named : ∀ n ∈ e.names, n = e.names.headD "" := by
    intro n member
    cases namesEq : e.names with
    | nil => simp [namesEq] at member
    | cons first rest => exact oneName n member first (by simp [namesEq])
  -- The empty machine has nothing pending and no name registered.
  have closed : Machine.empty.Open 1 := by simp [Machine.Open, Machine.empty]
  have admits : Admits (e.names.headD "") Machine.empty := by simp [Admits, Machine.empty]
  have read := e.run closed admits named (by simpa [Machine.empty] using shallow)
    (tokens_of_spaced spaced)
  -- The end reduces everything still pending into the one tree.
  have drained : (e.after Machine.empty).reduce 0 = (pushTree Machine.empty e.tree e.names, none) :=
    e.reduce_after closed (Nat.zero_le 1)
  simp only [Evaluator.parse, Machine.parse, read, Machine.finish, drained]
  simp [pushTree, Machine.empty]

/-- The sentence `(x + 2) * x`, spaced around its operations, is read into its product. -/
theorem parse_product_of_sum :
    { Evaluator.withDefaults with machine := Machine.empty }.parse "(x + 2) * x" =
      ({ Evaluator.withDefaults with machine := ⟨[], [], some "x", 0⟩ },
        .ok (.bin .mul (.bin .add (.var "x") (.num ⟨false, 2, 0⟩)) (.var "x"))) := by
  -- The sentence is a product whose first factor is a parenthesised sum.
  have spelled : "(x + 2) * x".toList = ['(', 'x', ' ', '+', ' ', '2', ')', ' ', '*', ' ', 'x'] := by
    decide
  have letter : "x".toList ≠ [] ∧ ∀ c ∈ "x".toList, Text.isLetter c := by
    rw [show "x".toList = ['x'] from rfl]
    refine ⟨List.cons_ne_nil _ _, fun c member => ?_⟩
    rw [List.mem_singleton.mp member]
    rfl
  have digit : ['2'] ≠ [] ∧ ∀ c ∈ ['2'], c.isDigit := by
    refine ⟨List.cons_ne_nil _ _, fun c member => ?_⟩
    rw [List.mem_singleton.mp member]
    rfl
  -- The text is its seven tokens with one space around each operation.
  have spaced : Token.Spaced [.openParen, .name "x", .operation .add,
      .literal (String.ofList ['2']), .closeParen, .operation .mul, .name "x"]
      "(x + 2) * x".toList := by
    rw [spelled]
    exact .cons 0 .openParen (.cons 0 (.name "x") (.cons 1 (.operation .add)
      (.cons 1 (.literal (String.ofList ['2'])) (.cons 0 .closeParen (.cons 1 (.operation .mul)
        (.cons 1 (.name "x") (.nil 0)))))))
  exact parse_sentence Evaluator.withDefaults
    (.term (.more (.factor (.paren (.more (.term (.factor (.ident ⟨"x", letter⟩))) .add rfl
      (.factor (.number ⟨['2'], none, digit, fun _ member => by cases member⟩))))) .mul rfl
      (.ident ⟨"x", letter⟩)))
    "(x + 2) * x" spaced
    (by simp [Expression.names, Term.names, Factor.names])
    (by simp [Expression.nesting, Term.nesting, Factor.nesting, Evaluator.withDefaults,
      Settings.defaultMaxDepth])

end Calculator.Grammar
