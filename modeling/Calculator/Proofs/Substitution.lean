import Calculator.Proofs.CorrectRounding
import Calculator.Proofs.Grouping
import Calculator.Proofs.Locality

/-! Writing the value in place of the variable. A text that names its variable, evaluated with a
value, gives a number of the same value as the text with each occurrence of the name replaced by
the value's fixed text: each occurrence becomes a literal, the literal reads into a number leaf
where the variable leaf stood, and every operation gives a result that depends on the values of
its operands alone, not on how they are written. Faults are the same on both sides. -/

namespace Calculator

/-! ### Filling the variable leaves -/

namespace Expr

/-- The tree with every variable leaf replaced by a number. -/
def fill (d : Decimal) : Expr → Expr
  | .num e => .num e
  | .var _ => .num d
  | .bin op l r => .bin op (l.fill d) (r.fill d)

/-- A filled tree names no variable. -/
@[simp] theorem names_fill (d : Decimal) (t : Expr) : (t.fill d).names = [] := by
  induction t with
  | num e => rfl
  -- The variable leaf is the one that had a name, and it is now a number.
  | var name => rfl
  | bin op l r ihl ihr => simp [fill, names, ihl, ihr]

/-- Outcomes that agree in value, continued by steps that agree in value on arguments of one
value, agree in value. -/
theorem bind_map_toRat {x x' : Except Fault Decimal} {k k' : Decimal → Except Fault Decimal}
    (same : x.map Decimal.toRat = x'.map Decimal.toRat)
    (next : ∀ a a', a.toRat = a'.toRat → (k a).map Decimal.toRat = (k' a').map Decimal.toRat) :
    (x >>= k).map Decimal.toRat = (x' >>= k').map Decimal.toRat := by
  -- A fault on one side is the same fault on the other; values go on to the next steps.
  cases x <;> cases x' <;>
    simp only [Except.map, Except.error.injEq, Except.ok.injEq, reduceCtorEq] at same
  · subst same
    rfl
  · exact next _ _ same

variable {c : Context}

/-- A tree filled with a number of the value given for its variable computes to a number of the
same value, or to the same fault. -/
theorem eval_fill (positive : 1 ≤ c.precision) (range : c.emin ≤ c.emax) {d v : Decimal}
    (same : d.toRat = v.toRat) (value : Option Decimal) (t : Expr) :
    ((t.fill d).eval c value).map Decimal.toRat = (t.eval c (some v)).map Decimal.toRat := by
  induction t with
  | num e => rfl
  -- The filled leaf is `d`, the variable leaf is `v`, and the two have one value.
  | var name => simp [fill, eval, Except.map, same]
  | bin op l r ihl ihr =>
    -- The operands agree in value or fail alike, and the operation reads values only.
    simp only [fill, eval]
    refine bind_map_toRat ihl fun a a' sameA => bind_map_toRat ihr fun b b' sameB => ?_
    rw [Operation.apply_round positive range, Operation.apply_round positive range, sameA, sameB]

end Expr

namespace Token

/-- The token, or the given token in place of a name. -/
def nameAs (t replacement : Token) : Token :=
  match t with
  | .name _ => replacement
  | t => t

/-! ### Lexing the text with the value written in -/

/-- A letter continues no literal. -/
theorem isLiteralChar_of_isLetter {c : Char} (letter : Text.isLetter c) :
    isLiteralChar c = false := by
  -- A literal character is a digit or the point, and a letter is neither.
  have notPoint : c ≠ '.' := by
    rintro rfl
    simp [Text.isLetter] at letter
  simp [isLiteralChar, isDigit_of_isLetter letter, notPoint]

/-- What is no letter does not join a letter after it. -/
theorem joins_letter {a b : Char} (notLetter : Text.isLetter a = false) (letter : Text.isLetter b) :
    joins a b = false := by
  -- Two characters join inside a literal or inside a name; the letter ends the first.
  simp [joins, notLetter, isLiteralChar_of_isLetter letter]

/-- What continues no literal does not join a digit after it. -/
theorem joins_digit {a b : Char} (notLiteral : isLiteralChar a = false) (digit : b.isDigit) :
    joins a b = false := by
  -- A digit is no letter, so only a literal could take it, and `a` continues none.
  have notLetter : Text.isLetter b = false := by
    cases letter : Text.isLetter b with
    | false => rfl
    | true => simp [isDigit_of_isLetter letter] at digit
  simp [joins, notLiteral, notLetter]

/-- The token of a character that is no space, digit or letter is no name. -/
theorem nameAs_single (c : Char) (replacement : Token) :
    (single c).nameAs replacement = single c := by
  unfold single
  -- An operation, a parenthesis or a stray: none is a name.
  cases Operation.ofChar? c with
  | some op => rfl
  | none =>
    simp only [Option.elim_none]
    split_ifs <;> rfl

/-- A text without letters holds no name, so writing names otherwise changes none of its
tokens. -/
theorem nameAs_scan {w : List Char} (free : ∀ c ∈ w, Text.isLetter c = false) (position : Nat)
    (replacement : Token) :
    (scan w position).map (fun e => e.2.nameAs replacement) = (scan w position).map Prod.snd := by
  -- One case per branch of the scan; the branch that reads a name needs a letter.
  fun_induction scan w position with
  | case1 => rfl
  | case2 position rest ih =>
    exact ih fun c inRest => free c (List.mem_cons_of_mem _ inRest)
  | case3 position c rest notSpace digit run ih =>
    have restFree : ∀ d ∈ rest.dropWhile isLiteralChar, Text.isLetter d = false :=
      fun d inRest => free d (List.mem_cons_of_mem _ ((List.dropWhile_suffix _).subset inRest))
    simp only [List.map_cons, ih restFree]
    rfl
  | case4 position c rest notSpace notDigit letter run ih =>
    simp [free c List.mem_cons_self] at letter
  | case5 position c rest notSpace notDigit notLetter token ih =>
    -- A single character is no name, and the rest has no letter either.
    have same : token = single c := single_eq c
    simp only [List.map_cons, ih fun d inRest => free d (List.mem_cons_of_mem _ inRest), same,
      nameAs_single]

variable {x l : String}

/-- A name followed by more letters is read as a longer name. -/
theorem scan_name_runs_on (named : (Token.name x).Lexeme) {rest : List Char}
    (next : ∀ b ∈ rest.head?, Text.isLetter b) (nonempty : rest ≠ []) (position : Nat) :
    ∃ y more, scan (x.toList ++ rest) position = (position, .name y) :: more ∧ y ≠ x := by
  -- The name starts with a letter, so the scan reads a name there.
  obtain ⟨spelledNonempty, letters⟩ := named
  obtain ⟨c, cs, spelled⟩ := List.exists_cons_of_ne_nil spelledNonempty
  have letter : Text.isLetter c := letters c (by simp [spelled])
  have notSpace : c ≠ ' ' := by
    rintro rfl
    simp [Text.isLetter] at letter
  rw [spelled, List.cons_append, scan, if_neg notSpace, if_neg (by simp [isDigit_of_isLetter letter]),
    if_pos letter]
  refine ⟨_, _, rfl, fun same => ?_⟩
  -- The run takes the rest of the name and at least the first letter after it.
  have run : (cs ++ rest).takeWhile Text.isLetter = cs ++ rest.takeWhile Text.isLetter :=
    List.takeWhile_append_of_pos fun d inName => letters d (by simp [spelled, inName])
  obtain ⟨b, more, rfl⟩ := List.exists_cons_of_ne_nil nonempty
  have first : Text.isLetter b := next b rfl
  have lengths := congrArg (fun s : String => s.toList.length) same
  simp only [String.toList_ofList, run, spelled, List.takeWhile_cons, first, if_true,
    List.length_cons, List.length_append] at lengths
  omega

/-- A text joined at a separator starts with its first piece, when that piece is not empty or
is the only one. -/
theorem head?_intercalate_cons {sep w : List Char} {rest : List (List Char)}
    (notGlued : w = [] → rest = []) : (sep.intercalate (w :: rest)).head? = w.head? := by
  -- An empty first piece is the whole text; any other starts it.
  rcases w with _ | ⟨a, w'⟩
  · simp [notGlued rfl]
  · rw [List.intercalate_cons_cons_left]
    rfl

/-- The pieces between occurrences of a name, with no letter in them and no literal character
next to an occurrence. -/
def Pieces (ws : List (List Char)) : Prop :=
  (∀ w ∈ ws, ∀ c ∈ w, Text.isLetter c = false) ∧
    ws.IsChain fun w w' =>
      (∀ c ∈ w.getLast?, isLiteralChar c = false) ∧ ∀ c ∈ w'.head?, isLiteralChar c = false

/-- A text of pieces joined by a name lexes, with a literal written for the name, into its tokens
with the literal in place of the name, provided every name read from it is that one name. -/
theorem scan_intercalate (named : (Token.name x).Lexeme) (numeral : (Token.literal l).Lexeme) :
    ∀ (ws : List (List Char)), ws ≠ [] → Pieces ws → ∀ position position',
      (∀ y, Token.name y ∈ (scan (x.toList.intercalate ws) position).map Prod.snd → y = x) →
      (scan (l.toList.intercalate ws) position').map Prod.snd =
        (scan (x.toList.intercalate ws) position).map fun e => e.2.nameAs (.literal l)
  | [], nonempty, _, _, _, _ => absurd rfl nonempty
  -- The last piece holds no name, so both texts lex into its tokens.
  | [w], _, ⟨free, _⟩, position, position', _ => by
    simp only [List.intercalate_singleton]
    rw [nameAs_scan (free w (List.mem_singleton_self w)), snd_scan, snd_scan w position]
  -- A piece, an occurrence, and the rest of the text, which is lexed by recursion.
  | w :: w' :: rest, _, ⟨free, apart⟩, position, position', onlyName => by
    rw [List.isChain_cons_cons] at apart
    obtain ⟨⟨lastApart, nextApart⟩, restApart⟩ := apart
    have restFree : ∀ v ∈ w' :: rest, ∀ c ∈ v, Text.isLetter c = false :=
      fun v member => free v (List.mem_cons_of_mem _ member)
    obtain ⟨c, cs, spelled, letter⟩ : ∃ c cs, x.toList = c :: cs ∧ Text.isLetter c := by
      obtain ⟨nonempty, letters⟩ := named
      obtain ⟨c, cs, spelled⟩ := List.exists_cons_of_ne_nil nonempty
      exact ⟨c, cs, spelled, letters c (by simp [spelled])⟩
    have literalSpelled : ∃ d ds, l.toList = d :: ds ∧ d.isDigit ∧ ∀ e ∈ ds, isLiteralChar e :=
      numeral
    obtain ⟨d, ds, written, digit, -⟩ := literalSpelled
    -- Both texts split before the occurrence: the piece ends with no letter and with no literal
    -- character, and the name starts with a letter, the literal with a digit.
    have nameSplit : ∀ R, scan (w ++ (x.toList ++ R)) position =
        scan w position ++ scan (x.toList ++ R) (position + w.length) := fun R =>
      scan_split w position fun a last b first => by
        rw [spelled] at first
        cases first
        exact joins_letter (free w List.mem_cons_self a (List.mem_of_getLast? last)) letter
    have literalSplit : ∀ R, scan (w ++ (l.toList ++ R)) position' =
        scan w position' ++ scan (l.toList ++ R) (position' + w.length) := fun R =>
      scan_split w position' fun a last b first => by
        rw [written] at first
        cases first
        exact joins_digit (lastApart a last) digit
    -- No empty piece lies between two occurrences: the two would be read as one longer name.
    have notGlued : w' = [] → rest = [] := by
      rintro rfl
      rcases rest with _ | ⟨v, rest'⟩
      · rfl
      · exfalso
        have next : ∀ b ∈ (x.toList ++ x.toList.intercalate (v :: rest')).head?, Text.isLetter b := by
          simp [spelled, letter]
        obtain ⟨y, more, first, longer⟩ :=
          scan_name_runs_on named next (by simp [spelled]) (position + w.length)
        apply longer
        apply onlyName y
        rw [List.intercalate_cons_cons, List.append_assoc, nameSplit, List.intercalate_cons_cons,
          List.nil_append, first]
        simp
    -- So what follows the occurrence starts with the next piece, or is empty.
    have after : ∀ b ∈ (x.toList.intercalate (w' :: rest)).head?, Text.isLetter b = false := by
      rw [head?_intercalate_cons notGlued]
      exact fun b first => restFree _ List.mem_cons_self b (List.mem_of_mem_head? first)
    have afterLiteral : ∀ b ∈ (l.toList.intercalate (w' :: rest)).head?,
        isLiteralChar b = false := by
      rw [head?_intercalate_cons notGlued]
      exact nextApart
    have nameRead : scan (x.toList ++ x.toList.intercalate (w' :: rest)) (position + w.length) =
        (position + w.length, .name x) ::
          scan (x.toList.intercalate (w' :: rest)) (position + w.length + x.toList.length) :=
      scan_lexeme named after _
    -- Neither the name nor the literal runs on into the next piece.
    have literalRead :
        scan (l.toList ++ l.toList.intercalate (w' :: rest)) (position' + w.length) =
          (position' + w.length, .literal l) ::
            scan (l.toList.intercalate (w' :: rest)) (position' + w.length + l.toList.length) :=
      scan_lexeme numeral afterLiteral _
    -- The rest names only the one name as well, and lexes alike by induction.
    have restOnly : ∀ y, Token.name y ∈
        (scan (x.toList.intercalate (w' :: rest)) (position + w.length + x.toList.length)).map
          Prod.snd → y = x := fun y member => onlyName y (by
      rw [List.intercalate_cons_cons, List.append_assoc, nameSplit, nameRead]
      simp only [List.map_append, List.map_cons, List.mem_append, List.mem_cons]
      exact .inr (.inr member))
    have restWritten := scan_intercalate named numeral (w' :: rest) (List.cons_ne_nil _ _)
      ⟨restFree, restApart⟩ _ (position' + w.length + l.toList.length) restOnly
    rw [List.intercalate_cons_cons, List.intercalate_cons_cons, List.append_assoc,
      List.append_assoc, nameSplit, literalSplit, nameRead, literalRead]
    simp only [List.map_append, List.map_cons, restWritten,
      nameAs_scan (free w List.mem_cons_self), snd_scan w position', snd_scan w position]
    rfl

end Token

namespace Machine

/-- The machine with every variable leaf of its operands replaced by a number, and no variable
registered. -/
def fill (d : Decimal) (m : Machine) : Machine :=
  { m with operands := m.operands.map (Expr.fill d), variableName := none }

variable {d : Decimal}

/-- Reducing a filled machine does what reducing the machine does, filled. -/
theorem reduce_fill (least : Nat) (m : Machine) :
    (m.fill d).reduce least = ((m.reduce least).1.fill d, (m.reduce least).2) := by
  -- The filled machine has the same pending stack and as many operands, so it reduces alike.
  fun_induction reduce least m with
  | case1 operands op rest name depth looser =>
    refine reduce_of_open fun top isTop => ?_
    simp only [fill, List.head?_cons, Option.some.injEq, Pending.operation.injEq] at isTop
    exact isTop ▸ looser
  -- Joining filled trees is filling the joined tree.
  | case2 operands op rest name depth tight r l more ih =>
    exact (reduce_apply rfl (by omega) rfl).trans ih
  | case3 operands op rest name depth tight =>
    -- Fewer than two operands, filled or not: the operation is taken off and reported.
    split
    · rename_i same notTwo _ _
      exact (notTwo _ _ _ same rfl HEq.rfl).elim
    · rename_i notTwo
      refine reduce_missing rfl (by omega) fun r l more filled => ?_
      simp only [fill] at filled
      obtain ⟨r', l', more', rfl⟩ : ∃ r' l' more', operands = r' :: l' :: more' := by
        rcases operands with _ | ⟨r', _ | ⟨l', more'⟩⟩
        · simp at filled
        · simp at filled
        · exact ⟨r', l', more', rfl⟩
      exact notTwo r' l' more' rfl rfl HEq.rfl
  | case4 m notOperation =>
    -- With no operation on top, neither machine reduces.
    refine reduce_of_open fun op isTop => ?_
    rcases m with ⟨operands, _ | ⟨top, rest⟩, name, depth⟩
    · simp [fill] at isTop
    · simp only [fill, List.head?_cons, Option.some.injEq] at isTop
      exact absurd (isTop ▸ rfl) (notOperation operands op rest name depth)

/-- Ending a reading with a tree ends the filled reading with the filled tree. -/
theorem finish_fill {m m' : Machine} {t : Expr} (finished : m.finish = (m', .ok t)) :
    (m.fill d).finish = (m'.fill d, .ok (t.fill d)) := by
  obtain ⟨reduced, reducedEq, settled, single, rfl⟩ := finish_cases finished
  unfold finish
  -- The last reduction goes alike, and leaves the filled tree alone on the stack.
  rw [reduce_fill, reducedEq]
  simp [fill, settled, single]

variable {literal : String} (reads : Numeric.finiteValue? false literal.toList = some d)
include reads

/-- A step that reads a token without a fault reads it, with a name written as a literal of the
number, on the filled machine into the filled state. -/
theorem step_fill {limit position : Nat} {m m' : Machine} {token : Token}
    (stepped : m.step limit position token = (m', none)) :
    (m.fill d).step limit position (token.nameAs (.literal literal)) = (m'.fill d, none) := by
  rcases step_cases stepped with ⟨text, e, rfl, readEq, rfl⟩ | ⟨x, rfl, admits, rfl⟩ |
    ⟨op, reduced, rfl, reducedEq, rfl⟩ | ⟨rfl, within, rfl⟩ |
    ⟨reduced, rest, rfl, reducedEq, marked, rfl⟩
  · -- A literal pushes the same number on both sides.
    simp [Token.nameAs, step, pushLiteral, readEq, fill, Expr.fill]
  · -- The literal in place of the name pushes the number in place of the variable leaf.
    simp [Token.nameAs, step, pushLiteral, reads, fill, Expr.fill]
  · -- An operation reduces alike and waits on both sides.
    simp only [Token.nameAs, step, reduce_fill, reducedEq]
    rfl
  · -- Parentheses see only the pending stack and the depth, which filling keeps.
    have room : ¬limit < m.depth + 1 := by omega
    simp [Token.nameAs, step, openParen, fill, room]
  · simp only [Token.nameAs, step, closeParen, reduce_fill, reducedEq]
    simp [fill, marked]

/-- A run that reads its tokens without a fault reads them, with every name written as a literal
of the number, on the filled machine into the filled state. -/
theorem run_fill {limit : Nat} {m m' : Machine} {tokens : List (Nat × Token)}
    (ran : m.run limit tokens = (m', none)) :
    (m.fill d).run limit (tokens.map fun e => (e.1, e.2.nameAs (.literal literal))) =
      (m'.fill d, none) := by
  -- The step lemma token by token; no token faulted.
  induction tokens generalizing m with
  | nil =>
    simp only [run, Prod.mk.injEq] at ran
    rw [← ran.1]
    rfl
  | cons entry rest ih =>
    rcases entry with ⟨position, token⟩
    simp only [run] at ran
    split at ran
    · rename_i next stepped
      simp only [List.map_cons, run, step_fill reads stepped]
      exact ih ran
    · cases ran

/-- A text read into a tree reads, with every name written as a literal of the number, from the
filled machine into the filled tree, whatever the positions of its tokens. -/
theorem parse_fill {limit : Nat} {s s' : String} {m m' : Machine} {t : Expr}
    (parsed : m.parse limit s = (m', .ok t))
    (written : (Token.ofString s').map Prod.snd =
      (Token.ofString s).map fun e => e.2.nameAs (.literal literal)) :
    (m.fill d).parse limit s' = (m'.fill d, .ok (t.fill d)) := by
  obtain ⟨read, ran, finished⟩ := parse_cases parsed
  have filled := run_fill reads ran
  -- The text's own tokens sit at other positions, which no step without a fault reads.
  have same : ((Token.ofString s).map fun e => (e.1, e.2.nameAs (.literal literal))).map Prod.snd =
      (Token.ofString s').map Prod.snd := by
    rw [written, List.map_map]
    rfl
  have placed := run_unplaced limit (m.fill d) same
  rw [filled] at placed
  unfold Machine.parse
  -- The run over the written text ends where the filled run does, without a fault.
  rcases reading : (m.fill d).run limit (Token.ofString s') with ⟨state, _ | f⟩ <;>
    rw [reading] at placed <;>
    simp only [Option.map_none, Option.map_some, reduceCtorEq, and_false] at placed
  rw [← placed.1]
  exact finish_fill finished

end Machine

/-! ### Evaluating with the value written in -/

/-- The fixed text of a decimal that is not negative is a literal, which reads into a number of
the decimal's value. -/
theorem Decimal.fixedText_literal {v : Decimal} (nonnegative : v.negative = false) :
    (Token.literal v.toFixedText).Lexeme ∧
      ∃ d, Numeric.finiteValue? false v.toFixedText.toList = some d ∧ d.toRat = v.toRat := by
  -- With no sign, the fixed text is a numeral of the grammar, which is a literal lexeme.
  obtain ⟨numeral, spelled, value, -⟩ := toFixedText_numeral v
  simp only [nonnegative, Bool.false_eq_true, if_false, List.nil_append] at spelled
  have text : v.toFixedText = String.ofList numeral.text := by
    rw [← spelled, String.ofList_toList]
  refine ⟨text ▸ numeral.lexeme, numeral.value, by rw [spelled]; exact numeral.finiteValue?_text,
    ?_⟩
  rw [value, ← nonnegative]
  exact toRat_raised v

namespace Evaluator

/-- A text read into a tree is not blank. -/
theorem notBlank_of_parse {limit : Nat} {s : String} {m : Machine} {t : Expr}
    (parsed : Machine.empty.parse limit s = (m, .ok t)) : isBlankExpr s = false := by
  -- A blank text is never read into a tree.
  cases blank : isBlankExpr s with
  | false => rfl
  | true => exact absurd (by rw [parsed]) (Machine.parse_blank limit blank t)

/-- A text that a fresh evaluator reads with its variable named `x`, cut at the occurrences of
`x` into pieces with no letter and with no digit or point next to an occurrence, evaluates with a
decimal that is not negative as the text with the decimal's fixed text written at every
occurrence evaluates, with any value: to numbers of one value, or to the same fault. -/
theorem evaluate_value_written (precision maxDepth : Nat) (positive : 1 ≤ precision)
    {s x : String} {ws : List (List Char)} {t : Expr} (cut : s.toList = x.toList.intercalate ws)
    (pieces : Token.Pieces ws)
    (accepted : (({ precision, maxDepth } : Evaluator).parse s).2 = .ok t)
    (named : (({ precision, maxDepth } : Evaluator).parse s).1.machine.variableName = some x)
    (v : Decimal) (nonnegative : v.negative = false) (value : Value) :
    (({ precision, maxDepth } : Evaluator).evaluate (some s) (.decimal (.finite v))).2.map
        Decimal.toRat =
      (({ precision, maxDepth } : Evaluator).evaluate
        (some (String.ofList (v.toFixedText.toList.intercalate ws))) value).2.map
          Decimal.toRat := by
  -- The fresh evaluator reads the text from an empty machine.
  rcases parsed : Machine.empty.parse maxDepth s with ⟨m, result⟩
  have reading : (({ precision, maxDepth } : Evaluator).parse s) =
      ({ precision, maxDepth, machine := m }, result) := by
    have fresh : ({} : Machine) = Machine.empty := rfl
    simp only [parse]
    rw [fresh, parsed]
  rw [reading] at accepted named
  simp only at accepted named
  subst accepted
  -- Every name read is `x`, which reads back as a name.
  obtain ⟨read, ran, finished⟩ := Machine.parse_cases parsed
  obtain ⟨-, -, onlyName, registered⟩ := (Machine.tallies_empty.run ran).finish finished
  rw [List.nil_append] at onlyName registered
  have onlyX : ∀ y, Token.name y ∈ (Token.ofString s).map Prod.snd → y = x := by
    intro y member
    have registeredY := onlyName y member
    rw [named, Option.some.injEq] at registeredY
    exact registeredY.symm
  have xRead := registered x named
  have nameLexeme : (Token.name x).Lexeme := by
    obtain ⟨e, inScan, isName⟩ := List.mem_map.mp xRead
    exact isName ▸ Token.scan_lexemes s.toList 0 e inScan
  obtain ⟨literalLexeme, d, reads, sameValue⟩ := Decimal.fixedText_literal nonnegative
  -- The written text lexes into the text's tokens with the literal for every name.
  have nonempty : ws ≠ [] := by
    rintro rfl
    rw [List.intercalate_nil] at cut
    simp [Token.ofString, cut] at xRead
  have written : (Token.ofString (String.ofList (v.toFixedText.toList.intercalate ws))).map
      Prod.snd = (Token.ofString s).map fun e => e.2.nameAs (.literal v.toFixedText) := by
    unfold Token.ofString at onlyX ⊢
    rw [String.toList_ofList, cut]
    rw [cut] at onlyX
    exact Token.scan_intercalate nameLexeme literalLexeme ws nonempty pieces 0 0 onlyX
  have parsed' := Machine.parse_fill reads parsed written
  rw [show Machine.empty.fill d = Machine.empty from rfl] at parsed'
  -- The text names the variable and is computed with the value; the written one names none.
  have unnamed : t.names ≠ [] := fun none => by
    rw [← (Machine.parse_registers parsed).2, named] at none
    cases none
  rw [evaluate_read _ _ (notBlank_of_parse parsed) parsed,
    evaluate_read _ _ (notBlank_of_parse parsed') parsed', if_neg unnamed,
    if_pos (Expr.names_fill d t)]
  -- Both trees compute alike in value, since every operation reads its operands' values only.
  have range : (Context.ofPrecision precision).emin ≤ (Context.ofPrecision precision).emax := by
    simp [Context.ofPrecision]
  exact (Expr.eval_fill positive range sameValue none t).symm

/-- A third of the variable, with the value one hundred written as `1E+2`, gives the number that
a third of `100` gives. -/
theorem third_of_hundred_written_in :
    let ev : Evaluator := { precision := 50, maxDepth := 256 }
    let hundred : Decimal := ⟨false, 1, 2⟩
    "x/3".toList = "x".toList.intercalate [[], ['/', '3']] ∧ Token.Pieces [[], ['/', '3']] ∧
      (ev.parse "x/3").2 = .ok (.bin .div (.var "x") (.num ⟨false, 3, 0⟩)) ∧
      (ev.parse "x/3").1.machine.variableName = some "x" ∧
      (ev.evaluate (some "x/3") (.decimal (.finite hundred))).2.map Decimal.toRat =
        (ev.evaluate (some (String.ofList (hundred.toFixedText.toList.intercalate [[], ['/', '3']])))
          (.integer 0)).2.map Decimal.toRat := by
  intro ev hundred
  -- The text is an empty piece, the name, and the piece `/3`.
  have cut : "x/3".toList = "x".toList.intercalate [[], ['/', '3']] := by decide
  have pieces : Token.Pieces [[], ['/', '3']] := by
    refine ⟨?_, List.IsChain.cons_cons ⟨?_, ?_⟩ (List.isChain_singleton _)⟩
    · intro w member c inW
      simp only [List.mem_cons, List.not_mem_nil, or_false] at member
      rcases member with rfl | rfl
      · cases inW
      · simp only [List.mem_cons, List.not_mem_nil, or_false] at inW
        rcases inW with rfl | rfl <;> decide
    · intro c last
      cases last
    · intro c first
      cases first
      decide
  have accepted : (ev.parse "x/3").2 = .ok (.bin .div (.var "x") (.num ⟨false, 3, 0⟩)) := by
    decide +kernel
  have named : (ev.parse "x/3").1.machine.variableName = some "x" := by decide +kernel
  exact ⟨cut, pieces, accepted, named,
    evaluate_value_written 50 256 (by decide) cut pieces accepted named hundred rfl (.integer 0)⟩

end Evaluator

end Calculator
