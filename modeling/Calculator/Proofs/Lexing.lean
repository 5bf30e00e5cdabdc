import Calculator.Expr.Token
import Mathlib

/-! Texts written token by token: the characters of each token, any number of spaces around
them, and the lexer reading back exactly those tokens when no token runs on into the next. In the
other direction, what the lexer reads from any text: lexemes, whose texts make up the text without
its spaces, each at its position. -/

namespace Calculator.Token

/-- The characters that write a token. -/
def text : Token → List Char
  | .literal t => t.toList
  | .name t => t.toList
  | .operation op => [op.symbol]
  | .openParen => ['(']
  | .closeParen => [')']
  | .stray c => [c]

/-- Whether a character right after the token would be read as part of it. -/
def continuesWith : Token → Char → Bool
  | .literal _, c => isLiteralChar c
  | .name _, c => Text.isLetter c
  | _, _ => false

/-- A token that the lexer reads back from its own text: a literal is a digit followed by digits
and points, a name is a run of letters, and a stray character starts no other token. -/
def Lexeme : Token → Prop
  | .literal t => ∃ c run, t.toList = c :: run ∧ c.isDigit ∧ ∀ d ∈ run, isLiteralChar d
  | .name t => t.toList ≠ [] ∧ ∀ c ∈ t.toList, Text.isLetter c
  | .operation _ | .openParen | .closeParen => True
  | .stray c =>
    c ≠ ' ' ∧ c.isDigit = false ∧ Text.isLetter c = false ∧ Operation.ofChar? c = none ∧
      c ≠ '(' ∧ c ≠ ')'

/-- Two neighbouring tokens stay apart: the first character of the second does not continue the
first. -/
def Apart (t t' : Token) : Prop := ∀ c ∈ t'.text.head?, t.continuesWith c = false

/-- A text made of the given tokens, with any number of spaces before, between and after them. -/
inductive Spaced : List Token → List Char → Prop
  | nil (gap : Nat) : Spaced [] (List.replicate gap ' ')
  | cons (gap : Nat) (token : Token) {tokens : List Token} {rest : List Char} :
      Spaced tokens rest → Spaced (token :: tokens) (List.replicate gap ' ' ++ token.text ++ rest)

/-- Spaces are skipped, each moving the position on by one. -/
theorem scan_spaces (gap : Nat) (cs : List Char) (position : Nat) :
    scan (List.replicate gap ' ' ++ cs) position = scan cs (position + gap) := by
  induction gap generalizing position with
  | zero => rfl
  | succ gap ih =>
    -- The first space is skipped by the scan's first test, and the others by induction.
    rw [List.replicate_succ, List.cons_append, scan, if_pos rfl, ih]
    congr 1
    omega

/-- A run of characters that all pass a test, followed by a text whose first character fails
it, is cut off exactly at the end of the run. -/
theorem takeWhile_dropWhile_run {p : Char → Bool} {run rest : List Char}
    (within : ∀ c ∈ run, p c) (stop : ∀ c ∈ rest.head?, p c = false) :
    (run ++ rest).takeWhile p = run ∧ (run ++ rest).dropWhile p = rest := by
  -- The run passes the test throughout; what follows it fails at once, or is empty.
  rw [List.takeWhile_append_of_pos within, List.dropWhile_append_of_pos within]
  cases rest with
  | nil => simp
  | cons c more =>
    have fails : p c = false := stop c rfl
    simp [fails]

/-- A letter is no digit. -/
theorem isDigit_of_isLetter {c : Char} (letter : Text.isLetter c) : c.isDigit = false := by
  unfold Text.isLetter at letter
  -- Digits are ASCII and not alphabetic; beyond ASCII nothing is a digit.
  have code : c.toNat = c.val.toNat := rfl
  have zero : '0'.val.toNat = 48 := rfl
  have nine : '9'.val.toNat = 57 := rfl
  simp only [Char.isDigit, Bool.and_eq_false_iff, decide_eq_false_iff_not,
    UInt32.le_iff_toNat_le, ge_iff_le]
  split at letter
  · have upperA : 'A'.val.toNat = 65 := rfl
    have upperZ : 'Z'.val.toNat = 90 := rfl
    have lowerA : 'a'.val.toNat = 97 := rfl
    have lowerZ : 'z'.val.toNat = 122 := rfl
    simp only [Char.isAlpha, Char.isUpper, Char.isLower, Bool.or_eq_true, Bool.and_eq_true,
      decide_eq_true_eq, UInt32.le_iff_toNat_le, ge_iff_le] at letter
    omega
  · omega

/-- A character that is no space, digit or letter is a token of its own: an operation, a
parenthesis, or a stray character. -/
theorem scan_single {c : Char} (notSpace : c ≠ ' ') (notDigit : c.isDigit = false)
    (notLetter : Text.isLetter c = false) (rest : List Char) (position : Nat) :
    scan (c :: rest) position =
      (position, (Operation.ofChar? c).elim
        (if c = '(' then .openParen else if c = ')' then .closeParen else .stray c) .operation) ::
        scan rest (position + 1) := by
  -- The character fails the first three tests and falls to the last branch of the scan.
  rw [scan, if_neg notSpace, if_neg (by simp [notDigit]), if_neg (by simp [notLetter])]
  cases Operation.ofChar? c <;> rfl

/-- A lexeme followed by a text that does not continue it is read back as itself, and the
lexer goes on right after its text. -/
theorem scan_lexeme {t : Token} (lexeme : t.Lexeme) {rest : List Char}
    (ends : ∀ c ∈ rest.head?, t.continuesWith c = false) (position : Nat) :
    scan (t.text ++ rest) position = (position, t) :: scan rest (position + t.text.length) := by
  cases t with
  | literal word =>
    -- The digit starts the literal and the run of digits and points stops where the text does.
    obtain ⟨c, run, spelled, digit, within⟩ := lexeme
    have cut := takeWhile_dropWhile_run within (by simpa [continuesWith] using ends)
    have notSpace : c ≠ ' ' := by
      rintro rfl
      simp at digit
    have length : word.toList.length = run.length + 1 := by simp [spelled]
    simp only [text, spelled, List.cons_append]
    rw [scan, if_neg notSpace, if_pos digit]
    simp only [cut.1, cut.2, ← spelled, String.ofList_toList]
    congr 2
    omega
  | name word =>
    -- The letters run to the end of the name and stop where the text does.
    obtain ⟨nonempty, letters⟩ := lexeme
    obtain ⟨c, run, spelled⟩ : ∃ c run, word.toList = c :: run := by
      cases spelledAs : word.toList with
      | nil => exact absurd spelledAs nonempty
      | cons c run => exact ⟨c, run, rfl⟩
    have letter : Text.isLetter c := letters c (by simp [spelled])
    have cut : (run ++ rest).takeWhile Text.isLetter = run ∧
        (run ++ rest).dropWhile Text.isLetter = rest :=
      takeWhile_dropWhile_run (fun d inRun => letters d (by simp [spelled, inRun]))
        (by simpa [continuesWith] using ends)
    have notSpace : c ≠ ' ' := by
      rintro rfl
      simp [Text.isLetter] at letter
    have length : word.toList.length = run.length + 1 := by simp [spelled]
    simp only [text, spelled, List.cons_append]
    rw [scan, if_neg notSpace, if_neg (by simp [isDigit_of_isLetter letter]), if_pos letter]
    simp only [cut.1, cut.2, ← spelled, String.ofList_toList]
    congr 2
    omega
  -- A symbol is one character that is no space, digit or letter, and is read alone.
  | operation op =>
    cases op <;>
      simp only [text, Operation.symbol, List.cons_append, List.nil_append, List.length_singleton] <;>
      rw [scan_single (by decide) (by decide) (by decide)] <;> rfl
  | openParen =>
    simp only [text, List.cons_append, List.nil_append, List.length_singleton]
    rw [scan_single (by decide) (by decide) (by decide)]
    rfl
  | closeParen =>
    simp only [text, List.cons_append, List.nil_append, List.length_singleton]
    rw [scan_single (by decide) (by decide) (by decide)]
    rfl
  | stray c =>
    -- A stray character is a lexeme only when it writes no operation and no parenthesis.
    obtain ⟨notSpace, notDigit, notLetter, notOperation, notOpen, notClose⟩ := lexeme
    simp only [text, List.cons_append, List.nil_append, List.length_singleton]
    rw [scan_single notSpace notDigit notLetter, notOperation]
    simp [notOpen, notClose]

/-- A lexeme is written with at least one character. -/
theorem Lexeme.text_ne_nil {t : Token} (lexeme : t.Lexeme) : t.text ≠ [] := by
  -- A literal starts with its digit and a name is not empty; the other tokens are one character.
  cases t with
  | literal word =>
    obtain ⟨c, run, spelled, _⟩ := lexeme
    simp [text, spelled]
  | name word => exact lexeme.1
  | _ => simp [text]

/-- The first character of a spaced text of lexemes is a space or the first character of its
first token. -/
theorem Spaced.head {tokens : List Token} {cs : List Char} (spaced : Spaced tokens cs)
    (lexemes : ∀ t ∈ tokens, t.Lexeme) :
    ∀ c ∈ cs.head?, c = ' ' ∨ ∃ t ∈ tokens.head?, c ∈ t.text.head? := by
  intro c first
  -- Any space in front comes first; otherwise the text starts with the first token.
  cases spaced with
  | nil gap =>
    cases gap with
    | zero => simp at first
    | succ gap =>
      simp only [List.replicate_succ, List.head?_cons, Option.mem_def, Option.some.injEq] at first
      exact .inl first.symm
  | cons gap token rest =>
    cases gap with
    | succ gap =>
      simp only [List.replicate_succ, List.cons_append, List.head?_cons, Option.mem_def,
        Option.some.injEq] at first
      exact .inl first.symm
    | zero =>
      -- With no space in front, the text starts with the token, which is never empty.
      simp only [List.replicate_zero, List.nil_append] at first
      right
      refine ⟨token, rfl, ?_⟩
      cases textEq : token.text with
      | nil => exact absurd textEq (lexemes token (by simp)).text_ne_nil
      | cons d more => simp_all

/-- The lexer reads a spaced text of lexemes back as its tokens, provided each token stays apart
from the next. -/
theorem scan_spaced {tokens : List Token} {cs : List Char} (spaced : Spaced tokens cs)
    (lexemes : ∀ t ∈ tokens, t.Lexeme) (apart : tokens.IsChain Apart) (position : Nat) :
    (scan cs position).map Prod.snd = tokens := by
  -- Induction on the spacing: each token is read back once the spaces before it are skipped.
  induction spaced generalizing position with
  | nil gap =>
    rw [← List.append_nil (List.replicate gap ' '), scan_spaces]
    simp [scan]
  | @cons gap token tokens rest spacedRest ih =>
    rw [List.append_assoc, scan_spaces]
    -- What follows the token starts with a space, or with the next token, which stays apart.
    have ends : ∀ c ∈ rest.head?, token.continuesWith c = false := by
      intro c first
      rcases spacedRest.head (fun t member => lexemes t (by simp [member])) c first with
        space | ⟨next, isNext, starts⟩
      · subst space
        cases token <;> simp [continuesWith, isLiteralChar, Text.isLetter]
      · cases tokens with
        | nil => simp at isNext
        | cons t more =>
          simp only [List.head?_cons, Option.mem_def, Option.some.injEq] at isNext
          subst isNext
          exact (List.isChain_cons_cons.mp apart).1 c starts
    -- The token is read as itself, and the lexer goes on with the rest of the text.
    rw [scan_lexeme (lexemes token (by simp)) ends]
    simp only [List.map_cons]
    rw [ih (fun t member => lexemes t (by simp [member])) (List.IsChain.of_cons apart)]

end Calculator.Token

namespace Calculator

/-- The operation a character writes has that character as its symbol. -/
theorem Operation.symbol_of_ofChar? {c : Char} {op : Operation} (read : Operation.ofChar? c = some op) :
    op.symbol = c := by
  unfold Operation.ofChar? at read
  -- Each symbol is tested in turn; the one that matched is the operation's own.
  split_ifs at read with plus minus times slash <;> cases read
  · exact plus.symm
  · exact minus.symm
  · exact times.symm
  · exact slash.symm

/-! ### What the lexer reads from any text -/

namespace Token

/-- The token of a character that is no space, digit or letter: the operation it writes, a
parenthesis, or a stray character. -/
def single (c : Char) : Token :=
  (Operation.ofChar? c).elim
    (if c = '(' then .openParen else if c = ')' then .closeParen else .stray c) .operation

/-- The token the lexer makes of a character that is no space, digit or letter. -/
theorem single_eq (c : Char) :
    (match Operation.ofChar? c with
      | some op => operation op
      | none => if _ : c = '(' then openParen else if _ : c = ')' then closeParen else stray c) =
      single c := by
  unfold single
  -- The two are the same choice, written with a match and with an eliminator.
  cases Operation.ofChar? c <;> rfl

/-- A character that is no space, digit or letter is a lexeme of its own, written by that
character alone. -/
theorem single_lexeme {c : Char} (notSpace : c ≠ ' ') (notDigit : ¬ c.isDigit = true)
    (notLetter : ¬ Text.isLetter c = true) : (single c).Lexeme ∧ (single c).text = [c] := by
  -- The character writes an operation, a parenthesis, or else is a stray of its own.
  cases read : Operation.ofChar? c with
  | some op =>
    exact ⟨by simp [single, read, Lexeme], by simp [single, read, text, Operation.symbol_of_ofChar? read]⟩
  | none =>
    by_cases opening : c = '('
    · subst opening
      exact ⟨by simp [single, read, Lexeme], by simp [single, read, text]⟩
    · by_cases closing : c = ')'
      · subst closing
        exact ⟨by simp [single, read, Lexeme], by simp [single, read, text]⟩
      · refine ⟨?_, by simp [single, read, opening, closing, text]⟩
        simp only [single, read, opening, closing, if_false, Option.elim_none]
        exact ⟨notSpace, by simpa using notDigit, by simpa using notLetter, read, opening, closing⟩

/-- A run of literal characters or letters holds no space. -/
theorem filter_space_run {p : Char → Bool} (noSpace : p ' ' = false) (cs : List Char) :
    (cs.takeWhile p).filter (· != ' ') = cs.takeWhile p :=
  List.filter_eq_self.mpr fun d inRun => by
    -- Every character of the run passes the test, which the space fails.
    have within := List.mem_takeWhile_imp inRun
    by_cases space : d = ' '
    · subst space
      simp [noSpace] at within
    · simp [space]

/-- Every token the lexer reads is a lexeme. -/
theorem scan_lexemes (cs : List Char) (position : Nat) : ∀ e ∈ scan cs position, e.2.Lexeme := by
  -- One case per branch of the scan: a space adds no token, each other branch adds one.
  fun_induction scan cs position with
  | case1 => simp
  | case2 position rest ih => exact ih
  | case3 position c rest notSpace digit run ih =>
    -- A literal is a digit and the run of digits and points after it.
    intro e member
    rcases List.mem_cons.mp member with rfl | later
    · exact ⟨c, run, by simp, digit, fun d inRun => List.mem_takeWhile_imp inRun⟩
    · exact ih e later
  | case4 position c rest notSpace notDigit letter run ih =>
    -- A name is the letter and the run of letters after it.
    intro e member
    rcases List.mem_cons.mp member with rfl | later
    · refine ⟨by simp, fun d inName => ?_⟩
      simp only [String.toList_ofList, List.mem_cons] at inName
      rcases inName with rfl | inRun
      · exact letter
      · exact List.mem_takeWhile_imp inRun
    · exact ih e later
  | case5 position c rest notSpace notDigit notLetter token ih =>
    -- Any other character is a lexeme of its own.
    have same : token = single c := single_eq c
    intro e member
    rcases List.mem_cons.mp member with rfl | later
    · exact same ▸ (single_lexeme notSpace notDigit notLetter).1
    · exact ih e later

/-- The tokens the lexer reads, written one after the other, are the text without its spaces. -/
theorem scan_texts (cs : List Char) (position : Nat) :
    ((scan cs position).map fun e => e.2.text).flatten = cs.filter (· != ' ') := by
  -- The scan's branches again: a space is dropped on both sides, a token is written as read.
  fun_induction scan cs position with
  | case1 => rfl
  | case2 position rest ih => simpa using ih
  | case3 position c rest notSpace digit run ih =>
    -- The run holds no space, and the text goes on where the run stops.
    have written : (Token.literal (String.ofList (c :: run))).text = c :: run := by simp [text]
    rw [List.map_cons, List.flatten_cons, ih, written,
      ← @List.takeWhile_append_dropWhile _ isLiteralChar rest, List.filter_cons,
      List.filter_append, filter_space_run rfl]
    simp [notSpace, run]
  | case4 position c rest notSpace notDigit letter run ih =>
    -- A run of letters holds no space either.
    have written : (Token.name (String.ofList (c :: run))).text = c :: run := by simp [text]
    rw [List.map_cons, List.flatten_cons, ih, written,
      ← @List.takeWhile_append_dropWhile _ Text.isLetter rest, List.filter_cons,
      List.filter_append, filter_space_run (by decide)]
    simp [notSpace, run]
  | case5 position c rest notSpace notDigit notLetter token ih =>
    have same : token = single c := single_eq c
    rw [List.map_cons, List.flatten_cons, ih, same, (single_lexeme notSpace notDigit notLetter).2]
    simp [notSpace]

/-- A run of characters that pass a test stops inside the first of two texts, or at its end when
the second starts with a character that fails the test. -/
theorem takeWhile_dropWhile_cut {p : Char → Bool} {l ds : List Char}
    (stop : (∀ c ∈ l, p c) → ∀ d ∈ ds.head?, p d = false) :
    (l ++ ds).takeWhile p = l.takeWhile p ∧ (l ++ ds).dropWhile p = l.dropWhile p ++ ds := by
  induction l with
  | nil =>
    -- The whole first text passed, so the second starts with a character that fails.
    cases ds with
    | nil => simp
    | cons d more => simp [stop (by simp) d rfl]
  | cons a l ih =>
    -- The run goes on while the first text passes, and a failing character stops it there.
    by_cases continues : p a
    · have cut := ih fun within => stop (List.forall_mem_cons.mpr ⟨continues, within⟩)
      simp [continues, cut.1, cut.2]
    · simp [continues]

/-- A run and what is left after it make up the whole text. -/
theorem length_run (p : Char → Bool) (cs : List Char) :
    cs.length = (cs.takeWhile p).length + (cs.dropWhile p).length := by
  conv_lhs => rw [← @List.takeWhile_append_dropWhile _ p cs]
  exact List.length_append

/-- Moving the start of a text moves the position of every token by as much. -/
theorem scan_shift (cs : List Char) (position : Nat) :
    ∀ shift, scan cs (position + shift) = (scan cs position).map fun e => (e.1 + shift, e.2) := by
  -- The scan never reads its position, it only hands it on, so each branch shifts alike.
  fun_induction scan cs position with
  | case1 => intro shift; simp [scan]
  | case2 position rest ih =>
    intro shift
    rw [scan, if_pos rfl, show position + shift + 1 = position + 1 + shift by omega, ih shift]
  | case3 position c rest notSpace digit run ih =>
    intro shift
    rw [scan, if_neg notSpace, if_pos digit, List.map_cons]
    simp only
    rw [show position + shift + 1 + run.length = position + 1 + run.length + shift by omega,
      ih shift]
  | case4 position c rest notSpace notDigit letter run ih =>
    intro shift
    rw [scan, if_neg notSpace, if_neg notDigit, if_pos letter, List.map_cons]
    simp only
    rw [show position + shift + 1 + run.length = position + 1 + run.length + shift by omega,
      ih shift]
  | case5 position c rest notSpace notDigit notLetter token ih =>
    intro shift
    rw [scan, if_neg notSpace, if_neg notDigit, if_neg notLetter, List.map_cons,
      show position + shift + 1 = position + 1 + shift by omega, ih shift]
    rfl

/-- A text cut where no token can run on is lexed as its two parts, one after the other. -/
theorem scan_append {ds : List Char}
    (ends : ∀ d ∈ ds.head?, isLiteralChar d = false ∧ Text.isLetter d = false)
    (cs : List Char) (position : Nat) :
    scan (cs ++ ds) position = scan cs position ++ scan ds (position + cs.length) := by
  fun_induction scan cs position with
  | case1 => simp
  -- A skipped space leaves the cut where it was, one character on.
  | case2 position rest ih =>
    rw [List.cons_append, scan, if_pos rfl, ih, List.length_cons,
      show position + 1 + rest.length = position + (rest.length + 1) by omega]
  | case3 position c rest notSpace digit run ih =>
    -- The literal stops before the appended text, and the rest is lexed as before.
    have cut := @takeWhile_dropWhile_cut _ rest _ fun _ d first => (ends d first).1
    have split := length_run isLiteralChar rest
    rw [List.cons_append, scan, if_neg notSpace, if_pos digit]
    simp only [cut.1, cut.2, List.cons_append]
    rw [ih, List.length_cons]
    congr 3
    simp only [run]
    omega
  | case4 position c rest notSpace notDigit letter run ih =>
    -- So does a name, since the appended text starts with no letter.
    have cut := @takeWhile_dropWhile_cut _ rest _ fun _ d first => (ends d first).2
    have split := length_run Text.isLetter rest
    rw [List.cons_append, scan, if_neg notSpace, if_neg notDigit, if_pos letter]
    simp only [cut.1, cut.2, List.cons_append]
    rw [ih, List.length_cons]
    congr 3
    simp only [run]
    omega
  | case5 position c rest notSpace notDigit notLetter token ih =>
    rw [List.cons_append, scan, if_neg notSpace, if_neg notDigit, if_neg notLetter, ih,
      List.length_cons, show position + 1 + rest.length = position + (rest.length + 1) by omega]
    rfl

/-- A token read after a word of text that holds no space: the text before the token is that word
followed by the text before it from after the word. -/
theorem before_after_word (w more : List Char) {position q : Nat} {t : Token} {words : List Char}
    (noSpace : w.filter (· != ' ') = w)
    (after : position + w.length ≤ q ∧
      (more.take (q - (position + w.length))).filter (· != ' ') = words ∧
      t.text <+: more.drop (q - (position + w.length))) :
    position ≤ q ∧ ((w ++ more).take (q - position)).filter (· != ' ') = w ++ words ∧
      t.text <+: (w ++ more).drop (q - position) := by
  obtain ⟨later, written, found⟩ := after
  -- The distance to the token is the word's length and the distance after it.
  have gap : q - position = w.length + (q - (position + w.length)) := by omega
  refine ⟨by omega, ?_, ?_⟩
  · rw [gap, List.take_length_add_append, List.filter_append, noSpace, written]
  · rw [gap, List.drop_length_add_append]
    exact found

/-- The text before a token is, without its spaces, the tokens read before it written one after
the other, and the token's own text starts at its position. -/
theorem scan_before {q : Nat} {t : Token} {rest : List (Nat × Token)} (cs : List Char)
    (position : Nat) : ∀ pre, scan cs position = pre ++ (q, t) :: rest →
      position ≤ q ∧ (cs.take (q - position)).filter (· != ' ') =
        (pre.map fun e => e.2.text).flatten ∧ t.text <+: cs.drop (q - position) := by
  -- In each branch the token is the one just read, or one read later from the rest.
  fun_induction scan cs position with
  | case1 => simp
  | case2 position rest' ih =>
    -- A space moves the position on and is dropped from the text.
    intro pre split
    obtain ⟨later, written, found⟩ := ih pre split
    have gap : q - position = (q - (position + 1)) + 1 := by omega
    refine ⟨by omega, ?_, ?_⟩
    · rw [gap, List.take_succ_cons, List.filter_cons]
      simpa using written
    · rw [gap, List.drop_succ_cons]
      exact found
  | case3 position c rest' notSpace digit run ih =>
    have whole := @List.takeWhile_append_dropWhile _ isLiteralChar rest'
    intro pre split
    cases pre with
    | nil =>
      -- The literal itself starts at the position.
      simp only [List.nil_append, List.cons.injEq, Prod.mk.injEq] at split
      obtain ⟨⟨rfl, rfl⟩, -⟩ := split
      refine ⟨le_refl _, by simp, ?_⟩
      simp only [Nat.sub_self, List.drop_zero, text, String.toList_ofList]
      exact (List.prefix_cons_inj c).mpr (List.takeWhile_prefix _)
    | cons e pre =>
      -- A later token: the literal is a word with no space in front of the rest.
      simp only [List.cons_append, List.cons.injEq] at split
      obtain ⟨rfl, split⟩ := split
      have noSpace : (c :: run).filter (· != ' ') = c :: run := by
        rw [List.filter_cons, filter_space_run rfl]
        simp [notSpace, run]
      have step := before_after_word (c :: run) (rest'.dropWhile isLiteralChar)
        noSpace (by simpa [Nat.add_assoc, Nat.add_comm 1] using ih pre split)
      rw [List.cons_append, whole] at step
      simpa [text] using step
  | case4 position c rest' notSpace notDigit letter run ih =>
    -- A name, as a literal: the token itself, or a later one after the name's word.
    have whole := @List.takeWhile_append_dropWhile _ Text.isLetter rest'
    intro pre split
    cases pre with
    | nil =>
      simp only [List.nil_append, List.cons.injEq, Prod.mk.injEq] at split
      obtain ⟨⟨rfl, rfl⟩, -⟩ := split
      refine ⟨le_refl _, by simp, ?_⟩
      simp only [Nat.sub_self, List.drop_zero, text, String.toList_ofList]
      exact (List.prefix_cons_inj c).mpr (List.takeWhile_prefix _)
    | cons e pre =>
      simp only [List.cons_append, List.cons.injEq] at split
      obtain ⟨rfl, split⟩ := split
      have noSpace : (c :: run).filter (· != ' ') = c :: run := by
        rw [List.filter_cons, filter_space_run (by decide)]
        simp [notSpace, run]
      have step := before_after_word (c :: run) (rest'.dropWhile Text.isLetter)
        noSpace (by simpa [Nat.add_assoc, Nat.add_comm 1] using ih pre split)
      rw [List.cons_append, whole] at step
      simpa [text] using step
  | case5 position c rest' notSpace notDigit notLetter token ih =>
    have same : token = single c := single_eq c
    have written := (single_lexeme notSpace notDigit notLetter).2
    intro pre split
    cases pre with
    | nil =>
      -- The character is the token.
      simp only [List.nil_append, List.cons.injEq, Prod.mk.injEq] at split
      obtain ⟨⟨rfl, rfl⟩, -⟩ := split
      refine ⟨le_refl _, by simp, ?_⟩
      simp [same, written]
    | cons e pre =>
      -- A later token, after the character's word of one.
      simp only [List.cons_append, List.cons.injEq] at split
      obtain ⟨rfl, split⟩ := split
      have step := before_after_word [c] rest' (by simp [notSpace])
        (by simpa using ih pre split)
      simpa [same, written] using step

/-! ### Parentheses and operations of a text -/

/-- Whether a character is a parenthesis. -/
def isParen (c : Char) : Bool := c == '(' || c == ')'

/-- Keeping only the parentheses of a text keeps the count of each parenthesis. -/
theorem count_parens (c : Char) (paren : isParen c = true) (cs : List Char) :
    (cs.filter isParen).count c = cs.count c :=
  List.count_filter paren

/-- The parenthesis a token is, if it is one. -/
def paren? : Token → Option Char
  | .openParen => some '('
  | .closeParen => some ')'
  | _ => none

/-- The operation a token writes, if it writes one. -/
def operation? : Token → Option Operation
  | .operation op => some op
  | _ => none

/-- A character class that holds neither parenthesis holds no parenthesis at all. -/
theorem isParen_of_class (p : Char → Bool) (opening : p '(' = false) (closing : p ')' = false)
    {c : Char} (member : p c = true) : isParen c = false := by
  -- A parenthesis in the class would be one of the two it lacks.
  by_contra paren
  simp only [isParen, Bool.not_eq_false, Bool.or_eq_true, beq_iff_eq] at paren
  rcases paren with rfl | rfl <;> simp_all

/-- A character class that holds no operation symbol holds no character that writes an
operation. -/
theorem ofChar?_of_class (p : Char → Bool) (symbols : ∀ op : Operation, p op.symbol = false)
    {c : Char} (member : p c = true) : Operation.ofChar? c = none := by
  cases read : Operation.ofChar? c with
  | none => rfl
  | some op =>
    -- The character would be the operation's symbol, which the class lacks.
    have same := Operation.symbol_of_ofChar? read
    subst same
    simp [symbols op] at member

/-- The parentheses in the text of a lexeme: the token itself when it is a parenthesis, and none
otherwise. -/
theorem Lexeme.parens {t : Token} (lexeme : t.Lexeme) :
    t.text.filter isParen = t.paren?.toList := by
  cases t with
  | literal word =>
    -- Digits and points are no parentheses.
    obtain ⟨c, run, spelled, digit, within⟩ := lexeme
    have noParen : ∀ d ∈ word.toList, isParen d = false := by
      intro d member
      rw [spelled, List.mem_cons] at member
      rcases member with rfl | inRun
      · exact isParen_of_class Char.isDigit (by decide) (by decide) digit
      · exact isParen_of_class isLiteralChar (by decide) (by decide) (within d inRun)
    simpa [text, paren?] using noParen
  | name word =>
    have noParen : ∀ d ∈ word.toList, isParen d = false :=
      fun d member => isParen_of_class Text.isLetter (by decide) (by decide) (lexeme.2 d member)
    simpa [text, paren?] using noParen
  | operation op => cases op <;> rfl
  | openParen => rfl
  | closeParen => rfl
  | stray c =>
    -- A stray character is neither parenthesis, or it would be read as one.
    obtain ⟨-, -, -, -, notOpen, notClose⟩ := lexeme
    simp [text, paren?, isParen, notOpen, notClose]

/-- The operations written in the text of a lexeme: the token's own operation, if it is one. -/
theorem Lexeme.operations {t : Token} (lexeme : t.Lexeme) :
    t.text.filterMap Operation.ofChar? = t.operation?.toList := by
  cases t with
  | literal word =>
    -- No digit or point is an operation symbol.
    obtain ⟨c, run, spelled, digit, within⟩ := lexeme
    have noOperation : ∀ d ∈ word.toList, Operation.ofChar? d = none := by
      intro d member
      rw [spelled, List.mem_cons] at member
      rcases member with rfl | inRun
      · exact ofChar?_of_class Char.isDigit (fun op => by cases op <;> decide) digit
      · exact ofChar?_of_class isLiteralChar (fun op => by cases op <;> decide) (within d inRun)
    simpa [text, operation?, List.filterMap_eq_nil_iff] using noOperation
  | name word =>
    have noOperation : ∀ d ∈ word.toList, Operation.ofChar? d = none :=
      fun d member =>
        ofChar?_of_class Text.isLetter (fun op => by cases op <;> decide) (lexeme.2 d member)
    simpa [text, operation?, List.filterMap_eq_nil_iff] using noOperation
  | operation op => cases op <;> rfl
  | openParen => rfl
  | closeParen => rfl
  | stray c =>
    -- A stray character writes no operation, or it would be read as one.
    obtain ⟨-, -, -, none, -, -⟩ := lexeme
    simp [text, operation?, none]

/-- The parentheses in the texts of lexemes are the lexemes that are parentheses, in order. -/
theorem texts_parens (tokens : List (Nat × Token)) (lexemes : ∀ e ∈ tokens, e.2.Lexeme) :
    ((tokens.map fun e => e.2.text).flatten).filter isParen =
      (tokens.map Prod.snd).filterMap paren? := by
  induction tokens with
  | nil => rfl
  | cons e rest ih =>
    -- The first text holds its token's parenthesis only; the rest by induction.
    simp only [List.map_cons, List.flatten_cons, List.filter_append, List.filterMap_cons]
    rw [(lexemes e (by simp)).parens, ih (fun e' member => lexemes e' (by simp [member]))]
    cases e.2.paren? <;> rfl

/-- The operations written in the texts of lexemes are those of the operation tokens, in
order. -/
theorem texts_operations (tokens : List (Nat × Token)) (lexemes : ∀ e ∈ tokens, e.2.Lexeme) :
    ((tokens.map fun e => e.2.text).flatten).filterMap Operation.ofChar? =
      (tokens.map Prod.snd).filterMap operation? := by
  induction tokens with
  | nil => rfl
  | cons e rest ih =>
    -- The first text writes its token's operation only; the rest by induction.
    simp only [List.map_cons, List.flatten_cons, List.filterMap_append, List.filterMap_cons]
    rw [(lexemes e (by simp)).operations, ih (fun e' member => lexemes e' (by simp [member]))]
    cases e.2.operation? <;> rfl

/-- Spaces are no parentheses: dropping them keeps the parentheses of a text. -/
theorem filter_parens_spaces (cs : List Char) :
    (cs.filter (· != ' ')).filter isParen = cs.filter isParen := by
  rw [List.filter_filter]
  congr 1
  -- The two tests together are the test for a parenthesis alone.
  funext c
  by_cases space : c = ' ' <;> simp [space, isParen]

/-- The parentheses of a text are those of its tokens, in order. -/
theorem scan_parens (cs : List Char) (position : Nat) :
    cs.filter isParen = ((scan cs position).map Prod.snd).filterMap paren? := by
  -- Each token's text holds its own parenthesis only.
  rw [← filter_parens_spaces, ← scan_texts cs position]
  exact texts_parens _ (scan_lexemes cs position)

/-- The operations written in a text are those of its tokens, in order. -/
theorem scan_operations (cs : List Char) (position : Nat) :
    cs.filterMap Operation.ofChar? = ((scan cs position).map Prod.snd).filterMap operation? := by
  -- A space writes no operation, so the text without its spaces writes the same ones.
  have spaces : cs.filterMap Operation.ofChar? =
      (cs.filter (· != ' ')).filterMap Operation.ofChar? := by
    rw [List.filterMap_filter]
    congr 1
    funext c
    by_cases space : c = ' '
    · subst space
      rfl
    · simp [space]
  -- That text is the tokens written one after the other.
  rw [spaces, ← scan_texts cs position]
  exact texts_operations _ (scan_lexemes cs position)

/-- The parentheses of the text before a token are those of the tokens read before it. -/
theorem parens_before {q : Nat} {t : Token} {pre rest : List (Nat × Token)} (cs : List Char)
    (scanned : scan cs 0 = pre ++ (q, t) :: rest) :
    (cs.take q).filter isParen = (pre.map Prod.snd).filterMap paren? := by
  -- The text before the token is, without spaces, the tokens before it.
  obtain ⟨-, before, -⟩ := scan_before cs 0 pre scanned
  have lexemes : ∀ e ∈ pre, e.2.Lexeme := fun e member =>
    scan_lexemes cs 0 e (scanned ▸ List.mem_append_left _ member)
  rw [Nat.sub_zero] at before
  rw [← filter_parens_spaces, before]
  exact texts_parens pre lexemes

/-- The character at a token's position is the first character of its text. -/
theorem take_at {q : Nat} {t : Token} {pre rest : List (Nat × Token)} {c : Char}
    (cs : List Char) (scanned : scan cs 0 = pre ++ (q, t) :: rest) (first : t.text.head? = some c) :
    cs.take (q + 1) = cs.take q ++ [c] := by
  -- The token's text is what the text holds from its position on.
  obtain ⟨-, -, ⟨more, spelled⟩⟩ := scan_before cs 0 pre scanned
  rw [Nat.sub_zero] at spelled
  have at_q : cs[q]? = some c := by
    rw [← List.head?_drop, ← spelled, List.head?_append, first]
    rfl
  rw [List.take_add_one, at_q]
  rfl

end Token

end Calculator
