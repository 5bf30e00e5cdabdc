import Calculator.Proofs.Blank
import Calculator.Proofs.Outcome

/-! What reading a text depends on. Spaces between tokens are skipped, and they move only the
positions that faults report: a space put where it splits no literal and no name changes no
value, and no fault beyond the position it gives. The lexer also reads from left to right and
starts afresh at each token, so a fault met at a token is decided by the text up to the end of
that token: whatever follows it, if it does not run on into the token, the same fault is met. -/

namespace Calculator

namespace Token

/-- Two neighbouring characters that the lexer reads into one token: both continue a literal, or
both are letters. -/
def joins (a b : Char) : Bool :=
  (isLiteralChar a && isLiteralChar b) || (Text.isLetter a && Text.isLetter b)

/-- A space joins nothing. -/
theorem joins_space (a : Char) : joins a ' ' = false := by
  -- A space is neither a literal character nor a letter.
  simp [joins, isLiteralChar, Text.isLetter]

/-- What ends a suffix of a text ends the text. -/
theorem mem_getLast?_of_suffix {l l' : List Char} (suffix : l' <:+ l) :
    ∀ a ∈ l'.getLast?, a ∈ l.getLast? := by
  obtain ⟨front, rfl⟩ := suffix
  -- A nonempty suffix decides the last character of the whole.
  intro a last
  rw [List.getLast?_append, Option.mem_def.mp last]
  rfl

/-- Two literal characters join, and so do two letters. -/
theorem joins_of_class {p : Char → Bool} (joined : ∀ a b, p a → p b → joins a b)
    {c : Char} {rest ds : List Char} (first : p c)
    (apart : ∀ a ∈ (c :: rest).getLast?, ∀ b ∈ ds.head?, joins a b = false) :
    (∀ x ∈ rest, p x) → ∀ d ∈ ds.head?, p d = false := by
  -- A text of one class ends with a character of that class, which no character of it follows.
  intro within d first'
  have lastIs : (c :: rest).getLast? = some (rest.getLast?.getD c) := List.getLast?_cons
  have last : p (rest.getLast?.getD c) := by
    rcases List.mem_cons.mp (List.mem_of_getLast? lastIs) with same | inRest
    · rw [same]
      exact first
    · exact within _ inRest
  cases classOf : p d with
  | false => rfl
  | true =>
    have notJoined := apart _ lastIs d first'
    simp [joined _ _ last classOf] at notJoined

/-- A run of one class at the head of a text cut where nothing joins stops inside the first part,
and what it leaves of that part is cut from the second where nothing joins as well. -/
theorem run_apart (p : Char → Bool) (joined : ∀ a b, p a → p b → joins a b) {c : Char}
    {rest ds : List Char} (first : p c)
    (apart : ∀ a ∈ (c :: rest).getLast?, ∀ b ∈ ds.head?, joins a b = false) :
    ((rest ++ ds).takeWhile p = rest.takeWhile p ∧
      (rest ++ ds).dropWhile p = rest.dropWhile p ++ ds) ∧
      ∀ a ∈ (rest.dropWhile p).getLast?, ∀ b ∈ ds.head?, joins a b = false :=
  ⟨takeWhile_dropWhile_cut (joins_of_class joined first apart), fun a last => apart a
    (mem_getLast?_of_suffix ((List.dropWhile_suffix p).trans (List.suffix_cons c rest)) a last)⟩

/-- A text cut between two characters that do not join is lexed as its two parts, one after the
other. -/
theorem scan_split {ds : List Char} (cs : List Char) (position : Nat) :
    (∀ a ∈ cs.getLast?, ∀ b ∈ ds.head?, joins a b = false) →
      scan (cs ++ ds) position = scan cs position ++ scan ds (position + cs.length) := by
  fun_induction scan cs position with
  | case1 => simp
  | case2 position rest ih =>
    -- A space is skipped on both sides, and the cut is still between characters that do not join.
    intro apart
    have restApart := fun a last =>
      apart a (mem_getLast?_of_suffix (List.suffix_cons _ rest) a last)
    rw [List.cons_append, scan, if_pos rfl, ih restApart, List.length_cons,
      show position + 1 + rest.length = position + (rest.length + 1) by omega]
  | case3 position c rest notSpace digit run ih =>
    intro apart
    -- The literal runs into the second text only when it fills the first, and then the first
    -- ends with a literal character, which the second does not continue.
    obtain ⟨cut, restApart⟩ := run_apart isLiteralChar
      (fun a b first second => by simp [joins, first, second]) (by simp [isLiteralChar, digit]) apart
    have split := length_run isLiteralChar rest
    rw [List.cons_append, scan, if_neg notSpace, if_pos digit]
    simp only [cut.1, cut.2, List.cons_append]
    rw [ih restApart, List.length_cons]
    congr 3
    simp only [run]
    omega
  | case4 position c rest notSpace notDigit letter run ih =>
    -- A name, as a literal: it ends with a letter, which the second text does not continue.
    intro apart
    obtain ⟨cut, restApart⟩ := run_apart Text.isLetter
      (fun a b first second => by simp [joins, first, second]) letter apart
    have split := length_run Text.isLetter rest
    rw [List.cons_append, scan, if_neg notSpace, if_neg notDigit, if_pos letter]
    simp only [cut.1, cut.2, List.cons_append]
    rw [ih restApart, List.length_cons]
    congr 3
    simp only [run]
    omega
  | case5 position c rest notSpace notDigit notLetter token ih =>
    -- A single character is a token of its own, and never runs on.
    intro apart
    have restApart := fun a last =>
      apart a (mem_getLast?_of_suffix (List.suffix_cons _ rest) a last)
    rw [List.cons_append, scan, if_neg notSpace, if_neg notDigit, if_neg notLetter,
      ih restApart, List.length_cons,
      show position + 1 + rest.length = position + (rest.length + 1) by omega]
    rfl

/-! ### Spaces between tokens -/

/-- One more space in a text, put where it splits no literal and no name: between two characters
that do not join, or at either end. -/
inductive SpaceInserted : List Char → List Char → Prop
  | mk (pre post : List Char) (apart : ∀ a ∈ pre.getLast?, ∀ b ∈ post.head?, joins a b = false) :
      SpaceInserted (pre ++ post) (pre ++ ' ' :: post)

/-- A space put where it splits no token leaves the tokens as they were; only the positions after
it move on by one. -/
theorem scan_spaceInserted {cs cs' : List Char} (inserted : SpaceInserted cs cs') :
    (scan cs' 0).map Prod.snd = (scan cs 0).map Prod.snd := by
  obtain ⟨pre, post, apart⟩ := inserted
  -- Both texts are lexed in two parts cut at the place of the space.
  have skipped : scan (' ' :: post) (0 + pre.length) = scan post (0 + pre.length + 1) := by
    rw [scan, if_pos rfl]
  rw [scan_split pre 0 (fun a _ b first => by simp at first; simp [← first, joins_space]),
    scan_split pre 0 apart, skipped, scan_shift post]
  -- The tokens after the space sit one position on, which dropping the positions forgets.
  simp [Function.comp_def]

/-- Spaces put where they split no token leave the tokens as they were. -/
theorem scan_spacedOut {cs cs' : List Char} (spaced : Relation.ReflTransGen SpaceInserted cs cs') :
    (scan cs' 0).map Prod.snd = (scan cs 0).map Prod.snd := by
  -- One space at a time, each leaving the tokens as they were.
  induction spaced with
  | refl => rfl
  | tail _ inserted ih => exact (scan_spaceInserted inserted).trans ih

/-! ### Starting afresh at a token -/

/-- A text cut after n characters and continued by a text that starts as the rest did starts as
the whole text. -/
theorem head?_take_append {l ys : List Char} {n : Nat} (starts : ys.head? = (l.drop n).head?) :
    (l.take n ++ ys).head? = l.head? := by
  -- With nothing taken the continuation starts the text; otherwise the text's own head does.
  cases n with
  | zero => simpa using starts
  | succ n =>
    cases l with
    | nil => simpa using starts
    | cons c more => simp

/-- A run of one class at the head of a text stops where it stopped when what it left is cut and
continued by a text that starts as the rest of it did. -/
theorem run_resumes (p : Char → Bool) {rest ys : List Char} {n : Nat}
    (starts : ys.head? = ((rest.dropWhile p).drop n).head?) :
    (rest.takeWhile p ++ ((rest.dropWhile p).take n ++ ys)).takeWhile p = rest.takeWhile p ∧
      (rest.takeWhile p ++ ((rest.dropWhile p).take n ++ ys)).dropWhile p =
        (rest.dropWhile p).take n ++ ys := by
  -- What follows the run starts as what followed it in the text, which fails the test.
  have stops : ∀ d ∈ ((rest.dropWhile p).take n ++ ys).head?, p d = false := by
    rw [head?_take_append starts]
    intro d first
    have fails := List.head?_dropWhile_not p rest
    rw [Option.mem_def.mp first] at fails
    exact fails
  exact takeWhile_dropWhile_run (fun d inRun => List.mem_takeWhile_imp inRun) stops

/-- At the position of a token the lexer starts afresh: the text before the token, continued by
any text that starts with the token's first character, is read as the tokens before it followed by
what that text is read as from the token's position. -/
theorem scan_resume {q : Nat} {t : Token} {rest : List (Nat × Token)} (cs : List Char)
    (position : Nat) : ∀ pre, scan cs position = pre ++ (q, t) :: rest →
      ∀ ys, ys.head? = (cs.drop (q - position)).head? →
        scan (cs.take (q - position) ++ ys) position = pre ++ scan ys q := by
  fun_induction scan cs position with
  | case1 => simp
  | case2 position rest' ih =>
    -- A space before the token is kept, and skipped again.
    intro pre split ys starts
    have later := (scan_before rest' (position + 1) pre split).1
    have gap : q - position = (q - (position + 1)) + 1 := by omega
    rw [gap, List.drop_succ_cons] at starts
    rw [gap, List.take_succ_cons, List.cons_append, scan, if_pos rfl]
    exact ih pre split ys starts
  | case3 position c rest' notSpace digit run ih =>
    intro pre split ys starts
    -- The literal is the token, or the token comes after it.
    cases pre with
    | nil =>
      -- The literal is the token itself, with nothing before it.
      simp only [List.nil_append, List.cons.injEq, Prod.mk.injEq] at split
      obtain ⟨⟨rfl, rfl⟩, -⟩ := split
      simp
    | cons e pre =>
      simp only [List.cons_append, List.cons.injEq] at split
      obtain ⟨rfl, split⟩ := split
      have later := (scan_before _ _ pre split).1
      have whole : run ++ rest'.dropWhile isLiteralChar = rest' := List.takeWhile_append_dropWhile
      have gap : q - position = (run.length + (q - (position + 1 + run.length))) + 1 := by omega
      rw [gap, List.drop_succ_cons, ← whole, List.drop_length_add_append] at starts
      -- The literal stops where the text after it starts, as it did in the whole text.
      have cut : (run ++ ((rest'.dropWhile isLiteralChar).take (q - (position + 1 + run.length)) ++
            ys)).takeWhile isLiteralChar = run ∧
          (run ++ ((rest'.dropWhile isLiteralChar).take (q - (position + 1 + run.length)) ++
            ys)).dropWhile isLiteralChar =
            (rest'.dropWhile isLiteralChar).take (q - (position + 1 + run.length)) ++ ys :=
        run_resumes isLiteralChar starts
      rw [gap, List.take_succ_cons, ← whole, List.take_length_add_append, List.cons_append,
        List.append_assoc, scan, if_neg notSpace, if_pos digit]
      simp only [cut.1, cut.2, List.cons_append]
      rw [ih pre split ys starts]
  | case4 position c rest' notSpace notDigit letter run ih =>
    intro pre split ys starts
    -- The name is the token, or the token comes after it.
    cases pre with
    | nil =>
      simp only [List.nil_append, List.cons.injEq, Prod.mk.injEq] at split
      obtain ⟨⟨rfl, rfl⟩, -⟩ := split
      simp
    | cons e pre =>
      simp only [List.cons_append, List.cons.injEq] at split
      obtain ⟨rfl, split⟩ := split
      have later := (scan_before _ _ pre split).1
      have whole : run ++ rest'.dropWhile Text.isLetter = rest' := List.takeWhile_append_dropWhile
      have gap : q - position = (run.length + (q - (position + 1 + run.length))) + 1 := by omega
      rw [gap, List.drop_succ_cons, ← whole, List.drop_length_add_append] at starts
      -- The name stops where the text after it starts, as it did in the whole text.
      have cut : (run ++ ((rest'.dropWhile Text.isLetter).take (q - (position + 1 + run.length)) ++
            ys)).takeWhile Text.isLetter = run ∧
          (run ++ ((rest'.dropWhile Text.isLetter).take (q - (position + 1 + run.length)) ++
            ys)).dropWhile Text.isLetter =
            (rest'.dropWhile Text.isLetter).take (q - (position + 1 + run.length)) ++ ys :=
        run_resumes Text.isLetter starts
      rw [gap, List.take_succ_cons, ← whole, List.take_length_add_append, List.cons_append,
        List.append_assoc, scan, if_neg notSpace, if_neg notDigit, if_pos letter]
      simp only [cut.1, cut.2, List.cons_append]
      rw [ih pre split ys starts]
  | case5 position c rest' notSpace notDigit notLetter token ih =>
    intro pre split ys starts
    cases pre with
    | nil =>
      -- The character is the token itself.
      simp only [List.nil_append, List.cons.injEq, Prod.mk.injEq] at split
      obtain ⟨⟨rfl, rfl⟩, -⟩ := split
      simp
    | cons e pre =>
      -- The character is read before the token, and the rest goes on by induction.
      simp only [List.cons_append, List.cons.injEq] at split
      obtain ⟨rfl, split⟩ := split
      have later := (scan_before rest' (position + 1) pre split).1
      have gap : q - position = (q - (position + 1)) + 1 := by omega
      rw [gap, List.drop_succ_cons] at starts
      rw [gap, List.take_succ_cons, List.cons_append, scan, if_neg notSpace, if_neg notDigit,
        if_neg notLetter, ih pre split ys starts]
      rfl

/-- A lexeme is not continued by a character that does not join its last one. -/
theorem Lexeme.ends {t : Token} (lexeme : t.Lexeme) {b : Char}
    (apart : ∀ a ∈ t.text.getLast?, joins a b = false) : t.continuesWith b = false := by
  cases t with
  | literal word =>
    obtain ⟨c, run, spelled, digit, within⟩ := lexeme
    -- The literal ends with a literal character, which b does not continue.
    have lastIs : (c :: run).getLast? = some (run.getLast?.getD c) := List.getLast?_cons
    have literal : isLiteralChar (run.getLast?.getD c) := by
      rcases List.mem_cons.mp (List.mem_of_getLast? lastIs) with same | inRun
      · rw [same]
        simp [isLiteralChar, digit]
      · exact within _ inRun
    have notJoined := apart _ (by simp only [text, spelled]; exact lastIs)
    simp only [joins, literal, Bool.true_and, Bool.or_eq_false_iff] at notJoined
    exact notJoined.1
  | name word =>
    -- The name ends with a letter, which b does not continue.
    obtain ⟨nonempty, letters⟩ := lexeme
    obtain ⟨a, lastIs⟩ : ∃ a, word.toList.getLast? = some a :=
      ⟨_, List.getLast?_eq_some_getLast nonempty⟩
    have letter : Text.isLetter a := letters a (List.mem_of_getLast? lastIs)
    have notJoined := apart a lastIs
    simp only [joins, letter, Bool.true_and, Bool.or_eq_false_iff] at notJoined
    exact notJoined.2
  -- No other token is ever continued.
  | _ => rfl

end Token

/-- A space is blank. -/
theorem Text.isBlank_space : Text.isBlank ' '.toNat = true := by decide +kernel

/-- Spaces put into a text leave all its characters blank exactly when they were. -/
theorem Token.blank_spacedOut {cs cs' : List Char}
    (spaced : Relation.ReflTransGen Token.SpaceInserted cs cs') :
    (∀ c ∈ cs', Text.isBlank c.toNat = true) ↔ ∀ c ∈ cs, Text.isBlank c.toNat = true := by
  induction spaced with
  | refl => rfl
  | tail _ inserted ih =>
    -- The one character added is a space, which is blank.
    obtain ⟨pre, post, -⟩ := inserted
    rw [← ih]
    simp only [List.forall_mem_append, List.forall_mem_cons, Text.isBlank_space, true_and]

/-- An expression text is blank exactly when all its characters are. -/
theorem Evaluator.isBlankExpr_iff (s : String) :
    Evaluator.isBlankExpr s = true ↔ ∀ c ∈ s.toList, Text.isBlank c.toNat = true := by
  refine ⟨Evaluator.blank_chars, fun blank => ?_⟩
  -- An empty text is blank by the first test, any other by the second.
  simp only [Evaluator.isBlankExpr, Text.isBlankText, Bool.or_eq_true, Bool.and_eq_true,
    Bool.not_eq_true', List.all_eq_true]
  by_cases emptyText : s.isEmpty
  · exact .inl emptyText
  · exact .inr ⟨by simpa using emptyText, blank⟩

/-- Spaces put into a text leave it blank exactly when it was. -/
theorem Evaluator.isBlankExpr_spacedOut {s s' : String}
    (spaced : Relation.ReflTransGen Token.SpaceInserted s.toList s'.toList) :
    Evaluator.isBlankExpr s' = Evaluator.isBlankExpr s := by
  -- Blankness is a property of the characters, which the spaces keep.
  rw [Bool.eq_iff_iff, Evaluator.isBlankExpr_iff, Evaluator.isBlankExpr_iff,
    Token.blank_spacedOut spaced]

namespace Fault

/-- The fault with the position it reports, if it reports one, set to zero. Two faults that
agree after this are of one kind and differ at most in the positions their messages give. -/
def unplaced : Fault → Fault
  | .invalidCharacter c _ => .invalidCharacter c 0
  | .missingOpen _ => .missingOpen 0
  | .tooDeep limit _ => .tooDeep limit 0
  | f => f

@[simp] theorem kindName_unplaced (f : Fault) : f.unplaced.kindName = f.kindName := by
  cases f <;> rfl

@[simp] theorem code_unplaced (f : Fault) : f.unplaced.code = f.code := by
  cases f <;> rfl

end Fault

namespace Machine

/-- The position a token is read at goes only into the faults it reports. -/
theorem step_unplaced (limit p q : Nat) (m : Machine) (token : Token) :
    (m.step limit p token).1 = (m.step limit q token).1 ∧
      (m.step limit p token).2.map Fault.unplaced = (m.step limit q token).2.map Fault.unplaced := by
  -- Only parentheses and strays put the position into a fault; nothing puts it into the state.
  cases token with
  | openParen =>
    simp only [step, openParen]
    split <;> simp [Fault.unplaced]
  | closeParen =>
    simp only [step, closeParen]
    rcases m.reduce 0 with ⟨reduced, _ | f⟩
    · simp only
      split <;> simp [Fault.unplaced]
    · simp
  | stray c => simp [step, Fault.unplaced]
  | literal text => simp [step]
  | name text => simp [step]
  | operation op => simp [step]

/-- Runs over the same tokens at other positions end in the same state, with the same fault up to
the positions it reports. -/
theorem run_unplaced (limit : Nat) (m : Machine) {tokens tokens' : List (Nat × Token)}
    (same : tokens.map Prod.snd = tokens'.map Prod.snd) :
    (m.run limit tokens).1 = (m.run limit tokens').1 ∧
      (m.run limit tokens).2.map Fault.unplaced = (m.run limit tokens').2.map Fault.unplaced := by
  -- Induction on the tokens, the two lists walked together.
  induction tokens generalizing m tokens' with
  | nil =>
    cases tokens' with
    | nil => exact ⟨rfl, rfl⟩
    | cons _ _ => simp at same
  | cons entry rest ih =>
    cases tokens' with
    | nil => simp at same
    | cons entry' rest' =>
      obtain ⟨position, token⟩ := entry
      obtain ⟨position', token'⟩ := entry'
      simp only [List.map_cons, List.cons.injEq] at same
      obtain ⟨rfl, sameRest⟩ := same
      obtain ⟨sameState, sameFault⟩ := step_unplaced limit position position' m token
      simp only [run]
      -- Both sides read the token into one state; a fault on one side is a fault on the other.
      rcases stepped : m.step limit position token with ⟨next, _ | f⟩ <;>
        rcases stepped' : m.step limit position' token with ⟨next', _ | f'⟩ <;>
        rw [stepped, stepped'] at sameState sameFault <;>
        simp only [Option.map_none, Option.map_some, reduceCtorEq, Option.some.injEq] at sameState sameFault
      · subst sameState
        exact ih next sameRest
      · exact ⟨sameState, by simp [sameFault]⟩

/-- Reading texts of the same tokens at other positions ends in the same state, with the same tree
or the same fault up to the positions it reports. -/
theorem parse_unplaced (limit : Nat) (m : Machine) {s s' : String}
    (same : (Token.ofString s).map Prod.snd = (Token.ofString s').map Prod.snd) :
    (m.parse limit s).1 = (m.parse limit s').1 ∧
      (m.parse limit s).2.mapError Fault.unplaced = (m.parse limit s').2.mapError Fault.unplaced := by
  obtain ⟨sameState, sameFault⟩ := run_unplaced limit m same
  unfold Machine.parse
  rcases ran : m.run limit (Token.ofString s) with ⟨read, _ | f⟩ <;>
    rcases ran' : m.run limit (Token.ofString s') with ⟨read', _ | f'⟩ <;>
    rw [ran, ran'] at sameState sameFault <;>
    simp only [Option.map_none, Option.map_some, reduceCtorEq, Option.some.injEq] at sameState sameFault
  · -- The whole text is read on both sides, into one state, which ends alike.
    subst sameState
    exact ⟨rfl, rfl⟩
  · -- Both runs stopped, with faults alike but for positions.
    exact ⟨sameState, by simp [Except.mapError, sameFault]⟩

end Machine

namespace Evaluator

/-- Texts of the same tokens, blank alike, evaluate alike up to the positions faults report. -/
theorem evaluate_unplaced (ev : Evaluator) (value : Value) {s s' : String}
    (same : (Token.ofString s).map Prod.snd = (Token.ofString s').map Prod.snd)
    (blankAlike : isBlankExpr s' = isBlankExpr s) :
    (ev.evaluate (some s) value).2.mapError Fault.unplaced =
      (ev.evaluate (some s') value).2.mapError Fault.unplaced := by
  cases blank : isBlankExpr s with
  | true =>
    -- Both texts are blank, and both are zero.
    have blank' : isBlankExpr s' = true := blankAlike.trans blank
    simp [evaluate, blank, blank']
  | false =>
    have blank' : isBlankExpr s' = false := blankAlike.trans blank
    have parsed := (Machine.parse_unplaced ev.maxDepth Machine.empty same).2
    -- A fault of reading stays that fault; a tree read is the same tree and computes alike.
    rcases reading : Machine.empty.parse ev.maxDepth s with ⟨m, _ | root⟩ <;>
      rcases reading' : Machine.empty.parse ev.maxDepth s' with ⟨m', _ | root'⟩ <;>
      rw [reading, reading'] at parsed <;>
      simp only [Except.mapError, Except.error.injEq, Except.ok.injEq, reduceCtorEq] at parsed
    · rw [evaluate_unread ev value blank reading, evaluate_unread ev value blank' reading']
      simp [Except.mapError, parsed]
    · subst parsed
      rw [evaluate_read ev value blank reading, evaluate_read ev value blank' reading']

/-- A fault met while reading a token is decided by the text up to the end of that token. When the
reading of a text stops at the token at position `i` with a fault, the tokens before it read
without one, the text cut after that token and continued by any text whose first character does
not join the token's last one is read into the same fault. -/
theorem parse_fault_at_token (ev : Evaluator) {s : String} {pre rest : List (Nat × Token)}
    {i : Nat} {t : Token} {f : Fault}
    (scanned : Token.ofString s = pre ++ (i, t) :: rest)
    (clean : (ev.machine.run ev.maxDepth pre).2 = none)
    (faulted : ((ev.machine.run ev.maxDepth pre).1.step ev.maxDepth i t).2 = some f)
    (u : List Char)
    (apart : ∀ a ∈ (s.toList.take (i + t.text.length)).getLast?, ∀ b ∈ u.head?,
      Token.joins a b = false) :
    (ev.parse (String.ofList (s.toList.take (i + t.text.length) ++ u))).2 = .error f := by
  -- The token's text stands at its position, and it is a lexeme.
  obtain ⟨-, -, ⟨after, spelled⟩⟩ := Token.scan_before s.toList 0 pre scanned
  rw [Nat.sub_zero] at spelled
  have lexeme : t.Lexeme := Token.scan_lexemes s.toList 0 (i, t) (by
    rw [show Token.scan s.toList 0 = Token.ofString s from rfl, scanned]
    simp)
  have nonempty := lexeme.text_ne_nil
  have taken : s.toList.take (i + t.text.length) = s.toList.take i ++ t.text := by
    rw [List.take_add, ← spelled, List.take_left' rfl]
  -- What follows the cut does not continue the token.
  have ends : ∀ b ∈ u.head?, t.continuesWith b = false := by
    intro b first
    refine lexeme.ends fun a last => apart a ?_ b first
    rw [taken, List.getLast?_append, Option.mem_def.mp last]
    rfl
  have starts : (t.text ++ u).head? = (s.toList.drop (i - 0)).head? := by
    rw [Nat.sub_zero, ← spelled, List.head?_append_of_ne_nil _ nonempty,
      List.head?_append_of_ne_nil _ nonempty]
  -- So the new text is lexed as before up to the token, which is read as itself.
  have resumed := Token.scan_resume s.toList 0 pre scanned (t.text ++ u) starts
  rw [Nat.sub_zero] at resumed
  have rescanned : Token.ofString (String.ofList (s.toList.take (i + t.text.length) ++ u)) =
      pre ++ (i, t) :: Token.scan u (i + t.text.length) := by
    unfold Token.ofString
    rw [String.toList_ofList, taken, List.append_assoc, resumed, Token.scan_lexeme lexeme ends]
  -- Reading goes as before up to the token, and faults there.
  simp only [Evaluator.parse, Machine.parse, rescanned, Machine.run_append]
  rcases ran : ev.machine.run ev.maxDepth pre with ⟨m, _ | g⟩
  · -- The tokens before read cleanly, and the step at the token is the one that faulted.
    rw [ran] at faulted
    rcases stepped : m.step ev.maxDepth i t with ⟨m', _ | g⟩
    · rw [stepped] at faulted
      cases faulted
    · rw [stepped] at faulted
      cases faulted
      simp [Machine.run, stepped]
  · rw [ran] at clean
    cases clean

/-- A second variable name is refused as soon as it is read, whatever follows it. -/
theorem second_name_refused :
    let ev : Evaluator := { precision := 50, maxDepth := 256 }
    let pre : List (Nat × Token) := [(0, .name "a"), (1, .operation .add)]
    Token.ofString "a+b" = pre ++ [(2, .name "b")] ∧ (ev.machine.run ev.maxDepth pre).2 = none ∧
      ((ev.machine.run ev.maxDepth pre).1.step ev.maxDepth 2 (.name "b")).2 =
        some (.multipleVariables "a" "b") ∧
      (∀ a ∈ ("a+b".toList.take (2 + (Token.name "b").text.length)).getLast?,
        ∀ b ∈ "*2".toList.head?, Token.joins a b = false) ∧
      (ev.parse (String.ofList ("a+b".toList.take (2 + (Token.name "b").text.length) ++
        "*2".toList))).2 = .error (.multipleVariables "a" "b") := by
  intro ev pre
  -- The hypotheses are computed on the text; the conclusion is the general theorem at it.
  have scanned : Token.ofString "a+b" = pre ++ [(2, .name "b")] := by decide +kernel
  have clean : (ev.machine.run ev.maxDepth pre).2 = none := by decide +kernel
  have faulted : ((ev.machine.run ev.maxDepth pre).1.step ev.maxDepth 2 (.name "b")).2 =
      some (.multipleVariables "a" "b") := by decide +kernel
  have apart : ∀ a ∈ ("a+b".toList.take (2 + (Token.name "b").text.length)).getLast?,
      ∀ b ∈ "*2".toList.head?, Token.joins a b = false := by
    intro a last b first
    cases last
    cases first
    decide
  exact ⟨scanned, clean, faulted, apart,
    parse_fault_at_token ev scanned clean faulted "*2".toList apart⟩

/-- Spaces put into an expression where they split no literal and no name change nothing but the
positions that faults report: the text and the spaced text give the same number, or faults of the
same kind and code whose messages differ at most in the positions they give. -/
theorem evaluate_spaced (ev : Evaluator) (value : Value) {s s' : String}
    (spaced : Relation.ReflTransGen Token.SpaceInserted s.toList s'.toList) :
    match (ev.evaluate (some s) value).2, (ev.evaluate (some s') value).2 with
    | .ok d, .ok d' => d = d'
    | .error f, .error f' => f.kindName = f'.kindName ∧ f.code = f'.code ∧ f.unplaced = f'.unplaced
    | _, _ => False := by
  have alike := evaluate_unplaced ev value (Token.scan_spacedOut spaced).symm
    (isBlankExpr_spacedOut spaced)
  -- Outcomes equal up to positions are both numbers, the same, or both faults alike.
  generalize (ev.evaluate (some s) value).2 = outcome at alike ⊢
  generalize (ev.evaluate (some s') value).2 = outcome' at alike ⊢
  rcases outcome with f | d <;> rcases outcome' with f' | d' <;>
    simp only [Except.mapError, Except.error.injEq, Except.ok.injEq, reduceCtorEq] at alike ⊢
  · -- The kind and the code do not read the position.
    rw [← Fault.kindName_unplaced f, ← Fault.code_unplaced f, alike, Fault.kindName_unplaced,
      Fault.code_unplaced]
    exact ⟨rfl, rfl, rfl⟩
  · exact alike

/-- Spacing out a product of a literal and the variable changes nothing. -/
theorem spaced_product :
    Relation.ReflTransGen Token.SpaceInserted "2*x".toList "2 * x".toList ∧
      match (({ precision := 50, maxDepth := 256 } : Evaluator).evaluate (some "2*x") (.integer 3)).2,
        (({ precision := 50, maxDepth := 256 } : Evaluator).evaluate (some "2 * x") (.integer 3)).2 with
      | .ok d, .ok d' => d = d'
      | .error f, .error f' => f.kindName = f'.kindName ∧ f.code = f'.code ∧ f.unplaced = f'.unplaced
      | _, _ => False := by
  -- A space after the literal, then one after the operation.
  have afterTwo : Token.SpaceInserted "2*x".toList ['2', ' ', '*', 'x'] := by
    have inserted := Token.SpaceInserted.mk ['2'] ['*', 'x'] (by
      intro a last b first
      cases last
      cases first
      decide)
    rwa [show ['2'] ++ ['*', 'x'] = "2*x".toList by decide] at inserted
  have afterTimes : Token.SpaceInserted ['2', ' ', '*', 'x'] "2 * x".toList := by
    have inserted := Token.SpaceInserted.mk ['2', ' ', '*'] ['x'] (by
      intro a last b first
      cases last
      cases first
      decide)
    rwa [show ['2', ' ', '*'] ++ ' ' :: ['x'] = "2 * x".toList by decide] at inserted
  have spaced := Relation.ReflTransGen.tail (.single afterTwo) afterTimes
  exact ⟨spaced, evaluate_spaced _ _ spaced⟩

end Evaluator

end Calculator
