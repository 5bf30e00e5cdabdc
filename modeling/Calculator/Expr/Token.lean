import Calculator.Expr.Operation
import Calculator.Text.Letter

/-! Tokens of an expression and the lexer that cuts a text into them, each with the position of
its first character. Spaces separate tokens and are dropped. -/

namespace Calculator

/-- A token of an expression. -/
inductive Token where
  /-- A run of ASCII digits and points that starts with a digit. -/
  | literal (text : String)
  /-- A run of letters: a variable name. -/
  | name (text : String)
  /-- An operation symbol. -/
  | operation (op : Operation)
  /-- An open parenthesis. -/
  | openParen
  /-- A closing parenthesis. -/
  | closeParen
  /-- A character that starts no token. -/
  | stray (c : Char)
deriving DecidableEq, Inhabited

namespace Token

/-- Characters that continue a literal. -/
def isLiteralChar (c : Char) : Bool := c.isDigit || c = '.'

/-- Cuts a text, whose first character is at `position`, into tokens with their positions.
Only the ASCII space is skipped. -/
def scan (cs : List Char) (position : Nat) : List (Nat × Token) :=
  match cs with
  | [] => []
  | c :: rest =>
    if c = ' ' then scan rest (position + 1)
    else if c.isDigit then
      let run := rest.takeWhile isLiteralChar
      (position, .literal (String.ofList (c :: run))) ::
        scan (rest.dropWhile isLiteralChar) (position + 1 + run.length)
    else if Text.isLetter c then
      let run := rest.takeWhile Text.isLetter
      (position, .name (String.ofList (c :: run))) ::
        scan (rest.dropWhile Text.isLetter) (position + 1 + run.length)
    else
      let token := match Operation.ofChar? c with
        | some op => .operation op
        | none => if c = '(' then .openParen else if c = ')' then .closeParen else .stray c
      (position, token) :: scan rest (position + 1)
termination_by cs.length
decreasing_by
  all_goals
    have literalRest := (List.dropWhile_suffix isLiteralChar (l := rest)).length_le
    have nameRest := (List.dropWhile_suffix Text.isLetter (l := rest)).length_le
    simp only [List.length_cons]
    omega

/-- The tokens of an expression text. -/
def ofString (s : String) : List (Nat × Token) := scan s.toList 0

end Token

end Calculator
