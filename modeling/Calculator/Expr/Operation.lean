/-! The four binary operations of an expression, their symbols and how tightly they bind. -/

namespace Calculator

/-- A binary operation of an expression. -/
inductive Operation where
  | add
  | sub
  | mul
  | div
deriving DecidableEq, Inhabited

namespace Operation

/-- The character that writes the operation. -/
def symbol : Operation → Char
  | .add => '+'
  | .sub => '-'
  | .mul => '*'
  | .div => '/'

/-- The operation's name in reports. -/
def name : Operation → String
  | .add => "Addition"
  | .sub => "Subtraction"
  | .mul => "Multiplication"
  | .div => "Division"

/-- How tightly the operation binds: products and quotients before sums and differences. -/
def precedence : Operation → Nat
  | .add => 1
  | .sub => 1
  | .mul => 2
  | .div => 2

/-- The operation written by a character, if any. -/
def ofChar? (c : Char) : Option Operation :=
  if c = '+' then some .add
  else if c = '-' then some .sub
  else if c = '*' then some .mul
  else if c = '/' then some .div
  else none

/-- The operation written by a text of exactly one symbol, if any. -/
def ofSymbol? (s : String) : Option Operation :=
  match s.toList with
  | [c] => ofChar? c
  | _ => none

end Operation

end Calculator
