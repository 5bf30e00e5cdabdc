import Std.Data.HashMap
import Calculator.Binary.Shortest
import Calculator.Text.Quoted

/-! JSON documents: the value type, a reader and a writer.

The reader accepts the literals `NaN`, `Infinity` and `-Infinity` beside standard JSON, reads a
number with a fraction or an exponent as a binary float and any other number as an integer, and
lets a repeated key keep its first place and take its last value. Strings are code texts, since
an escape may write a lone surrogate. An integer of more than 4300 digits is refused, a limit
that guards the conversion of long digit strings, and so is a value nested deeper than the
reader's limit. -/

namespace Calculator

open Calculator.Text

/-- A JSON value; an object keeps its members in the order they were first given. -/
inductive Json where
  | null
  | bool (b : Bool)
  | int (n : Int)
  | float (x : Binary64)
  | str (s : CodeText)
  | arr (items : List Json)
  | obj (fields : List (CodeText × Json))
deriving Inhabited

namespace Json

/-- Why a JSON text could not be read. -/
inductive ReadError where
  /-- The text breaks the grammar. -/
  | malformed
  /-- An integer with more digits than the limit, and how many it has. -/
  | longInteger (digits : Nat)
  /-- A value nested deeper than the limit, and the bracket that opened the level too many. -/
  | tooDeep (opener : Char)
deriving DecidableEq, Inhabited

/-- The most digits an integer may have. -/
def integerDigitLimit : Nat := 4300

/-- The most levels of arrays and objects that may stand inside one another in a document. -/
def nestingLimit : Nat := 989

/-- The four characters that may stand between tokens. -/
def isSpace (c : Char) : Bool := c = ' ' || c = '\t' || c = '\n' || c = '\r'

/-- Drops the characters that may stand between tokens. -/
def skipSpace (cs : List Char) : List Char := cs.dropWhile isSpace

/-- The members of an object given member by member: a repeated key keeps the place where it
came first and takes the value it was given last. -/
def collect (members : List (CodeText × Json)) : List (CodeText × Json) :=
  let step (state : Std.HashMap CodeText Nat × Array (CodeText × Json)) (member : CodeText × Json) :=
    let (places, entries) := state
    match places[member.1]? with
    | some i => (places, entries.setIfInBounds i member)
    | none => (places.insert member.1 entries.size, entries.push member)
  (members.foldl step ({}, #[])).2.toList

/-- The value of a member, if the object has that key. -/
def field? (fields : List (CodeText × Json)) (key : CodeText) : Option Json :=
  (fields.find? (·.1 == key)).map (·.2)

/-- The value of a member whose key is a string. -/
def get? (fields : List (CodeText × Json)) (key : String) : Option Json :=
  field? fields (CodeText.ofString key)

/-- The value of a hexadecimal digit. -/
def hexValue? (c : Char) : Option Nat :=
  if c.isDigit then some (c.toNat - 48)
  else if 'a' ≤ c ∧ c ≤ 'f' then some (c.toNat - 87)
  else if 'A' ≤ c ∧ c ≤ 'F' then some (c.toNat - 55)
  else none

/-- The code unit written by four hexadecimal digits. -/
def hex4? (a b c d : Char) : Option Nat := do
  pure ((((← hexValue? a) * 16 + (← hexValue? b)) * 16 + (← hexValue? c)) * 16 + (← hexValue? d))

/-- The character of a one-letter escape. -/
def escaped? (c : Char) : Option Char :=
  if c = '"' || c = '\\' || c = '/' then some c
  else if c = 'b' then some '\x08'
  else if c = 'f' then some '\x0c'
  else if c = 'n' then some '\n'
  else if c = 'r' then some '\r'
  else if c = 't' then some '\t'
  else none

/-- Joins each high surrogate followed by a low one into the code point of the pair; a surrogate
standing alone stays. -/
def joinSurrogates : List Nat → List Nat
  | high :: low :: rest =>
    if 0xD800 ≤ high ∧ high < 0xDC00 ∧ 0xDC00 ≤ low ∧ low < 0xE000 then
      (0x10000 + (high - 0xD800) * 0x400 + (low - 0xDC00)) :: joinSurrogates rest
    else high :: joinSurrogates (low :: rest)
  | [unit] => [unit]
  | [] => []

/-- Reads the rest of a string after its opening quote, with the code units read so far in
reverse. A control character must be escaped, and `\u` takes four hexadecimal digits. -/
def readString : List Char → List Nat → Except ReadError (CodeText × List Char)
  | [], _ => .error .malformed
  | '"' :: rest, acc => .ok (⟨joinSurrogates acc.reverse⟩, rest)
  | '\\' :: 'u' :: a :: b :: c :: d :: rest, acc =>
    match hex4? a b c d with
    | some unit => readString rest (unit :: acc)
    | none => .error .malformed
  | '\\' :: e :: rest, acc =>
    match escaped? e with
    | some c => readString rest (c.toNat :: acc)
    | none => .error .malformed
  | c :: rest, acc => if c.toNat < 0x20 then .error .malformed else readString rest (c.toNat :: acc)

/-- Reads a number: an optional minus, an integer part without leading zeros, then an optional
fraction and exponent, each only when digits follow. -/
def readNumber (cs : List Char) : Except ReadError (Json × List Char) :=
  let (negative, body) := match cs with
    | '-' :: rest => (true, rest)
    | rest => (false, rest)
  let whole? : Option (List Char × List Char) := match body with
    | '0' :: rest => some (['0'], rest)
    | c :: rest => if c.isDigit then some (c :: rest.takeWhile Char.isDigit, rest.dropWhile Char.isDigit)
      else none
    | [] => none
  match whole? with
  | none => .error .malformed
  | some (whole, rest) =>
    let (fraction, rest) := match rest with
      | '.' :: d :: more =>
        if d.isDigit then (d :: more.takeWhile Char.isDigit, more.dropWhile Char.isDigit) else ([], rest)
      | _ => ([], rest)
    let exponent? : Option (Int × List Char) := match rest with
      | e :: more =>
        if e = 'e' || e = 'E' then
          let (sign, digits) := match more with
            | '+' :: ds => (1, ds)
            | '-' :: ds => (-1, ds)
            | ds => ((1 : Int), ds)
          let run := digits.takeWhile Char.isDigit
          if run.isEmpty then none
          else some (sign * (Decimal.ofDigitList (run.map fun c => c.toNat - 48) : Int),
            digits.dropWhile Char.isDigit)
        else none
      | [] => none
    let coeff := Decimal.ofDigitList ((whole ++ fraction).map fun c => c.toNat - 48)
    match exponent? with
    | some (exp, rest) => .ok (.float (Binary64.ofDecimal negative coeff (exp - fraction.length)), rest)
    | none =>
      if !fraction.isEmpty then .ok (.float (Binary64.ofDecimal negative coeff (-(fraction.length : Int))), rest)
      else if integerDigitLimit < whole.length then .error (.longInteger whole.length)
      else .ok (.int (if negative then -(coeff : Int) else coeff), rest)

mutual

/-- Reads one value at the start of the text, where `room` more levels of arrays and objects may
open; the fuel bounds the nesting and the members. -/
def readValue : Nat → Nat → List Char → Except ReadError (Json × List Char)
  | 0, _, _ => .error .malformed
  | fuel + 1, room, cs =>
    match cs with
    | '"' :: rest => (readString rest []).map fun (s, rest) => (.str s, rest)
    | '{' :: rest =>
      if room = 0 then .error (.tooDeep '{')
      else match skipSpace rest with
        | '}' :: more => .ok (.obj [], more)
        | more@('"' :: _) => readMembers fuel (room - 1) more []
        | _ => .error .malformed
    | '[' :: rest =>
      if room = 0 then .error (.tooDeep '[')
      else match skipSpace rest with
        | ']' :: more => .ok (.arr [], more)
        | more => readItems fuel (room - 1) more []
    | 'n' :: 'u' :: 'l' :: 'l' :: rest => .ok (.null, rest)
    | 't' :: 'r' :: 'u' :: 'e' :: rest => .ok (.bool true, rest)
    | 'f' :: 'a' :: 'l' :: 's' :: 'e' :: rest => .ok (.bool false, rest)
    | 'N' :: 'a' :: 'N' :: rest => .ok (.float .nan, rest)
    | 'I' :: 'n' :: 'f' :: 'i' :: 'n' :: 'i' :: 't' :: 'y' :: rest => .ok (.float (.infinity false), rest)
    | '-' :: 'I' :: 'n' :: 'f' :: 'i' :: 'n' :: 'i' :: 't' :: 'y' :: rest =>
      .ok (.float (.infinity true), rest)
    | _ => readNumber cs

/-- Reads the items of an array, from the first item on, with the items read so far in reverse. -/
def readItems : Nat → Nat → List Char → List Json → Except ReadError (Json × List Char)
  | 0, _, _, _ => .error .malformed
  | fuel + 1, room, cs, items => do
    let (item, rest) ← readValue fuel room cs
    match skipSpace rest with
    | ']' :: more => .ok (.arr (item :: items).reverse, more)
    | ',' :: more => readItems fuel room (skipSpace more) (item :: items)
    | _ => .error .malformed

/-- Reads the members of an object, from the first key's quote on, with the members read so far
in reverse. -/
def readMembers : Nat → Nat → List Char → List (CodeText × Json) → Except ReadError (Json × List Char)
  | 0, _, _, _ => .error .malformed
  | fuel + 1, room, cs, members =>
    match cs with
    | '"' :: rest => do
      let (key, rest) ← readString rest []
      match skipSpace rest with
      | ':' :: rest =>
        let (value, rest) ← readValue fuel room (skipSpace rest)
        let members := (key, value) :: members
        match skipSpace rest with
        | '}' :: more => .ok (.obj (collect members.reverse), more)
        | ',' :: more => readMembers fuel room (skipSpace more) members
        | _ => .error .malformed
      | _ => .error .malformed
    | _ => .error .malformed

end

/-- Reads a whole JSON text: one value with optional space around it, nested at most
`nestingLimit` levels. A leading byte order mark is refused. -/
def parse (s : String) : Except ReadError Json :=
  let cs := s.toList
  if cs.head? = some '\uFEFF' then .error .malformed
  else do
    let (v, rest) ← readValue (2 * cs.length + 2) nestingLimit (skipSpace cs)
    if (skipSpace rest).isEmpty then .ok v else .error .malformed

/-- A code text as a JSON string literal; characters outside ASCII are written as they are, and
a lone surrogate as its escape. -/
def quoteString (t : CodeText) : String :=
  let escape (n : Nat) : List Char :=
    if n = 34 then ['\\', '"']
    else if n = 92 then ['\\', '\\']
    else if n = 10 then ['\\', 'n']
    else if n = 13 then ['\\', 'r']
    else if n = 9 then ['\\', 't']
    else if n = 8 then ['\\', 'b']
    else if n = 12 then ['\\', 'f']
    else if n < 0x20 || CodeText.isSurrogate n then '\\' :: 'u' :: Text.hexDigits 4 n
    else [Char.ofNat n]
  String.ofList ('"' :: t.points.flatMap escape ++ ['"'])

/-- The text of an integer. -/
def intText (n : Int) : String :=
  (if n < 0 then "-" else "") ++ String.ofList (Decimal.digitList n.natAbs)

mutual

/-- Writes a value as JSON text, with members in their order and floats in their shortest text;
non-finite floats are written `NaN`, `Infinity` and `-Infinity`. -/
def render : Json → String
  | .null => "null"
  | .bool b => if b then "true" else "false"
  | .int n => intText n
  | .float .nan => "NaN"
  | .float (.infinity negative) => if negative then "-Infinity" else "Infinity"
  | .float x => x.toText
  | .str s => quoteString s
  | .arr items => "[" ++ renderItems items ++ "]"
  | .obj fields => "\x7b" ++ renderFields fields ++ "\x7d"

/-- Writes array items separated by commas. -/
def renderItems : List Json → String
  | [] => ""
  | [item] => render item
  | item :: rest => render item ++ ", " ++ renderItems rest

/-- Writes object members separated by commas. -/
def renderFields : List (CodeText × Json) → String
  | [] => ""
  | [(key, value)] => quoteString key ++ ": " ++ render value
  | (key, value) :: rest => quoteString key ++ ": " ++ render value ++ ", " ++ renderFields rest

end

end Json

end Calculator
