import Calculator.Settings.Json

/-! Settings: the defaults, the settings file merged over them, and the checks that whole-number
settings must pass, with the messages that say why one is refused. -/

namespace Calculator

/-- A value written inside a message: `None`, `True` and `False`, texts quoted, lists in
brackets and objects in braces with `: ` between key and value. -/
def Json.shown : Json → String
  | .null => "None"
  | .bool b => if b then "True" else "False"
  | .int n => Json.intText n
  | .float x => x.toText
  | .str s => s.quote
  | .arr items => "[" ++ shownItems items ++ "]"
  | .obj fields => "\x7b" ++ shownFields fields ++ "\x7d"
where
  /-- Items separated by commas. -/
  shownItems : List Json → String
    | [] => ""
    | [item] => item.shown
    | item :: rest => item.shown ++ ", " ++ shownItems rest
  /-- Members separated by commas. -/
  shownFields : List (Text.CodeText × Json) → String
    | [] => ""
    | [(key, value)] => key.quote ++ ": " ++ value.shown
    | (key, value) :: rest => key.quote ++ ": " ++ value.shown ++ ", " ++ shownFields rest

/-- Why a setting was refused. -/
inductive SettingError where
  /-- Not a whole number of at least one (truth values are not numbers here). -/
  | notPositive (name : String) (value : Json)
  /-- A whole number above the allowed maximum. -/
  | tooLarge (name : String) (maximum : Nat) (value : Json)
  /-- Not a whole number of at least zero. -/
  | notNatural (name : String) (value : Json)
deriving Inhabited

namespace SettingError

/-- The message that names the setting and shows the refused value. -/
def message : SettingError → String
  | .notPositive name value => name ++ " must be a positive integer, got " ++ value.shown
  | .tooLarge name maximum value =>
    name ++ " must not exceed " ++ toString maximum ++ ", got " ++ value.shown
  | .notNatural name value => name ++ " must be a non-negative integer, got " ++ value.shown

end SettingError

namespace Settings

/-- The default precision of results, in significant digits. -/
def defaultPrecision : Nat := 50

/-- The default limit on nested parentheses. -/
def defaultMaxDepth : Nat := 256

/-- The default number of decimal places shown. -/
def defaultPlaces : Nat := 10

/-- The settings that hold when the file gives no other. -/
def defaults : List (Text.CodeText × Json) :=
  [("precision", .int defaultPrecision), ("max_nesting_depth", .int defaultMaxDepth),
    ("decimal_places", .int defaultPlaces), ("debug", .bool false)].map
    fun (key, value) => (Text.CodeText.ofString key, value)

/-- The settings from the text of a settings file: the members of its object put over the
defaults. A missing file, a text that breaks the grammar, or a document that is not an object
gives the defaults; an integer too long to read stops the reading. -/
def load (file : Option String) : Except Json.ReadError (List (Text.CodeText × Json)) :=
  match file with
  | none => .ok defaults
  | some text =>
    match Json.parse text with
    | .ok (.obj fields) => .ok (Json.collect (defaults ++ fields))
    | .ok _ => .ok defaults
    | .error .malformed => .ok defaults
    | .error e => .error e

/-- One setting by key, or the whole settings object for `all`; an unknown key gives 0. -/
def lookup (settings : List (Text.CodeText × Json)) (key : Text.CodeText) : Json :=
  if key = Text.CodeText.ofString "all" then .obj settings else (Json.field? settings key).getD (.int 0)

/-- Checks a whole-number setting of at least one and, when given, at most `maximum`. -/
def checkPositive (name : String) (value : Json) (maximum : Option Nat) : Except SettingError Nat :=
  match value with
  | .int n =>
    if n < 1 then .error (.notPositive name value)
    else match maximum with
      | some m => if (m : Int) < n then .error (.tooLarge name m value) else .ok n.toNat
      | none => .ok n.toNat
  | _ => .error (.notPositive name value)

/-- Checks a whole-number setting of at least zero. -/
def checkNatural (name : String) (value : Json) : Except SettingError Nat :=
  match value with
  | .int n => if n < 0 then .error (.notNatural name value) else .ok n.toNat
  | _ => .error (.notNatural name value)

/-- The checked value of a setting, or its default when it is refused. -/
def orDefault (settings : List (Text.CodeText × Json)) (key : String) (default : Nat)
    (check : Json → Except SettingError Nat) : Nat :=
  match check ((Json.get? settings key).getD (.int default)) with
  | .ok n => n
  | .error _ => default

end Settings

end Calculator
