import Calculator.Evaluator
import Calculator.Display
import Calculator.Text.Letter

/-! The console: one problem from the command line, or a dialogue that asks for problems (and for
the variable's value when a problem has a letter) until an empty line or the end of input.
Each problem prints one line, `= t` or `≈ t` when rounding changed the value, or a fault report. -/

namespace Calculator.Console

/-- What a run printed and the status it ends with. -/
structure Outcome where
  status : Nat
  output : String
deriving Inhabited

/-- Why a run stopped without finishing its output. -/
inductive Abort where
  /-- The settings file holds an integer too long to read. -/
  | settings (e : Json.ReadError)
  /-- A result could not be shown. -/
  | display (e : ShowError)
deriving Inhabited

/-- The line that shows a result, marked `≈` when rounding changed it. -/
def resultLine (text : String) (rounded : Bool) : String :=
  (if rounded then "≈ " else "= ") ++ text

/-- Evaluates one problem and prints its result or its fault report; status 1 means a fault.
A result that cannot be shown stops the run. -/
def runOnce (ev : Evaluator) (problem : Option String) (value : Value) (places : Int) :
    Evaluator × Except ShowError Outcome :=
  let (ev, result) := ev.evaluate problem value
  match result with
  | .error f => (ev, .ok ⟨1, f.report (problem.getD "") ++ "\n"⟩)
  | .ok d => match (Numeric.finite d).display places with
    | .ok (text, rounded) => (ev, .ok ⟨0, resultLine text rounded ++ "\n"⟩)
    | .error s => (ev, .error s)

/-- Splits the first line off the remaining input, without its line feed; none at the end. -/
def readLine (cs : List Char) : Option (String × List Char) :=
  match cs with
  | [] => none
  | _ => some (String.ofList (cs.takeWhile (· ≠ '\n')), (cs.dropWhile (· ≠ '\n')).drop 1)

/-- Reading a line always consumes input, so the dialogue ends. -/
theorem length_lt_of_readLine {cs rest : List Char} {line : String}
    (read : readLine cs = some (line, rest)) : rest.length < cs.length := by
  -- A line is read only from a nonempty input, and at least its first character goes.
  match cs, read with
  | c :: more, read =>
    simp only [readLine, Option.some.injEq, Prod.mk.injEq] at read
    rw [← read.2, List.length_drop]
    have shorter := (List.dropWhile_suffix (· ≠ '\n') (l := c :: more)).length_le
    simp only [List.length_cons] at shorter ⊢
    omega

set_option linter.unusedVariables false in
/-- The dialogue: asks for a problem, and for a value when the problem has a letter; an empty
problem or the end of input ends it. The prompts are part of the output. -/
def dialogue (ev : Evaluator) (places : Int) (input : List Char) (output : String) :
    Except ShowError String :=
  let output := output ++ "Enter the problem: "
  match read : readLine input with
  | none => .ok output
  | some (problem, rest) =>
    if problem.toList.any Text.isLetter then
      let output := output ++ "Enter the value: "
      match answer : readLine rest with
      | none => .ok output
      | some (given, after) =>
        let value := if given.isEmpty then Value.integer 0 else Value.text (.ofString given)
        match (runOnce ev (some problem) value places) with
        | (ev, .ok outcome) => dialogue ev places after (output ++ outcome.output)
        | (_, .error s) => .error s
    else if problem.isEmpty then .ok output
    else
      match runOnce ev (some problem) (.integer 0) places with
      | (ev, .ok outcome) => dialogue ev places rest (output ++ outcome.output)
      | (_, .error s) => .error s
termination_by input.length
decreasing_by
  · have first := length_lt_of_readLine read
    have second := length_lt_of_readLine answer
    omega
  · exact length_lt_of_readLine read

/-- The places results are shown to: the setting when it is a whole number, and the default
otherwise. -/
def placesOf (settings : List (Text.CodeText × Json)) : Nat :=
  Settings.orDefault settings "decimal_places" Settings.defaultPlaces
    (Settings.checkNatural "decimal_places")

/-- The value given for the variable on the command line: the argument after the problem, read as
a text, or zero when there is none. -/
def argValue : List String → Value
  | given :: _ => Value.text (.ofString given)
  | [] => Value.integer 0

/-- The whole program: settings from the settings file (each refused one falls back to its
default), then the dialogue when no argument is given, or else the problem in the first argument
with the second as the variable's value. -/
def run (file : Option String) (args : List String) (input : String) : Except Abort Outcome := do
  let settings ← (Settings.load file).mapError .settings
  let ev := Evaluator.ofSettings settings
  match args with
  | [] => ((dialogue ev (placesOf settings) input.toList "").map (⟨0, ·⟩)).mapError .display
  | problem :: rest =>
    (runOnce ev (some problem) (argValue rest) (placesOf settings)).2.mapError .display

end Calculator.Console
