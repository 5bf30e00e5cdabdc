import Calculator.Console

/-! The command line: reads `config.json` from the working directory when it exists, the
arguments and standard input, and prints what the console prints. -/

open Calculator

/-- Runs the console on the settings file, the arguments and standard input. -/
def main (args : List String) : IO UInt32 := do
  let file ← try some <$> IO.FS.readFile "config.json" catch _ => pure none
  let stdin ← IO.getStdin
  let input ← if args.isEmpty then stdin.readToEnd else pure ""
  match Console.run file args input with
  | .ok outcome =>
    IO.print outcome.output
    pure outcome.status.toUInt32
  | .error _ =>
    IO.eprintln "decimal signal while showing the result"
    pure 1
