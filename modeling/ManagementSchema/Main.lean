-- The program: reads a file if the command needs one, prints the answer and
-- ends with its exit code.

import ManagementSchema.CommandLine

open ManagementSchema.CommandLine

/-- The texts of the files that a command needs. -/
def filesOf (args : List String) : IO (String → Option String) := do
  match Command.ofArguments? args with
  | some (.check path _) =>
    let text ← try
        pure (some (← IO.FS.readFile path))
      catch _ => pure none
    return fun _ => text
  | _ => return fun _ => none

def main (args : List String) : IO UInt32 := do
  let outcome := run (← filesOf args) args
  IO.print outcome.output
  match outcome.error with
  | some error => IO.eprintln ("error: " ++ error)
  | none => if outcome.exit = 2 then IO.eprintln "error: the arguments are not understood"
  return UInt32.ofNat outcome.exit
