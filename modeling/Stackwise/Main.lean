import Stackwise.Fault.Message
import Stackwise.Prompt

/-!
# The command line

Lines are read from standard input, each with a prompt, and handed to the interactive loop. What it
prints goes to standard output, faults go to standard error.
-/
namespace Stackwise.Prompt

/-- Prompt for a line; `none` at the end of the input. -/
def readLine (prompt : String) : IO (Option String) := do
  let out ← IO.getStdout
  out.putStr prompt
  out.flush
  let line ← (← IO.getStdin).getLine
  if line.isEmpty then return none
  else return some (String.ofList (line.toList.takeWhile (· != '\n')))

/-- Take a line, and after it as many as its program asks for. A program that runs out of lines is
run again from where it began with one more; what is shown already is not shown twice. -/
partial def supply (s : State) (line : String) (ahead : List String) (shown : Nat) : IO Turn := do
  let turn := s.take line ahead
  IO.print (String.ofList (turn.printed.toList.drop shown))
  match turn.fault with
  | some .outOfLines =>
    match ← readLine "" with
    | none => return turn
    | some l => supply s line (ahead ++ [l]) turn.printed.length
  | _ => return turn

/-- Go from line to line until the program is left or the input ends; leaving is a success. No lines
are left ahead after a turn, since there were only those that the program asked for. -/
partial def interact (s : State) : IO UInt32 := do
  match ← readLine s.prompt with
  | none =>
    IO.eprintln (Fault.outOfLines.errorClass.name ++ ": " ++ Fault.outOfLines.message)
    return 1
  | some line =>
    let turn ← supply s line [] 0
    match turn.fault with
    | none => interact turn.state
    | some f =>
      if leaves f then return 0
      else
        IO.eprintln (f.errorClass.name ++ ": " ++ f.message)
        interact turn.state

end Stackwise.Prompt

def main : IO UInt32 := Stackwise.Prompt.interact {}
