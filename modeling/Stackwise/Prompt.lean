import Stackwise.Session

/-!
# The interactive loop

Lines are read in blocks: a first line, then lines up to an empty one. A block is run as one program
on the machine of the loop. Its program may read lines too, and takes those that come after the
block. A fault is reported and the loop goes on; leaving ends it, and so does the end of the lines,
also in the middle of a block.

`State.take` is what one line does. The loop over a list of lines and the command line both go from
line to line with it.
-/
namespace Stackwise.Prompt

/-- The prompt before the first line of a block. -/
def first : String := "~~: "

/-- The prompt before every other line. -/
def more : String := "... "

/-- How the loop ended. -/
inductive End where
  | left
  | outOfLines
  deriving DecidableEq, Repr

/-- What the loop wrote, the faults with the length of what had been written by then, and how it
ended. -/
structure Transcript where
  out : String
  faults : List (Nat × Fault)
  ending : End

/-- Whether a fault leaves the loop. -/
def leaves : Fault → Bool
  | .exit _ => true
  | _ => false

/-- Run a block with the lines after it, which its program may read: the outcome, what it printed,
the lines that it did not read, and the machine after it. -/
def runBlock (m : Machine) (block ahead : List String) :
    Except Fault Unit × String × List String × Machine :=
  let (result, m) := (m.withLines ahead).runText ("\n".intercalate block)
  let (text, m) := m.takeOutput
  (result, text, ahead.drop m.world.read, m)

/-- The loop between two lines: its machine, and the lines of the block that has begun, the last one
first. -/
structure State where
  machine : Machine := {}
  block : List String := []

/-- What a line leads to: the loop after it, what was printed, the fault if there was one, and the
lines that are left of those ahead. -/
structure Turn where
  state : State
  printed : String
  fault : Option Fault
  ahead : List String

namespace State

/-- The prompt for the next line. -/
def prompt (s : State) : String := if s.block.isEmpty then first else more

/-- Take a line, with others ahead. The empty line after a block runs it. -/
def take (s : State) (line : String) (ahead : List String) : Turn :=
  if s.block.isEmpty || !line.isEmpty then ⟨{ s with block := line :: s.block }, "", none, ahead⟩
  else
    let (result, text, ahead, m) := runBlock s.machine s.block.reverse ahead
    let fault :=
      match result with
      | .ok () => none
      | .error f => some f
    ⟨{ machine := m }, text, fault, ahead⟩

end State

/-- The loop over the remaining lines. The first number bounds them. -/
def loop : Nat → State → String → List (Nat × Fault) → List String → Transcript
  | 0, _, out, faults, _ => ⟨out, faults.reverse, .outOfLines⟩
  | _, s, out, faults, [] => ⟨out ++ s.prompt, faults.reverse, .outOfLines⟩
  | fuel + 1, s, out, faults, line :: ahead =>
    let turn := s.take line ahead
    let out := out ++ s.prompt ++ turn.printed
    match turn.fault with
    | none => loop fuel turn.state out faults turn.ahead
    | some f =>
      if leaves f then ⟨out, faults.reverse, .left⟩
      else loop fuel turn.state out ((out.length, f) :: faults) turn.ahead

/-- What the loop does with some lines. -/
def run (lines : List String) : Transcript := loop (lines.length + 1) {} "" [] lines

/-- The lines of a text without their ends. The last one may have none. -/
def splitLines (text : String) : List String := go [] text.toList
where
  go : List Char → List Char → List String
    | line, [] => if line.isEmpty then [] else [String.ofList line.reverse]
    | line, c :: cs =>
      if c == '\n' then String.ofList line.reverse :: go [] cs else go (c :: line) cs

/-- What the loop does with an input text. -/
def runText (text : String) : Transcript := run (splitLines text)

end Stackwise.Prompt
