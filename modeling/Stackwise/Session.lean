import Stackwise.Compile
import Stackwise.Fold
import Stackwise.Machine
import Stackwise.Syntax.Read

/-!
# Sessions

A session runs one program after the other on a machine. Reading, folding and compiling come before
the run, so a program that fails there leaves the machine as it was.
-/
namespace Stackwise

/-- The code of a tree, with or without folding. -/
def Tree.toCode (optimize : Bool) (t : Tree) : Except Fault Code := do
  let t ← if optimize then t.fold else pure t
  t.compile

/-- The code of a program text. -/
def Code.ofText (text : String) : Except Fault Code := do
  let t ← Tree.read .program text
  t.toCode true

/-- Code that is made by hand. -/
def Code.ofValues (names consts bytes : List Value) : Except Fault Code := do
  let bytes ← bytes.mapM Builtin.needByte
  return ⟨(names.map Name.ofValue).toArray, consts.toArray, bytes.toArray⟩

namespace Machine

/-- The outcome of an operation, and the machine after it. -/
def perform {α : Type} (m : Machine) (e : Exec α) : Except Fault α × Machine :=
  (StateT.run (ExceptT.run e) m).run

/-- Run code. -/
def runCode (m : Machine) (code : Code) : Except Fault Unit × Machine := m.perform (Exec.run code)

/-- Run code if there is any. -/
def runResult (m : Machine) (code : Except Fault Code) : Except Fault Unit × Machine :=
  match code with
  | .ok c => m.runCode c
  | .error f => (.error f, m)

/-- Read, fold, compile and run a program text. -/
def runText (m : Machine) (text : String) : Except Fault Unit × Machine :=
  m.runResult (Code.ofText text)

/-- The machine with lines for its programs to read. -/
def withLines (m : Machine) (lines : List String) : Machine :=
  { m with world := { m.world with lines, read := 0 } }

/-- The text printed since it was last taken, and the machine with none. -/
def takeOutput (m : Machine) : String × Machine :=
  (m.world.out, { m with world := { m.world with out := "" } })

end Machine
end Stackwise
