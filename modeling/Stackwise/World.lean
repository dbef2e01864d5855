import Stackwise.Arith.Sequence
import Stackwise.Value.Show

/-!
# The world of a run

What operations change besides the stack and the variables: the states of iterators, the text that
has been printed, the lines that can be read, and the supply of marks that tell new objects apart.
`Act` is an operation that may change the world and may fail; what it did before it failed stays
done.
-/
namespace Stackwise

/-- The state of an iterator. Iterators over other iterators refer to them by number. -/
inductive Cell where
  /-- The items that are left. -/
  | items (rest : List Value)
  /-- An arithmetic progression of which `left` items are left. -/
  | counting (next step : Int) (left : Nat)
  /-- The items of a source with their numbers. -/
  | numbered (source : Nat) (next : Int)
  /-- One item of each source at a time. -/
  | zipped (sources : List Nat)
  /-- The results of a function on one item of each source. -/
  | mapped (f : Value) (sources : List Nat)
  /-- The items of a source that satisfy a condition, or are truthy for no condition. -/
  | filtered (f : Value) (source : Nat)
  /-- The results of a function until it gives the sentinel. -/
  | repeated (f sentinel : Value)
  deriving Inhabited

structure World where
  cells : Array Cell := #[]
  /-- The last mark that was given. -/
  marks : Nat := 0
  /-- The text printed so far. -/
  out : String := ""
  /-- The lines of the input. -/
  lines : List String := []
  /-- How many of them have been read. -/
  read : Nat := 0
  deriving Inhabited

/-- An operation on the world that may fail. -/
abbrev Act := ExceptT Fault (StateM World)

namespace Act

/-- An operation that changes nothing. -/
def ofExcept {α : Type} : Except Fault α → Act α
  | .ok a => pure a
  | .error f => throw f

/-- Print a text. -/
def write (s : String) : Act Unit := modify fun w => { w with out := w.out ++ s }

/-- Read a line of the input. -/
def readLine : Act String := do
  let w ← get
  match w.lines[w.read]? with
  | some line =>
    set { w with read := w.read + 1 }
    return line
  | none => throw .outOfLines

/-- A mark that nobody has. -/
def freshMark : Act Nat := do
  modify fun w => { w with marks := w.marks + 1 }
  return (← get).marks

/-- An iterator with a state of its own. -/
def allocate (cell : Cell) : Act Nat := do
  let w ← get
  set { w with cells := w.cells.push cell }
  return w.cells.size

/-- Change the state of an iterator. -/
def setCell (ref : Nat) (cell : Cell) : Act Unit :=
  modify fun w => { w with cells := w.cells.setIfInBounds ref cell }

/-- Give a new float its mark. -/
def markFloat (x : Binary64) : Act Binary64 :=
  match x with
  | .nan 0 => do return .nan (← freshMark)
  | x => return x

/-- Give a new object its mark, if it is of a kind that has one. -/
def markObject (v : Value) : Act Value :=
  match v with
  | .float x => do return .float (← markFloat x)
  | .complex re im => do
    let re ← markFloat re
    let im ← markFloat im
    return .complex re im
  | .error 0 c args => do return .error (← freshMark) c args
  | v => return v

mutual
/-- Give marks to all new objects in a value. -/
def markAll : Value → Act Value
  | .list xs => do return .list (← markItems xs)
  | .tuple xs => do return .tuple (← markItems xs)
  | .set xs => do return .set (← markItems xs)
  | .frozenset xs => do return .frozenset (← markItems xs)
  | .dict es => do return .dict (← markEntries es)
  | .slice a b c => do
    let a ← markAll a
    let b ← markAll b
    let c ← markAll c
    return .slice a b c
  | .error mark c args => do
    let args ← markItems args
    markObject (.error mark c args)
  | v => markObject v
/-- Give marks to all new objects in several values. -/
def markItems : List Value → Act (List Value)
  | [] => return []
  | x :: xs => do
    let y ← markAll x
    return y :: (← markItems xs)
/-- Give marks to all new objects in dictionary entries. -/
def markEntries : List (Value × Value) → Act (List (Value × Value))
  | [] => return []
  | (k, v) :: es => do
    let k ← markAll k
    let v ← markAll v
    return (k, v) :: (← markEntries es)
end

end Act
end Stackwise
