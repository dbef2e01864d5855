import Stackwise.Builtin.Call
import Stackwise.Code
import Stackwise.Opcode

/-!
# The machine

A machine has a stack of values, variables in the order in which they were set, and a place in the
code. `execute` is what an instruction does, `runFrom` the loop that fetches and executes, and `run`
a whole program. A run that fails leaves the machine as it is at that point; nothing is undone.
-/
namespace Stackwise

/-- A machine between two instructions. -/
structure Machine where
  /-- The stack, its top first. -/
  stack : List Value := []
  /-- Variables in the order in which they were set. -/
  globals : List (Name × Value) := []
  pc : Nat := 0
  world : World := {}
  deriving Inhabited

/-- An operation of the machine that may fail. -/
abbrev Exec := ExceptT Fault (StateM Machine)

/-- Set a variable. One that is set already keeps its place and its name. -/
def setGlobal (gs : List (Name × Value)) (name : Name) (v : Value) : List (Name × Value) :=
  if gs.any (fun g => g.1 == name) then gs.map fun g => if g.1 == name then (g.1, v) else g
  else gs ++ [(name, v)]

/-- Drop a variable. -/
def dropGlobal (gs : List (Name × Value)) (name : Name) : List (Name × Value) :=
  gs.filter fun g => g.1 != name

namespace Exec

/-- An operation on the world of the machine. -/
def act {α : Type} (a : Act α) : Exec α := fun m =>
  let (r, w) := (a.run m.world).run
  (r, { m with world := w })

/-- A result that leaves the machine alone. -/
def ofExcept {α : Type} : Except Fault α → Exec α
  | .ok a => pure a
  | .error f => throw f

def push (v : Value) : Exec Unit := modify fun m => { m with stack := v :: m.stack }

/-- Take the top of the stack. -/
def pop : Exec Value := do
  match (← get).stack with
  | v :: rest =>
    modify fun m => { m with stack := rest }
    return v
  | [] => throw .emptyStack

/-- Look at the top of the stack. -/
def top : Exec Value := do
  match (← get).stack with
  | v :: _ => return v
  | [] => throw .noTop

/-- Take several values, the top first. -/
def popMany : Nat → Exec (List Value)
  | 0 => return []
  | n + 1 => do
    let v ← pop
    return v :: (← popMany n)

/-- Take the members of a set, the top first. -/
def popMembers : Nat → List Value → Exec (List Value)
  | 0, xs => return xs
  | n + 1, xs => do
    let v ← pop
    ofExcept v.checkKey
    popMembers n (Value.addMember xs v)

/-- Take the entries of a dictionary, each key above its value. -/
def popEntries : Nat → List (Value × Value) → Exec (List (Value × Value))
  | 0, es => return es
  | n + 1, es => do
    let k ← pop
    let v ← pop
    ofExcept k.checkKey
    popEntries n (Value.insertKey es k v)

/-- The arguments of a call, the last on top. An operand of zero takes the whole stack, and so does
one that is greater than the stack. -/
def popArguments (n : Nat) : Exec (List Value) := do
  let stack := (← get).stack
  let n := if n = 0 then stack.length else n
  modify fun m => { m with stack := stack.drop n }
  return (stack.take n).reverse

/-- Go to an instruction. -/
def jump (target : Nat) : Exec Unit := modify fun m => { m with pc := target }

/-- The entry of a table that an operand points to. -/
def entryAt {α : Type} (table : Array α) (i : Nat) : Exec α :=
  match table[i]? with
  | some x => return x
  | none => throw (if maxIndex < i then .indexSize else .noEntry)

/-- What a name stands for from the start. -/
def predefined? : Name → Option Value
  | .text s => builtin? s
  | _ => none

/-- The value of a variable, or else what its name stands for from the start. -/
def lookup (name : Name) : Exec Value := do
  ofExcept name.checkKey
  match (← get).globals.lookup name with
  | some v => return v
  | none =>
    match predefined? name with
    | some v => return v
    | none => throw (.undefinedName (← ofExcept name.repr))

/-- Set a variable. -/
def store (name : Name) (v : Value) : Exec Unit := do
  ofExcept name.checkKey
  modify fun m => { m with globals := setGlobal m.globals name v }

/-- Delete a variable. -/
def delete (name : Name) : Exec Unit := do
  ofExcept name.checkKey
  match (← get).globals.lookup name with
  | some _ => modify fun m => { m with globals := dropGlobal m.globals name }
  | none => throw name.missing

/-- Show a value on a line of its own, unless there is none to show. -/
def display (v : Value) : Exec Unit :=
  match v with
  | .none => pure ()
  | v => do
    let s ← ofExcept v.repr
    act (Act.write (s ++ "\n"))

/-- Push the next item of the iterator on top of the stack, or jump at its end. -/
def advance (target : Nat) : Exec Unit := do
  match ← top with
  | .iterator ref _ =>
    match ← act (pull ref) with
    | some v => push v
    | none => jump target
  | v => throw (.notIterator v.tyName)

/-- What an instruction does. -/
def execute (code : Code) (op : Opcode) (arg : Nat) : Exec Unit :=
  match op with
  | .loadConst => do push (← entryAt code.consts arg)
  | .printExpr => do display (← pop)
  | .dupTop => do push (← top)
  | .popTop => do let _ ← pop
  | .loadName => do push (← lookup (← entryAt code.names arg))
  | .storeName => do
    let name ← entryAt code.names arg
    let v ← pop
    store name v
  | .delName => do delete (← entryAt code.names arg)
  | .buildList => do push (.list (← popMany arg).reverse)
  | .buildTuple => do push (.tuple (← popMany arg).reverse)
  | .buildSet => do push (.set (← popMembers arg []))
  | .buildDict => do push (.dict (← popEntries arg []))
  | .binary op => do
    let right ← pop
    let left ← pop
    let v ← ofExcept (op.apply left right)
    push (← act (Act.markObject v))
  | .unary op => do
    let v ← ofExcept (op.apply (← pop))
    push (← act (Act.markObject v))
  | .index => do
    let i ← pop
    let v ← pop
    push (← ofExcept (v.index i))
  | .extendedArg => pure ()
  | .jump => jump arg
  | .jumpIfFalse => do if !(← top).truthy then jump arg
  | .getIter => do push (← act (← pop).toIterator)
  | .forIter => advance arg
  | .callFunction => do
    let args ← popArguments arg
    let f ← pop
    push (← act (f.call args))

/-- Fetch and execute until the place is past the end of the code. `high` holds the bytes of the
operand that came with prefixes; the first number bounds the instructions. -/
def runFrom (code : Code) : Nat → Nat → Exec Unit
  | 0, _ => throw .endless
  | fuel + 1, high => do
    let pc := (← get).pc
    match code.fetch? pc with
    | none => pure ()
    | some (op, byte) =>
      jump (pc + 1)
      let arg := high * 256 + byte.toNat
      match Opcode.ofNat? op.toNat with
      | none => throw .noInstruction
      | some .extendedArg => runFrom code fuel arg
      | some op =>
        execute code op arg
        runFrom code fuel 0

/-- Give the constants of a program their marks. -/
def load (code : Code) : Exec Code := do
  let consts ← act (Act.markItems code.consts.toList)
  return { code with consts := consts.toArray }

/-- Run a program for at most a number of instructions. The stack has to be empty at its end. -/
def runWithin (fuel : Nat) (code : Code) : Exec Unit := do
  let code ← load code
  jump 0
  runFrom code fuel 0
  if !(← get).stack.isEmpty then throw .leftOver

/-- More instructions than any program executes in practice. -/
def maxSteps : Nat := Nat.pow 2 62

/-- Run a program. -/
def run (code : Code) : Exec Unit := runWithin maxSteps code

end Exec
end Stackwise
