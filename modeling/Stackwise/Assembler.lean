import Stackwise.Code
import Stackwise.Opcode
import Stackwise.Value.Same

/-!
# Code under construction

An `Assembler` collects names, constants and instructions. Operands that do not fit a byte are
spread over prefixes, high bytes first. The operand of a jump is a marker until `build` puts the
position of its label there; a label takes one byte.

The actions keep what they have done when they fail, so `Emit` threads the assembler through faults.
-/
namespace Stackwise

/-- The target of a jump before its position is known. -/
inductive Marker where
  | named (s : String)
  | fresh (n : Nat)
  deriving DecidableEq, Repr, Inhabited

/-- One element of code under construction. -/
inductive Slot where
  | byte (n : Nat)
  | mark (m : Marker)
  deriving DecidableEq, Repr, Inhabited

/-- Code under construction. -/
structure Assembler where
  names : Array Name := #[]
  consts : Array Value := #[]
  code : Array Slot := #[]
  labels : List (Marker × Nat) := []
  /-- The number of markers made so far. -/
  made : Nat := 0
  deriving Inhabited

/-- An action on an assembler that may fail half way. -/
abbrev Emit := ExceptT Fault (StateM Assembler)

/-- The digits of a number to the base 256, least first; zero has none. -/
def byteDigits (n : Nat) : List Nat := go (Nat.log2 n / 8 + 1) n
where
  go : Nat → Nat → List Nat
    | 0, _ => []
    | fuel + 1, n => if n = 0 then [] else n % 256 :: go fuel (n / 256)

/-- The operand byte of an instruction and the prefixes before it, high bytes first. -/
def splitOperand (arg : Nat) : List Nat × Nat :=
  match byteDigits arg with
  | [] => ([], 0)
  | low :: high => (high.reverse, low)

/-- Prefix instructions for the high bytes of an operand. -/
def prefixSlots (high : List Nat) : List Slot :=
  high.flatMap fun b => [.byte Opcode.extendedArg.toNat, .byte b]

/-- The slots of an instruction. -/
def instructionSlots (op : Opcode) (arg : Nat) : List Slot :=
  let (high, low) := splitOperand arg
  prefixSlots high ++ [.byte op.toNat, .byte low]

/-- Markers replaced from the left by the positions of their labels, up to the first marker that has
none, which is given back. -/
def resolveSlots (labels : List (Marker × Nat)) : List Slot → List Slot × Option Marker
  | [] => ([], none)
  | .byte n :: rest =>
    let (done, stuck) := resolveSlots labels rest
    (.byte n :: done, stuck)
  | .mark m :: rest =>
    match labels.lookup m with
    | some p =>
      let (done, stuck) := resolveSlots labels rest
      (.byte p :: done, stuck)
    | none => (.mark m :: rest, some m)

/-- The bytes of resolved slots, if all are bytes. -/
def slotBytes : List Slot → Option (List UInt8)
  | [] => some []
  | .byte n :: rest => if n < 256 then (slotBytes rest).map (UInt8.ofNat n :: ·) else none
  | .mark _ :: _ => none

/-- The fault of a marker without a label. -/
def Marker.fault : Marker → Fault
  | .named s => .missingKey (.str s)
  | .fresh n => .unlabelled n

namespace Emit

/-- A result that leaves the assembler alone. -/
def ofExcept {α : Type} : Except Fault α → Emit α
  | .ok a => pure a
  | .error f => throw f

/-- The index of a name, which is added if it is new. It has to be a possible key. -/
def addName (name : Name) : Emit Nat := do
  ofExcept name.checkKey
  let a ← get
  match a.names.toList.findIdx? (· == name) with
  | some i => return i
  | none =>
    set { a with names := a.names.push name }
    return a.names.size

/-- The index of a constant, which is added if it is new. It has to be a possible key. -/
def addConst (v : Value) : Emit Nat := do
  ofExcept v.checkKey
  let a ← get
  match a.consts.toList.findIdx? (fun w => Value.sameConstant w v) with
  | some i => return i
  | none =>
    set { a with consts := a.consts.push v }
    return a.consts.size

/-- Append slots. -/
def append (slots : List Slot) : Emit Unit :=
  modify fun a => { a with code := a.code ++ slots.toArray }

/-- Append an instruction. -/
def emit (op : Opcode) (arg : Nat) : Emit Unit := append (instructionSlots op arg)

/-- Append an instruction given by name. The prefixes are there before the name is looked up. -/
def emitNamed (opname : String) (arg : Nat) : Emit Unit := do
  let (high, low) := splitOperand arg
  append (prefixSlots high)
  match Opcode.ofName? opname with
  | some op => append [.byte op.toNat, .byte low]
  | none => throw (.missingKey (.str opname))

/-- An operand that is made by hand. Taking bytes off a negative number never comes to an end. -/
def operand (v : Value) : Except Fault Nat :=
  match v.asInt? with
  | some n => if n < 0 then .error .endless else .ok n.toNat
  | none => if v.truthy then .error (.operands "&" v.tyName "int") else .ok 0

/-- Append an instruction whose operand is a marker. -/
def emitJump (op : Opcode) (m : Marker) : Emit Unit := append [.byte op.toNat, .mark m]

/-- Append an instruction given by name whose operand is a marker. -/
def emitJumpNamed (opname : String) (m : Marker) : Emit Unit :=
  match Opcode.ofName? opname with
  | some op => emitJump op m
  | none => throw (.missingKey (.str opname))

/-- Let a marker stand for the next instruction. A marker has one label. -/
def label (m : Marker) : Emit Unit := do
  let a ← get
  match a.labels.lookup m with
  | some _ => throw .labelTwice
  | none => set { a with labels := a.labels ++ [(m, a.code.size / 2)] }

/-- A marker that nobody has used. -/
def freshMarker : Emit Marker := do
  let a ← get
  set { a with made := a.made + 1 }
  return .fresh a.made

/-- The finished code. Markers are replaced in place, from the left, also when this fails. -/
def build : Emit Code := do
  let a ← get
  let (slots, stuck) := resolveSlots a.labels a.code.toList
  set { a with code := slots.toArray }
  match stuck with
  | some m => throw m.fault
  | none =>
    match slotBytes slots with
    | some bytes => return ⟨a.names, a.consts, bytes.toArray⟩
    | none => throw .byteRange

end Emit
end Stackwise
