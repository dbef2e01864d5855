import Stackwise.Format.Percent

/-!
# Operators on values

`BinaryOp.apply` and `UnaryOp.apply` give each operator its meaning. Folding and the machine both
use them, so an expression of constants means the same before and after folding.
-/
namespace Stackwise

/-- Truth values have bitwise operations of their own. -/
def boolOp? (op : BinaryOp) (a b : Bool) : Option Bool :=
  match op with
  | .bitAnd => some (a && b)
  | .bitOr => some (a || b)
  | .bitXor => some (a != b)
  | _ => none

/-- Operations of two numbers. -/
def numberOp? (op : BinaryOp) (x y : Value) : Option (Except Fault Value) :=
  match x, y with
  | .bool a, .bool b =>
    match boolOp? op a b with
    | some c => some (.ok (.bool c))
    | none => (Number.arith op (.int (if a then 1 else 0)) (.int (if b then 1 else 0))).map
        fun r => r.map Number.toValue
  | x, y => do
    let a ← x.number?
    let b ← y.number?
    let r ← Number.arith op a b
    some (r.map Number.toValue)

/-- Repetition of a sequence by an integer. -/
def times? (s n : Value) : Option (Except Fault Value) :=
  match s with
  | .str _ | .bytes _ | .list _ | .tuple _ =>
    match n.asInt? with
    | some k => s.repeat? k
    | none => some (.error (.repeatBy n.tyName))
  | _ => none

/-- Repetition of a sequence on either side by an integer on the other. -/
def repetition? (x y : Value) : Option (Except Fault Value) :=
  match times? x y with
  | some r => some r
  | none => times? y x

/-- The meaning an operator has beyond numbers. -/
def containerOp? (op : BinaryOp) (x y : Value) : Option (Except Fault Value) :=
  match op with
  | .add => x.concat? y
  | .mult => repetition? x y
  | .mod =>
    match x with
    | .str s => some (Format.percent s y)
    | .bytes b => some (Format.percentBytes b y)
    | _ => none
  | .bitOr =>
    match x, y with
    | .dict es, .dict fs =>
      some (.ok (.dict (fs.foldl (fun acc e => Value.insertKey acc e.1 e.2) es)))
    | x, y =>
      match x.setOp? .bitOr y with
      | some v => some (.ok v)
      | none => (x.union? y).map .ok
  | op => (x.setOp? op y).map .ok

/-- The result of an operator on two values. -/
def BinaryOp.apply (op : BinaryOp) (x y : Value) : Except Fault Value :=
  match numberOp? op x y with
  | some r => r
  | none =>
    match containerOp? op x y with
    | some r => r
    | none =>
      match op, x with
      | .rshift, .function .print => .error (.shiftedPrint x.tyName y.tyName)
      | _, _ => .error (.operands op.symbol x.tyName y.tyName)

/-- The result of an operator on one value. -/
def UnaryOp.apply (op : UnaryOp) (x : Value) : Except Fault Value :=
  match op with
  | .not => .ok (.bool !x.truthy)
  | op =>
    match x.number?.bind (Number.unary op) with
    | some n => .ok n.toValue
    | none => .error (.unaryOperand op.symbol x.tyName)

end Stackwise
