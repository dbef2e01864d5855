import Stackwise.Arith.Apply
import Stackwise.Syntax.Tree

/-!
# Constant folding

`Tree.fold` replaces a binary operation on two constants by its result and a tuple of constants by
one constant, from the leaves upward, in the order of the fields. It goes through every class of
node, also through those that cannot be compiled. An operation that fails makes folding fail: the
fault comes before anything runs.
-/
namespace Stackwise

/-- The value of a constant node, which has to be there. -/
def constantValue : Option Value → Except Fault Value
  | some v => .ok v
  | none => .error (.noField "Constant" "value")

/-- A node without what is added to it. -/
def Tree.core : Tree → Tree
  | .extended _ _ node => node.core
  | t => t

/-- A binary operation whose parts are folded already. -/
def foldBinOp (left op right : Tree) : Except Fault Tree :=
  match left.core with
  | .missing => .error (.noField "BinOp" "left")
  | .constant x =>
    match right.core with
    | .missing => .error (.noField "BinOp" "right")
    | .constant y =>
      match op.core with
      | .missing => .error (.noField "BinOp" "op")
      | .binaryOperator o => do
        let a ← constantValue x
        let b ← constantValue y
        return .const (← o.apply a b)
      | _ => .ok (.binOp left op right)
    | _ => .ok (.binOp left op right)
  | _ => .ok (.binOp left op right)

/-- The values of a list of constants; `none` at the first other node. -/
def constantItems : List Tree → Except Fault (Option (List Value))
  | [] => .ok (some [])
  | t :: ts =>
    match t.core with
    | .constant x => do
      let v ← constantValue x
      return (← constantItems ts).map (v :: ·)
    | _ => .ok none

/-- A tuple whose items are folded already. -/
def foldTuple (elts ctx : Tree) : Except Fault Tree := do
  let items ←
    match elts with
    | .missing => throw (.noField "Tuple" "elts")
    | .list ts => constantItems ts
    | .leaf v =>
      match v.each? with
      | some vs => pure (if vs.isEmpty then some [] else none)
      | none => throw (.notIterable v.tyName)
    | t => throw (.notIterable t.className)
  match items with
  | some vs => return .const (.tuple vs)
  | none => return .tuple elts ctx

namespace Tree

mutual
/-- Fold the constants in a field: a node, the nodes of a list, or a plain value. -/
def foldNode : Tree → Except Fault Tree
  | .missing => .ok .missing
  | .leaf v => .ok (.leaf v)
  | .list items => do return .list (← foldItems items)
  | .module body => do return .module (← foldNode body)
  | .interactive body => do return .interactive (← foldNode body)
  | .expr value => do return .expr (← foldNode value)
  | .assign targets value => do
    let targets ← foldNode targets
    return .assign targets (← foldNode value)
  | .augAssign target op value => do
    let target ← foldNode target
    let op ← foldNode op
    return .augAssign target op (← foldNode value)
  | .delete targets => do return .delete (← foldNode targets)
  | .pass => .ok .pass
  | .ifStmt test body orelse => do
    let test ← foldNode test
    let body ← foldNode body
    return .ifStmt test body (← foldNode orelse)
  | .ifExp test body orelse => do
    let test ← foldNode test
    let body ← foldNode body
    return .ifExp test body (← foldNode orelse)
  | .whileLoop test body orelse => do
    let test ← foldNode test
    let body ← foldNode body
    return .whileLoop test body (← foldNode orelse)
  | .forLoop target iter body orelse => do
    let target ← foldNode target
    let iter ← foldNode iter
    let body ← foldNode body
    return .forLoop target iter body (← foldNode orelse)
  | .name id ctx => do
    let id ← foldNode id
    return .name id (← foldNode ctx)
  | .constant value => do return .const (← constantValue value)
  | .tuple elts ctx => do
    let elts ← foldNode elts
    let ctx ← foldNode ctx
    foldTuple elts ctx
  | .listDisplay elts ctx => do
    let elts ← foldNode elts
    return .listDisplay elts (← foldNode ctx)
  | .setDisplay elts => do return .setDisplay (← foldNode elts)
  | .dictDisplay keys values => do
    let keys ← foldNode keys
    return .dictDisplay keys (← foldNode values)
  | .binOp left op right => do
    let left ← foldNode left
    let op ← foldNode op
    let right ← foldNode right
    foldBinOp left op right
  | .unaryOp op operand => do
    let op ← foldNode op
    return .unaryOp op (← foldNode operand)
  | .subscript value slice ctx => do
    let value ← foldNode value
    let slice ← foldNode slice
    return .subscript value slice (← foldNode ctx)
  | .index value => do return .index (← foldNode value)
  | .sealedIndex value => .ok (.sealedIndex value)
  | .call func args keywords => do
    let func ← foldNode func
    let args ← foldNode args
    return .call func args (← foldNode keywords)
  | .binaryOperator op => .ok (.binaryOperator op)
  | .unaryOperator op => .ok (.unaryOperator op)
  | .context c => .ok (.context c)
  | .extended id note node => do
    let folded ← foldNode node
    let note ← foldNode note
    return if folded.className == node.className then extend id note folded else folded
  | .other cls fields => do return .other cls (← foldFields fields)
/-- Fold the nodes of a list; a list in a list is left alone. -/
def foldItems : List Tree → Except Fault (List Tree)
  | [] => .ok []
  | .list inner :: ts => do return .list inner :: (← foldItems ts)
  | t :: ts => do
    let t ← foldNode t
    return t :: (← foldItems ts)
/-- Fold named fields in order. -/
def foldFields : List (String × Tree) → Except Fault (List (String × Tree))
  | [] => .ok []
  | (f, t) :: fs => do
    let t ← foldNode t
    return (f, t) :: (← foldFields fs)
end

/-- Fold the constants of a tree, which has to be a node. -/
def fold (t : Tree) : Except Fault Tree :=
  if t.isNode then t.foldNode else .error (.noField t.className "_fields")

end Tree
end Stackwise
