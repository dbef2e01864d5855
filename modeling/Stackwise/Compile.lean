import Stackwise.Arith.Sequence
import Stackwise.Assembler
import Stackwise.Syntax.Tree

/-!
# Compiling trees

`Tree.emit` appends the instructions of a tree to an assembler. An expression leaves its value on
the stack, a statement leaves the stack as it was. A field is read right before it is used, so a
tree with holes fails where the hole is reached, with everything before it already emitted.

A class without a rule is a fault. Keywords of calls and the `else` part of `while` have no
instructions.
-/
namespace Stackwise

/-- A field that is read has to be there. -/
def Tree.present (cls field : String) : Tree → Emit Unit
  | .missing => throw (.noField cls field)
  | _ => pure ()

/-- Whether a condition on a field holds. -/
def Tree.truthy : Tree → Bool
  | .missing => false
  | .leaf v => v.truthy
  | .list items => !items.isEmpty
  | _ => true

/-- The text that shows a node. Classes that nobody knows belong to the main program. -/
def Tree.nodeText (t : Tree) : String :=
  let home := if t.isForeign then "__main__." else "ast."
  "<" ++ home ++ t.className ++ " object at " ++ addressText 0 ++ ">"

mutual
/-- The text that shows a tree. -/
def Tree.repr : Tree → String
  | .leaf v => (v.repr.toOption).getD ""
  | .list items => "[" ++ ", ".intercalate (Tree.reprAll items) ++ "]"
  | t => t.nodeText
/-- The texts of several trees. -/
def Tree.reprAll : List Tree → List String
  | [] => []
  | t :: ts => t.repr :: Tree.reprAll ts
end

/-- How a message shows a tree that is not a context. -/
def Tree.shown : Tree → String
  | .leaf v => (v.text.toOption).getD ""
  | t => t.repr

/-- The name that a tree in the place of an identifier is. -/
def Tree.toName : Tree → Name
  | .leaf v => .ofValue v
  | .list _ => .value (.list [])
  | t => .node t.nodeText

/-- The identifier of a node that has one. -/
def Tree.identifier : Tree → Emit Name
  | .name .missing _ => throw (.noField "Name" "id")
  | .name id _ => return id.toName
  | .extended .missing _ node => node.identifier
  | .extended id _ _ => return id.toName
  | .other cls fields =>
    match fields.lookup "id" with
    | some id => return id.toName
    | none => throw (.noField cls "id")
  | t => throw (.noField t.className "id")

/-- Load or store a name, as the context says. -/
def emitName (name : Name) (ctx : Tree) : Emit Unit := do
  let i ← Emit.addName name
  match ctx with
  | .missing => throw (.noField "Name" "ctx")
  | .context .store => Emit.emit .storeName i
  | .context .load => Emit.emit .loadName i
  | t => throw (.strangeContext t.shown)

/-- The number of items of a field. -/
def Tree.itemCount : Tree → Emit Nat
  | .list items => return items.length
  | .leaf v =>
    match v.each? with
    | some vs => return vs.length
    | none => throw (.noLength v.tyName)
  | t => throw (.noLength t.className)

/-- The instructions of a plain value among the items of a field. A list is gone through, and no
class of plain values has a rule, so there are none or it fails. -/
def emitPlain : Value → Emit Unit
  | .list [] => pure ()
  | .list (v :: _) => throw (.noRule v.tyName)
  | v => throw (.noRule v.tyName)

/-- The actions for the items of a plain value at its first places. -/
def emitAt (v : Value) (n : Nat) : List (Emit Unit) :=
  (List.range n).map fun (i : Nat) => do emitPlain (← Emit.ofExcept (v.index (.int i)))

/-- Everything but the last item of a sequence. -/
def withoutLast : Value := .slice .none (.int (-1)) .none

/-- Run several actions in order. -/
def runAll (actions : List (Emit Unit)) : Emit Unit := actions.forM id

/-- A conditional from the actions of its three parts. -/
def emitConditional (test body orelse : Emit Unit) : Emit Unit := do
  let otherwise ← Emit.freshMarker
  let done ← Emit.freshMarker
  test
  Emit.emitJump .jumpIfFalse otherwise
  Emit.emit .popTop 0
  body
  Emit.emitJump .jump done
  Emit.label otherwise
  Emit.emit .popTop 0
  orelse
  Emit.label done

/-- A loop on a condition. -/
def emitWhile (test body : Emit Unit) : Emit Unit := do
  let again ← Emit.freshMarker
  let done ← Emit.freshMarker
  Emit.label again
  test
  Emit.emitJump .jumpIfFalse done
  Emit.emit .popTop 0
  body
  Emit.emitJump .jump again
  Emit.label done
  Emit.emit .popTop 0

/-- A loop over the items of a value. -/
def emitFor (iter target body : Emit Unit) : Emit Unit := do
  let again ← Emit.freshMarker
  let done ← Emit.freshMarker
  iter
  Emit.emit .getIter 0
  Emit.label again
  Emit.emitJump .forIter done
  target
  body
  Emit.emitJump .jump again
  Emit.label done
  Emit.emit .popTop 0

/-- An assignment: every target but the last gets a copy of the value. -/
def emitTargets : List (Emit Unit) → Emit Unit
  | [] => pure ()
  | [last] => last
  | target :: rest => do
    Emit.emit .dupTop 0
    target
    emitTargets rest

/-- The entries of a dictionary, each value before its key, for as many keys as there are. Only a
list can have fewer values. -/
def emitEntries : List (Emit Unit) → List (Emit Unit) → Emit Unit
  | [], _ => pure ()
  | key :: keys, value :: values => do
    value
    key
    emitEntries keys values
  | _ :: _, [] => throw (.indexRange .list)

/-- Delete names. -/
def emitDelete (targets : List Tree) : Emit Unit :=
  targets.forM fun t => do
    let i ← Emit.addName (← t.identifier)
    Emit.emit .delName i

namespace Tree

mutual
/-- Append the instructions of a tree; of a list, those of its nodes in order. -/
def emit : Tree → Emit Unit
  | .missing => throw (.noRule "NoneType")
  | .leaf v => throw (.noRule v.tyName)
  | .list items => emitItems items
  | .module body => do
    present "Module" "body" body
    runAll (← eachOf body)
  | .interactive body => do
    present "Interactive" "body" body
    runAll (← eachOf body)
  | .expr value => do
    present "Expr" "value" value
    emit value
    Emit.emit .printExpr 0
  | .assign targets value => do
    present "Assign" "value" value
    emit value
    present "Assign" "targets" targets
    if !targets.truthy then throw .noTarget
    match targets with
    | .list _ => emitTargets (← eachOf targets)
    | .leaf v =>
      let _ ← Emit.ofExcept (v.index withoutLast)
      emitTargets (← eachOf targets)
    | t => throw (.notSubscriptable t.className)
  | .augAssign target op value => do
    present "AugAssign" "target" target
    let i ← Emit.addName (← target.identifier)
    Emit.emit .loadName i
    present "AugAssign" "value" value
    emit value
    present "AugAssign" "op" op
    emit op
    Emit.emit .storeName i
  | .delete targets => do
    present "Delete" "targets" targets
    match targets with
    | .list items => emitDelete items
    | .leaf v =>
      match v.each? with
      | some [] => pure ()
      | some (w :: _) => throw (.noField w.tyName "id")
      | none => throw (.notIterable v.tyName)
    | t => throw (.notIterable t.className)
  | .pass => pure ()
  | .ifStmt test body orelse =>
    emitConditional (do present "If" "test" test; emit test)
      (do present "If" "body" body; emit body) (do present "If" "orelse" orelse; emit orelse)
  | .ifExp test body orelse =>
    emitConditional (do present "IfExp" "test" test; emit test)
      (do present "IfExp" "body" body; emit body)
      (do present "IfExp" "orelse" orelse; emit orelse)
  | .whileLoop test body _ =>
    emitWhile (do present "While" "test" test; emit test)
      (do present "While" "body" body; emit body)
  | .forLoop target iter body orelse => do
    present "For" "orelse" orelse
    if orelse.truthy then throw .loopElse
    emitFor (do present "For" "iter" iter; emit iter)
      (do present "For" "target" target; emit target)
      (do present "For" "body" body; emit body)
  | .name id ctx => do
    present "Name" "id" id
    emitName id.toName ctx
  | .constant value =>
    match value with
    | none => throw (.noField "Constant" "value")
    | some v => do
      let i ← Emit.addConst v
      Emit.emit .loadConst i
  | .tuple elts _ => do
    present "Tuple" "elts" elts
    runAll (← eachOf elts)
    Emit.emit .buildTuple (← itemCount elts)
  | .listDisplay elts _ => do
    present "List" "elts" elts
    runAll (← eachOf elts)
    Emit.emit .buildList (← itemCount elts)
  | .setDisplay elts => do
    present "Set" "elts" elts
    runAll (← eachOf elts)
    Emit.emit .buildSet (← itemCount elts)
  | .dictDisplay keys values => do
    present "Dict" "keys" keys
    let n ← itemCount keys
    if n != 0 then
      present "Dict" "values" values
      let vs ← firstOf values n
      emitEntries (← firstOf keys n) vs
    Emit.emit .buildDict n
  | .binOp left op right => do
    present "BinOp" "left" left
    emit left
    present "BinOp" "right" right
    emit right
    present "BinOp" "op" op
    emit op
  | .unaryOp op operand => do
    present "UnaryOp" "operand" operand
    emit operand
    present "UnaryOp" "op" op
    emit op
  | .subscript value slice _ => do
    present "Subscript" "value" value
    emit value
    present "Subscript" "slice" slice
    emit slice
  | .index value => do
    present "Index" "value" value
    emit value
    Emit.emit .index 0
  | .sealedIndex value => do
    present "Index" "value" value
    emit value
    Emit.emit .index 0
  | .call func args _ => do
    present "Call" "func" func
    emit func
    present "Call" "args" args
    emit args
    Emit.emit .callFunction (← itemCount args)
  | .binaryOperator op => Emit.emit (.binary op) 0
  | .unaryOperator op => Emit.emit (.unary op) 0
  | .context c => throw (.noRule c.className)
  | .extended _ _ node => emit node
  | .other cls fields =>
    if cls == "Index" then do
      emitIndex fields
      Emit.emit .index 0
    else throw (.noRule cls)
/-- The index among the fields of an index node that has more than it. -/
def emitIndex : List (String × Tree) → Emit Unit
  | [] => throw (.noField "Index" "value")
  | (f, t) :: fs => if f == "value" then emit t else emitIndex fs
/-- The nodes of a list; a list among them has no rule. -/
def emitItems : List Tree → Emit Unit
  | [] => pure ()
  | .list _ :: _ => throw (.noRule "list")
  | t :: ts => do
    emit t
    emitItems ts
/-- The actions for the items of a field that is gone through one by one. -/
def eachOf : Tree → Emit (List (Emit Unit))
  | .list items => return emitEach items
  | .leaf v =>
    match v.each? with
    | some vs => return vs.map emitPlain
    | none => throw (.notIterable v.tyName)
  | t => throw (.notIterable t.className)
/-- The actions for the items of a field at its first places. -/
def firstOf (t : Tree) (n : Nat) : Emit (List (Emit Unit)) :=
  match t with
  | .list items => return emitEach items
  | .leaf v => return emitAt v n
  | t => throw (.notSubscriptable t.className)
/-- One action for each tree. -/
def emitEach : List Tree → List (Emit Unit)
  | [] => []
  | t :: ts => emit t :: emitEach ts
end

/-- The code of a tree. -/
def compile (t : Tree) : Except Fault Code :=
  ((do t.emit; Emit.build : Emit Code).run {}).run.1

end Tree
end Stackwise
