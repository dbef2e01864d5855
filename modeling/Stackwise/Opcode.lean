import Stackwise.Operator

/-!
# Instructions

The operations of the machine in the order of their numbers. An instruction is two bytes: the number
of the operation and an operand.
-/
namespace Stackwise

/-- An operation of the machine. -/
inductive Opcode where
  | loadConst
  | printExpr
  | dupTop
  | popTop
  | loadName
  | storeName
  | delName
  | buildList
  | buildTuple
  | buildSet
  | buildDict
  | binary (op : BinaryOp)
  | unary (op : UnaryOp)
  | index
  /-- Eight more bits for the operand of the next instruction. -/
  | extendedArg
  | jump
  | jumpIfFalse
  | getIter
  | forIter
  | callFunction
  deriving DecidableEq, Repr, Inhabited

namespace Opcode

/-- All operations; the place of an operation is its number. -/
def all : List Opcode :=
  [.loadConst, .printExpr, .dupTop, .popTop, .loadName, .storeName, .delName, .buildList,
    .buildTuple, .buildSet, .buildDict, .binary .add, .binary .sub, .binary .div, .binary .mult,
    .binary .mod, .binary .pow, .binary .floorDiv, .binary .bitAnd, .binary .bitOr,
    .binary .bitXor, .binary .lshift, .binary .rshift, .unary .plus, .unary .minus, .unary .not,
    .unary .invert, .index, .extendedArg, .jump, .jumpIfFalse, .getIter, .forIter, .callFunction]

/-- The name of an operation. -/
def name : Opcode → String
  | .loadConst => "LOAD_CONST"
  | .printExpr => "PRINT_EXPR"
  | .dupTop => "DUP_TOP"
  | .popTop => "POP_TOP"
  | .loadName => "LOAD_NAME"
  | .storeName => "STORE_NAME"
  | .delName => "DEL_NAME"
  | .buildList => "BUILD_LIST"
  | .buildTuple => "BUILD_TUPLE"
  | .buildSet => "BUILD_SET"
  | .buildDict => "BUILD_DICT"
  | .binary .add => "BINARY_ADD"
  | .binary .sub => "BINARY_SUB"
  | .binary .div => "BINARY_DIV"
  | .binary .mult => "BINARY_MUL"
  | .binary .mod => "BINARY_MOD"
  | .binary .pow => "BINARY_POW"
  | .binary .floorDiv => "BINARY_FLOORDIV"
  | .binary .bitAnd => "BIT_AND"
  | .binary .bitOr => "BIT_OR"
  | .binary .bitXor => "BIT_XOR"
  | .binary .lshift => "LSHIFT"
  | .binary .rshift => "RSHIFT"
  | .unary .plus => "UNARY_ADD"
  | .unary .minus => "UNARY_SUB"
  | .unary .not => "UNARY_NOT"
  | .unary .invert => "UNARY_INVERT"
  | .index => "INDEX"
  | .extendedArg => "EXTENDED_ARG"
  | .jump => "JUMP"
  | .jumpIfFalse => "JUMP_IF_FALSE"
  | .getIter => "GET_ITER"
  | .forIter => "FOR_ITER"
  | .callFunction => "CALL_FUNCTION"

/-- The number of an operation. -/
def toNat : Opcode → Nat
  | .loadConst => 0
  | .printExpr => 1
  | .dupTop => 2
  | .popTop => 3
  | .loadName => 4
  | .storeName => 5
  | .delName => 6
  | .buildList => 7
  | .buildTuple => 8
  | .buildSet => 9
  | .buildDict => 10
  | .binary .add => 11
  | .binary .sub => 12
  | .binary .div => 13
  | .binary .mult => 14
  | .binary .mod => 15
  | .binary .pow => 16
  | .binary .floorDiv => 17
  | .binary .bitAnd => 18
  | .binary .bitOr => 19
  | .binary .bitXor => 20
  | .binary .lshift => 21
  | .binary .rshift => 22
  | .unary .plus => 23
  | .unary .minus => 24
  | .unary .not => 25
  | .unary .invert => 26
  | .index => 27
  | .extendedArg => 28
  | .jump => 29
  | .jumpIfFalse => 30
  | .getIter => 31
  | .forIter => 32
  | .callFunction => 33

/-- The operation of a number. -/
def ofNat? (n : Nat) : Option Opcode := all[n]?

/-- The operation of a name. -/
def ofName? (s : String) : Option Opcode := all.find? fun o => o.name == s

theorem ofNat?_toNat (o : Opcode) : ofNat? o.toNat = some o := by
  cases o with
  | binary op => cases op <;> rfl
  | unary op => cases op <;> rfl
  | _ => rfl

example : all.map toNat = List.range 34 := by decide

end Opcode
end Stackwise
