/-!
# Operators

The operators that have a machine instruction. Their meanings are in `Arith`.
-/
namespace Stackwise

/-- Operators of two operands. -/
inductive BinaryOp where
  | add | sub | mult | div | floorDiv | mod | pow | bitAnd | bitOr | bitXor | lshift | rshift
  deriving DecidableEq, Repr, Inhabited

namespace BinaryOp

def all : List BinaryOp :=
  [.add, .sub, .mult, .div, .floorDiv, .mod, .pow, .bitAnd, .bitOr, .bitXor, .lshift, .rshift]

/-- How messages write the operator. -/
def symbol : BinaryOp → String
  | .add => "+"
  | .sub => "-"
  | .mult => "*"
  | .div => "/"
  | .floorDiv => "//"
  | .mod => "%"
  | .pow => "** or pow()"
  | .bitAnd => "&"
  | .bitOr => "|"
  | .bitXor => "^"
  | .lshift => "<<"
  | .rshift => ">>"

/-- The name of the operator in syntax trees. -/
def className : BinaryOp → String
  | .add => "Add"
  | .sub => "Sub"
  | .mult => "Mult"
  | .div => "Div"
  | .floorDiv => "FloorDiv"
  | .mod => "Mod"
  | .pow => "Pow"
  | .bitAnd => "BitAnd"
  | .bitOr => "BitOr"
  | .bitXor => "BitXor"
  | .lshift => "LShift"
  | .rshift => "RShift"

end BinaryOp

/-- Operators of one operand. -/
inductive UnaryOp where
  | plus | minus | not | invert
  deriving DecidableEq, Repr, Inhabited

namespace UnaryOp

def all : List UnaryOp := [.plus, .minus, .not, .invert]

/-- How messages write the operator. -/
def symbol : UnaryOp → String
  | .plus => "+"
  | .minus => "-"
  | .not => "not"
  | .invert => "~"

/-- The name of the operator in syntax trees. -/
def className : UnaryOp → String
  | .plus => "UAdd"
  | .minus => "USub"
  | .not => "Not"
  | .invert => "Invert"

end UnaryOp
end Stackwise
