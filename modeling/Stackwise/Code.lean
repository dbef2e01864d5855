import Stackwise.Name

/-!
# Finished code

What the machine runs: a table of names, a table of constants, and bytes in pairs.
-/
namespace Stackwise

/-- A program for the machine. -/
structure Code where
  names : Array Name
  consts : Array Value
  bytes : Array UInt8
  deriving Inhabited

namespace Code

/-- The number of whole instructions; a byte left over at the end is none. -/
def size (c : Code) : Nat := c.bytes.size / 2

/-- The operation number and the operand byte of an instruction. -/
def fetch? (c : Code) (pc : Nat) : Option (UInt8 × UInt8) := do
  let op ← c.bytes[2 * pc]?
  let arg ← c.bytes[2 * pc + 1]?
  return (op, arg)

end Code
end Stackwise
