import Stackwise.Value.Same
import Stackwise.Value.Show

/-!
# Names

What variables are called. In a program text every name is a text. In trees and code that are made
by hand there can be any value, which serves as a name if it can be a key, and even a node. Two
names are one if they are the same as keys, so a text is never one with a value of another class.
-/
namespace Stackwise

/-- What a variable is called. -/
inductive Name where
  | text (s : String)
  /-- A value that is no text. -/
  | value (v : Value)
  /-- A node, by the text that shows it. -/
  | node (shown : String)
  deriving Inhabited

namespace Name

/-- Whether two names are one. A node is handed on by its place in the table of names, so it is
never looked for a second time. -/
def same : Name → Name → Bool
  | .text a, .text b => a == b
  | .value v, .value w => Value.same v w
  | _, _ => false

instance : BEq Name := ⟨same⟩

theorem beq_text_iff {n : Name} {s : String} : (n == .text s) = true ↔ n = .text s := by
  cases n <;> simp [BEq.beq, same]

/-- A value as a name. -/
def ofValue : Value → Name
  | .str s => .text s
  | v => .value v

/-- Accept a name that can be a key. -/
def checkKey : Name → Except Fault Unit
  | .value v => v.checkKey
  | _ => .ok ()

/-- The text that shows a name. -/
def repr : Name → Except Fault String
  | .text s => .ok (Text.quoted s)
  | .value v => v.repr
  | .node shown => .ok shown

/-- The fault of deleting a variable that is not there. -/
def missing : Name → Fault
  | .text s => .missingKey (.str s)
  | .value v => .missingKey v
  | .node shown => .missingNode shown

end Name
end Stackwise
