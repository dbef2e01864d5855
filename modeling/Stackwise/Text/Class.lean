/-!
# Classes of characters

A class is a sorted list of bounds: at each bound a run of members begins or ends, beginning with a
run. A code point belongs to the class when an odd number of bounds lies at or below it.
-/
namespace Stackwise.Text

/-- A set of code points, as the bounds where membership changes. -/
structure CharClass where
  bounds : Array Nat

namespace CharClass

/-- The number of bounds at or below `c`, by bisection between `lo` and `hi`. -/
def rank (bounds : Array Nat) (c : Nat) : Nat → Nat → Nat → Nat
  | 0, lo, _ => lo
  | fuel + 1, lo, hi =>
    if hi ≤ lo then lo
    else
      let mid := (lo + hi) / 2
      if bounds.getD mid 0 ≤ c then rank bounds c fuel (mid + 1) hi else rank bounds c fuel lo mid

/-- Membership of a character. -/
def contains (k : CharClass) (c : Char) : Bool :=
  rank k.bounds c.toNat (Nat.log2 k.bounds.size + 2) 0 k.bounds.size % 2 == 1

end CharClass

/-- Characters that separate words in numbers written as text. -/
def blank : CharClass :=
  ⟨#[9, 14, 28, 33, 133, 134, 160, 161, 5760, 5761, 8192, 8203, 8232, 8234, 8239, 8240, 8287, 8288,
    12288, 12289]⟩

/-- The zeros of the decimal digit systems; each is followed by the digits one to nine. -/
def digitZeros : Array Nat :=
  #[48, 1632, 1776, 1984, 2406, 2534, 2662, 2790, 2918, 3046, 3174, 3302, 3430, 3558, 3664, 3792,
    3872, 4160, 4240, 6112, 6160, 6470, 6608, 6784, 6800, 6992, 7088, 7232, 7248, 42528,
    43216, 43264, 43472, 43504, 43600, 44016, 65296, 66720, 68912, 69734, 69872, 69942, 70096,
    70384, 70736, 70864, 71248, 71360, 71472, 71904, 72016, 72784, 73040, 73120, 92768, 92864,
    93008, 120782, 120792, 120802, 120812, 120822, 123200, 123632, 125264, 130032]

/-- The value of a decimal digit of any script. -/
def digitValue? (c : Char) : Option Nat :=
  let n := c.toNat
  (digitZeros.toList.find? fun z => decide (z ≤ n) && decide (n < z + 10)).map (n - ·)

end Stackwise.Text
