import Stackwise.Binary64.Basic

/-!
# Powers, exponentials and angles

The transcendental functions are taken from the machine's own library, which works on the same
64-bit patterns; `toBits` and `ofBits` are the bridge. Special cases that programs can tell apart
are settled by the callers before they come here.
-/
namespace Stackwise.Binary64

/-- The 64-bit pattern of a number. -/
def toBits : Binary64 → UInt64
  | .finite s m e =>
    let high : Nat := if s then Nat.pow 2 63 else 0
    let low : Nat :=
      if m < Nat.pow 2 52 then m else (e + 1075).toNat * Nat.pow 2 52 + (m - Nat.pow 2 52)
    UInt64.ofNat (high + low)
  | .inf s => UInt64.ofNat ((if s then Nat.pow 2 63 else 0) + 2047 * Nat.pow 2 52)
  | .nan _ => UInt64.ofNat (2047 * Nat.pow 2 52 + Nat.pow 2 51)

/-- The number of a 64-bit pattern. -/
def ofBits (b : UInt64) : Binary64 :=
  let n := b.toNat
  let neg := decide (Nat.pow 2 63 ≤ n)
  let biased : Nat := n / Nat.pow 2 52 % 2048
  let fraction := n % Nat.pow 2 52
  if biased = 2047 then (if fraction = 0 then .inf neg else .nan 0)
  else if biased = 0 then .finite neg fraction (-1074)
  else .finite neg (fraction + Nat.pow 2 52) ((biased : Int) - 1075)

def toMachine (x : Binary64) : Float := Float.ofBits x.toBits

def ofMachine (x : Float) : Binary64 := ofBits x.toBits

def pow (x y : Binary64) : Binary64 := ofMachine (Float.pow x.toMachine y.toMachine)

def exp (x : Binary64) : Binary64 := ofMachine (Float.exp x.toMachine)

def log (x : Binary64) : Binary64 := ofMachine (Float.log x.toMachine)

def sin (x : Binary64) : Binary64 := ofMachine (Float.sin x.toMachine)

def cos (x : Binary64) : Binary64 := ofMachine (Float.cos x.toMachine)

def atan2 (y x : Binary64) : Binary64 := ofMachine (Float.atan2 y.toMachine x.toMachine)

end Stackwise.Binary64
