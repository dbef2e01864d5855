import Stackwise.Binary64.Elementary
import Stackwise.Fault.Basic
import Stackwise.Operator

/-!
# Arithmetic of numbers

Integers are unbounded; division and remainder go toward minus infinity. An operation on two kinds
of numbers is one on the greater kind. Quotients of integers are rounded once.
-/
namespace Stackwise

/-- The bits that both integers have, in two's complement of unbounded width. -/
def bitAnd (a b : Int) : Int :=
  let m := (-a - 1).toNat
  let n := (-b - 1).toNat
  if 0 ≤ a then
    (if 0 ≤ b then (a.toNat &&& b.toNat : Nat) else (a.toNat - (a.toNat &&& n) : Nat))
  else
    (if 0 ≤ b then (b.toNat - (b.toNat &&& m) : Nat) else -((m ||| n : Nat) : Int) - 1)

/-- The bits that at least one of two integers has. -/
def bitOr (a b : Int) : Int :=
  let m := (-a - 1).toNat
  let n := (-b - 1).toNat
  if 0 ≤ a then
    (if 0 ≤ b then (a.toNat ||| b.toNat : Nat) else -((n - (n &&& a.toNat) : Nat) : Int) - 1)
  else
    (if 0 ≤ b then -((m - (m &&& b.toNat) : Nat) : Int) - 1 else -((m &&& n : Nat) : Int) - 1)

/-- The bits that exactly one of two integers has. -/
def bitXor (a b : Int) : Int :=
  let m := (-a - 1).toNat
  let n := (-b - 1).toNat
  if 0 ≤ a then
    (if 0 ≤ b then (a.toNat ^^^ b.toNat : Nat) else -((a.toNat ^^^ n : Nat) : Int) - 1)
  else
    (if 0 ≤ b then -((m ^^^ b.toNat : Nat) : Int) - 1 else (m ^^^ n : Nat))

/-- Sizes that fit a machine index. -/
def maxIndex : Int := Int.pow 2 63 - 1

/-- Shifts by more bits than this have no result that fits. -/
def maxShift : Int := Int.pow 2 60

def shiftLeft (a b : Int) : Except Fault Int :=
  if b < 0 then .error .negativeShift
  else if a = 0 then .ok 0
  else if maxShift < b then .error (.overflow .shiftSize)
  else .ok (a * Int.pow 2 b.toNat)

def shiftRight (a b : Int) : Except Fault Int :=
  if b < 0 then .error .negativeShift
  else if (Nat.log2 a.natAbs : Int) + 1 < b then .ok (if a < 0 then -1 else 0)
  else .ok (a.fdiv (Int.pow 2 b.toNat))

/-- Integers to natural powers. -/
def intPow (a : Int) (n : Nat) : Int :=
  if a = 0 then (if n = 0 then 1 else 0)
  else if a = 1 then 1
  else if a = -1 then (if n % 2 = 0 then 1 else -1)
  else Int.pow a n

/-- The nearest float to an integer, if it is finite. -/
def intToFloat (n : Int) : Except Fault Binary64 :=
  let x := Binary64.ofInt n
  if x.isInf then .error (.overflow .intToFloat) else .ok x

/-- The quotient of two integers as a float, rounded once. -/
def intQuotient (a b : Int) : Except Fault Binary64 :=
  if b = 0 then .error (.zeroDivision .quotient)
  else
    let x := Binary64.ofRatio (decide (a < 0) != decide (b < 0)) a.natAbs b.natAbs
    if x.isInf then .error (.overflow .quotientToFloat) else .ok x

/-- The integer nearest toward zero of a float. -/
def floatToInt : Binary64 → Except Fault Int
  | .nan _ => .error .nanToInt
  | .inf _ => .error (.overflow .infinityToInt)
  | x => .ok x.truncate

namespace Binary64

/-- The remainder with the sign of the divisor. -/
def floorMod (x y : Binary64) : Binary64 :=
  let r := truncMod x y
  if r.isZero then zero y.isNeg
  else if y.isNeg != (r.isNeg && !r.isNaN) then add r y
  else r

/-- The quotient rounded to a whole number toward minus infinity, computed from the remainder. -/
def floorDiv (x y : Binary64) : Binary64 :=
  let r := truncMod x y
  let d := div (sub x r) y
  let d := if !r.isZero && (y.isNeg != (r.isNeg && !r.isNaN)) then sub d one else d
  if d.isZero then zero (x.isNeg != y.isNeg)
  else
    let f := floor d
    let half := ofRatio false 1 2
    if compare? (sub d f) half == some .gt then add f one else f

/-- Whether a number is an odd whole number. -/
def isOdd (x : Binary64) : Bool :=
  x.isInteger && x.truncate % 2 != 0

end Binary64

/-- Complex numbers as pairs. -/
abbrev Pair := Binary64 × Binary64

namespace Pair

def mul (a b : Pair) : Pair :=
  (.sub (.mul a.1 b.1) (.mul a.2 b.2), .add (.mul a.1 b.2) (.mul a.2 b.1))

/-- The quotient, scaled by the greater part of the divisor; `none` for a zero divisor. -/
def div? (a b : Pair) : Option Pair :=
  match Binary64.compare? b.1.abs b.2.abs with
  | none => some (.nan 0, .nan 0)
  | some .lt =>
    let ratio := Binary64.div b.1 b.2
    let denom := Binary64.add (.mul b.1 ratio) b.2
    some (.div (.add (.mul a.1 ratio) a.2) denom, .div (.sub (.mul a.2 ratio) a.1) denom)
  | some _ =>
    if b.1.isZero then none
    else
      let ratio := Binary64.div b.2 b.1
      let denom := Binary64.add b.1 (.mul b.2 ratio)
      some (.div (.add a.1 (.mul a.2 ratio)) denom, .div (.sub a.2 (.mul a.1 ratio)) denom)

/-- Natural powers by repeated squaring. -/
def powNat (x : Pair) (n : Nat) : Pair := go (Nat.log2 n + 1) n x (.one, .zero false)
where
  go : Nat → Nat → Pair → Pair → Pair
    | 0, _, _, r => r
    | fuel + 1, n, p, r =>
      if n = 0 then r else go fuel (n / 2) (mul p p) (if n % 2 = 1 then mul r p else r)

/-- Powers in polar form; `none` where the direction of the result is not defined. -/
def powPolar (a b : Pair) : Option Pair :=
  if b.1.isZero && b.2.isZero then some (.one, .zero false)
  else if a.1.isZero && a.2.isZero then
    (if !b.2.isZero || b.1.isNeg then none else some (.zero false, .zero false))
  else
    let size := Binary64.hypot a.1 a.2
    let len := Binary64.pow size b.1
    let angle := Binary64.atan2 a.2 a.1
    let phase := Binary64.mul angle b.1
    let (len, phase) :=
      if b.2.isZero then (len, phase)
      else (.div len (.exp (.mul angle b.2)), .add phase (.mul b.2 (.log size)))
    if phase.isInf then none else some (.mul len (.cos phase), .mul len (.sin phase))

/-- Powers of complex numbers; small whole exponents multiply. -/
def pow (a b : Pair) : Except Fault Pair :=
  let small := b.2.isZero && b.1.isInteger && decide (b.1.truncate.natAbs ≤ 100)
  let r :=
    if small then
      let n := b.1.truncate
      if 0 < n then some (powNat a n.toNat)
      else div? (.one, .zero false) (powNat a (-n).toNat)
    else powPolar a b
  match r with
  | none => .error (.zeroDivision .complexPower)
  | some p => if p.1.isInf || p.2.isInf then .error (.overflow .complexPower) else .ok p

end Pair

/-- A float to a float power. A negative base with a broken exponent gives a complex number. -/
def floatPow (x y : Binary64) : Except Fault Number :=
  let one := Binary64.one
  if y.isZero then .ok (.float one)
  else if x.isNaN then .ok (.float (.nan 0))
  else if y.isNaN then .ok (.float (if x.eq one then one else .nan 0))
  else if y.isInf then
    match x.abs.compare? one with
    | some .eq => .ok (.float one)
    | o => .ok (.float (if y.isNeg == (o == some .lt) then .inf false else .zero false))
  else if x.isInf then
    .ok (.float (if y.isNeg then .zero (x.isNeg && y.isOdd) else .inf (x.isNeg && y.isOdd)))
  else if x.isZero then
    if y.isNeg then .error (.zeroDivision .power)
    else .ok (.float (.zero (x.isNeg && y.isOdd)))
  else if x.isNeg && !y.isInteger then do
    let (re, im) ← Pair.pow (x, .zero false) (y, .zero false)
    return .complex re im
  else
    let r := Binary64.pow x.abs y
    if r.isInf then .error (.overflow .floatPower)
    else .ok (.float (if x.isNeg && y.isOdd then r.negate else r))

namespace Number

/-- The float of a real number. -/
def toFloat : Number → Except Fault Binary64
  | .int n => intToFloat n
  | .float x => .ok x
  | .complex re _ => .ok re

/-- A number as a complex one. -/
def toPair : Number → Except Fault Pair
  | .complex re im => .ok (re, im)
  | n => do return (← n.toFloat, .zero false)

def ofPair (p : Pair) : Number := .complex p.1 p.2

/-- An operation on two numbers; `none` when the kinds do not have it. -/
def arith (op : BinaryOp) : Number → Number → Option (Except Fault Number)
  | .int a, .int b =>
    match op with
    | .add => some (.ok (.int (a + b)))
    | .sub => some (.ok (.int (a - b)))
    | .mult => some (.ok (.int (a * b)))
    | .div => some ((intQuotient a b).map .float)
    | .floorDiv =>
      some (if b = 0 then .error (.zeroDivision .floor) else .ok (.int (a.fdiv b)))
    | .mod => some (if b = 0 then .error (.zeroDivision .remainder) else .ok (.int (a.fmod b)))
    | .pow =>
      some (if 0 ≤ b then .ok (.int (intPow a b.toNat))
        else do floatPow (← intToFloat a) (← intToFloat b))
    | .bitAnd => some (.ok (.int (bitAnd a b)))
    | .bitOr => some (.ok (.int (bitOr a b)))
    | .bitXor => some (.ok (.int (bitXor a b)))
    | .lshift => some ((shiftLeft a b).map .int)
    | .rshift => some ((shiftRight a b).map .int)
  | .complex a b, y => complexArith op (.complex a b) y
  | x, .complex a b => complexArith op x (.complex a b)
  | x, y => do
    let run (f : Binary64 → Binary64 → Except Fault Number) : Except Fault Number := do
      f (← x.toFloat) (← y.toFloat)
    match op with
    | .add => some (run fun a b => .ok (.float (.add a b)))
    | .sub => some (run fun a b => .ok (.float (.sub a b)))
    | .mult => some (run fun a b => .ok (.float (.mul a b)))
    | .div => some (run fun a b =>
        if b.isZero then .error (.zeroDivision .floatQuotient) else .ok (.float (.div a b)))
    | .floorDiv => some (run fun a b =>
        if b.isZero then .error (.zeroDivision .floatFloor) else .ok (.float (.floorDiv a b)))
    | .mod => some (run fun a b =>
        if b.isZero then .error (.zeroDivision .floatRemainder) else .ok (.float (.floorMod a b)))
    | .pow => some (run floatPow)
    | _ => none
where
  complexArith (op : BinaryOp) (x y : Number) : Option (Except Fault Number) :=
    let run (f : Pair → Pair → Except Fault Pair) : Except Fault Number := do
      return ofPair (← f (← x.toPair) (← y.toPair))
    match op with
    | .add => some (run fun a b => .ok (.add a.1 b.1, .add a.2 b.2))
    | .sub => some (run fun a b => .ok (.sub a.1 b.1, .sub a.2 b.2))
    | .mult => some (run fun a b => .ok (Pair.mul a b))
    | .div => some (run fun a b =>
        match Pair.div? a b with
        | some p => .ok p
        | none => .error (.zeroDivision .complexQuotient))
    | .pow => some (run Pair.pow)
    | _ => none

/-- An operation on one number; `none` when the kind does not have it. -/
def unary : UnaryOp → Number → Option Number
  | .plus, n => some n
  | .minus, .int n => some (.int (-n))
  | .minus, .float x => some (.float x.negate)
  | .minus, .complex re im => some (.complex re.negate im.negate)
  | .invert, .int n => some (.int (-n - 1))
  | _, _ => none

end Number
end Stackwise
