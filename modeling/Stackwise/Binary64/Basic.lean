/-!
# Binary64 numbers in exact arithmetic

A `Binary64` is a sign, a natural significand and a power of two, or an infinity, or an undefined
result. Every operation is stated as an exact rational followed by one rounding, `ofRatio`, so no
fact about hardware is needed to reason about it.

A finite number is canonical: its significand is below `2 ^ 53`, its exponent is at least `-1074`,
and the significand reaches `2 ^ 52` unless the exponent is already `-1074`. Canonical numbers are
equal as data exactly when sign and value agree, so only the two zeros have one value and two forms.

An undefined result carries a mark. Mark `0` is a result nobody has named yet; a holder that has to
tell one such object from another gives it a positive mark.
-/
namespace Stackwise

/-- A binary floating-point number with 53 significant bits. -/
inductive Binary64 where
  | finite (neg : Bool) (m : Nat) (e : Int)
  | inf (neg : Bool)
  | nan (mark : Nat)
  deriving DecidableEq, Repr, Inhabited

/-- The quotient `num / den` rounded to the nearest natural number, a half to the even neighbour. -/
def roundHalfEven (num den : Nat) : Nat :=
  let q := num / den
  let r := num % den
  if 2 * r < den then q
  else if 2 * r = den then (if q % 2 = 0 then q else q + 1)
  else q + 1

namespace Binary64

/-- Positive and negative zero. -/
def zero (neg : Bool) : Binary64 := .finite neg 0 (-1074)

/-- The least exponent a finite number can have. -/
def minExp : Int := -1074

/-- The greatest exponent a finite number can have. -/
def maxExp : Int := 971

/-- A significand of at most `2 ^ 53` at an admissible exponent, in canonical form. -/
def pack (neg : Bool) (m : Nat) (e : Int) : Binary64 :=
  let (m, e) := if m = Nat.pow 2 53 then (Nat.pow 2 52, e + 1) else (m, e)
  if maxExp < e then .inf neg else .finite neg m e

/-- The number nearest to `± num / den`, where `den` is positive. Ties go to the even significand;
values past the largest finite number become infinite. -/
def ofRatio (neg : Bool) (num den : Nat) : Binary64 :=
  if num = 0 then zero neg
  else
    let guess : Int := (Nat.log2 num : Int) - Nat.log2 den - 53
    let e := max guess minExp
    let scaled (e : Int) : Nat × Nat :=
      if 0 ≤ e then (num, den * Nat.pow 2 e.toNat) else (num * Nat.pow 2 (-e).toNat, den)
    let (n, d) := scaled e
    if n / d < Nat.pow 2 53 then pack neg (roundHalfEven n d) e
    else
      let (n, d) := scaled (e + 1)
      pack neg (roundHalfEven n d) (e + 1)

/-- The number nearest to `m · 2 ^ e`. -/
def ofScaled (neg : Bool) (m : Nat) (e : Int) : Binary64 :=
  if 0 ≤ e then ofRatio neg (m * Nat.pow 2 e.toNat) 1
  else ofRatio neg m (Nat.pow 2 (-e).toNat)

/-- The number nearest to an integer. -/
def ofInt (n : Int) : Binary64 := ofRatio (decide (n < 0)) n.natAbs 1

/-- One, the unit of the powers. -/
def one : Binary64 := .finite false (Nat.pow 2 52) (-52)

def isNaN : Binary64 → Bool
  | .nan _ => true
  | _ => false

def isInf : Binary64 → Bool
  | .inf _ => true
  | _ => false

def isFinite : Binary64 → Bool
  | .finite _ _ _ => true
  | _ => false

def isZero : Binary64 → Bool
  | .finite _ m _ => m == 0
  | _ => false

/-- Whether the sign bit is set; an undefined result has none. -/
def isNeg : Binary64 → Bool
  | .finite s _ _ => s
  | .inf s => s
  | .nan _ => false

/-- A finite number as an integer over a power of two: `(n, k)` stands for `n / 2 ^ k`. -/
def toDyadic : Binary64 → Int × Nat
  | .finite s m e =>
    let n : Int := if 0 ≤ e then (m : Int) * Int.pow 2 e.toNat else m
    (if s then -n else n, if 0 ≤ e then 0 else (-e).toNat)
  | _ => (0, 0)

/-- A finite number as a fraction with a positive denominator. -/
def toRatio (x : Binary64) : Int × Nat :=
  let (n, k) := x.toDyadic
  (n, Nat.pow 2 k)

/-- Reverse the sign. -/
def negate : Binary64 → Binary64
  | .finite s m e => .finite (!s) m e
  | .inf s => .inf (!s)
  | .nan _ => .nan 0

def abs : Binary64 → Binary64
  | .finite _ m e => .finite false m e
  | .inf _ => .inf false
  | .nan _ => .nan 0

/-- The sum of two fractions over powers of two, rounded once. A sum that is exactly zero takes the
sign both summands share, and is positive if they differ. -/
def add : Binary64 → Binary64 → Binary64
  | .nan _, _ => .nan 0
  | _, .nan _ => .nan 0
  | .inf s, .inf t => if s = t then .inf s else .nan 0
  | .inf s, _ => .inf s
  | _, .inf t => .inf t
  | x@(.finite s _ _), y@(.finite t _ _) =>
    let (a, j) := x.toDyadic
    let (b, k) := y.toDyadic
    let n := a * Int.pow 2 k + b * Int.pow 2 j
    if n = 0 then zero (s && t) else ofRatio (decide (n < 0)) n.natAbs (Nat.pow 2 (j + k))

def sub (x y : Binary64) : Binary64 := add x y.negate

def mul : Binary64 → Binary64 → Binary64
  | .nan _, _ => .nan 0
  | _, .nan _ => .nan 0
  | .inf s, y => if y.isZero then .nan 0 else .inf (s != y.isNeg)
  | x, .inf t => if x.isZero then .nan 0 else .inf (x.isNeg != t)
  | .finite s m e, .finite t n f => ofScaled (s != t) (m * n) (e + f)

/-- The quotient; the divisor is taken to be non-zero, a zero divisor gives an infinity or an
undefined result as the sign rules say. -/
def div : Binary64 → Binary64 → Binary64
  | .nan _, _ => .nan 0
  | _, .nan _ => .nan 0
  | .inf _, .inf _ => .nan 0
  | .inf s, y => .inf (s != y.isNeg)
  | x, .inf t => zero (x.isNeg != t)
  | .finite s m e, .finite t n f =>
    if n = 0 then (if m = 0 then .nan 0 else .inf (s != t))
    else
      let d := e - f
      if 0 ≤ d then ofRatio (s != t) (m * Nat.pow 2 d.toNat) n
      else ofRatio (s != t) m (n * Nat.pow 2 (-d).toNat)

/-- The remainder of `x` by a non-zero `y` with the quotient cut toward zero; it has the sign
of `x` and needs no rounding. -/
def truncMod : Binary64 → Binary64 → Binary64
  | .nan _, _ => .nan 0
  | _, .nan _ => .nan 0
  | .inf _, _ => .nan 0
  | x, .inf _ => x
  | .finite s m e, .finite _ n f =>
    if n = 0 then .nan 0
    else
      let low := min e f
      let a := m * Nat.pow 2 (e - low).toNat
      let b := n * Nat.pow 2 (f - low).toNat
      ofScaled s (a % b) low

/-- The greatest integer not above a finite number, as a float; zeros keep their sign. -/
def floor : Binary64 → Binary64
  | .finite s m e =>
    if 0 ≤ e then .finite s m e
    else
      let d := Nat.pow 2 (-e).toNat
      let q := m / d
      if s then
        (if m % d = 0 then (if q = 0 then zero true else ofInt (-(q : Int)))
         else ofInt (-(q : Int) - 1))
      else ofInt q
  | x => x

/-- The integer part of a finite number. -/
def truncate (x : Binary64) : Int :=
  let (n, d) := x.toRatio
  n.tdiv d

/-- The nearest integer to a finite number, a half to the even one. -/
def roundToInt (x : Binary64) : Int :=
  let (n, d) := x.toRatio
  let q : Int := roundHalfEven n.natAbs d
  if n < 0 then -q else q

/-- Numbers in order; `none` where one side is undefined. Both zeros are one number. -/
def compare? : Binary64 → Binary64 → Option Ordering
  | .nan _, _ => none
  | _, .nan _ => none
  | .inf s, .inf t => some (if s = t then .eq else if s then .lt else .gt)
  | .inf s, _ => some (if s then .lt else .gt)
  | _, .inf t => some (if t then .gt else .lt)
  | x, y =>
    let (a, j) := x.toDyadic
    let (b, k) := y.toDyadic
    some (compare (a * Int.pow 2 k) (b * Int.pow 2 j))

/-- Numeric equality: undefined results differ from everything, the zeros agree. -/
def eq (x y : Binary64) : Bool := compare? x y == some .eq

/-- A float against an integer, exactly. -/
def compareInt? : Binary64 → Int → Option Ordering
  | .nan _, _ => none
  | .inf s, _ => some (if s then .lt else .gt)
  | x, n =>
    let (a, k) := x.toDyadic
    some (compare a (n * Int.pow 2 k))

/-- Whether a number is a whole number. -/
def isInteger (x : Binary64) : Bool :=
  match x with
  | .finite _ _ _ => let (n, d) := x.toRatio; n % (d : Int) == 0
  | _ => false

/-- The same object or the same number: what containers ask of two floats. -/
def same : Binary64 → Binary64 → Bool
  | .nan j, .nan k => j != 0 && j == k
  | x, y => eq x y

/-- The nearest number to the square root of `num / den`. -/
def sqrtRatio (num den : Nat) : Binary64 :=
  if num = 0 then zero false
  else
    -- Scale so that the root has at least 55 bits, then let a sticky bit stand for the remainder.
    let want : Int := 2 * 56 - ((Nat.log2 num : Int) - Nat.log2 den)
    let shift : Nat := (if want < 0 then 0 else want.toNat)
    let shift := shift + shift % 2
    let n := num * Nat.pow 2 shift / den
    let exact := num * Nat.pow 2 shift % den == 0
    let r := natSqrt n
    let sticky := if exact && r * r == n then 0 else 1
    ofScaled false (2 * r + sticky) (-(shift / 2 : Nat) - 1)
where
  /-- The integer square root, by bisection on bits. -/
  natSqrt (n : Nat) : Nat :=
    (List.range (Nat.log2 n / 2 + 1)).foldr
      (fun i r => let t := r + Nat.pow 2 i; if t * t ≤ n then t else r) 0

/-- The length of the vector `(x, y)`, rounded once. -/
def hypot (x y : Binary64) : Binary64 :=
  if x.isInf || y.isInf then .inf false
  else if x.isNaN || y.isNaN then .nan 0
  else
    let (a, j) := x.toDyadic
    let (b, k) := y.toDyadic
    let n := Nat.pow (a * Int.pow 2 k).natAbs 2 + Nat.pow (b * Int.pow 2 j).natAbs 2
    sqrtRatio n (Nat.pow 2 (2 * (j + k)))

end Binary64
end Stackwise
