import Stackwise.Arith.Apply
import Stackwise.Format.Real
import Stackwise.Text.Numeral

/-!
# Functions on numbers

Conversions to numbers, rounding, division with remainder, powers with a modulus, texts in other
bases, and hash values. None of them changes the world.
-/
namespace Stackwise.Builtin

/-- An integer where one is wanted. -/
def needInt (v : Value) : Except Fault Int :=
  match v.asInt? with
  | some n => .ok n
  | none => .error (.call (.notInteger v.tyName))

/-! ### Magnitude, quotient, power, rounding -/

def abs (v : Value) : Except Fault Value :=
  match v.number? with
  | some (.int n) => .ok (.int n.natAbs)
  | some (.float x) => .ok (.float x.abs)
  | some (.complex re im) =>
    let x := Binary64.hypot re im
    if x.isInf && !re.isInf && !im.isInf then .error (.overflow .complexSize) else .ok (.float x)
  | none => .error (.noAbs v.tyName)

/-- Quotient and remainder toward minus infinity. -/
def divmod (x y : Value) : Except Fault Value :=
  let unsupported : Except Fault Value := .error (.operands "divmod()" x.tyName y.tyName)
  match x.number?, y.number? with
  | some (.int a), some (.int b) =>
    if b = 0 then .error (.zeroDivision .floor)
    else .ok (.tuple [.int (a.fdiv b), .int (a.fmod b)])
  | some (.complex _ _), _ => unsupported
  | _, some (.complex _ _) => unsupported
  | some a, some b => do
    let a ← a.toFloat
    let b ← b.toFloat
    if b.isZero then throw (.zeroDivision .floatPair)
    return .tuple [.float (a.floorDiv b), .float (a.floorMod b)]
  | _, _ => unsupported

/-- Natural powers modulo a positive number, by squaring. -/
def powModNat (m : Nat) : Nat → Nat → Nat → Nat → Nat
  | 0, _, _, acc => acc
  | fuel + 1, base, e, acc =>
    if e = 0 then acc
    else powModNat m fuel (base * base % m) (e / 2) (if e % 2 = 1 then acc * base % m else acc)

/-- The Bézout coefficient of `a` and the greatest common divisor, by the Euclidean algorithm. -/
def gcdCoefficient : Nat → Int → Int → Int → Int → Int × Int
  | 0, a, _, x, _ => (a, x)
  | fuel + 1, a, b, x, y =>
    if b = 0 then (a, x) else gcdCoefficient fuel b (a % b) y (x - a / b * y)

/-- The inverse of `a` modulo `m > 0`, if there is one. -/
def inverse? (a : Int) (m : Nat) : Option Nat :=
  let a := a % m
  let (g, x) := gcdCoefficient (2 * (Nat.log2 m + 2)) a m 1 0
  if g = 1 then some (x % m).toNat else none

/-- Powers of integers with a modulus; the result has the sign of the modulus. -/
def powMod (a b c : Int) : Except Fault Int := do
  if c = 0 then throw (.call .modulusZero)
  let m := c.natAbs
  let base ←
    if b < 0 then
      match inverse? a m with
      | some i => pure i
      | none => throw (.call .notInvertible)
    else pure (a % (m : Int)).toNat
  let r := powModNat m (Nat.log2 b.natAbs + 1) base b.natAbs (1 % m)
  return if c < 0 && r != 0 then (r : Int) - m else r

/-- Whether a value is a number of any kind. -/
def isNumber (v : Value) : Bool := v.number?.isSome

/-- A power with a modulus for values of all classes. -/
def powWith (x y z : Value) : Except Fault Value :=
  match x.asInt?, y.asInt?, z.asInt? with
  | some a, some b, some c => (powMod a b c).map .int
  | _, _, _ =>
    let refusal (v : Value) : Option CallFault :=
      match v.number? with
      | some (.float _) => some .modulusKinds
      | some (.complex _ _) => if isNumber x && isNumber y then some .complexModulo else none
      | _ => none
    match [x, y, z].findSome? refusal with
    | some f => .error (.call f)
    | none => .error (.call (.modulusOperands x.tyName y.tyName z.tyName))

/-- An integer rounded to a multiple of a power of ten, a half to the even multiple. -/
def roundInt (n digits : Int) : Int :=
  if 0 ≤ digits then n
  else
    let p := Nat.pow 10 (-digits).toNat
    let q := roundHalfEven n.natAbs p * p
    if n < 0 then -(q : Int) else q

/-- A float rounded to a number of decimal places. Its exact value decides. -/
def roundFloat (x : Binary64) (digits : Int) : Except Fault Binary64 :=
  if !x.isFinite || 323 < digits then .ok x
  else if digits < -308 then .ok (.zero x.isNeg)
  else
    let (n, d) := x.toRatio
    let q :=
      if 0 ≤ digits then roundHalfEven (n.natAbs * Nat.pow 10 digits.toNat) d
      else roundHalfEven n.natAbs (d * Nat.pow 10 (-digits).toNat)
    let r := Binary64.ofDecimal x.isNeg q (-digits)
    if r.isInf then .error (.overflow .roundedSize) else .ok r

def round (v : Value) (digits : Option Value) : Except Fault Value := do
  match v.number? with
  | some (.int n) =>
    match digits with
    | none => return .int n
    | some d => return .int (roundInt n (← needInt d))
  | some (.float x) =>
    match digits with
    | none =>
      let _ ← floatToInt x
      return .int x.roundToInt
    | some d => return .float (← roundFloat x (← needInt d))
  | _ => throw (.call (.noRound v.tyName))

/-- The text of an integer in a base, after its mark. -/
def basedText (mark : String) (base : Nat) (v : Value) : Except Fault Value := do
  let n ← needInt v
  return .str ((if n < 0 then "-" else "") ++ mark ++ Format.baseText n.natAbs base false)

/-! ### Conversions -/

/-- An integer written in a text, which `shown` shows. -/
def intOfText (base : Nat) (cs : List Char) (shown : String) : Except Fault Value :=
  match Numeral.integer? base cs with
  | none => .error (.call (.invalidInt base shown))
  | some (neg, b, ds) =>
    if maxIntDigits < ds.length && !Numeral.isPowerOfTwo b then .error (.tooManyDigitsIn ds.length)
    else
      let n : Int := Text.natOf b ds
      .ok (.int (if neg then -n else n))

/-- The characters of a byte string. -/
def latin (b : List UInt8) : List Char := b.map fun x => Char.ofNat x.toNat

def toInt (v : Value) : Except Fault Value :=
  match v with
  | .str s => intOfText 10 s.toList (Text.quoted s)
  | .bytes b => intOfText 10 (latin b) (Text.quotedBytes b)
  | v =>
    match v.number? with
    | some (.int n) => .ok (.int n)
    | some (.float x) => (floatToInt x).map .int
    | _ => .error (.call (.intArgument v.tyName))

def toIntIn (v base : Value) : Except Fault Value := do
  let b ← needInt base
  if (b != 0 && b < 2) || 36 < b then throw (.call .intBaseRange)
  match v with
  | .str s => intOfText b.toNat s.toList (Text.quoted s)
  | .bytes bs => intOfText b.toNat (latin bs) (Text.quotedBytes bs)
  | _ => throw (.call .intBaseText)

/-- A float written in a text, which `shown` shows. -/
def floatOfText (cs : List Char) (shown : String) : Except Fault Value :=
  match Numeral.float? cs with
  | some x => .ok (.float x)
  | none => .error (.call (.invalidFloat shown))

def toFloat (v : Value) : Except Fault Value :=
  match v with
  | .str s => floatOfText s.toList (Text.quoted s)
  | .bytes b => floatOfText (latin b) (Text.quotedBytes b)
  | v =>
    match v.number? with
    | some (.int n) => (intToFloat n).map .float
    | some (.float x) => .ok (.float x)
    | _ => .error (.call (.floatArgument v.tyName))

def toComplex (v : Value) : Except Fault Value :=
  match v with
  | .str s =>
    match Numeral.complex? s.toList with
    | some (re, im) => .ok (.complex re im)
    | none =>
      if Numeral.strayUnderscore false (Numeral.toAscii s.toList) then
        .error (.call (.invalidComplex (Text.quoted s)))
      else .error (.call .complexText)
  | v =>
    match v.number? with
    | some n => do
      let (re, im) ← n.toPair
      return .complex re im
    | none => .error (.call (.complexFirst v.tyName))

/-- A complex number from its parts. Parts that are complex themselves are turned and added. -/
def toComplexOf (a b : Value) : Except Fault Value :=
  match a, b with
  | .str _, _ => .error (.call .complexTextSecond)
  | _, .str _ => .error (.call .complexSecondText)
  | a, b =>
    match a.number?, b.number? with
    | none, _ => .error (.call (.complexFirst a.tyName))
    | _, none => .error (.call (.complexSecond b.tyName))
    | some x, some y => do
      let (re, up) ← x.toPair
      let (im, down) ← y.toPair
      let re :=
        match y with
        | .complex _ _ => re.sub down
        | _ => re
      let im :=
        match x with
        | .complex _ _ => im.add up
        | _ => im
      return .complex re im

/-! ### Hash values -/

/-- Hash values of numbers are taken modulo this prime. -/
def hashPrime : Nat := Nat.pow 2 61 - 1

/-- Minus one is not a hash value. -/
def avoidMinusOne (n : Int) : Int := if n = -1 then -2 else n

/-- The hash value of a fraction, which depends on its value only. -/
def hashRatio (n : Int) (d : Nat) : Int :=
  let h : Int := (n.natAbs * (inverse? d hashPrime).getD 1 % hashPrime : Nat)
  avoidMinusOne (if n < 0 then -h else h)

def hashFloat (x : Binary64) : Int :=
  match x with
  | .inf neg => if neg then -314159 else 314159
  | .nan mark => mark
  | x =>
    let (n, d) := x.toRatio
    hashRatio n d

/-- Wrap around at machine words. -/
def wrapWord (n : Int) : Int := Int.bmod n (Nat.pow 2 64)

/-- The bits of a machine word, rotated. -/
def rotate (n k : Nat) : Nat := (n * Nat.pow 2 k) % Nat.pow 2 64 + n / Nat.pow 2 (64 - k)

/-- The hash value of a tuple from those of its items. -/
def hashItems (hs : List Int) : Int :=
  let p1 : Nat := 11400714785074694791
  let p2 : Nat := 14029467366897019727
  let p5 : Nat := 2870177450012600261
  let acc := hs.foldl
    (fun (acc : Nat) h =>
      rotate ((acc + (h % Int.pow 2 64).toNat * p2) % Nat.pow 2 64) 31 * p1 % Nat.pow 2 64) p5
  let acc : Nat := (acc + (hs.length ^^^ (p5 ^^^ 3527539))) % Nat.pow 2 64
  if acc = Nat.pow 2 64 - 1 then 1546275796 else wrapWord acc

/-- The hash value of a set from those of its members, whatever their order. -/
def hashMembers (hs : List Int) : Int :=
  let shuffle (h : Nat) : Nat :=
    ((h ^^^ 89869747) ^^^ (h * Nat.pow 2 16 % Nat.pow 2 64)) * 3644798167 % Nat.pow 2 64
  let acc : Nat := hs.foldl (fun (acc : Nat) h => acc ^^^ shuffle (h % Int.pow 2 64).toNat) 0
  let acc : Nat := acc ^^^ ((hs.length + 1) * 1927868237)
  let acc : Nat := acc ^^^ ((acc / Nat.pow 2 11) ^^^ (acc / Nat.pow 2 25))
  let acc : Nat := (acc * 69069 + 907133923) % Nat.pow 2 64
  if acc = Nat.pow 2 64 - 1 then 590923713 else wrapWord acc

mutual
/-- The hash value of a value that can be a key. Objects, and texts that are not empty, get one
value for each class. -/
def hashValue : Value → Int
  | .bool b => if b then 1 else 0
  | .int n => hashRatio n 1
  | .float x => hashFloat x
  | .complex re im => avoidMinusOne (wrapWord (hashFloat re + 1000003 * hashFloat im))
  | .tuple xs => hashItems (hashValues xs)
  | .frozenset xs => hashMembers (hashValues xs)
  | .range a b c =>
    let n := rangeLength a b c
    if 1 < n then hashItems [hashRatio n 1, hashRatio a 1, hashRatio c 1] else 5
  | .str s => if s.isEmpty then 0 else 1
  | .bytes b => if b.isEmpty then 0 else 2
  | .type _ => 3
  | .function _ => 4
  | .iterator ref _ => ref
  | _ => 5
/-- The hash values of several values. -/
def hashValues : List Value → List Int
  | [] => []
  | x :: xs => hashValue x :: hashValues xs
end

def hash (v : Value) : Except Fault Value := do
  v.checkKey
  return .int (hashValue v)

end Stackwise.Builtin
