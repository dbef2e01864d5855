import Stackwise.Binary64.Basic

/-!
# Decimal texts of binary64 numbers

`shortest` finds the fewest decimal digits that read back as the same number, and of those the
nearest to it. `fixed` and `scientific` round to a given number of places or digits. All three work
on exact fractions. `ofDecimal` reads a decimal back with one rounding.

The layouts of the plain text (`toText`) and of the fixed-width conversions share these digits.
-/
namespace Stackwise

/-- The decimal digits of a natural number, most significant first. -/
def decimalText (n : Nat) : String := Nat.repr n

/-- Repeat a character. -/
def repeatChar (c : Char) (n : Nat) : String := String.ofList (List.replicate n c)

namespace Binary64

/-- Digits `0.d₁d₂…` times ten to the power `point`. -/
structure Digits where
  digits : List Char
  point : Int
  deriving Repr, DecidableEq, Inhabited

/-- Ten to the power `k` is at most `num / den`. -/
def tenPowLe (k : Int) (num den : Nat) : Bool :=
  if 0 ≤ k then decide (Nat.pow 10 k.toNat * den ≤ num)
  else decide (den ≤ num * Nat.pow 10 (-k).toNat)

/-- The `k` with `10 ^ (k - 1) ≤ num / den < 10 ^ k`, for a positive fraction. -/
def pointOf (num den : Nat) : Int :=
  let d : Int := (Nat.log2 num : Int) - Nat.log2 den
  climb 5 (((d - 1) * 30103).fdiv 100000 - 1)
where
  climb : Nat → Int → Int
    | 0, k => k
    | n + 1, k => if tenPowLe k num den then climb n (k + 1) else k

/-- The fraction divided by ten to the power `k`. -/
def scaleTen (num den : Nat) (k : Int) : Nat × Nat :=
  if 0 ≤ k then (num, den * Nat.pow 10 k.toNat) else (num * Nat.pow 10 (-k).toNat, den)

/-- Digits of a coefficient on the grid of ten to the power `unit`, trailing zeros dropped. -/
def Digits.ofCoeff (c : Nat) (unit : Int) : Digits :=
  let ds := Nat.toDigits 10 c
  let kept := (ds.reverse.dropWhile (· == '0')).reverse
  ⟨if kept.isEmpty then ['0'] else kept, unit + ds.length⟩

/-- The fewest digits that read back as `m · 2 ^ e`, and among those the nearest to it.
The reals that round to the number form an interval that reaches half way to its neighbours, ends
included when the significand is even. The first decimal grid with a point in it wins. -/
def shortest (m : Nat) (e : Int) : Digits :=
  -- The value and both ends of the interval over one denominator: `v / d`, `lo / d`, `hi / d`.
  let narrow := m == Nat.pow 2 52 && decide (minExp < e)
  let (v, d) :=
    if 0 ≤ e then (m * Nat.pow 2 e.toNat * 4, 4) else (m * 4, Nat.pow 2 (-e).toNat * 4)
  let unit := if 0 ≤ e then Nat.pow 2 e.toNat else 1
  let hi := v + 2 * unit
  let lo := v - (if narrow then unit else 2 * unit)
  let closed := m % 2 == 0
  let point := pointOf v d
  search v d lo hi closed point 17 1
where
  search (v d lo hi : Nat) (closed : Bool) (point : Int) : Nat → Nat → Digits
    | 0, n => Digits.ofCoeff (grid v d point n) (point - n)
    | fuel + 1, n =>
      let k := point - n
      let below := grid v d point n
      let inside (c : Nat) : Bool :=
        -- `lo / d ≤ c · 10 ^ k ≤ hi / d`
        let (cn, cd) :=
          if 0 ≤ k then (c * Nat.pow 10 k.toNat, 1) else (c, Nat.pow 10 (-k).toNat)
        if closed then decide (lo * cd ≤ cn * d) && decide (cn * d ≤ hi * cd)
        else decide (lo * cd < cn * d) && decide (cn * d < hi * cd)
      let (sn, sd) := scaleTen v d k
      let r := sn % sd
      match inside below, inside (below + 1) with
      | true, true =>
        let up := decide (sd < 2 * r) || (2 * r == sd && below % 2 == 1)
        Digits.ofCoeff (if up then below + 1 else below) k
      | true, false => Digits.ofCoeff below k
      | false, true => Digits.ofCoeff (below + 1) k
      | false, false => search v d lo hi closed point fuel (n + 1)
  grid (v d : Nat) (point : Int) (n : Nat) : Nat :=
    let (sn, sd) := scaleTen v d (point - n)
    sn / sd

/-- A positive fraction rounded to `n ≥ 1` significant digits; exactly `n` digits. -/
def roundDigits (num den n : Nat) : Digits :=
  if num = 0 then ⟨List.replicate n '0', 1⟩
  else
    let point := pointOf num den
    let (sn, sd) := scaleTen num den (point - n)
    let c := roundHalfEven sn sd
    -- Rounding up may carry into one more digit.
    if c = Nat.pow 10 n then ⟨'1' :: List.replicate (n - 1) '0', point + 1⟩
    else ⟨Nat.toDigits 10 c, point⟩

/-- A fraction with `places` digits behind the point. -/
def fixedText (num den places : Nat) (keepPoint : Bool) : String :=
  let ds := Nat.toDigits 10 (roundHalfEven (num * Nat.pow 10 places) den)
  let ds := List.replicate (places + 1 - ds.length) '0' ++ ds
  let whole := ds.take (ds.length - places)
  let part := ds.drop (ds.length - places)
  String.ofList whole ++ (if places = 0 then (if keepPoint then "." else "") else ".")
    ++ String.ofList part

/-- An exponent with its sign and at least two digits. -/
def exponentText (mark : String) (x : Int) : String :=
  let ds := decimalText x.natAbs
  mark ++ (if x < 0 then "-" else "+") ++ (if ds.length < 2 then "0" ++ ds else ds)

/-- A fraction as one digit, `places` digits and an exponent. -/
def scientificText (num den places : Nat) (keepPoint : Bool) (mark : String) : String :=
  let r := roundDigits num den (places + 1)
  let exp := if num = 0 then 0 else r.point - 1
  let tail := r.digits.drop 1
  String.ofList (r.digits.take 1)
    ++ (if tail.isEmpty then (if keepPoint then "." else "") else "." ++ String.ofList tail)
    ++ exponentText mark exp

/-- Where the plain text of a float changes from positional to exponent notation. -/
structure Layout where
  /-- The least position of the point that is still written positionally. -/
  low : Int
  /-- The greatest such position. -/
  high : Int

/-- Floats are written positionally from `0.0001` up to 16 digits before the point. -/
def plainLayout : Layout := ⟨-3, 16⟩

/-- Digits written positionally or with an exponent; a whole number shows `whole` after the point.
-/
def Digits.layout (d : Digits) (l : Layout) (whole : String) : String :=
  if l.low ≤ d.point && d.point ≤ l.high then
    if d.point ≤ 0 then "0." ++ repeatChar '0' (-d.point).toNat ++ String.ofList d.digits
    else
      let k := d.point.toNat
      if d.digits.length ≤ k then
        String.ofList d.digits ++ repeatChar '0' (k - d.digits.length) ++ whole
      else String.ofList (d.digits.take k) ++ "." ++ String.ofList (d.digits.drop k)
  else
    let tail := d.digits.drop 1
    String.ofList (d.digits.take 1)
      ++ (if tail.isEmpty then "" else "." ++ String.ofList tail)
      ++ exponentText "e" (d.point - 1)

/-- The magnitude of a number as text; whole numbers show `whole` after their digits. -/
def magnitudeText (x : Binary64) (whole : String) : String :=
  match x with
  | .nan _ => "nan"
  | .inf _ => "inf"
  | .finite _ m e => if m = 0 then "0" ++ whole else (shortest m e).layout plainLayout whole

/-- The text of a float: the fewest digits that read back. -/
def toText (x : Binary64) : String :=
  (if x.isNeg then "-" else "") ++ x.magnitudeText ".0"

/-- The number nearest to `coeff · 10 ^ exp`. Exponents far outside the range of finite numbers
are settled without computing the power. -/
def ofDecimal (neg : Bool) (coeff : Nat) (exp : Int) : Binary64 :=
  if coeff = 0 then zero neg
  else
    let size : Int := (Nat.toDigits 10 coeff).length + exp
    if 400 < size then .inf neg
    else if size < -400 then zero neg
    else if 0 ≤ exp then ofRatio neg (coeff * Nat.pow 10 exp.toNat) 1
    else ofRatio neg coeff (Nat.pow 10 (-exp).toNat)

end Binary64
end Stackwise
