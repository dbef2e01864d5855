import Stackwise.Binary64.Decimal

/-!
# Numbers in a chosen notation

Floats with a given precision in fixed, exponent or general notation, and integers in a base. The
general notation picks the shorter of the other two by the size of the exponent and drops zeros at
the end.
-/
namespace Stackwise.Format

/-- Notations for floats. -/
inductive Notation where
  | fixed | scientific | general
  deriving DecidableEq, Repr

/-- A positive fraction in general notation with `precision` digits. `limit` is the least exponent,
counted from the point, that forces exponent notation; `alternate` keeps zeros and point. -/
def generalText (num den precision : Nat) (alternate : Bool) (limit : Int) (whole : String)
    (mark : String) : String :=
  let n := if precision = 0 then 1 else precision
  let r := Binary64.roundDigits num den n
  let stripped := (r.digits.reverse.dropWhile (· == '0')).reverse
  let kept := if alternate then r.digits else if stripped.isEmpty then ['0'] else stripped
  if -4 < r.point && r.point ≤ limit then
    if r.point ≤ 0 then
      "0." ++ repeatChar '0' (-r.point).toNat ++ String.ofList kept
    else
      let k := r.point.toNat
      let front := kept.take k
      let back := kept.drop k
      String.ofList front ++ repeatChar '0' (k - front.length)
        ++ (if back.isEmpty then (if alternate then "." else whole) else "." ++ String.ofList back)
  else
    let tail := kept.drop 1
    String.ofList (kept.take 1)
      ++ (if tail.isEmpty then (if alternate then "." else "") else "." ++ String.ofList tail)
      ++ Binary64.exponentText mark (r.point - 1)

/-- The magnitude of a float in a notation; `upper` writes letters in capitals. -/
def realText (x : Binary64) (form : Notation) (precision : Nat) (alternate upper : Bool) : String :=
  let mark := if upper then "E" else "e"
  match x with
  | .nan _ => if upper then "NAN" else "nan"
  | .inf _ => if upper then "INF" else "inf"
  | x =>
    let (n, d) := x.toRatio
    match form with
    | .fixed => Binary64.fixedText n.natAbs d precision alternate
    | .scientific => Binary64.scientificText n.natAbs d precision alternate mark
    | .general =>
      let p := if precision = 0 then 1 else precision
      generalText n.natAbs d p alternate p "" mark

/-- The digits of a natural number in a base up to sixteen. -/
def baseText (n base : Nat) (upper : Bool) : String :=
  let ds := Nat.toDigits base n
  String.ofList (if upper then ds.map Char.toUpper else ds)

end Stackwise.Format
