import Stackwise.Binary64.Decimal
import Stackwise.Text.Digit
import Stackwise.Value.Show

/-!
# Numbers in program texts

Integers in four bases, floats and imaginary numbers. Single underscores may separate digits. A
number ends where no letter or digit follows; the keywords that can follow a number in an expression
may follow it directly.
-/
namespace Stackwise.Literal

open Text

/-- Characters that may stand in a word. -/
def isWordChar (c : Char) : Bool :=
  c.isAlphanum || c == '_' || decide (128 ≤ c.toNat)

/-- Whether a number may end before a text. -/
def endsNumber : List Char → Bool
  | 'a' :: 'n' :: 'd' :: _ => true
  | 'e' :: 'l' :: 's' :: 'e' :: _ => true
  | 'f' :: 'o' :: 'r' :: _ => true
  | 'i' :: 'f' :: _ => true
  | 'i' :: 'n' :: _ => true
  | 'i' :: 's' :: _ => true
  | 'o' :: 'r' :: _ => true
  | 'n' :: 'o' :: 't' :: _ => true
  | c :: _ => !isWordChar c
  | [] => true

/-- An integer in a base other than ten, after the letter that names the base. -/
def readBased (base : Nat) (cs : List Char) : Option (Number × List Char) := do
  let (digits, rest) ← digitRun (fun c => digitOf c < base) [] cs
  if digits.isEmpty || !endsNumber rest then none
  else return (.int (natOf base digits), rest)

/-- The exponent of a float, if there is one; `none` for one that is cut short. -/
def readExponent : List Char → Option (Option Int × List Char)
  | e :: cs =>
    if e == 'e' || e == 'E' then
      match cs with
      | s :: d :: r =>
        if s == '+' || s == '-' then
          if d.isDigit then do
            let (digits, rest) ← digitRun Char.isDigit [] (d :: r)
            let n : Int := natOf 10 digits
            return (some (if s == '-' then -n else n), rest)
          else none
        else if s.isDigit then do
          let (digits, rest) ← digitRun Char.isDigit [] (s :: d :: r)
          return (some (natOf 10 digits), rest)
        else if endsNumber (e :: cs) then some (none, e :: cs) else none
      | [d] => if d.isDigit then some (some (digitOf d), []) else none
      | [] => none
    else some (none, e :: cs)
  | [] => some (none, [])

/-- A decimal number from its parts. Integers have no superfluous zeros in front. -/
def decimalValue (whole fraction : List Char) (point : Bool) (exponent : Option Int)
    (imaginary : Bool) : Option Number :=
  let real :=
    Binary64.ofDecimal false (natOf 10 (whole ++ fraction)) (exponent.getD 0 - fraction.length)
  if imaginary then some (.complex (.zero false) real)
  else if point || exponent.isSome then some (.float real)
  else if maxIntDigits < whole.length then none
  else if whole.head? == some '0' && whole.any (· != '0') then none
  else some (.int (natOf 10 whole))

/-- A decimal number, which begins with a digit, or with a point and a digit. -/
def readDecimal (cs : List Char) : Option (Number × List Char) := do
  let (whole, rest) ←
    match cs with
    | '.' :: _ => some ([], cs)
    | cs => digitRun Char.isDigit [] cs
  let (point, fraction, rest) ←
    match rest with
    | '.' :: r => (readFraction r).map fun (f, r) => (true, f, r)
    | r => some (false, [], r)
  let (exponent, rest) ← readExponent rest
  let (imaginary, rest) :=
    match rest with
    | 'j' :: r | 'J' :: r => (true, r)
    | r => (false, r)
  let n ← decimalValue whole fraction point exponent imaginary
  if endsNumber rest then return (n, rest) else none

/-- A number at the beginning of a text. -/
def readNumber (cs : List Char) : Option (Number × List Char) :=
  match cs with
  | '0' :: 'x' :: r | '0' :: 'X' :: r => readBased 16 r
  | '0' :: 'o' :: r | '0' :: 'O' :: r => readBased 8 r
  | '0' :: 'b' :: r | '0' :: 'B' :: r => readBased 2 r
  | cs => readDecimal cs

end Stackwise.Literal
