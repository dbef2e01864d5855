import Stackwise.Binary64.Decimal
import Stackwise.Text.Class
import Stackwise.Text.Digit

/-!
# Numbers written as texts

The numbers that `int`, `float` and `complex` read from texts. Blanks around a number do not count,
digits of every script are accepted, and single underscores may separate digits.
-/
namespace Stackwise.Numeral

/-- Blanks of the ASCII range. -/
def isBlank (c : Char) : Bool := c == ' ' || (decide (9 ≤ c.toNat) && decide (c.toNat ≤ 13))

/-- A text with digits and blanks of other scripts replaced by those of ASCII. A text that is in
ASCII already stays as it is. -/
def toAscii (cs : List Char) : List Char :=
  if cs.all (fun c => c.toNat < 128) then cs
  else cs.map fun c =>
    if Text.blank.contains c then ' '
    else
      match Text.digitValue? c with
      | some d => Char.ofNat ('0'.toNat + d)
      | none => c

/-- A text without the blanks around it. -/
def trim (cs : List Char) : List Char :=
  ((cs.dropWhile isBlank).reverse.dropWhile isBlank).reverse

/-- A sign, if there is one; `true` for a minus. -/
def splitSign : List Char → Bool × List Char
  | '-' :: r => (true, r)
  | '+' :: r => (false, r)
  | r => (false, r)

/-- The base that a leading zero and a letter name. -/
def namedBase : List Char → Option (Nat × List Char)
  | '0' :: c :: r =>
    if c == 'x' || c == 'X' then some (16, r)
    else if c == 'o' || c == 'O' then some (8, r)
    else if c == 'b' || c == 'B' then some (2, r)
    else none
  | _ => none

/-- Digits of a base to the end of a text. A separator may stand before the first of them only after
the letter of a base. -/
def digitsOf (base : Nat) (separator : Bool) (cs : List Char) : Option (List Char) :=
  if !separator && cs.head? == some '_' then none
  else
    match Text.digitRun (fun c => Text.digitOf c < base) [] cs with
    | some (ds, []) => if ds.isEmpty then none else some ds
    | _ => none

/-- The base and the digits of an integer without its sign. A base of zero is told by the text. -/
def integerDigits (base : Nat) (cs : List Char) : Option (Nat × List Char) :=
  match namedBase cs with
  | some (b, r) =>
    if base = 0 || base = b then (digitsOf b true r).map fun ds => (b, ds)
    else (digitsOf base false cs).map fun ds => (base, ds)
  | none =>
    if base = 0 then do
      let ds ← digitsOf 10 false cs
      if ds.head? == some '0' && ds.any (· != '0') then none else return (10, ds)
    else (digitsOf base false cs).map fun ds => (base, ds)

/-- The sign, the base and the digits of an integer. -/
def integer? (base : Nat) (s : List Char) : Option (Bool × Nat × List Char) := do
  let (neg, cs) := splitSign (trim (toAscii s))
  let (b, ds) ← integerDigits base cs
  return (neg, b, ds)

/-- Bases whose numbers can be read in one pass, however long they are. -/
def isPowerOfTwo (base : Nat) : Bool := [2, 4, 8, 16, 32].contains base

/-- The exponent of a float. -/
def exponent? : List Char → Option (Int × List Char)
  | e :: r =>
    if e == 'e' || e == 'E' then do
      let (neg, r) := splitSign r
      match r with
      | d :: _ =>
        if d.isDigit then
          let (ds, rest) ← Text.digitRun Char.isDigit [] r
          let n : Int := Text.natOf 10 ds
          return (if neg then -n else n, rest)
        else none
      | [] => none
    else some (0, e :: r)
  | [] => some (0, [])

/-- A decimal number at the beginning of a text. -/
def decimal? (neg : Bool) (cs : List Char) : Option (Binary64 × List Char) := do
  let (whole, rest) ← Text.readFraction cs
  let (fraction, rest) ←
    match rest with
    | '.' :: r => Text.readFraction r
    | r => some ([], r)
  if whole.isEmpty && fraction.isEmpty then none
  else
    let (e, rest) ← exponent? rest
    return (Binary64.ofDecimal neg (Text.natOf 10 (whole ++ fraction)) (e - fraction.length), rest)

/-- The rest of a text after a word in lower-case letters, whatever the case of the text. -/
def afterWord? (word : String) (cs : List Char) : Option (List Char) :=
  let n := word.length
  if (cs.take n).map Char.toLower == word.toList then some (cs.drop n) else none

/-- An infinity or an undefined number at the beginning of a text. -/
def special? (neg : Bool) (cs : List Char) : Option (Binary64 × List Char) :=
  match afterWord? "infinity" cs with
  | some r => some (.inf neg, r)
  | none =>
    match afterWord? "inf" cs with
    | some r => some (.inf neg, r)
    | none => (afterWord? "nan" cs).map fun r => (.nan 0, r)

/-- A float with its sign at the beginning of a text. -/
def signedFloat? (cs : List Char) : Option (Binary64 × List Char) :=
  let (neg, r) := splitSign cs
  match special? neg r with
  | some p => some p
  | none => decimal? neg r

/-- A float that takes a whole text. -/
def float? (s : List Char) : Option Binary64 :=
  match signedFloat? (trim (toAscii s)) with
  | some (x, []) => some x
  | _ => none

/-- The letter of the imaginary part. -/
def imaginaryUnit? : List Char → Option (List Char)
  | 'j' :: r | 'J' :: r => some r
  | _ => none

/-- The imaginary part after a real one: a sign, and a number that may be left out. -/
def imaginary? (cs : List Char) : Option Binary64 :=
  match cs with
  | '+' :: r | '-' :: r =>
    let neg := cs.head? == some '-'
    match signedFloat? cs with
    | some (y, rest) => if imaginaryUnit? rest == some [] then some y else none
    | none =>
      if imaginaryUnit? r == some [] then some (if neg then Binary64.one.negate else .one) else none
  | _ => none

/-- A complex number without blanks or parentheses around it. -/
def complexBody? (cs : List Char) : Option (Binary64 × Binary64) :=
  match signedFloat? cs with
  | some (x, []) => some (x, .zero false)
  | some (x, rest) =>
    if imaginaryUnit? rest == some [] then some (.zero false, x)
    else (imaginary? rest).map fun y => (x, y)
  | none =>
    let (neg, r) := splitSign cs
    if imaginaryUnit? r == some [] then
      some (.zero false, if neg then Binary64.one.negate else .one)
    else none

/-- Whether an underscore stands anywhere but between two digits; `after` tells if a digit is before
the text. -/
def strayUnderscore (after : Bool) : List Char → Bool
  | [] => false
  | '_' :: r => !after || !(r.head?.any Char.isDigit) || strayUnderscore false r
  | c :: r => strayUnderscore c.isDigit r

/-- A complex number that takes a whole text, possibly in parentheses. -/
def complex? (s : List Char) : Option (Binary64 × Binary64) :=
  let cs := trim (toAscii s)
  match cs with
  | '(' :: r =>
    match r.reverse with
    | ')' :: inner => complexBody? (trim inner.reverse)
    | _ => none
  | cs => complexBody? cs

end Stackwise.Numeral
