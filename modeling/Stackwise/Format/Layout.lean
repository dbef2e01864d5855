import Stackwise.Arith.Sequence
import Stackwise.Format.Real
import Stackwise.Text.Class

/-!
# Layouts

A layout says how a value is written: fill and alignment, sign, base mark, width, grouping,
precision and a code letter. Texts, integers, floats and complex numbers have layouts; for every
other value the layout has to be empty.
-/
namespace Stackwise.Format

/-- How a value is written. -/
structure Layout where
  fill : Char := ' '
  align : Char
  sign : Option Char := none
  /-- Write a zero without its minus. -/
  plainZero : Bool := false
  alternate : Bool := false
  width : Nat := 0
  grouping : Option Char := none
  precision : Option Nat := none
  code : Option Char := none

def isAlign (c : Char) : Bool := c == '<' || c == '>' || c == '=' || c == '^'

/-- Digits of any script as a number, with the number of digits. -/
def readDigits : Nat → Nat → List Char → Nat × Nat × List Char
  | n, k, c :: r =>
    match Text.digitValue? c with
    | some d => readDigits (n * 10 + d) (k + 1) r
    | none => (n, k, c :: r)
  | n, k, [] => (n, k, [])

/-- Sizes from here on are refused. -/
def maxSize : Nat := Nat.pow 2 63

/-- A size; `none` if there are no digits. -/
def readSize (cs : List Char) : Except Fault (Option Nat × List Char) :=
  match readDigits 0 0 cs with
  | (_, 0, r) => .ok (none, r)
  | (n, _, r) => if maxSize ≤ n then .error (.format .tooManyDigits) else .ok (some n, r)

/-- Take a character off the front of a text if it satisfies a condition. -/
def takeIf (p : Char → Bool) : List Char → Option Char × List Char
  | c :: r => if p c then (some c, r) else (none, c :: r)
  | [] => (none, [])

/-- The codes that go with a separator of thousands. -/
def groupable (grouping : Char) (code : Option Char) : Bool :=
  match code with
  | none => true
  | some c => "defgEG%F".toList.contains c || (grouping == '_' && "boxX".toList.contains c)

/-- Read a layout. `align` is how the kind of value is aligned by itself, `ty` its class, and `code`
the code letter it has if none is given. -/
def Layout.read (align : Char) (code : Option Char) (ty : String) (spec : String) :
    Except Fault Layout := do
  let cs := spec.toList
  let (fill, given, cs) :=
    match cs with
    | f :: a :: r =>
      if isAlign a then (some f, some a, r)
      else if isAlign f then (none, some f, a :: r)
      else (none, none, cs)
    | [a] => if isAlign a then (none, some a, []) else (none, none, cs)
    | [] => (none, none, [])
  let (sign, cs) := takeIf (fun c => c == ' ' || c == '+' || c == '-') cs
  let (zero, cs) := takeIf (· == 'z') cs
  let (alternate, cs) := takeIf (· == '#') cs
  let (padding, cs) := if fill.isNone then takeIf (· == '0') cs else (none, cs)
  let aligned :=
    match given with
    | some a => a
    | none => if padding.isSome && align == '>' then '=' else align
  let (width, cs) ← readSize cs
  if width.any (maxItems < ·) then throw .outOfMemory
  let (comma, cs) := takeIf (· == ',') cs
  let (underscore, cs) := takeIf (· == '_') cs
  if comma.isSome && underscore.isSome then throw (.format .bothGroupings)
  if underscore.isSome && cs.head? == some ',' then throw (.format .bothGroupings)
  let grouping := if comma.isSome then comma else underscore
  let (precision, cs) ←
    match cs with
    | '.' :: r => do
      let (n, r) ← readSize r
      if n.isNone then throw (.format .missingPrecision)
      pure (n, r)
    | r => pure (none, r)
  let last ←
    match cs with
    | [] => pure code
    | [c] => pure (some c)
    | _ => throw (.format (.invalidLayout spec ty))
  match grouping with
  | some g =>
    if !groupable g last then throw (.format (.grouping g (last.getD ' ')))
  | none => pure ()
  let fill :=
    match fill with
    | some f => f
    | none => if padding.isSome then '0' else ' '
  return {
    fill, align := aligned, sign, plainZero := zero.isSome, alternate := alternate.isSome,
    width := width.getD 0, grouping, precision, code := last }

/-- Fill a text up to the width. -/
def Layout.pad (l : Layout) (s : String) : String :=
  let n := l.width - s.length
  if l.align == '<' then s ++ repeatChar l.fill n
  else if l.align == '^' then repeatChar l.fill (n / 2) ++ s ++ repeatChar l.fill (n - n / 2)
  else repeatChar l.fill n ++ s

/-- Digits in groups from the right, filled with zeros to a least width that counts the separators.
The digits come in reverse order. -/
def groupDigits (sep : Char) (size : Nat) : Nat → List Char → Int → List Char → List Char
  | 0, _, _, acc => acc
  | fuel + 1, digits, least, acc =>
    let len := min size (max (max digits.length least.toNat) 1)
    let taken := digits.take len
    let rest := digits.drop len
    let acc := List.replicate (len - taken.length) '0' ++ taken.reverse ++ acc
    let left := least - len
    if rest.isEmpty && left ≤ 0 then acc
    else groupDigits sep size fuel rest (left - 1) (sep :: acc)

/-- Place a number made of a sign, a base mark, whole digits and the rest. -/
def Layout.placeNumber (l : Layout) (sign mark digits rest : String) : String :=
  let fixed := sign.length + mark.length + rest.length
  let least := if l.fill == '0' && l.align == '=' then l.width - fixed else 0
  let whole :=
    if digits.isEmpty then ""
    else
      match l.grouping with
      | none => repeatChar '0' (least - digits.length) ++ digits
      | some sep =>
        let size := if ["b", "o", "x", "X"].contains (l.code.elim "" String.singleton) then 4 else 3
        let fuel := digits.length + least + 1
        String.ofList (groupDigits sep size fuel digits.toList.reverse least [])
  if l.align == '=' then
    let n := l.width - (fixed + whole.length)
    sign ++ mark ++ repeatChar l.fill n ++ whole ++ rest
  else l.pad (sign ++ mark ++ whole ++ rest)

/-- The sign of a number. -/
def Layout.signText (l : Layout) (neg : Bool) : String :=
  if neg then "-"
  else
    match l.sign with
    | some '+' => "+"
    | some ' ' => " "
    | _ => ""

/-! ### Texts -/

def layoutText (spec s : String) : Except Fault String := do
  let l ← Layout.read '<' (some 's') "str" spec
  if l.code != some 's' then throw (.format (.unknownCode (l.code.getD ' ') "str"))
  match l.sign with
  | some ' ' => throw (.format (.notAllowed "Space" "string"))
  | some _ => throw (.format (.notAllowed "Sign" "string"))
  | none => pure ()
  if l.plainZero then throw (.format (.notAllowed "Negative zero coercion (z)" "string"))
  if l.alternate then throw (.format (.notAllowed "Alternate form (#)" "string"))
  if l.align == '=' then throw (.format (.notAllowed "'=' alignment" "string"))
  let cut :=
    match l.precision with
    | some n => String.ofList (s.toList.take n)
    | none => s
  return l.pad cut

/-! ### Floats -/

/-- Whole digits and the rest of a number without its sign. -/
def splitWhole (s : String) : String × String :=
  let whole := s.toList.takeWhile Char.isDigit
  (String.ofList whole, String.ofList (s.toList.drop whole.length))

/-- A number with a point after its whole digits, whatever follows them. -/
def withPoint (s : String) : String :=
  let (whole, rest) := splitWhole s
  if whole.isEmpty || rest.startsWith "." then s else whole ++ "." ++ rest

/-- The magnitude of a float under a code. Without a code it is written as by itself, or in general
notation with at least one digit behind the point. -/
def Layout.magnitude (l : Layout) (x : Binary64) (whole : String) : String :=
  let precision := l.precision.getD 6
  match l.code with
  | none =>
    match l.precision with
    | none => if l.alternate then withPoint (x.magnitudeText whole) else x.magnitudeText whole
    | some p =>
      if x.isFinite then
        let (n, d) := x.toRatio
        let p := if p = 0 then 1 else p
        let limit : Int := if whole.isEmpty then p else p - 1
        generalText n.natAbs d p l.alternate limit whole "e"
      else x.magnitudeText whole
  | some c =>
    if c == '%' then
      realText (x.mul (.ofInt 100)) .fixed precision l.alternate false ++ "%"
    else
      let form : Notation :=
        if c == 'e' || c == 'E' then .scientific
        else if c == 'f' || c == 'F' then .fixed
        else .general
      realText x form precision l.alternate c.isUpper

/-- Whether a text shows a zero. -/
def showsZero (s : String) : Bool :=
  let mantissa := s.toList.takeWhile fun c => c != 'e' && c != 'E'
  mantissa.any (· == '0') && mantissa.all fun c => c == '0' || c == '.' || c == '%'

/-- The sign and the magnitude of a float. -/
def Layout.signed (l : Layout) (x : Binary64) (whole : String) : String × String :=
  let body := l.magnitude x whole
  (l.signText (x.isNeg && !(l.plainZero && showsZero body)), body)

/-- Codes for floats. -/
def isRealCode (c : Char) : Bool := "eEfFgGn%".toList.contains c

def layoutFloat (ty spec : String) (x : Binary64) : Except Fault String := do
  let l ← Layout.read '>' none ty spec
  match l.code with
  | some c => if !isRealCode c then throw (.format (.unknownCode c ty))
  | none => pure ()
  let (sign, body) := l.signed x ".0"
  let (whole, rest) := splitWhole body
  return l.placeNumber sign "" whole rest

/-! ### Integers -/

/-- An integer as the character of its code. -/
def layoutCharacter (l : Layout) (n : Int) : Except Fault String := do
  if l.sign.isSome then throw (.format (.withCharCode "Sign"))
  if l.alternate then throw (.format (.withCharCode "Alternate form (#)"))
  if n < -Int.pow 2 63 || Int.pow 2 63 ≤ n then throw (.overflow .wordCode)
  if n < 0 || 0x110000 ≤ n then throw (.overflow .formatChar)
  return l.placeNumber "" "" "" (String.singleton (Char.ofNat n.toNat))

def layoutInt (ty spec : String) (n : Int) : Except Fault String := do
  let l ← Layout.read '>' (some 'd') ty spec
  let c := l.code.getD 'd'
  if isRealCode c && c != 'n' then layoutFloat ty spec (← intToFloat n)
  else if !"bcdoxXn".toList.contains c then throw (.format (.unknownCode c ty))
  else
    if l.precision.isSome then throw (.format (.notAllowed "Precision" "integer"))
    if l.plainZero then throw (.format (.notAllowed "Negative zero coercion (z)" "integer"))
    if c == 'c' then layoutCharacter l n
    else
      let (mark, digits) ←
        match c with
        | 'b' => pure ("0b", baseText n.natAbs 2 false)
        | 'o' => pure ("0o", baseText n.natAbs 8 false)
        | 'x' => pure ("0x", baseText n.natAbs 16 false)
        | 'X' => pure ("0X", baseText n.natAbs 16 true)
        | _ => pure ("", ← intText n.natAbs)
      let mark := if l.alternate then mark else ""
      return l.placeNumber (l.signText (decide (n < 0))) mark digits ""

/-! ### Complex numbers -/

def layoutComplex (spec : String) (re im : Binary64) : Except Fault String := do
  let l ← Layout.read '>' none "complex" spec
  match l.code with
  | some c => if !isRealCode c || c == '%' then throw (.format (.unknownCode c "complex"))
  | none => pure ()
  if l.fill == '0' then throw (.format .complexZeroPadding)
  if l.align == '=' then throw (.format .complexEqualsSign)
  let inner := { l with width := 0 }
  let part (sign : Option Char) (x : Binary64) : String :=
    let l := { inner with sign }
    let (s, body) := l.signed x ""
    let (whole, rest) := splitWhole body
    l.placeNumber s "" whole rest
  let bare := l.code.isNone
  let skip := bare && re.isZero && !re.isNeg
  let body :=
    if skip then part l.sign im ++ "j"
    else part l.sign re ++ part (some '+') im ++ "j"
  return l.pad (if bare && !skip then "(" ++ body ++ ")" else body)

/-- A value written under a layout. -/
def layout (v : Value) (spec : String) : Except Fault String :=
  if spec.isEmpty then v.text
  else
    match v with
    | .str s => layoutText spec s
    | .bool b => layoutInt "bool" spec (if b then 1 else 0)
    | .int n => layoutInt "int" spec n
    | .float x => layoutFloat "float" spec x
    | .complex re im => layoutComplex spec re im
    | v => .error (.format (.noLayout v.tyName))

end Stackwise.Format
