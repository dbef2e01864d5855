import Stackwise.Arith.Sequence
import Stackwise.Format.Real
import Stackwise.Value.Show

/-!
# Formatting with the percent operator

A template holds conversions `%` … letter, with an optional key in parentheses, flags, width and
precision. The arguments are the items of a tuple, a single value, or a mapping looked up by key.
All arguments have to be used, unless the right operand is a container that can be looked into.
-/
namespace Stackwise.Format

/-- The arguments a template still has to use. -/
inductive Arguments where
  /-- The items of a tuple that are left. -/
  | items (rest : List Value)
  /-- One value, used or not. -/
  | single (v : Value) (used : Bool)

/-- The next argument. -/
def Arguments.next : Arguments → Except Fault (Value × Arguments)
  | .items (v :: rest) => .ok (v, .items rest)
  | .single v false => .ok (v, .single v true)
  | _ => .error (.format .tooFewArguments)

/-- Whether nothing is left. -/
def Arguments.done : Arguments → Bool
  | .items rest => rest.isEmpty
  | .single _ used => used

/-- Flags, width and precision of a conversion. -/
structure Conversion where
  left : Bool := false
  sign : Bool := false
  blank : Bool := false
  alternate : Bool := false
  zero : Bool := false
  width : Nat := 0
  precision : Option Nat := none

/-- Values that a template looks into by key. A byte template takes a byte string for an argument.
-/
def mapping? (bytes : Bool) (v : Value) : Option Value :=
  match v with
  | .dict _ | .list _ | .range _ _ _ | .union _ | .alias _ _ => some v
  | .bytes _ => if bytes then none else some v
  | _ => none

/-- Read flags. -/
def readFlags : Conversion → List Char → Conversion × List Char
  | c, '-' :: r => readFlags { c with left := true } r
  | c, '+' :: r => readFlags { c with sign := true } r
  | c, ' ' :: r => readFlags { c with blank := true } r
  | c, '#' :: r => readFlags { c with alternate := true } r
  | c, '0' :: r => readFlags { c with zero := true } r
  | c, r => (c, r)

/-- Read a decimal number. -/
def readNat : Nat → List Char → Nat × List Char
  | n, c :: r =>
    if c.isDigit then readNat (n * 10 + (c.toNat - '0'.toNat)) r else (n, c :: r)
  | n, [] => (n, [])

/-- Widths from here on are refused. -/
def maxWidth : Nat := Nat.pow 2 63

/-- Precisions from here on are refused. -/
def maxPrecision : Nat := Nat.pow 2 31

/-- A width or precision taken from the arguments, of a size below `bound`. -/
def starArgument (args : Arguments) (bound : Nat) (o : Overflow) :
    Except Fault (Int × Arguments) := do
  let (v, args) ← args.next
  match v.asInt? with
  | some n => if n < -(bound : Int) || bound ≤ n then throw (.overflow o) else return (n, args)
  | none => throw (.format .wantsStar)

/-- Read the width. -/
def readWidth (c : Conversion) (args : Arguments) :
    List Char → Except Fault (Conversion × Arguments × List Char)
  | '*' :: r => do
    let (n, args) ← starArgument args maxWidth .sizeCode
    return ({ c with width := n.natAbs, left := c.left || decide (n < 0) }, args, r)
  | r =>
    let (n, r) := readNat 0 r
    if maxWidth ≤ n then .error (.format .widthRange) else .ok ({ c with width := n }, args, r)

/-- Read the precision. -/
def readPrecision (c : Conversion) (args : Arguments) :
    List Char → Except Fault (Conversion × Arguments × List Char)
  | '.' :: '*' :: r => do
    let (n, args) ← starArgument args maxPrecision .charCode
    return ({ c with precision := some n.toNat }, args, r)
  | '.' :: r =>
    let (n, r) := readNat 0 r
    if maxPrecision ≤ n then .error (.format .precisionRange)
    else .ok ({ c with precision := some n }, args, r)
  | r => .ok (c, args, r)

/-- Split a key from the text after its opening parenthesis; parentheses in it nest. -/
def splitKey : Nat → List Char → List Char → Option (List Char × List Char)
  | _, _, [] => none
  | depth, acc, c :: r =>
    if c == ')' then
      (if depth = 0 then some (acc.reverse, r) else splitKey (depth - 1) (c :: acc) r)
    else if c == '(' then splitKey (depth + 1) (c :: acc) r
    else splitKey depth (c :: acc) r

/-- Place the text of a number: its sign and base mark go before zeros and after blanks. -/
def placeNumber (c : Conversion) (neg : Bool) (mark body : String) : String :=
  let sign := if neg then "-" else if c.sign then "+" else if c.blank then " " else ""
  let head := sign ++ mark
  let size := head.length + body.length
  if c.left then
    head ++ body ++ repeatChar ' ' (c.width - size)
  else if c.zero then head ++ repeatChar '0' (c.width - size) ++ body
  else repeatChar ' ' (c.width - size) ++ head ++ body

/-- Place any other text. -/
def placeText (c : Conversion) (s : String) : String :=
  let pad := repeatChar ' ' (c.width - s.length)
  if c.left then s ++ pad else pad ++ s

/-- The first characters of a text, as many as the precision allows. -/
def cutText (c : Conversion) (s : String) : String :=
  match c.precision with
  | some n => String.ofList (s.toList.take n)
  | none => s

/-- The integer an integer conversion writes. -/
def integerOf (letter : Char) (v : Value) : Except Fault Int :=
  match v.number? with
  | some (.int n) => .ok n
  | some (.float x) =>
    if letter == 'o' || letter == 'x' || letter == 'X' then
      .error (.format (.wantsInteger letter v.tyName))
    else floatToInt x
  | _ =>
    if letter == 'o' || letter == 'x' || letter == 'X' then
      .error (.format (.wantsInteger letter v.tyName))
    else .error (.format (.wantsNumber letter v.tyName))

/-- An integer conversion. -/
def integerText (c : Conversion) (letter : Char) (n : Int) : Except Fault String := do
  let digits ←
    match letter with
    | 'o' => pure (baseText n.natAbs 8 false)
    | 'x' => pure (baseText n.natAbs 16 false)
    | 'X' => pure (baseText n.natAbs 16 true)
    | _ => intText n.natAbs
  let digits := repeatChar '0' (c.precision.getD 0 - digits.length) ++ digits
  let mark :=
    if !c.alternate then ""
    else if letter == 'o' then "0o" else if letter == 'x' then "0x"
    else if letter == 'X' then "0X" else ""
  return placeNumber c (decide (n < 0)) mark digits

/-- The float a float conversion writes. -/
def realOf (v : Value) : Except Fault Binary64 :=
  match v.number? with
  | some (.int n) => intToFloat n
  | some (.float x) => .ok x
  | _ => .error (.format (.wantsReal v.tyName))

/-- A float conversion. -/
def floatText (c : Conversion) (letter : Char) (x : Binary64) : String :=
  let form : Notation :=
    if letter == 'e' || letter == 'E' then .scientific
    else if letter == 'g' || letter == 'G' then .general
    else .fixed
  placeNumber c x.isNeg "" (realText x form (c.precision.getD 6) c.alternate letter.isUpper)

/-- One character, given as a text or a code point. -/
def characterText (v : Value) : Except Fault String :=
  match v with
  | .str s => if s.length = 1 then .ok s else .error (.format .wantsChar)
  | v =>
    match v.asInt? with
    | some n =>
      if 0 ≤ n && n < 0x110000 then .ok (String.singleton (Char.ofNat n.toNat))
      else .error (.format .charRange)
    | none => .error (.format .wantsChar)

/-- One conversion of a text template; `index` is the place of its letter. -/
def convert (c : Conversion) (letter : Char) (index : Nat) (v : Value) : Except Fault String := do
  match letter with
  | 's' => return placeText c (cutText c (← v.text))
  | 'r' => return placeText c (cutText c (← v.repr))
  | 'a' => return placeText c (cutText c (Text.escapeWide (← v.repr)))
  | 'd' | 'i' | 'u' | 'o' | 'x' | 'X' => integerText c letter (← integerOf letter v)
  | 'e' | 'E' | 'f' | 'F' | 'g' | 'G' => return floatText c letter (← realOf v)
  | 'c' => return placeText c (← characterText v)
  | _ => throw (.format (.unknownConversion letter index))

/-- One conversion of a byte template. Texts are not accepted in it, byte strings are. -/
def convertBytes (c : Conversion) (letter : Char) (index : Nat) (v : Value) :
    Except Fault String := do
  let latin (b : List UInt8) := String.ofList (b.map fun x => Char.ofNat x.toNat)
  match letter with
  | 's' | 'b' =>
    match v with
    | .bytes b => return placeText c (cutText c (latin b))
    | v => throw (.format (.wantsBytes v.tyName))
  | 'c' =>
    match v with
    | .bytes [b] => return placeText c (latin [b])
    | v =>
      match v.asInt? with
      | some n =>
        if 0 ≤ n && n < 256 then return placeText c (latin [UInt8.ofNat n.toNat])
        else throw (.format .byteRange)
      | none => throw (.format .wantsByteChar)
  | 'r' => convert c 'a' index v
  | 'i' => convert c 'd' index v
  | 'e' | 'E' | 'f' | 'F' | 'g' | 'G' =>
    match v.number? with
    | some (.complex _ _) | none => throw (.format (.wantsFloat v.tyName))
    | _ => convert c letter index v
  | _ => convert c letter index v

/-- Write a template. `size` is its whole length, so that places can be told. -/
def writeTemplate (bytes : Bool) (source : Option Value) (size : Nat) :
    Nat → Arguments → String → List Char → Except Fault (String × Arguments)
  | 0, args, out, _ => .ok (out, args)
  | _, args, out, [] => .ok (out, args)
  | fuel + 1, args, out, '%' :: '%' :: r =>
    writeTemplate bytes source size fuel args (out.push '%') r
  | fuel + 1, args, out, '%' :: r => do
    let (args, r) ←
      match r with
      | '(' :: r =>
        match source with
        | none => throw (.format .wantsMapping)
        | some m =>
          match splitKey 0 [] r with
          | none => throw (.format .incompleteKey)
          | some (key, r) =>
            let k : Value :=
              if bytes then .bytes (key.map fun c => UInt8.ofNat c.toNat)
              else .str (String.ofList key)
            let v ← m.index k
            pure (Arguments.single v false, r)
      | r => pure (args, r)
    let (c, r) := readFlags {} r
    let (c, args, r) ← readWidth c args r
    let (c, args, r) ← readPrecision c args r
    let r :=
      match r with
      | 'h' :: r | 'l' :: r | 'L' :: r => r
      | r => r
    match r with
    | [] => throw (.format .incomplete)
    | letter :: r =>
      let (v, args) ← args.next
      let index := size - r.length - 1
      let write (c : Conversion) :=
        if bytes then convertBytes c letter index v else convert c letter index v
      let s ←
        if maxItems < c.width then do
          let _ ← write { c with width := 0 }
          throw .outOfMemory
        else write c
      writeTemplate bytes source size fuel args (out ++ s) r
  | fuel + 1, args, out, ch :: r => writeTemplate bytes source size fuel args (out.push ch) r

/-- A template with its arguments filled in. -/
def fill (bytes : Bool) (template : List Char) (v : Value) : Except Fault String := do
  let args : Arguments :=
    match v with
    | .tuple xs => .items xs
    | v => .single v false
  let source := mapping? bytes v
  let (out, args) ←
    writeTemplate bytes source template.length (template.length + 1) args "" template
  if !args.done && source.isNone then
    throw (.format (.tooManyArguments (if bytes then "bytes" else "string")))
  return out

/-- The percent operator on texts. -/
def percent (template : String) (v : Value) : Except Fault Value := do
  return .str (← fill false template.toList v)

/-- The percent operator on byte strings. -/
def percentBytes (template : List UInt8) (v : Value) : Except Fault Value := do
  let out ← fill true (template.map fun b => Char.ofNat b.toNat) v
  return .bytes (out.toList.map fun c => UInt8.ofNat c.toNat)

end Stackwise.Format
