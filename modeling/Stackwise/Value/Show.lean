import Stackwise.Binary64.Decimal
import Stackwise.Fault.Basic
import Stackwise.Text.Quoted

/-!
# Texts of values

`Value.repr` is the text that shows what a value is, `Value.text` the text that `print` writes. They
differ for texts and errors only. An integer of more than 4300 digits has no text.
-/
namespace Stackwise

/-- Integers of more decimal digits than this are not written out. -/
def maxIntDigits : Nat := 4300

/-- The first natural number that is too long to be written out. -/
def intTextBound : Nat := Nat.pow 10 maxIntDigits

/-- A whole number in decimal, of any length. -/
def signedText (n : Int) : String := (if n < 0 then "-" else "") ++ decimalText n.natAbs

/-- The decimal text of an integer. -/
def intText (n : Int) : Except Fault String :=
  if intTextBound ≤ n.natAbs then .error .tooManyDigits
  else .ok (signedText n)

/-- The text of a complex number: the imaginary part alone if the real part is a positive zero. -/
def complexText (re im : Binary64) : String :=
  let signed (x : Binary64) := (if x.isNeg then "-" else "") ++ x.magnitudeText ""
  if re.isZero && !re.isNeg then signed im ++ "j"
  else "(" ++ signed re ++ (if im.isNeg then "" else "+") ++ signed im ++ "j)"

/-- A stand-in for the place of an object in memory, twelve hexadecimal digits wide. -/
def addressText (ref : Nat) : String := "0x7f" ++ Text.hexText (0x5000000000 + 16 * ref) 10

/-- The name of a class with the place it comes from. -/
def Ty.fullName : Ty → String
  | .quitter => "_sitebuiltins.Quitter"
  | t => t.name

/-- The text of a class. -/
def Ty.repr (t : Ty) : String := "<class '" ++ t.fullName ++ "'>"

namespace Value

/-- The file that an error of a system call is about, and a second one. The third argument of some
of these errors may be a count instead. -/
def filesOf (c : ErrorClass) : List Value → Option (Value × Option Value)
  | [_, _, file] | [_, _, file, _] => if isFile file then some (file, Option.none) else Option.none
  | [_, _, file, _, second] =>
    if isFile file then some (file, if isThere second then some second else Option.none)
    else Option.none
  | _ => Option.none
where
  isThere : Value → Bool
    | .none => false
    | _ => true
  isFile (v : Value) : Bool :=
    c.isBelow .systemCallError && isThere v && !(c == .blockingTransferError && v.number?.isSome)

/-- The arguments that an error is shown with: files are kept apart. -/
def errorArguments (c : ErrorClass) (args : List Value) : List Value :=
  if (filesOf c args).isSome then args.take 2 else args

/-- The part of a path after its last separator. -/
def lastPart (s : String) : String :=
  String.ofList (s.toList.reverse.takeWhile (· != '/')).reverse

/-- The place in a program that the second argument of an error names, in words. -/
def locationText (v : Value) : String :=
  match v.items?.getD [] with
  | file :: line :: _ =>
    let part :=
      match line with
      | .int n => some ("line " ++ (if fitsLong n then signedText n else "-1"))
      | _ => Option.none
    match file, part with
    | .str s, some p => " (" ++ lastPart s ++ ", " ++ p ++ ")"
    | .str s, Option.none => " (" ++ lastPart s ++ ")"
    | _, some p => " (" ++ p ++ ")"
    | _, Option.none => ""
  | _ => ""
where
  fitsLong (n : Int) : Bool := decide (-Int.pow 2 63 ≤ n) && decide (n < Int.pow 2 63)

/-- The item of a text or a byte string that an error is about, if it is exactly one. -/
def singled? (items : List Nat) (first stop : Int) : Option Nat :=
  if first < items.length && stop == first + 1 then items[first.toNat]? else Option.none

/-- The text of an error in the characters from one place up to another. -/
def characterText (what : String) (s : String) (first stop : Int) (reason : String) : String :=
  match singled? (s.toList.map Char.toNat) first stop with
  | some n =>
    what ++ " character '" ++ Text.numericEscape n ++ "' in position " ++ signedText first ++ ": "
      ++ reason
  | Option.none =>
    what ++ " characters in position " ++ signedText first ++ "-" ++ signedText (stop - 1) ++ ": "
      ++ reason

/-- The text of an error in the bytes from one place up to another. -/
def byteText (what : String) (b : List UInt8) (first stop : Int) (reason : String) : String :=
  match singled? (b.map UInt8.toNat) first stop with
  | some n =>
    what ++ " byte 0x" ++ Text.hexText n 2 ++ " in position " ++ signedText first ++ ": " ++ reason
  | Option.none =>
    what ++ " bytes in position " ++ signedText first ++ "-" ++ signedText (stop - 1) ++ ": "
      ++ reason

/-- The text of an error in a text or its encoding, from well-formed arguments. -/
def encodingText? (c : ErrorClass) (args : List Value) : Option String :=
  match c, args with
  | .unicodeDecodeError, [.str codec, .bytes b, first, stop, .str reason] => do
    return byteText ("'" ++ codec ++ "' codec can't decode") b (← first.asInt?)
      (← stop.asInt?) reason
  | .unicodeEncodeError, [.str codec, .str s, first, stop, .str reason] => do
    return characterText ("'" ++ codec ++ "' codec can't encode") s (← first.asInt?)
      (← stop.asInt?) reason
  | .unicodeTranslateError, [.str s, first, stop, .str reason] => do
    return characterText "can't translate" s (← first.asInt?) (← stop.asInt?) reason
  | _, _ => Option.none

/-- The number of errors in a group, in words. -/
def groupText (v : Value) : String :=
  let n := (v.items?.getD []).length
  " (" ++ decimalText n ++ (if n = 1 then " sub-exception)" else " sub-exceptions)")

mutual
/-- The text that shows what a value is. -/
def repr : Value → Except Fault String
  | .none => .ok "None"
  | .ellipsis => .ok "Ellipsis"
  | .notImplemented => .ok "NotImplemented"
  | .bool b => .ok (if b then "True" else "False")
  | .int n => intText n
  | .float x => .ok x.toText
  | .complex re im => .ok (complexText re im)
  | .str s => .ok (Text.quoted s)
  | .bytes b => .ok (Text.quotedBytes b)
  | .list xs => do return "[" ++ ", ".intercalate (← reprAll xs) ++ "]"
  | .tuple xs => do
    match ← reprAll xs with
    | [one] => return "(" ++ one ++ ",)"
    | parts => return "(" ++ ", ".intercalate parts ++ ")"
  | .set xs => do
    match ← reprAll xs with
    | [] => return "set()"
    | parts => return "\x7b" ++ ", ".intercalate parts ++ "\x7d"
  | .frozenset xs => do
    match ← reprAll xs with
    | [] => return "frozenset()"
    | parts => return "frozenset(\x7b" ++ ", ".intercalate parts ++ "\x7d)"
  | .dict es => do return "\x7b" ++ ", ".intercalate (← reprEntries es) ++ "\x7d"
  | .range a b c => do
    let ends := (← intText a) ++ ", " ++ (← intText b)
    let step ← intText c
    return "range(" ++ ends ++ (if c == 1 then "" else ", " ++ step) ++ ")"
  | .slice a b c => do
    return "slice(" ++ (← repr a) ++ ", " ++ (← repr b) ++ ", " ++ (← repr c) ++ ")"
  | .type t => .ok t.repr
  | .union ts => .ok (" | ".intercalate (ts.map fun t => if t == .noneType then "None" else t.name))
  | .alias t xs => do
    match ← reprParameters xs with
    | [] => return t.name ++ "[()]"
    | parts => return t.name ++ "[" ++ ", ".intercalate parts ++ "]"
  | .function f => .ok ("<built-in function " ++ f.name ++ ">")
  | .quitter n => .ok ("Use " ++ n ++ "() or Ctrl-D (i.e. EOF) to exit")
  | .error _ c args => do
    let parts ← reprAll args
    let shown := if (filesOf c args).isSome then parts.take 2 else parts
    return c.name ++ "(" ++ ", ".intercalate shown ++ ")"
  | .iterator ref kind => .ok ("<" ++ kind.name ++ " object at " ++ addressText ref ++ ">")
/-- The texts of several values. -/
def reprAll : List Value → Except Fault (List String)
  | [] => .ok []
  | x :: xs => do
    let s ← repr x
    return s :: (← reprAll xs)
/-- The texts of parameters in brackets: classes and functions go by their names. -/
def reprParameters : List Value → Except Fault (List String)
  | [] => .ok []
  | x :: xs => do
    let s ←
      match x with
      | .ellipsis => .ok "..."
      | .type t => .ok t.fullName
      | .function f => .ok f.name
      | _ => repr x
    return s :: (← reprParameters xs)
/-- The texts of dictionary entries. -/
def reprEntries : List (Value × Value) → Except Fault (List String)
  | [] => .ok []
  | (k, v) :: es => do
    let a ← repr k
    let b ← repr v
    return (a ++ ": " ++ b) :: (← reprEntries es)
end

/-- The files of an error of a system call, in words. -/
def filesText : Option (Value × Option Value) → Except Fault String
  | some (file, some second) => do return ": " ++ (← file.repr) ++ " -> " ++ (← second.repr)
  | some (file, Option.none) => do return ": " ++ (← file.repr)
  | Option.none => .ok ""

/-- The text that `print` writes. A text is its own; an error shows its arguments, and one for a
missing key shows that key as it is looked up. Some classes of errors have texts of their own: those
of system calls show their number and files, those of programs a place, groups their size. -/
def text : Value → Except Fault String
  | .str s => .ok s
  | .error _ c [] => .ok (if c.isBelow .syntaxError then "None" else "")
  | .error _ .keyError [k] => k.repr
  | .error _ _ [v] => v.text
  | .error _ c (x :: y :: rest) =>
    if c.isBelow .systemCallError && decide (rest.length ≤ 3) then do
      let head := "[Errno " ++ (← x.text) ++ "] " ++ (← y.text)
      return head ++ (← filesText (filesOf c (x :: y :: rest)))
    else if c.isBelow .syntaxError then do
      return (← x.text) ++ (if rest.isEmpty then locationText y else "")
    else if c.isBelow .baseExceptionGroup then do return (← x.text) ++ groupText y
    else
      match encodingText? c (x :: y :: rest) with
      | some s => .ok s
      | Option.none => (Value.tuple (x :: y :: rest)).repr
  | v => v.repr

end Value
end Stackwise
