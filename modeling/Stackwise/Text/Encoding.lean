import Stackwise.Fault.Basic

/-!
# Texts as bytes

Three encodings of texts. A byte sequence or a character that has no counterpart is a fault, or is
left out, or replaced, as the handler says.
-/
namespace Stackwise.Text

inductive Encoding where
  | utf8 | ascii | latin1
  deriving DecidableEq, Repr

namespace Encoding

/-- The name of an encoding in messages. -/
def name : Encoding → String
  | .utf8 => "utf-8"
  | .ascii => "ascii"
  | .latin1 => "latin-1"

/-- The number of characters that fit one byte. -/
def limit : Encoding → Nat
  | .utf8 => 128
  | .ascii => 128
  | .latin1 => 256

/-- Names of encodings are compared without case, with hyphens for underscores and blanks. -/
def ofName? (s : String) : Option Encoding :=
  let s := String.ofList (s.toList.map fun c => if c == '_' || c == ' ' then '-' else c.toLower)
  if ["utf-8", "utf8", "u8", "utf", "cp65001"].contains s then some .utf8
  else if ["ascii", "us-ascii", "646"].contains s then some .ascii
  else if ["latin-1", "latin1", "latin", "l1", "iso-8859-1", "iso8859-1", "8859",
      "cp819"].contains s then
    some .latin1
  else none

end Encoding

/-- What to do about what cannot be converted. -/
inductive Handler where
  | strict | ignore | replace
  | other (name : String)
  deriving DecidableEq, Repr

def Handler.ofName : String → Handler
  | "strict" => .strict
  | "ignore" => .ignore
  | "replace" => .replace
  | s => .other s

/-- The number of bytes that follow a leading byte, and the least and greatest first of them. -/
def leadByte (b : UInt8) : Option (Nat × UInt8 × UInt8) :=
  if b < 0xc2 then none
  else if b < 0xe0 then some (1, 0x80, 0xbf)
  else if b < 0xf0 then
    some (2, if b == 0xe0 then 0xa0 else 0x80, if b == 0xed then 0x9f else 0xbf)
  else if b < 0xf5 then
    some (3, if b == 0xf0 then 0x90 else 0x80, if b == 0xf4 then 0x8f else 0xbf)
  else none

/-- The code point after `n` more bytes, or the number of bytes that were good and what is wrong. -/
def follow (code count : Nat) (low high : UInt8) :
    Nat → List UInt8 → Except (Nat × String) (Nat × List UInt8)
  | 0, r => .ok (code, r)
  | _ + 1, [] => .error (count, "unexpected end of data")
  | n + 1, b :: r =>
    if low ≤ b && b ≤ high then follow (code * 64 + b.toNat % 64) (count + 1) 0x80 0xbf n r
    else .error (count, "invalid continuation byte")

/-- The first character of a byte sequence that begins with `b`, or the number of bytes that make no
character and why. -/
def decodeOne (e : Encoding) (b : UInt8) (rest : List UInt8) :
    Except (Nat × String) (Nat × List UInt8) :=
  if b.toNat < e.limit then .ok (b.toNat, rest)
  else
    match e with
    | .utf8 =>
      match leadByte b with
      | none => .error (1, "invalid start byte")
      | some (n, low, high) =>
        let bits := if n = 1 then 32 else if n = 2 then 16 else 8
        follow (b.toNat % bits) 1 low high n rest
    | _ => .error (1, "ordinal not in range(128)")

/-- The text of a byte sequence. The first argument bounds its length. -/
def decodeFrom (e : Encoding) (h : Handler) : Nat → Nat → List UInt8 → Except Fault (List Char)
  | 0, _, _ => .ok []
  | _, _, [] => .ok []
  | fuel + 1, pos, b :: r =>
    match decodeOne e b r with
    | .ok (code, rest) => do
      let cs ← decodeFrom e h fuel (pos + (r.length + 1 - rest.length)) rest
      return Char.ofNat code :: cs
    | .error (n, reason) => do
      let rest := r.drop (n - 1)
      match h with
      | .strict => throw (.call (.undecodable e.name pos (pos + n - 1) b reason))
      | .ignore => decodeFrom e h fuel (pos + n) rest
      | .replace => return Char.ofNat 0xfffd :: (← decodeFrom e h fuel (pos + n) rest)
      | .other s => throw (.call (.unknownHandler s))

/-- The text of a byte sequence. -/
def decode (e : Encoding) (h : Handler) (bs : List UInt8) : Except Fault String := do
  return String.ofList (← decodeFrom e h (bs.length + 1) 0 bs)

/-- The bytes of a text in an encoding of one byte for each character. -/
def encodeFrom (e : Encoding) (h : Handler) : Nat → List Char → Except Fault (List UInt8)
  | _, [] => .ok []
  | pos, c :: r =>
    if c.toNat < e.limit then do return UInt8.ofNat c.toNat :: (← encodeFrom e h (pos + 1) r)
    else
      match h with
      | .strict =>
        let n := (r.takeWhile fun d => e.limit ≤ d.toNat).length
        .error (.call (.unencodable e.name pos (pos + n) c e.limit))
      | .ignore => encodeFrom e h (pos + 1) r
      | .replace => do return 63 :: (← encodeFrom e h (pos + 1) r)
      | .other s => .error (.call (.unknownHandler s))

/-- The bytes of a text. -/
def encode (e : Encoding) (h : Handler) (s : String) : Except Fault (List UInt8) :=
  match e with
  | .utf8 => .ok s.toUTF8.toList
  | e => encodeFrom e h 0 s.toList

end Stackwise.Text
