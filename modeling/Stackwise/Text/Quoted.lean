import Stackwise.Text.Printable

/-!
# Quoted texts

How texts and byte strings are shown: between single quotes, or between double quotes when that
saves an escape, with everything that cannot be printed written as an escape sequence.
-/
namespace Stackwise.Text

/-- Lower-case hexadecimal digits of `n`, filled with zeros to `width`. -/
def hexText (n width : Nat) : String :=
  let ds := Nat.toDigits 16 n
  String.ofList (List.replicate (width - ds.length) '0' ++ ds)

/-- The quote for a text: double if it holds single quotes and no double ones. -/
def quoteFor (cs : List Char) : Char :=
  if cs.contains '\'' && !cs.contains '"' then '"' else '\''

/-- The escape of a code point by its number. -/
def numericEscape (n : Nat) : String :=
  if n < 0x100 then "\\x" ++ hexText n 2
  else if n < 0x10000 then "\\u" ++ hexText n 4
  else "\\U" ++ hexText n 8

/-- One character of a quoted text; `shown` says which characters stand for themselves. -/
def quoteChar (shown : Char → Bool) (quote c : Char) : String :=
  if c == quote || c == '\\' then String.ofList ['\\', c]
  else if c == '\n' then "\\n"
  else if c == '\r' then "\\r"
  else if c == '\t' then "\\t"
  else if shown c then String.singleton c
  else numericEscape c.toNat

/-- A text between quotes. -/
def quoteWith (shown : Char → Bool) (s : String) : String :=
  let cs := s.toList
  let q := quoteFor cs
  let body := cs.foldl (fun acc c => acc ++ quoteChar shown q c) ""
  String.singleton q ++ body ++ String.singleton q

/-- Characters of the ASCII range that can be printed. -/
def isPlain (c : Char) : Bool := decide (0x20 ≤ c.toNat) && decide (c.toNat < 0x7f)

/-- A text between quotes, with all printable characters as they are. -/
def quoted (s : String) : String :=
  quoteWith (fun c => if c.toNat < 0x7f then isPlain c else printable.contains c) s

/-- A text between quotes, in ASCII only. -/
def quotedAscii (s : String) : String := quoteWith isPlain s

/-- A byte string between quotes. -/
def quotedBytes (bs : List UInt8) : String :=
  "b" ++ quotedAscii (String.ofList (bs.map fun b => Char.ofNat b.toNat))

/-- A text that is already quoted, with everything that is not ASCII escaped. -/
def escapeWide (s : String) : String :=
  s.toList.foldl (fun acc c =>
    acc ++ (if c.toNat < 0x80 then String.singleton c else numericEscape c.toNat)) ""

end Stackwise.Text
