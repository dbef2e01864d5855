import Stackwise.Syntax.Number
import Stackwise.Syntax.Token

/-!
# Quoted texts in programs

Finding the end of a quoted text, and resolving the escapes in it.
-/
namespace Stackwise
namespace Literal

open Text

/-- The body of a quoted text up to its closing quote, and the rest. A backslash keeps the next
character from closing the text; only a text in triple quotes goes over lines by itself. -/
def readBody (quote : Char) (triple : Bool) :
    List Char → List Char → Option (List Char × List Char)
  | _, [] => none
  | acc, '\\' :: c :: r => readBody quote triple (c :: '\\' :: acc) r
  | acc, c :: r =>
    if c == quote then
      if !triple then some (acc.reverse, r)
      else if r.take 2 == [quote, quote] then some (acc.reverse, r.drop 2)
      else readBody quote triple (c :: acc) r
    else if c == '\n' && !triple then none
    else readBody quote triple (c :: acc) r

/-- A quoted text from its first quote on. -/
def readQuoted (cs : List Char) : Option (List Char × List Char) :=
  match cs with
  | a :: b :: c :: r =>
    if a == b && b == c then readBody a true [] r
    else if a == b then some ([], c :: r)
    else readBody a false [] (b :: c :: r)
  | [a, b] => if a == b then some ([], []) else none
  | _ => none

/-- The letters before a quote, if they are a combination that has a meaning. -/
def letterKind (letters : List Char) : Option (Bool × Bool × Bool) :=
  match letters.map Char.toLower with
  | [] => some (false, false, false)
  | ['u'] => some (false, false, false)
  | ['b'] => some (true, false, false)
  | ['r'] => some (false, true, false)
  | ['f'] => some (false, false, true)
  | ['b', 'r'] => some (true, true, false)
  | ['r', 'b'] => some (true, true, false)
  | ['f', 'r'] => some (false, true, true)
  | ['r', 'f'] => some (false, true, true)
  | _ => none

/-- A quoted text with the letters before it; `none` if a text does not begin with one, `some none`
if it is not closed. -/
def readText (cs : List Char) : Option (Option (TextLiteral × List Char)) :=
  let letters := (cs.take 2).takeWhile Char.isAlpha
  let rest := cs.drop letters.length
  match rest with
  | q :: _ =>
    if q == '\'' || q == '"' then
      (letterKind letters).map fun (bytes, raw, formatted) =>
        (readQuoted rest).map fun (body, r) => (⟨bytes, raw, formatted, body⟩, r)
    else none
  | [] => none

def isHex (c : Char) : Bool := digitOf c < 16

def isOctal (c : Char) : Bool := digitOf c < 8

/-- The character of a code point that an escape gives. Texts here are made of characters, so half
of a surrogate pair, which is none, gives the character of number zero. -/
def pointOf? (digits : List Char) : Option Char :=
  if digits.all isHex && natOf 16 digits < 0x110000 then some (Char.ofNat (natOf 16 digits))
  else none

/-- Escapes of one letter. -/
def simpleEscape? : Char → Option Char
  | '\\' => some '\\'
  | '\'' => some '\''
  | '"' => some '"'
  | 'a' => some '\x07'
  | 'b' => some '\x08'
  | 'f' => some '\x0c'
  | 'n' => some '\n'
  | 'r' => some '\r'
  | 't' => some '\t'
  | 'v' => some '\x0b'
  | _ => none

/-- Up to three octal digits. -/
def readOctal (cs : List Char) : List Char := (cs.take 3).takeWhile isOctal

/-- Resolve escapes; `wide` also has those for code points of four and eight digits. An escape that
nobody knows stands for itself. Escapes that name a character, as in `\N{DIGIT ONE}`, are left out:
the names are not part of this library, and a text with such an escape is refused. The first
argument bounds the length. -/
def unescapeWithin (wide : Bool) : Nat → List Char → Option (List Char)
  | 0, _ => some []
  | _, [] => some []
  | fuel + 1, '\\' :: c :: r =>
    let digits (n : Nat) : Option (List Char) := do
      if r.length < n then none
      else
        let p ← pointOf? (r.take n)
        return p :: (← unescapeWithin wide fuel (r.drop n))
    if c == '\n' then unescapeWithin wide fuel r
    else if c == 'x' then digits 2
    else if wide && c == 'u' then digits 4
    else if wide && c == 'U' then digits 8
    else if wide && c == 'N' then none
    else if isOctal c then
      let ds := readOctal (c :: r)
      let n := natOf 8 ds
      (unescapeWithin wide fuel ((c :: r).drop ds.length)).map
        (Char.ofNat (if wide then n else n % 256) :: ·)
    else
      match simpleEscape? c with
      | some d => (unescapeWithin wide fuel r).map (d :: ·)
      | none => (unescapeWithin wide fuel r).map (fun s => '\\' :: c :: s)
  | fuel + 1, c :: r => (unescapeWithin wide fuel r).map (c :: ·)

/-- Resolve the escapes of a text. -/
def unescape (wide : Bool) (cs : List Char) : Option (List Char) :=
  if cs.contains '\\' then unescapeWithin wide (cs.length + 1) cs else some cs

end Literal

/-- The characters of a text that is not formatted. Byte strings are written in ASCII. -/
def TextLiteral.characters? (t : TextLiteral) : Option (List Char) :=
  if t.bytes && t.body.any (fun c => 128 ≤ c.toNat) then none
  else if t.raw then some t.body
  else Literal.unescape (!t.bytes) t.body

end Stackwise
