import Stackwise.Syntax.Quotation
import Stackwise.Text.Identifier

/-!
# From texts to tokens

A program text is cut into tokens from the left, each as long as possible. At the beginning of a
logical line the indentation is compared with the enclosing blocks; inside brackets, after a
backslash and on blank lines it does not count. Tabs and spaces have to agree under two tab sizes,
so that no program depends on one.
-/
namespace Stackwise.Lexer

/-- Line ends as single newlines, with one at the end of the text if `close`. -/
def lineEnds (close : Bool) : List Char → List Char
  | '\r' :: '\n' :: r => '\n' :: lineEnds close r
  | '\r' :: r => '\n' :: lineEnds close r
  | ['\n'] => ['\n']
  | c :: r => c :: lineEnds close r
  | [] => if close then ['\n'] else []

/-- Widths of an indentation with tabs to multiples of eight and tabs as single columns. -/
structure Columns where
  wide : Nat := 0
  narrow : Nat := 0
  deriving DecidableEq, Repr, Inhabited

/-- What surrounds a place in the text: indentations of the open blocks and open brackets, innermost
first. -/
structure Surround where
  blocks : List Columns := []
  brackets : List Char := []

/-- The most blocks and brackets that may be open. -/
def maxBlocks : Nat := 99
def maxBrackets : Nat := 200

/-- Measure the indentation of a line. After a backslash the measure of the first line counts. -/
def indentation : Columns → Option Columns → List Char → Option (Columns × List Char)
  | c, first, ' ' :: r => indentation ⟨c.wide + 1, c.narrow + 1⟩ first r
  | c, first, '\t' :: r => indentation ⟨(c.wide / 8 + 1) * 8, c.narrow + 1⟩ first r
  | _, first, '\x0c' :: r => indentation {} first r
  | c, first, '\\' :: '\n' :: r =>
    if r.isEmpty then none
    else
      let first :=
        match first with
        | some f => if f.wide = 0 then c else f
        | none => c
      indentation c (some first) r
  | _, _, '\\' :: _ => none
  | c, first, r =>
    match first with
    | some f => some (if f.wide = 0 then c else ⟨f.wide, f.wide⟩, r)
    | none => some (c, r)

/-- The tokens for a new indentation, and the blocks that are open then. -/
def settle (blocks : List Columns) (c : Columns) : Option (List Token × List Columns) :=
  let top := blocks.headD {}
  if c.wide = top.wide then if c.narrow = top.narrow then some ([], blocks) else none
  else if top.wide < c.wide then
    if c.narrow ≤ top.narrow || maxBlocks ≤ blocks.length then none
    else some ([.indent], c :: blocks)
  else
    let kept := blocks.dropWhile fun b => decide (c.wide < b.wide)
    if (kept.headD {}) = c then
      some (List.replicate (blocks.length - kept.length) .dedent, kept)
    else none

/-- The bracket that a closing bracket closes. -/
def openerOf : String → Option Char
  | ")" => some '('
  | "]" => some '['
  | "\x7d" => some '\x7b'
  | _ => none

/-- Keep account of a bracket. -/
def bracketed (brackets : List Char) (m : String) : Option (List Char) :=
  if m == "(" || m == "[" || m == "\x7b" then
    if maxBrackets ≤ brackets.length then none else some (m.toList ++ brackets)
  else
    match openerOf m with
    | some o => if brackets.head? == some o then some brackets.tail else none
    | none => some brackets

/-- The word at the beginning of a text. -/
def readWord (cs : List Char) : Option (String × List Char) :=
  let word := cs.takeWhile Literal.isWordChar
  match word with
  | [] => none
  | c :: r =>
    if Text.nameStart.contains c && r.all Text.nameContinue.contains then
      some (String.ofList word, cs.drop word.length)
    else none

/-- The token at the beginning of a text that begins with no blank. -/
def readToken (cs : List Char) : Option (Token × List Char) :=
  match Literal.readText cs with
  | some r => r.map fun (t, rest) => (.text t, rest)
  | none =>
    match cs with
    | c :: r =>
      if c.isDigit || (c == '.' && (r.head?.map Char.isDigit).getD false) then
        (Literal.readNumber cs).map fun (n, rest) => (.number n, rest)
      else if Literal.isWordChar c then
        (readWord cs).map fun (s, rest) => (Token.ofWord s, rest)
      else (Token.readMark cs).map fun (m, rest) => (.mark m, rest)
    | [] => none

/-- A text cut into tokens, last token first, and the number of blocks that are still open at its
end. The flag tells the beginning of a line. A text that ends after blanks has a last line that is
indented so far; one that ends in a comment closes no block. The first argument bounds the number of
steps. -/
def scan : Nat → Bool → Surround → List Token → List Char → Option (List Token × Nat)
  | 0, _, _, _, _ => none
  | fuel + 1, true, s, acc, cs => do
    let (c, rest) ← indentation {} none cs
    match rest with
    | [] =>
      if cs.contains '\\' then none
      else
        let (ts, blocks) ← settle s.blocks c
        return (ts ++ acc, blocks.length)
    | '\n' :: r => scan fuel true s acc r
    | '#' :: r =>
      match r.dropWhile (· != '\n') with
      | [] => return (acc, s.blocks.length)
      | _ :: r => scan fuel true s acc r
    | r =>
      let (ts, blocks) ← settle s.blocks c
      scan fuel false { s with blocks } (ts ++ acc) r
  | fuel + 1, false, s, acc, cs =>
    match cs with
    | [] => if s.brackets.isEmpty then some (acc, s.blocks.length) else none
    | ' ' :: r | '\t' :: r | '\x0c' :: r => scan fuel false s acc r
    | '#' :: r => scan fuel false s acc (r.dropWhile (· != '\n'))
    | '\n' :: r =>
      if s.brackets.isEmpty then scan fuel true s (.newline :: acc) r
      else scan fuel false s acc r
    | '\\' :: '\n' :: r => if r.isEmpty then none else scan fuel false s acc r
    | cs => do
      let (t, r) ← readToken cs
      match t with
      | .mark m =>
        let brackets ← bracketed s.brackets m
        scan fuel false { s with brackets } (t :: acc) r
      | t => scan fuel false s (t :: acc) r

/-- The tokens of a text, last first. -/
def scanText (close : Bool) (text : List Char) : Option (List Token × Nat) :=
  if text.contains '\x00' then none
  else
    let cs := lineEnds close text
    scan (2 * cs.length + 2) true {} [] cs

/-- The tokens of a program that is a sequence of statements. -/
def statements (text : List Char) : Option (List Token) := do
  let (ts, _) ← scanText true text
  return (.ending :: ts).reverse

/-- The tokens of a single expression. -/
def expression (text : List Char) : Option (List Token) := do
  let (ts, _) ← scanText false text
  return (.ending :: ts).reverse

/-- The tokens of one statement entered interactively. The end of the text closes its line and its
blocks, and after a block counts as the blank line that has to follow it. -/
def interactive (text : List Char) : Option (List Token) := do
  let (ts, blocks) ← scanText false text
  if ts.isEmpty then return [.ending]
  else
    let closed := List.replicate blocks Token.dedent ++ .newline :: ts
    return (.ending :: (if blocks = 0 then closed else .newline :: closed)).reverse

end Stackwise.Lexer
