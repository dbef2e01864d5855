import Stackwise.Text.Normal
import Stackwise.Value.Basic

/-!
# Tokens

The words of a program text. Indentation is made of tokens too: `indent` and `dedent` enclose a
block, and `newline` ends a logical line.
-/
namespace Stackwise

/-- A quoted text as it stands in a program, before escapes are resolved. -/
structure TextLiteral where
  bytes : Bool
  raw : Bool
  formatted : Bool
  body : List Char
  deriving DecidableEq, Repr, Inhabited

/-- A word of a program text. -/
inductive Token where
  | name (s : String)
  | keyword (s : String)
  | number (n : Number)
  | text (t : TextLiteral)
  /-- An operator or a delimiter. -/
  | mark (s : String)
  | newline
  | indent
  | dedent
  | ending
  deriving Inhabited

namespace Token

/-- Words that cannot be names. -/
def keywords : List String :=
  ["False", "None", "True", "and", "as", "assert", "async", "await", "break", "class", "continue",
    "def", "del", "elif", "else", "except", "finally", "for", "from", "global", "if", "import",
    "in", "is", "lambda", "nonlocal", "not", "or", "pass", "raise", "return", "try", "while",
    "with", "yield"]

/-- The keyword that is spelled so, or a name in its normal form. -/
def ofWord (s : String) : Token :=
  if keywords.contains s then .keyword s else .name (Text.normalName s)

/-- Operators and delimiters, longer ones before their beginnings. -/
def marks : List String :=
  ["**=", "//=", ">>=", "<<=", "...", "!=", "%=", "&=", "**", "*=", "+=", "-=", "->", "//", "/=",
    ":=", "<<", "<=", "==", ">=", ">>", "@=", "^=", "|=", "%", "&", "(", ")", "*", "+", ",", "-",
    ".", "/", ":", ";", "<", "=", ">", "@", "[", "]", "^", "\x7b", "|", "\x7d", "~"]

/-- The rest of a text after a given beginning. -/
def after? : List Char → List Char → Option (List Char)
  | [], cs => some cs
  | p :: ps, c :: cs => if p == c then after? ps cs else none
  | _ :: _, [] => none

/-- The operator or delimiter that a text begins with, and the rest. -/
def readMark (cs : List Char) : Option (String × List Char) :=
  marks.findSome? fun m => (after? m.toList cs).map fun r => (m, r)

def isMark (s : String) : Token → Bool
  | .mark t => t == s
  | _ => false

def isKeyword (s : String) : Token → Bool
  | .keyword t => t == s
  | _ => false

end Token
end Stackwise
