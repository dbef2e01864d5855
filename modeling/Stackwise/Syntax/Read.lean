import Stackwise.Fault.Basic
import Stackwise.Syntax.Grammar.Statement

/-!
# Reading programs

`Tree.read` makes the tree of a program text, in one of three modes. A text that is not a program is
the fault `invalidProgram`.
-/
namespace Stackwise
namespace Grammar

/-- Every rule, over the nonterminals one level deeper. -/
def rule (g : Level) : Nonterminal → Parser Tree
  | .expression => expression g
  | .disjunction => disjunction g
  | .inversion => inversion g
  | .factor => factor g
  | .primary => primary g
  | .starExpressions => starExpressions g
  | .block => block g
  | .branch => branch g
  | .pattern => pattern g

/-- The nonterminals, to a bounded depth. -/
def parse : Nat → Nonterminal → Parser Tree
  | 0, _ => failure
  | depth + 1, n => rule ⟨depth + 1, parse depth⟩ n

/-- Rules that are deep enough for a text of a given length: every level of nesting takes at least
one of its characters, and few rules apply at one place. -/
def forLength (n : Nat) : Level := ⟨8 * n + 64, parse (8 * n + 64)⟩

/-- The end of the tokens. -/
def ending : Parser Unit := do
  match ← peek with
  | .ending => pure ()
  | _ => failure

end Grammar

/-- How a text is to be read. -/
inductive Mode where
  /-- A sequence of statements. -/
  | program
  /-- One statement entered interactively. -/
  | single
  /-- One expression. -/
  | expression
  deriving DecidableEq, Repr

/-- Whether a token is left over from blank lines and closed blocks. -/
def Token.isBlank : Token → Bool
  | .newline | .dedent | .ending => true
  | _ => false

/-- Whether a token belongs to no statement; blanks at the end of a text may make up an indentation.
-/
def Token.isLayout : Token → Bool
  | .indent => true
  | t => t.isBlank

namespace Tree

/-- The tree of a text, if it is a program. -/
def read? (mode : Mode) (text : String) : Option Tree :=
  let cs := text.toList
  let g := Grammar.forLength cs.length
  match mode with
  | .program => do
    let tokens ← Lexer.statements cs
    let (body, rest) ← (Grammar.statements g).run tokens
    match rest with
    | [.ending] => return .module (.list body)
    | _ => none
  | .single => do
    let tokens ← Lexer.interactive cs
    let (body, rest) ← (Grammar.interactiveStatement g).run tokens
    if rest.all Token.isLayout then return .interactive (.list body) else none
  | .expression => do
    let tokens ← Lexer.expression cs
    let (body, rest) ← (Grammar.plainExpressions g).run tokens
    if rest.all Token.isBlank then return .other "Expression" [("body", body)] else none

/-- The tree of a text. -/
def read (mode : Mode) (text : String) : Except Fault Tree :=
  match read? mode text with
  | some t => .ok t
  | none => .error .invalidProgram

end Tree
end Stackwise
