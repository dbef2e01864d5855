import Stackwise.Syntax.Lexer
import Stackwise.Syntax.Tree

/-!
# Parsers

A parser takes tokens from the front of a list, or fails. Failing gives the tokens back, so a choice
between two parsers is `p <|> q`.

The grammar is recursive through a few nonterminals only. Every rule is written against a `Level`,
which stands for the nonterminals one level deeper, and `fuel` bounds its repetitions; `Syntax.Read`
closes the recursion.
-/
namespace Stackwise.Grammar

/-- A parser of tokens. -/
abbrev Parser := StateT (List Token) Option

/-- The parts of the grammar that recursion goes through. -/
inductive Nonterminal where
  | expression
  | disjunction
  | inversion
  | factor
  | primary
  | starExpressions
  | block
  | branch
  | pattern
  deriving DecidableEq, Repr

/-- The nonterminals at some depth, and a bound for repetitions. -/
structure Level where
  fuel : Nat
  parse : Nonterminal → Parser Tree

/-- The next token, which stays. -/
def peek : Parser Token := do
  match ← get with
  | t :: _ => return t
  | [] => failure

/-- Whether the next token is a given operator or delimiter. -/
def seesMark (s : String) : Parser Bool := do return (← peek).isMark s

/-- Whether the next token is a given keyword. -/
def seesKeyword (s : String) : Parser Bool := do return (← peek).isKeyword s

/-- Drop the next token. -/
def skip : Parser Unit := modify List.tail

/-- A given operator or delimiter. -/
def mark (s : String) : Parser Unit := do if ← seesMark s then skip else failure

/-- A given operator or delimiter, if it is next. -/
def markIf (s : String) : Parser Bool := do
  if ← seesMark s then
    skip
    return true
  else return false

/-- A given keyword. -/
def keyword (s : String) : Parser Unit := do if ← seesKeyword s then skip else failure

/-- A given keyword, if it is next. -/
def keywordIf (s : String) : Parser Bool := do
  if ← seesKeyword s then
    skip
    return true
  else return false

/-- A name. -/
def name : Parser String := do
  match ← peek with
  | .name s =>
    skip
    return s
  | _ => failure

/-- The end of a logical line. -/
def newline : Parser Unit := do
  match ← peek with
  | .newline => skip
  | _ => failure

/-- Whether the next tokens are a name and an operator. -/
def seesNameThen (m : String) : Parser Bool := do
  match ← get with
  | .name _ :: t :: _ => return t.isMark m
  | _ => return false

/-- As many as possible. -/
def many {α : Type} (p : Parser α) : Nat → Parser (List α)
  | 0 => pure []
  | fuel + 1 => fun ts =>
    match p ts with
    | none => some ([], ts)
    | some (a, rest) =>
      match many p fuel rest with
      | none => none
      | some (as, rest) => some (a :: as, rest)

/-- What follows the first item of a list with separators, and whether a separator ends it. -/
def moreItems {α : Type} (sep : String) (p : Parser α) : Nat → Parser (List α × Bool)
  | 0 => pure ([], false)
  | fuel + 1 => do
    if ← markIf sep then
      match ← optional p with
      | some a =>
        let (as, trailing) ← moreItems sep p fuel
        return (a :: as, trailing)
      | none => return ([], true)
    else return ([], false)

/-- One or more items with separators, and whether a separator ends the list. -/
def items {α : Type} (sep : String) (p : Parser α) (fuel : Nat) : Parser (List α × Bool) := do
  let a ← p
  let (as, trailing) ← moreItems sep p fuel
  return (a :: as, trailing)

/-- One or more items between separators. -/
def separated {α : Type} (sep : String) (p : Parser α) (fuel : Nat) : Parser (List α) := do
  let (as, trailing) ← items sep p fuel
  if trailing then failure else return as

/-- A node of a class that has no constructor. -/
def node (cls : String) (fields : List (String × Tree)) : Tree := .other cls fields

def load : Tree := .context .load

def store : Tree := .context .store

/-- A name that is read. -/
def nameNode (s : String) : Tree := .name (.ofText s) load

def starredNode (value : Tree) : Tree := node "Starred" [("value", value), ("ctx", load)]

def attributeNode (value : Tree) (attr : String) : Tree :=
  node "Attribute" [("value", value), ("attr", .ofText attr), ("ctx", load)]

/-- Several expressions are a tuple, and so is one with a comma after it. -/
def tupleOf (elts : List Tree) (trailing : Bool) : Tree :=
  match elts, trailing with
  | [e], false => e
  | es, _ => .tuple (.list es) load

end Stackwise.Grammar
