import Stackwise.Syntax.Grammar.Pattern

/-!
# Statements

Simple statements share a line, with semicolons between them; compound statements have blocks, on
the same line or indented below.
-/
namespace Stackwise.Grammar

/-- Operators of assignments that compute. -/
def assignmentOperators : List (String × Tree) :=
  [("+=", .binaryOperator .add), ("-=", .binaryOperator .sub), ("*=", .binaryOperator .mult),
    ("@=", node "MatMult" []), ("/=", .binaryOperator .div), ("%=", .binaryOperator .mod),
    ("&=", .binaryOperator .bitAnd), ("|=", .binaryOperator .bitOr),
    ("^=", .binaryOperator .bitXor), ("<<=", .binaryOperator .lshift),
    (">>=", .binaryOperator .rshift), ("**=", .binaryOperator .pow),
    ("//=", .binaryOperator .floorDiv)]

section
variable (g : Level)

/-! ### Simple statements -/

/-- A chain of assignments after the first mark of one; the last value is what is assigned. -/
def assignmentChain : Nat → Tree → List Tree → Parser Tree
  | 0, _, _ => failure
  | fuel + 1, last, targets => do
    let target ← assigned last
    let next ← valueExpression g
    if ← markIf "=" then assignmentChain fuel next (target :: targets)
    else return .assign (.list (target :: targets).reverse) next

/-- An assignment with an annotation, after its target. -/
def annotatedAssignment (target : Tree) (simple : Bool) : Parser Tree := do
  let target ← assignedSingle target
  mark ":"
  let note ← g.parse .expression
  let value ← if ← markIf "=" then valueExpression g else pure .absent
  return node "AnnAssign"
    [("target", target), ("annotation", note), ("value", value),
      ("simple", .leaf (.int (if simple then 1 else 0)))]

/-- An expression, or an assignment that begins with one. -/
def expressionStatement : Parser Tree := do
  let simple ← seesNameThen ":"
  let e ← valueExpression g
  if ← markIf "=" then assignmentChain g g.fuel e []
  else if ← seesMark ":" then annotatedAssignment g e simple
  else
    match ← operatorIf assignmentOperators with
    | some op =>
      let target ← assignedSingle e
      let value ← valueExpression g
      return .augAssign target op value
    | none => return .expr e

/-- Names between commas. -/
def nameList : Parser Tree := do return .list ((← separated "," name g.fuel).map .ofText)

/-- A name with dots. -/
def dottedName : Parser String := do return ".".intercalate (← separated "." name g.fuel)

/-- Another name for what is imported. -/
def aliasPart (what : String) : Parser Tree := do
  let asname ← if ← keywordIf "as" then pure (.ofText (← name)) else pure .absent
  return node "alias" [("name", .ofText what), ("asname", asname)]

def importStatement : Parser Tree := do
  keyword "import"
  let names ← separated "," (do aliasPart (← dottedName g)) g.fuel
  return node "Import" [("names", .list names)]

/-- The names of an import from a module. -/
def importedNames : Parser (List Tree) := do
  let one : Parser Tree := do aliasPart (← name)
  if ← markIf "*" then
    return [node "alias" [("name", .ofText "*"), ("asname", .absent)]]
  else if ← markIf "(" then
    let (names, _) ← items "," one g.fuel
    mark ")"
    return names
  else separated "," one g.fuel

def importFromStatement : Parser Tree := do
  keyword "from"
  let dots ← many (do
    if ← markIf "." then return 1
    else
      mark "..."
      return 3) g.fuel
  let level : Nat := dots.foldl (· + ·) 0
  let module ←
    if 0 < level && (← seesKeyword "import") then pure .absent
    else pure (.ofText (← dottedName g))
  keyword "import"
  let names ← importedNames g
  return node "ImportFrom"
    [("module", module), ("names", .list names), ("level", .leaf (.int level))]

def raiseStatement : Parser Tree := do
  keyword "raise"
  match ← optional (g.parse .expression) with
  | none => return node "Raise" [("exc", .absent), ("cause", .absent)]
  | some e =>
    let cause ← if ← keywordIf "from" then g.parse .expression else pure .absent
    return node "Raise" [("exc", e), ("cause", cause)]

def assertStatement : Parser Tree := do
  keyword "assert"
  let test ← g.parse .expression
  let message ← if ← markIf "," then g.parse .expression else pure .absent
  return node "Assert" [("test", test), ("msg", message)]

def deleteStatement : Parser Tree := do
  keyword "del"
  let (ts, _) ← items "," (do deleted (← g.parse .primary)) g.fuel
  return .delete (.list ts)

def returnStatement : Parser Tree := do
  keyword "return"
  match ← optional (starExpressions g) with
  | some e => return node "Return" [("value", e)]
  | none => return node "Return" [("value", .absent)]

/-- A statement that has no block. -/
def simpleStatement : Parser Tree := do
  match ← peek with
  | .keyword "pass" =>
    skip
    return .pass
  | .keyword "break" =>
    skip
    return node "Break" []
  | .keyword "continue" =>
    skip
    return node "Continue" []
  | .keyword "del" => deleteStatement g
  | .keyword "return" => returnStatement g
  | .keyword "raise" => raiseStatement g
  | .keyword "import" => importStatement g
  | .keyword "from" => importFromStatement g
  | .keyword "assert" => assertStatement g
  | .keyword "global" =>
    skip
    return node "Global" [("names", ← nameList g)]
  | .keyword "nonlocal" =>
    skip
    return node "Nonlocal" [("names", ← nameList g)]
  | _ => expressionStatement g

/-- The simple statements of a line. -/
def simpleStatements : Parser (List Tree) := do
  let (ss, _) ← items ";" (simpleStatement g) g.fuel
  newline
  return ss

/-! ### Compound statements -/

/-- A colon and a block. -/
def suite : Parser Tree := do
  mark ":"
  g.parse .block

/-- The `else` part of a statement; empty if there is none. -/
def elsePart : Parser Tree := do if ← keywordIf "else" then suite g else return .list []

/-- A conditional after its first keyword. -/
def branch : Parser Tree := do
  let test ← namedExpression g
  let body ← suite g
  let orelse ←
    if ← keywordIf "elif" then pure (.list [← g.parse .branch]) else elsePart g
  return .ifStmt test body orelse

def whileStatement : Parser Tree := do
  keyword "while"
  let test ← namedExpression g
  let body ← suite g
  let orelse ← elsePart g
  return .whileLoop test body orelse

def forStatement (isAsync : Bool) : Parser Tree := do
  keyword "for"
  let target ← loopTargets g
  keyword "in"
  let iter ← starExpressions g
  let body ← suite g
  let orelse ← elsePart g
  if isAsync then
    return node "AsyncFor" [("target", target), ("iter", iter), ("body", body), ("orelse", orelse)]
  else return .forLoop target iter body orelse

/-- One handler of a `try` statement; `starred` handlers take parts of groups. -/
def handler (starred : Bool) : Parser Tree := do
  keyword "except"
  if starred then mark "*"
  let (cls, name) ←
    if !starred && (← seesMark ":") then pure (.absent, .absent)
    else
      let e ← g.parse .expression
      let n ← if ← keywordIf "as" then pure (.ofText (← name)) else pure .absent
      pure (e, n)
  let body ← suite g
  return node "ExceptHandler" [("type", cls), ("name", name), ("body", body)]

def finallyPart : Parser Tree := do
  keyword "finally"
  suite g

def tryStatement : Parser Tree := do
  keyword "try"
  let body ← suite g
  let build (cls : String) (handlers orelse final : Tree) : Tree :=
    node cls [("body", body), ("handlers", handlers), ("orelse", orelse), ("finalbody", final)]
  if ← seesKeyword "finally" then
    return build "Try" (.list []) (.list []) (← finallyPart g)
  else
    let starred : Bool :=
      match ← get with
      | _ :: t :: _ => t.isMark "*"
      | _ => false
    let first ← handler g starred
    let rest ← many (handler g starred) g.fuel
    let orelse ← elsePart g
    let final ← if ← seesKeyword "finally" then finallyPart g else pure (.list [])
    return build (if starred then "TryStar" else "Try") (.list (first :: rest)) orelse final

/-- One item of a `with` statement. -/
def withItem : Parser Tree := do
  let e ← g.parse .expression
  let item (target : Tree) : Tree :=
    node "withitem" [("context_expr", e), ("optional_vars", target)]
  if ← keywordIf "as" then
    let t ← if ← markIf "*" then starredNode <$> g.parse .primary else g.parse .primary
    return item (← assigned t)
  else return item .absent

/-- The items of a `with` statement up to its colon, with or without parentheses around them. -/
def withItems : Parser (List Tree) :=
  (do
    mark "("
    let (is, _) ← items "," (withItem g) g.fuel
    mark ")"
    if ← seesMark ":" then return is else failure)
  <|> separated "," (withItem g) g.fuel

def withStatement (isAsync : Bool) : Parser Tree := do
  keyword "with"
  let is ← withItems g
  let body ← suite g
  return node (if isAsync then "AsyncWith" else "With") [("items", .list is), ("body", body)]

def functionStatement (isAsync : Bool) (decorators : List Tree) : Parser Tree := do
  keyword "def"
  let s ← name
  mark "("
  let args ← parametersUntil g true ")" g.fuel {}
  mark ")"
  let returns ← if ← markIf "->" then g.parse .expression else pure .absent
  let body ← suite g
  return node (if isAsync then "AsyncFunctionDef" else "FunctionDef")
    [("name", .ofText s), ("args", args), ("body", body), ("decorator_list", .list decorators),
      ("returns", returns)]

def classStatement (decorators : List Tree) : Parser Tree := do
  keyword "class"
  let s ← name
  let (bases, keywords) ← if ← markIf "(" then arguments g false else pure ([], [])
  let body ← suite g
  return node "ClassDef"
    [("name", .ofText s), ("bases", .list bases), ("keywords", .list keywords), ("body", body),
      ("decorator_list", .list decorators)]

/-- A definition with decorators before it. -/
def decorated : Parser Tree := do
  let decorators ← many (do
    mark "@"
    let e ← namedExpression g
    newline
    return e) g.fuel
  if ← seesKeyword "class" then classStatement g decorators
  else if ← keywordIf "async" then functionStatement g true decorators
  else functionStatement g false decorators

/-- A statement that begins with `async`. -/
def asyncStatement : Parser Tree := do
  keyword "async"
  if ← seesKeyword "def" then functionStatement g true []
  else if ← seesKeyword "with" then withStatement g true
  else forStatement g true

/-- One case of a `match` statement. -/
def matchCase : Parser Tree := do
  if (← name) != "case" then failure
  let p ← casePattern g
  let guard ← if ← keywordIf "if" then namedExpression g else pure .absent
  let body ← suite g
  return node "match_case" [("pattern", p), ("guard", guard), ("body", body)]

/-- The subject of a `match` statement. -/
def matchSubject : Parser Tree := do
  let (es, trailing) ← items "," (starNamedExpression g) g.fuel
  match es, trailing with
  | [e], false => if isStarred e then failure else return e
  | es, _ => return .tuple (.list es) load

/-- A `match` statement, whose first word is not a keyword. -/
def matchStatement : Parser Tree := do
  if (← name) != "match" then failure
  let subject ← matchSubject g
  mark ":"
  newline
  match ← peek with
  | .indent => skip
  | _ => failure
  let first ← matchCase g
  let rest ← many (matchCase g) g.fuel
  match ← peek with
  | .dedent => skip
  | _ => failure
  return node "Match" [("subject", subject), ("cases", .list (first :: rest))]

/-- A compound statement, if one begins here. -/
def compoundStatement : Parser (Option Tree) := do
  match ← peek with
  | .keyword "if" =>
    skip
    return some (← branch g)
  | .keyword "while" => return some (← whileStatement g)
  | .keyword "for" => return some (← forStatement g false)
  | .keyword "try" => return some (← tryStatement g)
  | .keyword "with" => return some (← withStatement g false)
  | .keyword "def" => return some (← functionStatement g false [])
  | .keyword "class" => return some (← classStatement g [])
  | .keyword "async" => return some (← asyncStatement g)
  | .mark "@" => return some (← decorated g)
  | .name "match" => optional (matchStatement g)
  | _ => return none

/-- A compound statement, or the simple statements of a line. -/
def statement : Parser (List Tree) := do
  match ← compoundStatement g with
  | some s => return [s]
  | none => simpleStatements g

/-- Statements as long as there are any. -/
def statements : Parser (List Tree) := do return (← many (statement g) g.fuel).flatten

/-- A block: indented statements, or the simple statements of the same line. -/
def block : Parser Tree := do
  match ← peek with
  | .newline =>
    skip
    match ← peek with
    | .indent => skip
    | _ => failure
    let ss ← statements g
    if ss.isEmpty then failure
    match ← peek with
    | .dedent => skip
    | _ => failure
    return .list ss
  | _ => return .list (← simpleStatements g)

/-- One statement entered interactively. A compound one needs a blank line after it. -/
def interactiveStatement : Parser (List Tree) := do
  match ← compoundStatement g with
  | some s =>
    newline
    return [s]
  | none => simpleStatements g

end
end Stackwise.Grammar
