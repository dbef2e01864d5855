import Stackwise.Syntax.Grammar.Formatted
import Stackwise.Syntax.Grammar.Target

/-!
# Expressions

From the loosest to the tightest: conditionals and lambdas, `or`, `and`, `not`, comparisons, six
levels of binary operators, signs, powers, and what can be called, indexed or taken an attribute of.
-/
namespace Stackwise.Grammar

/-! ### Operators -/

/-- Binary operators by level, the loosest first. -/
def binaryLevels : List (List (String × Tree)) :=
  [[("|", .binaryOperator .bitOr)],
    [("^", .binaryOperator .bitXor)],
    [("&", .binaryOperator .bitAnd)],
    [("<<", .binaryOperator .lshift), (">>", .binaryOperator .rshift)],
    [("+", .binaryOperator .add), ("-", .binaryOperator .sub)],
    [("*", .binaryOperator .mult), ("/", .binaryOperator .div), ("//", .binaryOperator .floorDiv),
      ("%", .binaryOperator .mod), ("@", node "MatMult" [])]]

/-- Signs. -/
def signs : List (String × Tree) :=
  [("+", .unaryOperator .plus), ("-", .unaryOperator .minus), ("~", .unaryOperator .invert)]

/-- One of several operators, if it is next. -/
def operatorIf (ops : List (String × Tree)) : Parser (Option Tree) := do
  match ← peek with
  | .mark s =>
    match ops.lookup s with
    | some op =>
      skip
      return some op
    | none => return none
  | _ => return none

/-- What follows the first operand of operators that group to the left. -/
def leftOperands (ops : List (String × Tree)) (operand : Parser Tree) : Nat → Tree → Parser Tree
  | 0, left => pure left
  | fuel + 1, left => do
    match ← operatorIf ops with
    | some op =>
      let right ← operand
      leftOperands ops operand fuel (.binOp left op right)
    | none => return left

/-- Operators of several levels over operands. -/
def leveled (fuel : Nat) (operand : Parser Tree) : List (List (String × Tree)) → Parser Tree
  | [] => operand
  | ops :: rest => do
    let inner := leveled fuel operand rest
    let first ← inner
    leftOperands ops inner fuel first

/-- A comparison operator, if it is next. -/
def comparisonIf : Parser (Option String) := do
  match ← get with
  | .mark "==" :: _ =>
    skip
    return some "Eq"
  | .mark "!=" :: _ =>
    skip
    return some "NotEq"
  | .mark "<" :: _ =>
    skip
    return some "Lt"
  | .mark "<=" :: _ =>
    skip
    return some "LtE"
  | .mark ">" :: _ =>
    skip
    return some "Gt"
  | .mark ">=" :: _ =>
    skip
    return some "GtE"
  | .keyword "in" :: _ =>
    skip
    return some "In"
  | .keyword "not" :: .keyword "in" :: _ =>
    skip
    skip
    return some "NotIn"
  | .keyword "is" :: .keyword "not" :: _ =>
    skip
    skip
    return some "IsNot"
  | .keyword "is" :: _ =>
    skip
    return some "Is"
  | _ => return none

/-- Two or more operands of a keyword operator, or one alone. -/
def boolean (word cls : String) (operand : Parser Tree) (fuel : Nat) : Parser Tree := do
  let first ← operand
  let rest ← many (do keyword word; operand) fuel
  if rest.isEmpty then return first
  else return node "BoolOp" [("op", node cls []), ("values", .list (first :: rest))]

section
variable (g : Level)

/-! ### Expressions of several levels -/

def bitwiseOr : Parser Tree := leveled g.fuel (g.parse .factor) binaryLevels

def comparison : Parser Tree := do
  let left ← bitwiseOr g
  let rest ← many (do
    match ← comparisonIf with
    | some op => return (op, ← bitwiseOr g)
    | none => failure) g.fuel
  if rest.isEmpty then return left
  else
    return node "Compare"
      [("left", left), ("ops", .list (rest.map fun r => node r.1 [])),
        ("comparators", .list (rest.map (·.2)))]

def inversion : Parser Tree := do
  if ← keywordIf "not" then
    return .unaryOp (.unaryOperator .not) (← g.parse .inversion)
  else comparison g

def disjunction : Parser Tree :=
  boolean "or" "Or" (boolean "and" "And" (g.parse .inversion) g.fuel) g.fuel

/-- A name with a value, or an expression. -/
def namedExpression : Parser Tree := do
  if ← seesNameThen ":=" then
    let s ← name
    skip
    let value ← g.parse .expression
    return node "NamedExpr" [("target", .name (.ofText s) store), ("value", value)]
  else g.parse .expression

/-- An expression, or a starred operand. -/
def starExpression : Parser Tree := do
  if ← markIf "*" then return starredNode (← bitwiseOr g) else g.parse .expression

/-- A named expression, or a starred operand. -/
def starNamedExpression : Parser Tree := do
  if ← markIf "*" then return starredNode (← bitwiseOr g) else namedExpression g

/-- Expressions between commas. -/
def starExpressions : Parser Tree := do
  let (es, trailing) ← items "," (starExpression g) g.fuel
  return tupleOf es trailing

/-- Expressions between commas, none of them starred. -/
def plainExpressions : Parser Tree := do
  let (es, trailing) ← items "," (g.parse .expression) g.fuel
  return tupleOf es trailing

def yieldExpression : Parser Tree := do
  keyword "yield"
  if ← keywordIf "from" then
    return node "YieldFrom" [("value", ← g.parse .expression)]
  else
    match ← optional (g.parse .starExpressions) with
    | some e => return node "Yield" [("value", e)]
    | none => return node "Yield" [("value", .absent)]

/-- A value: an expression that may be a yield. -/
def valueExpression : Parser Tree := do
  if ← seesKeyword "yield" then yieldExpression g else starExpressions g

/-! ### Parameters -/

/-- Parameters read so far, in reverse order. -/
structure Parameters where
  positional : List Tree := []
  ordinary : List Tree := []
  defaults : List Tree := []
  rest : Tree := .absent
  keyed : List Tree := []
  keyedDefaults : List Tree := []
  keywords : Tree := .absent
  /-- A slash has been read. -/
  slash : Bool := false
  /-- A star has been read. -/
  star : Bool := false

def Parameters.toTree (p : Parameters) : Tree :=
  node "arguments"
    [("posonlyargs", .list p.positional.reverse), ("args", .list p.ordinary.reverse),
      ("vararg", p.rest), ("kwonlyargs", .list p.keyed.reverse),
      ("kw_defaults", .list p.keyedDefaults.reverse), ("kwarg", p.keywords),
      ("defaults", .list p.defaults.reverse)]

/-- A parameter; `annotated` says whether it may have an annotation, `starred` whether that may be
starred. -/
def parameter (annotated starred : Bool) : Parser Tree := do
  let s ← name
  let note ←
    if annotated then
      if ← markIf ":" then (if starred then starExpression g else g.parse .expression)
      else pure .absent
    else pure .absent
  return node "arg" [("arg", .ofText s), ("annotation", note)]

/-- A default value, if there is one. -/
def defaultValue : Parser (Option Tree) := do
  if ← markIf "=" then return some (← g.parse .expression) else return none

/-- The next parameter or separator, added to those read so far. The second result tells that
nothing may follow. -/
def nextParameter (annotated : Bool) (p : Parameters) : Parser (Parameters × Bool) := do
  if ← markIf "**" then
    return ({ p with keywords := ← parameter g annotated false }, true)
  else if ← markIf "*" then
    if p.star then failure
    match ← peek with
    | .name _ => return ({ p with rest := ← parameter g annotated true, star := true }, false)
    | _ =>
      match ← get with
      | .mark "," :: .name _ :: _ => return ({ p with star := true }, false)
      | _ => failure
  else if ← markIf "/" then
    if p.slash || p.star || p.ordinary.isEmpty then failure
    return ({ p with positional := p.ordinary, ordinary := [], slash := true }, false)
  else
    let a ← parameter g annotated false
    let d ← defaultValue g
    if p.star then
      return ({ p with keyed := a :: p.keyed, keyedDefaults := d.getD .absent :: p.keyedDefaults },
        false)
    else
      match d with
      | some e =>
        return ({ p with ordinary := a :: p.ordinary, defaults := e :: p.defaults }, false)
      | none =>
        if p.defaults.isEmpty then return ({ p with ordinary := a :: p.ordinary }, false)
        else failure

/-- Parameters up to a closing mark, which stays. -/
def parametersUntil (annotated : Bool) (close : String) : Nat → Parameters → Parser Tree
  | 0, _ => failure
  | fuel + 1, p => do
    if ← seesMark close then return p.toTree
    else
      let (p, last) ← nextParameter g annotated p
      if ← markIf "," then
        if last then
          if ← seesMark close then return p.toTree else failure
        else parametersUntil annotated close fuel p
      else if ← seesMark close then return p.toTree
      else failure

def lambda : Parser Tree := do
  keyword "lambda"
  let args ← parametersUntil g false ":" g.fuel {}
  mark ":"
  let body ← g.parse .expression
  return node "Lambda" [("args", args), ("body", body)]

/-- An expression: a lambda, a conditional, or a disjunction. -/
def expression : Parser Tree := do
  if ← seesKeyword "lambda" then lambda g
  else
    let body ← g.parse .disjunction
    let conditional : Parser Tree := do
      keyword "if"
      let test ← g.parse .disjunction
      keyword "else"
      let orelse ← g.parse .expression
      return .ifExp test body orelse
    if ← seesKeyword "if" then conditional <|> pure body else return body

/-! ### Atoms -/

/-- The expression in a field of a formatted text. -/
def insideField (text : List Char) : Option Tree := do
  let tokens ← Lexer.expression ('(' :: text ++ [')'])
  let (t, _) ← (g.parse .starExpressions).run tokens
  return t

/-- The pieces of a text in a program. -/
def textPieces (t : TextLiteral) : Option (List Piece) :=
  if t.formatted then formatted t.raw (insideField g) t.body
  else t.characters?.map fun cs => [.literal cs]

/-- The tree of texts that stand next to each other. -/
def textsTree (ts : List TextLiteral) : Option Tree := do
  if ts.all (·.bytes) then
    let parts ← ts.mapM fun t => t.characters?
    return .const (.bytes (parts.flatten.map fun c => UInt8.ofNat c.toNat))
  else if ts.any (·.bytes) then none
  else
    let pieces ← ts.mapM (textPieces g)
    if ts.any (·.formatted) then return joinPieces pieces.flatten
    else
      let parts := pieces.flatten.map fun p =>
        match p with
        | .literal cs => cs
        | .value _ => []
      return .const (.str (String.ofList parts.flatten))

def texts : Parser Tree := do
  let ts ← many (do
    match ← peek with
    | .text t =>
      skip
      return t
    | _ => failure) g.fuel
  if ts.isEmpty then failure else liftM (textsTree g ts)

/-- The targets of a loop, which are read without operators. -/
def loopTargets : Parser Tree := do
  let one : Parser Tree := do
    if ← markIf "*" then return starredNode (← g.parse .primary) else g.parse .primary
  let (ts, trailing) ← items "," one g.fuel
  assigned (tupleOf ts trailing)

/-- One `for` clause of a comprehension. -/
def comprehensionClause : Parser Tree := do
  let isAsync ← keywordIf "async"
  keyword "for"
  let target ← loopTargets g
  keyword "in"
  let iter ← g.parse .disjunction
  let ifs ← many (do keyword "if"; g.parse .disjunction) g.fuel
  return node "comprehension"
    [("target", target), ("iter", iter), ("ifs", .list ifs),
      ("is_async", .leaf (.int (if isAsync then 1 else 0)))]

/-- Whether a comprehension goes on. -/
def seesClause : Parser Bool := do return (← seesKeyword "for") || (← seesKeyword "async")

/-- The clauses of a comprehension. -/
def clauses : Parser Tree := do
  let first ← comprehensionClause g
  let rest ← many (comprehensionClause g) g.fuel
  return .list (first :: rest)

def isStarred : Tree → Bool
  | .other "Starred" _ => true
  | _ => false

/-- Items up to a closing mark, after the first of them. -/
def restOfItems (first : Tree) (close : String) : Parser (List Tree × Bool) := do
  let (more, trailing) ← moreItems "," (starNamedExpression g) g.fuel
  mark close
  return (first :: more, trailing)

/-- What stands between parentheses: a tuple, a generator, or an expression. -/
def parenthesized : Parser Tree := do
  if ← markIf ")" then return .tuple (.list []) load
  else if ← seesKeyword "yield" then
    let e ← yieldExpression g
    mark ")"
    return e
  else
    let first ← starNamedExpression g
    if !isStarred first && (← seesClause) then
      let cs ← clauses g
      mark ")"
      return node "GeneratorExp" [("elt", first), ("generators", cs)]
    else
      let (es, trailing) ← restOfItems g first ")"
      match es, trailing with
      | [e], false => if isStarred e then failure else return e
      | es, _ => return .tuple (.list es) load

/-- What stands between brackets: a list or a list comprehension. -/
def bracketed : Parser Tree := do
  if ← markIf "]" then return .listDisplay (.list []) load
  else
    let first ← starNamedExpression g
    if !isStarred first && (← seesClause) then
      let cs ← clauses g
      mark "]"
      return node "ListComp" [("elt", first), ("generators", cs)]
    else
      let (es, _) ← restOfItems g first "]"
      return .listDisplay (.list es) load

/-- One entry of a dictionary: a key with its value, or a dictionary to take entries from. -/
def entry : Parser (Tree × Tree) := do
  if ← markIf "**" then return (.absent, ← bitwiseOr g)
  else
    let key ← g.parse .expression
    mark ":"
    let value ← g.parse .expression
    return (key, value)

/-- The rest of a dictionary after its first entry. -/
def restOfEntries (first : Tree × Tree) : Parser Tree := do
  let (more, _) ← moreItems "," (entry g) g.fuel
  mark "\x7d"
  let es := first :: more
  return .dictDisplay (.list (es.map (·.1))) (.list (es.map (·.2)))

/-- What stands between braces: a dictionary, a set, or a comprehension of one of them. -/
def braced : Parser Tree := do
  if ← markIf "\x7d" then return .dictDisplay (.list []) (.list [])
  else if ← seesMark "**" then restOfEntries g (← entry g)
  else
    let named ← seesNameThen ":="
    let first ← starNamedExpression g
    if !named && !isStarred first && (← markIf ":") then
      let value ← g.parse .expression
      if ← seesClause then
        let cs ← clauses g
        mark "\x7d"
        return node "DictComp" [("key", first), ("value", value), ("generators", cs)]
      else restOfEntries g (first, value)
    else if !isStarred first && (← seesClause) then
      let cs ← clauses g
      mark "\x7d"
      return node "SetComp" [("elt", first), ("generators", cs)]
    else
      let (es, _) ← restOfItems g first "\x7d"
      return .setDisplay (.list es)

/-- An atom. -/
def atom : Parser Tree := do
  match ← peek with
  | .name s =>
    skip
    return nameNode s
  | .number n =>
    skip
    return .const n.toValue
  | .text _ => texts g
  | .keyword "None" =>
    skip
    return .const .none
  | .keyword "True" =>
    skip
    return .const (.bool true)
  | .keyword "False" =>
    skip
    return .const (.bool false)
  | .mark "..." =>
    skip
    return .const .ellipsis
  | .mark "(" =>
    skip
    parenthesized g
  | .mark "[" =>
    skip
    bracketed g
  | .mark "\x7b" =>
    skip
    braced g
  | _ => failure

/-! ### Calls, indices, attributes -/

/-- How far the arguments of a call have got. -/
inductive ArgumentPhase where
  | positional | keyed | spread
  deriving DecidableEq

/-- The arguments of a call up to the closing parenthesis, which stays. Positional arguments come
first; after keywords there may still be starred ones, unless keywords were spread out. A `sole`
generator may stand without parentheses of its own. -/
def argumentsUntil (sole : Bool) :
    Nat → ArgumentPhase → List Tree → List Tree → Parser (List Tree × List Tree)
  | 0, _, _, _ => failure
  | fuel + 1, phase, args, keywords => do
    let go (phase : ArgumentPhase) (args keywords : List Tree) :
        Parser (List Tree × List Tree) := do
      if ← markIf "," then argumentsUntil sole fuel phase args keywords
      else if ← seesMark ")" then return (args.reverse, keywords.reverse)
      else failure
    if ← seesMark ")" then return (args.reverse, keywords.reverse)
    else if ← markIf "**" then
      let e ← g.parse .expression
      go .spread args (node "keyword" [("arg", .absent), ("value", e)] :: keywords)
    else if ← markIf "*" then
      if phase == .spread then failure
      let e ← g.parse .expression
      go phase (starredNode e :: args) keywords
    else if ← seesNameThen "=" then
      let s ← name
      skip
      let e ← g.parse .expression
      let phase := if phase == .spread then .spread else .keyed
      go phase args (node "keyword" [("arg", .ofText s), ("value", e)] :: keywords)
    else if phase == .positional then
      let e ← namedExpression g
      if sole && args.isEmpty && (← seesClause) then
        let cs ← clauses g
        if ← seesMark ")" then
          return ([node "GeneratorExp" [("elt", e), ("generators", cs)]], [])
        else failure
      else go phase (e :: args) keywords
    else failure

/-- The arguments of a call or a class after the opening parenthesis. -/
def arguments (sole : Bool) : Parser (List Tree × List Tree) := do
  let r ← argumentsUntil g sole g.fuel .positional [] []
  mark ")"
  return r

/-- One part of an index: a slice, or an expression. -/
def slicePart : Parser Tree := do
  let bound : Parser Tree := do
    match ← optional (g.parse .expression) with
    | some e => return e
    | none => return .absent
  let slice (lower : Tree) : Parser Tree := do
    mark ":"
    let upper ← bound
    let step ← if ← markIf ":" then bound else pure .absent
    return node "Slice" [("lower", lower), ("upper", upper), ("step", step)]
  if ← seesMark ":" then slice .absent
  else if ← seesNameThen ":=" then namedExpression g
  else
    let e ← g.parse .expression
    if ← seesMark ":" then slice e else return e

/-- The index between brackets: one part, or several that make a tuple. -/
def slices : Parser Tree := do
  let part : Parser Tree := do
    if ← markIf "*" then return starredNode (← g.parse .expression) else slicePart g
  let (ps, trailing) ← items "," part g.fuel
  match ps, trailing with
  | [p], false => if isStarred p then return .tuple (.list [p]) load else return p
  | ps, _ => return .tuple (.list ps) load

/-- What follows an atom: attributes, calls and indices. -/
def suffixes : Nat → Tree → Parser Tree
  | 0, t => pure t
  | fuel + 1, t => do
    if ← markIf "." then
      let s ← name
      suffixes fuel (attributeNode t s)
    else if ← markIf "(" then
      let (args, keywords) ← arguments g true
      suffixes fuel (.call t (.list args) (.list keywords))
    else if ← markIf "[" then
      let i ← slices g
      mark "]"
      suffixes fuel (.subscript t i load)
    else return t

/-- An atom with what follows it. -/
def primary : Parser Tree := do
  let a ← atom g
  suffixes g g.fuel a

/-- A power, whose exponent may have a sign. -/
def power : Parser Tree := do
  let base ←
    if ← keywordIf "await" then pure (node "Await" [("value", ← primary g)]) else primary g
  if ← markIf "**" then return .binOp base (.binaryOperator .pow) (← g.parse .factor)
  else return base

/-- An operand with its signs. -/
def factor : Parser Tree := do
  match ← operatorIf signs with
  | some op => return .unaryOp op (← g.parse .factor)
  | none => power g

end
end Stackwise.Grammar
