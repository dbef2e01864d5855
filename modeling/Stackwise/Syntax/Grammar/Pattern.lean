import Stackwise.Syntax.Grammar.Expression

/-!
# Patterns

The patterns of `match` statements: literals, names, dotted names, sequences, mappings and classes.
-/
namespace Stackwise.Grammar

section
variable (g : Level)

/-- A name that a pattern binds. -/
def captureName : Parser String := do
  let s ← name
  if s == "_" then failure
  let t ← peek
  if t.isMark "." || t.isMark "(" || t.isMark "=" then failure
  return s

/-- A number with an optional minus. -/
def signedNumber : Parser (Tree × Number) := do
  let minus ← markIf "-"
  match ← peek with
  | .number n =>
    skip
    let t := .const n.toValue
    return (if minus then .unaryOp (.unaryOperator .minus) t else t, n)
  | _ => failure

def isImaginary : Number → Bool
  | .complex _ _ => true
  | _ => false

/-- A number, or a sum or difference of a real and an imaginary one. -/
def numberLiteral : Parser Tree := do
  let (left, n) ← signedNumber
  let op ← operatorIf [("+", .binaryOperator .add), ("-", .binaryOperator .sub)]
  match op with
  | none => return left
  | some op =>
    match ← peek with
    | .number k =>
      skip
      if isImaginary n || !isImaginary k then failure
      return .binOp left op (.const k.toValue)
    | _ => failure

/-- A dotted name after its first part. -/
def dottedFrom (first : String) : Parser Tree := do
  let rest ← many (do mark "."; name) g.fuel
  return rest.foldl attributeNode (nameNode first)

def singleton (v : Value) : Tree := node "MatchSingleton" [("value", .leaf v)]

def valuePattern (e : Tree) : Tree := node "MatchValue" [("value", e)]

def bindPattern (p name : Tree) : Tree := node "MatchAs" [("pattern", p), ("name", name)]

def sequencePattern (ps : List Tree) : Tree := node "MatchSequence" [("patterns", .list ps)]

/-- A pattern, or a star that takes what is left of a sequence. -/
def starPattern : Parser Tree := do
  if ← markIf "*" then
    match ← get with
    | .name "_" :: _ =>
      skip
      return node "MatchStar" [("name", .absent)]
    | _ => return node "MatchStar" [("name", .ofText (← captureName))]
  else g.parse .pattern

def isStarPattern : Tree → Bool
  | .other "MatchStar" _ => true
  | _ => false

/-- Patterns in parentheses: one pattern alone, or a sequence. -/
def groupedPattern : Parser Tree := do
  if ← markIf ")" then return sequencePattern []
  else
    let (ps, trailing) ← items "," (starPattern g) g.fuel
    mark ")"
    match ps, trailing with
    | [p], false => if isStarPattern p then failure else return p
    | ps, _ => return sequencePattern ps

/-- The key of a mapping pattern. -/
def mappingKey : Parser Tree := do
  match ← peek with
  | .keyword "None" =>
    skip
    return .const .none
  | .keyword "True" =>
    skip
    return .const (.bool true)
  | .keyword "False" =>
    skip
    return .const (.bool false)
  | .text _ => texts g
  | .name s =>
    skip
    if ← seesMark "." then dottedFrom g s else failure
  | _ => numberLiteral

/-- The entries of a mapping pattern up to the closing brace. -/
def mappingEntries : Nat → List (Tree × Tree) → Parser Tree
  | 0, _ => failure
  | fuel + 1, acc => do
    let done (rest : Tree) : Parser Tree := do
      mark "\x7d"
      let es := acc.reverse
      return node "MatchMapping"
        [("keys", .list (es.map (·.1))), ("patterns", .list (es.map (·.2))), ("rest", rest)]
    if ← seesMark "\x7d" then done .absent
    else if ← markIf "**" then
      let s ← captureName
      let _ ← markIf ","
      done (.ofText s)
    else
      let key ← mappingKey g
      mark ":"
      let p ← g.parse .pattern
      let acc := (key, p) :: acc
      if ← markIf "," then mappingEntries fuel acc
      else if ← seesMark "\x7d" then mappingEntries fuel acc
      else failure

/-- The arguments of a class pattern up to the closing parenthesis, positional ones first. -/
def classEntries (cls : Tree) : Nat → List Tree → List (String × Tree) → Parser Tree
  | 0, _, _ => failure
  | fuel + 1, ps, ks => do
    if ← markIf ")" then
      return node "MatchClass"
        [("cls", cls), ("patterns", .list ps.reverse),
          ("kwd_attrs", .list (ks.reverse.map fun k => .ofText k.1)),
          ("kwd_patterns", .list (ks.reverse.map (·.2)))]
    else
      let go (ps : List Tree) (ks : List (String × Tree)) : Parser Tree := do
        if ← markIf "," then classEntries cls fuel ps ks
        else if ← seesMark ")" then classEntries cls fuel ps ks
        else failure
      if ← seesNameThen "=" then
        let s ← name
        skip
        let p ← g.parse .pattern
        go ps ((s, p) :: ks)
      else if ks.isEmpty then
        let p ← g.parse .pattern
        go (p :: ps) ks
      else failure

/-- A pattern that begins with a name: the name alone binds, a dotted one is a value, and one before
a parenthesis is a class. -/
def namedPattern (s : String) : Parser Tree := do
  if s == "_" then return bindPattern .absent .absent
  else
    let e ← dottedFrom g s
    if ← markIf "(" then classEntries g e g.fuel [] []
    else if ← seesMark "=" then failure
    else
      match e with
      | .name id _ => return bindPattern .absent id
      | e => return valuePattern e

/-- A pattern without alternatives. -/
def closedPattern : Parser Tree := do
  match ← peek with
  | .name s =>
    skip
    namedPattern g s
  | .keyword "None" =>
    skip
    return singleton .none
  | .keyword "True" =>
    skip
    return singleton (.bool true)
  | .keyword "False" =>
    skip
    return singleton (.bool false)
  | .text _ => return valuePattern (← texts g)
  | .mark "(" =>
    skip
    groupedPattern g
  | .mark "[" =>
    skip
    if ← markIf "]" then return sequencePattern []
    else
      let (ps, _) ← items "," (starPattern g) g.fuel
      mark "]"
      return sequencePattern ps
  | .mark "\x7b" =>
    skip
    mappingEntries g g.fuel []
  | _ => return valuePattern (← numberLiteral)

/-- Alternatives, and a name for what matched. -/
def pattern : Parser Tree := do
  let ps ← separated "|" (closedPattern g) g.fuel
  let p :=
    match ps with
    | [p] => p
    | ps => node "MatchOr" [("patterns", .list ps)]
  if ← keywordIf "as" then return bindPattern p (.ofText (← captureName)) else return p

/-- The pattern of a case, where a sequence needs no brackets. -/
def casePattern : Parser Tree := do
  let (ps, trailing) ← items "," (starPattern g) g.fuel
  match ps, trailing with
  | [p], false => if isStarPattern p then failure else return p
  | ps, _ => return sequencePattern ps

end
end Stackwise.Grammar
