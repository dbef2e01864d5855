import Stackwise.Syntax.Grammar.Basic

/-!
# Formatted texts

A formatted text holds expressions in braces, with an optional conversion and a layout, which can
hold expressions itself. Doubled braces outside a layout stand for single ones.
-/
namespace Stackwise.Grammar

/-- A part of a formatted text. -/
inductive Piece where
  | literal (cs : List Char)
  | value (t : Tree)

/-- The plain characters up to an expression or the end; `layout` tells the inside of a layout,
which ends at a closing brace. -/
def plainPart (raw layout : Bool) : List Char → Option (List Char × List Char)
  | [] => some ([], [])
  | '\\' :: c :: r =>
    if raw || c == '\x7b' || c == '\x7d' then
      (plainPart raw layout (c :: r)).map fun (s, rest) => ('\\' :: s, rest)
    else (plainPart raw layout r).map fun (s, rest) => ('\\' :: c :: s, rest)
  | '\x7b' :: '\x7b' :: r =>
    if layout then some ([], '\x7b' :: '\x7b' :: r)
    else (plainPart raw layout r).map fun (s, rest) => ('\x7b' :: s, rest)
  | '\x7d' :: '\x7d' :: r =>
    if layout then some ([], '\x7d' :: '\x7d' :: r)
    else (plainPart raw layout r).map fun (s, rest) => ('\x7d' :: s, rest)
  | '\x7b' :: r => some ([], '\x7b' :: r)
  | '\x7d' :: r => if layout then some ([], '\x7d' :: r) else none
  | c :: r => (plainPart raw layout r).map fun (s, rest) => (c :: s, rest)

/-- The bracket that closes another. -/
def closerOf (c : Char) : Option Char :=
  if c == '(' then some ')' else if c == '[' then some ']' else if c == '\x7b' then some '\x7d'
  else none

/-- Whether a character ends the expression of a formatted text. -/
def endsExpression (c : Char) : Bool := c == '!' || c == ':' || c == '\x7d' || c == '='

/-- The text of an expression, and the rest from the character that ends it. `sure` characters are
taken as they are; `quote` is the quote of the text inside which we are, and whether it is tripled;
`closers` are the brackets still to be closed. -/
def expressionText : Nat → Option (Char × Bool) → List Char → List Char → List Char →
    Option (List Char × List Char)
  | _, _, _, _, [] => none
  | sure, quote, closers, acc, c :: r =>
    if c == '\\' then none
    else if 0 < sure then expressionText (sure - 1) quote closers (c :: acc) r
    else
      match quote with
      | some (q, true) =>
        if c == q && r.take 2 == [q, q] then expressionText 2 none closers (c :: acc) r
        else expressionText 0 quote closers (c :: acc) r
      | some (q, false) => expressionText 0 (if c == q then none else quote) closers (c :: acc) r
      | none =>
        if c == '\'' || c == '"' then
          if r.take 2 == [c, c] then expressionText 2 (some (c, true)) closers (c :: acc) r
          else expressionText 0 (some (c, false)) closers (c :: acc) r
        else
          match closerOf c with
          | some e => expressionText 0 none (e :: closers) (c :: acc) r
          | none =>
            if c == '#' then none
            else if closers.isEmpty then
              if r.head? == some '=' && (c == '!' || c == '=' || c == '<' || c == '>') then
                expressionText 1 none closers (c :: acc) r
              else if endsExpression c then some (acc.reverse, c :: r)
              else if c == ')' || c == ']' then none
              else expressionText 0 none closers (c :: acc) r
            else if c == ')' || c == ']' || c == '\x7d' then
              if closers.head? == some c then expressionText 0 none closers.tail (c :: acc) r
              else none
            else expressionText 0 none closers (c :: acc) r

/-- The number of a conversion. -/
def conversionCode : Char → Option Int
  | 's' => some 115
  | 'r' => some 114
  | 'a' => some 97
  | _ => none

/-- Characters that can stand around an expression. -/
def isGap (c : Char) : Bool :=
  c == ' ' || c == '\t' || c == '\n' || c == '\x0c' || c == '\r' || c == '\x0b'

/-- A `JoinedStr` of pieces: literals that meet are one, and empty ones are left out. -/
def joinPieces (ps : List Piece) : Tree :=
  let push (text : List Char) (ts : List Tree) : List Tree :=
    if text.isEmpty then ts else .const (.str (String.ofList text)) :: ts
  let (text, ts) := ps.foldr
    (fun p (text, ts) =>
      match p with
      | .literal cs => (cs ++ text, ts)
      | .value t => ([], t :: push text ts))
    (([] : List Char), ([] : List Tree))
  node "JoinedStr" [("values", .list (push text ts))]

/-- One expression with what follows it up to its closing brace. `inside` reads an expression,
`layout` a layout. -/
def fieldPart (inside : List Char → Option Tree) (layout : List Char → Option (Tree × List Char))
    (cs : List Char) : Option (List Piece × List Char) := do
  let (text, rest) ← expressionText 0 none [] [] cs
  if text.all isGap then none
  else
    let value ← inside text
    let (shown, rest) :=
      match rest with
      | '=' :: r =>
        let gap := r.takeWhile isGap
        (some (text ++ '=' :: gap), r.drop gap.length)
      | r => (none, r)
    let (conversion, rest) ←
      match rest with
      | '!' :: c :: r => (conversionCode c).map fun n => (n, r)
      | r => some (-1, r)
    let (spec, rest) ←
      match rest with
      | ':' :: r => (layout r).map fun (t, r) => (t, r)
      | r => some (.absent, r)
    match rest with
    | '\x7d' :: r =>
      let plain :=
        match spec with
        | .leaf _ => conversion == -1
        | _ => false
      let conversion := if shown.isSome && plain then 114 else conversion
      let field := node "FormattedValue"
        [("value", value), ("conversion", .leaf (.int conversion)), ("format_spec", spec)]
      match shown with
      | some s => return ([.literal s, .value field], r)
      | none => return ([.value field], r)
    | _ => none

/-- The pieces of a formatted text up to its end, or to the end of a layout. -/
def formattedPieces (raw nested : Bool) (inside : List Char → Option Tree)
    (layout : List Char → Option (Tree × List Char)) :
    Nat → List Char → Option (List Piece × List Char)
  | 0, _ => none
  | fuel + 1, cs => do
    let (plain, rest) ← plainPart raw nested cs
    let text ← if raw then some plain else Literal.unescape true plain
    match rest with
    | '\x7b' :: r =>
      let (field, rest) ← fieldPart inside layout r
      let (more, rest) ← formattedPieces raw nested inside layout fuel rest
      return (.literal text :: field ++ more, rest)
    | rest => return ([.literal text], rest)

/-- The pieces of a formatted text. Layouts nest once. -/
def formatted (raw : Bool) (inside : List Char → Option Tree) (cs : List Char) :
    Option (List Piece) := do
  let fuel := cs.length + 1
  let join (r : List Piece × List Char) : Tree × List Char := (joinPieces r.1, r.2)
  let innermost (cs : List Char) : Option (Tree × List Char) :=
    (formattedPieces raw true (fun _ => none) (fun _ => none) fuel cs).map join
  let layout (cs : List Char) : Option (Tree × List Char) :=
    (formattedPieces raw true inside innermost fuel cs).map join
  let (pieces, rest) ← formattedPieces raw false inside layout fuel cs
  if rest.isEmpty then return pieces else none

end Stackwise.Grammar
