import Stackwise.Value.Same

/-!
# Order of values

Numbers are ordered by value, texts by code points, lists, tuples and slices at their first
difference, sets by inclusion. Everything else is unordered, which is a fault.
-/
namespace Stackwise

/-- The two questions that sorting and choosing ask. -/
inductive Comparison where
  | less | greater
  deriving DecidableEq, Repr

namespace Comparison

def symbol : Comparison → String
  | .less => "<"
  | .greater => ">"

/-- Whether an outcome answers the question with yes. -/
def accepts : Comparison → Ordering → Bool
  | .less, o => o == .lt
  | .greater, o => o == .gt

end Comparison

/-- The order of two real numbers, if they have one. -/
def Number.compare? : Number → Number → Option (Option Ordering)
  | .int a, .int b => some (some (compare a b))
  | .int a, .float y => some ((y.compareInt? a).map Ordering.swap)
  | .float x, .int b => some (x.compareInt? b)
  | .float x, .float y => some (x.compare? y)
  | _, _ => none

/-- The order of two lists of items at their first difference. -/
def compareItems {α : Type} (cmp : α → α → Ordering) : List α → List α → Ordering
  | [], [] => .eq
  | [], _ :: _ => .lt
  | _ :: _, [] => .gt
  | x :: xs, y :: ys =>
    match cmp x y with
    | .eq => compareItems cmp xs ys
    | o => o

namespace Value

/-- The fault of two values without an order. -/
def unordered (c : Comparison) (x y : Value) : Fault := .unordered c.symbol x.tyName y.tyName

mutual
/-- Whether the first value stands in the asked order to the second. -/
def compares (c : Comparison) : Value → Value → Except Fault Bool
  | .str a, .str b =>
    .ok (c.accepts (compareItems (fun x y : Char => compare x.toNat y.toNat) a.toList b.toList))
  | .bytes a, .bytes b =>
    .ok (c.accepts (compareItems (fun x y : UInt8 => compare x.toNat y.toNat) a b))
  | .list xs, .list ys => comparesAll c xs ys
  | .tuple xs, .tuple ys => comparesAll c xs ys
  | .slice a b s, .slice d e t =>
    if same a d then
      if same b e then if same s t then .ok false else compares c s t else compares c b e
    else compares c a d
  | .set xs, .set ys => .ok (inclusion c xs ys)
  | .set xs, .frozenset ys => .ok (inclusion c xs ys)
  | .frozenset xs, .set ys => .ok (inclusion c xs ys)
  | .frozenset xs, .frozenset ys => .ok (inclusion c xs ys)
  | x, y =>
    match x.number?, y.number? with
    | some a, some b =>
      match a.compare? b with
      | some (some o) => .ok (c.accepts o)
      | some Option.none => .ok false
      | Option.none => .error (unordered c x y)
    | _, _ => .error (unordered c x y)
/-- Lists compare at their first difference, or by length. -/
def comparesAll (c : Comparison) : List Value → List Value → Except Fault Bool
  | x :: xs, y :: ys => if same x y then comparesAll c xs ys else compares c x y
  | [], ys => .ok (c.accepts (compare 0 ys.length))
  | xs, [] => .ok (c.accepts (compare xs.length 0))
/-- Proper inclusion of sets. -/
def inclusion (c : Comparison) (xs ys : List Value) : Bool :=
  match c with
  | .less => within xs ys && decide (xs.length < ys.length)
  | .greater => within ys xs && decide (ys.length < xs.length)
end

end Value
end Stackwise
