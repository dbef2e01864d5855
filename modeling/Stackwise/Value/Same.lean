import Stackwise.Fault.Basic

/-!
# Sameness and keys

Containers take two values for one when they are one object or equal; `Value.same` decides that.
Equal numbers of different kinds are the same, equal lists and tuples are not. Sets and
dictionaries keep the member or key that came first.
-/
namespace Stackwise.Value

mutual
/-- One object, or equal values. -/
def same : Value → Value → Bool
  | .none, .none => true
  | .ellipsis, .ellipsis => true
  | .notImplemented, .notImplemented => true
  | .str a, .str b => a == b
  | .bytes a, .bytes b => a == b
  | .list xs, .list ys => sameAll xs ys
  | .tuple xs, .tuple ys => sameAll xs ys
  | .set xs, .set ys => xs.length == ys.length && within xs ys
  | .set xs, .frozenset ys => xs.length == ys.length && within xs ys
  | .frozenset xs, .set ys => xs.length == ys.length && within xs ys
  | .frozenset xs, .frozenset ys => xs.length == ys.length && within xs ys
  | .dict es, .dict fs => es.length == fs.length && entriesWithin es fs
  | .range a b c, .range d e f =>
    let n := rangeLength a b c
    n == rangeLength d e f && (n == 0 || (a == d && (n == 1 || c == f)))
  | .slice a b c, .slice d e f => same a d && same b e && same c f
  | .type t, .type u => t == u
  | .union ts, .union us => ts.all us.contains && us.all ts.contains
  | .alias t xs, .alias u ys => t == u && sameAll xs ys
  | .function f, .function g => f == g
  | .quitter m, .quitter n => m == n
  | .error j _ _, .error k _ _ => j != 0 && j == k
  | .iterator r _, .iterator s _ => r == s
  | x, y =>
    match x.number?, y.number? with
    | some a, some b => a.same b
    | _, _ => false
/-- Item by item. -/
def sameAll : List Value → List Value → Bool
  | [], [] => true
  | x :: xs, y :: ys => same x y && sameAll xs ys
  | _, _ => false
/-- Every item of the first list is in the second. -/
def within : List Value → List Value → Bool
  | [], _ => true
  | x :: xs, ys => ys.any (fun y => same x y) && within xs ys
/-- Every entry of the first list is in the second, with its value. -/
def entriesWithin : List (Value × Value) → List (Value × Value) → Bool
  | [], _ => true
  | (k, v) :: es, fs => fs.any (fun f => same k f.1 && same v f.2) && entriesWithin es fs
end

mutual
/-- The class that keeps a value from being a key, if any. -/
def unhashable? : Value → Option Ty
  | .list _ => some .list
  | .set _ => some .set
  | .dict _ => some .dict
  | .slice _ _ _ => some .slice
  | .tuple xs => unhashableAny? xs
  | .alias _ xs => unhashableAny? xs
  | _ => Option.none
/-- The first such class among several values. -/
def unhashableAny? : List Value → Option Ty
  | [] => Option.none
  | x :: xs =>
    match unhashable? x with
    | some t => some t
    | Option.none => unhashableAny? xs
end

/-- Accept a value that can be a key. -/
def checkKey (v : Value) : Except Fault Unit :=
  match v.unhashable? with
  | some t => .error (.unhashable t.name)
  | Option.none => .ok ()

/-- Membership by sameness. -/
def memberOf (v : Value) (xs : List Value) : Bool := xs.any (fun x => same x v)

/-- Add to a set unless the same value is there. Members stand in the order in which they were
added; no order by hash codes is modelled. -/
def addMember (xs : List Value) (v : Value) : List Value := if v.memberOf xs then xs else xs ++ [v]

/-- The members of a list, each once. -/
def distinct (xs : List Value) : List Value := xs.foldl addMember []

/-- The value of a key. -/
def lookupKey (k : Value) (es : List (Value × Value)) : Option Value :=
  (es.find? fun e => same e.1 k).map (·.2)

/-- Set the value of a key; a key that is there keeps its place and its form. -/
def insertKey (es : List (Value × Value)) (k v : Value) : List (Value × Value) :=
  if es.any (fun e => same e.1 k) then es.map fun e => if same e.1 k then (e.1, v) else e
  else es ++ [(k, v)]

/-- One class and one sameness: what the constants of a program are told apart by. -/
def sameConstant (x y : Value) : Bool := x.ty == y.ty && same x y

end Stackwise.Value
