import Stackwise.Arith.Number
import Stackwise.Value.Same
import Stackwise.Value.Show

/-!
# Sequences, sets and dictionaries as operands

Joining, repeating, combining and indexing. An index counts from the end when it is negative; a
slice is cut to the bounds of its sequence.
-/
namespace Stackwise

/-- Results with more items than this are not attempted. -/
def maxItems : Nat := Nat.pow 2 27

/-- A count for repetition: at least zero, and small enough to index with. -/
def repeatCount (n : Int) : Except Fault Nat :=
  if maxIndex < n || n < -maxIndex - 1 then .error (.overflow .indexSize) else .ok n.toNat

/-- Items repeated in order. -/
def repeatItems {α : Type} (xs : List α) (n : Nat) : List α :=
  (List.replicate (if xs.isEmpty then 0 else n) xs).flatten

/-- Repeat a sequence, if the value is one that can be repeated. -/
def Value.repeat? (v : Value) (n : Int) : Option (Except Fault Value) :=
  let size (k : Nat) (o : Fault) (r : Nat → Value) : Except Fault Value := do
    let m ← repeatCount n
    if maxIndex.toNat < k * m then .error o
    else if maxItems < k * m then .error .outOfMemory
    else .ok (r m)
  match v with
  | .str s => some (size s.length (.overflow .textSize) fun m =>
      .str (String.ofList (repeatItems s.toList m)))
  | .bytes b => some (size b.length (.overflow .bytesSize) fun m => .bytes (repeatItems b m))
  | .list xs => some (size xs.length .outOfMemory fun m => .list (repeatItems xs m))
  | .tuple xs => some (size xs.length .outOfMemory fun m => .tuple (repeatItems xs m))
  | _ => Option.none

namespace Value

/-- Join two sequences of one class. The left operand decides how a mismatch is reported;
`none` if it is no sequence. -/
def concat? : Value → Value → Option (Except Fault Value)
  | .str a, .str b => some (.ok (.str (a ++ b)))
  | .str _, v => some (.error (.concat "str" v.tyName))
  | .bytes a, .bytes b => some (.ok (.bytes (a ++ b)))
  | .bytes _, v => some (.error (.concatBytes v.tyName))
  | .list a, .list b => some (.ok (.list (a ++ b)))
  | .list _, v => some (.error (.concat "list" v.tyName))
  | .tuple a, .tuple b => some (.ok (.tuple (a ++ b)))
  | .tuple _, v => some (.error (.concat "tuple" v.tyName))
  | _, _ => Option.none

/-- The members of a set of either kind. -/
def members? : Value → Option (List Value)
  | .set xs => some xs
  | .frozenset xs => some xs
  | _ => Option.none

/-- A set of the same kind as `like`. -/
def ofMembers (like : Value) (xs : List Value) : Value :=
  match like with
  | .frozenset _ => .frozenset xs
  | _ => .set xs

/-- Set operations; the result has the kind of the left operand. -/
def setOp? (op : BinaryOp) (x y : Value) : Option Value := do
  let xs ← x.members?
  let ys ← y.members?
  match op with
  | .sub => some (ofMembers x (xs.filter fun a => !a.memberOf ys))
  | .bitAnd =>
    -- The shorter operand is gone through, and its members are kept.
    let (few, many) := if xs.length < ys.length then (xs, ys) else (ys, xs)
    some (ofMembers x (few.filter fun a => a.memberOf many))
  | .bitOr => some (ofMembers x (ys.foldl addMember xs))
  | .bitXor =>
    some (ofMembers x ((xs.filter fun a => !a.memberOf ys) ++ ys.filter fun a => !a.memberOf xs))
  | _ => Option.none

/-- The classes that a value stands for in a union. -/
def unionMembers? : Value → Option (List Ty)
  | .type t => some [t]
  | .union ts => some ts
  | .none => some [.noneType]
  | _ => Option.none

/-- A union of classes, at least one operand being a class. -/
def union? (x y : Value) : Option Value :=
  match x, y with
  | .none, .none => Option.none
  | _, _ => do
    let ts ← x.unionMembers?
    let us ← y.unionMembers?
    match (ts ++ us).foldl (fun acc t => if acc.contains t then acc else acc ++ [t]) [] with
    | [t] => some (.type t)
    | all => some (.union all)

end Value

/-- The position of an index in a sequence of `size` items. -/
def position? (size : Nat) (i : Int) : Option Nat :=
  let j := if i < 0 then i + size else i
  if 0 ≤ j && j < size then some j.toNat else none

/-- A bound of a slice, cut to the sequence. -/
def clampBound (size : Nat) (low high : Int) (i : Int) : Int :=
  let j := if i < 0 then i + size else i
  if j < low then low else if high < j then high else j

/-- Read a bound of a slice. -/
def sliceBound (v : Value) : Except Fault (Option Int) :=
  match v with
  | .none => .ok none
  | v =>
    match v.asInt? with
    | some n => .ok (some n)
    | none => .error (.call .sliceIndices)

/-- Start, stop and step of a slice in a sequence of `size` items. -/
def sliceBounds (size : Nat) (start stop step : Value) : Except Fault (Int × Int × Int) := do
  let k := (← sliceBound step).getD 1
  if k = 0 then throw (.call .sliceStepZero)
  let a ← sliceBound start
  let b ← sliceBound stop
  if 0 < k then
    let lo := (a.map (clampBound size 0 size)).getD 0
    let hi := (b.map (clampBound size 0 size)).getD size
    return (lo, hi, k)
  else
    let lo := (a.map (clampBound size (-1) (size - 1))).getD (size - 1)
    let hi := (b.map (clampBound size (-1) (size - 1))).getD (-1)
    return (lo, hi, k)

/-- The items of a range. -/
def rangeItems (start stop step : Int) : List Int :=
  (List.range (rangeLength start stop step)).map fun (i : Nat) => start + step * i

/-- The items of a value that can be gone through without changing it. -/
def Value.each? : Value → Option (List Value)
  | .range a b c => some ((rangeItems a b c).map .int)
  | v => v.items?

/-- The items a slice takes. -/
def sliceItems {α : Type} (xs : List α) (start stop step : Value) : Except Fault (List α) := do
  let (a, b, k) ← sliceBounds xs.length start stop step
  let arr := xs.toArray
  return (rangeItems a b k).filterMap fun i => arr[i.toNat]?

/-- Index a sequence of items. -/
def indexItems {α : Type} (what : Indexed) (xs : List α) (one : α → Value) (many : List α → Value)
    (index : Value) : Except Fault Value :=
  match index with
  | .slice a b c => do return many (← sliceItems xs a b c)
  | index =>
    match index.asInt? with
    | none => .error (.indexKind what index.tyName)
    | some i =>
      if maxIndex < i || i < -maxIndex - 1 then .error .indexSize
      else
        match (position? xs.length i).bind fun j => xs[j]? with
        | some x => .ok (one x)
        | none => .error (.indexRange what)

/-- Index a range; a slice of a range is a range. -/
def indexRange (start stop step : Int) (index : Value) : Except Fault Value :=
  let size := rangeLength start stop step
  match index with
  | .slice a b c => do
    let (lo, hi, k) ← sliceBounds size a b c
    return .range (start + lo * step) (start + hi * step) (step * k)
  | index =>
    match index.asInt? with
    | none => .error (.indexKind .range index.tyName)
    | some i =>
      match position? size i with
      | some j => .ok (.int (start + j * step))
      | none => .error (.indexRange .range)

/-- The item of a container at an index or key. -/
def Value.index (container index : Value) : Except Fault Value :=
  match container with
  | .list xs => indexItems .list xs id .list index
  | .tuple xs => indexItems .tuple xs id .tuple index
  | .str s => indexItems .str s.toList (fun c => .str (String.singleton c))
      (fun cs => .str (String.ofList cs)) index
  | .bytes b => indexItems .bytes b (fun x => .int x.toNat) .bytes index
  | .range a b c => indexRange a b c index
  | .dict es => do
    index.checkKey
    match lookupKey index es with
    | some v => return v
    | Option.none => throw (.missingKey index)
  | .type t =>
    if t.isGeneric then
      .ok (.alias t (match index with | .tuple xs => xs | v => [v]))
    else .error (.classNotSubscriptable t.name)
  | .union _ | .alias _ _ => do throw (.notGeneric (← container.repr))
  | v => .error (.notSubscriptable v.tyName)

end Stackwise
