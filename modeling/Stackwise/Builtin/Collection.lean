import Stackwise.Arith.Apply
import Stackwise.Builtin.Iterate
import Stackwise.Builtin.Number
import Stackwise.Fault.Message
import Stackwise.Sort
import Stackwise.Value.Order

/-!
# Functions on collections

Lengths, choices, sums, conversions between containers, and the functions that make iterators.
-/
namespace Stackwise.Builtin

/-- Sizes that do not fit a machine word are refused. -/
def sizeValue (n : Nat) : Except Fault Value :=
  if maxIndex < n then .error (.overflow .sizeCode) else .ok (.int n)

def len (v : Value) : Except Fault Value :=
  match v with
  | .range a b c => sizeValue (rangeLength a b c)
  | .str s => sizeValue s.length
  | v =>
    match v.items? with
    | some xs => sizeValue xs.length
    | none => .error (.noLength v.tyName)

def all (r : Reach) (v : Value) : Act Value := do
  return .bool (← foldItems r v true fun _ x => return (x.truthy, x.truthy))

def any (r : Reach) (v : Value) : Act Value := do
  return .bool (← foldItems r v false fun _ x => return (x.truthy, !x.truthy))

/-- Keep the better of the best item so far and a new one. -/
def better (c : Comparison) (best : Option Value) (v : Value) : Act (Option Value) :=
  match best with
  | none => return some v
  | some b => do return some (if ← Act.ofExcept (v.compares c b) then v else b)

/-- The first item that is best in an order. -/
def choose (r : Reach) (name : String) (c : Comparison) (args : List Value) : Act Value := do
  let best ←
    match args with
    | [] => throw (.call (.expectedAtLeast name 1 0))
    | [v] => foldItems r v none fun best x => return (← better c best x, true)
    | vs => foldListed (fun best x => return (← better c best x, true)) vs none
  match best with
  | some v => return v
  | none => throw (.call (.emptySequence name))

/-- The sum of items, added to a start from the left. -/
def sum (r : Reach) (v start : Value) : Act Value := do
  let source ← v.toIterator
  match start with
  | .str _ => throw (.call .sumText)
  | .bytes _ => throw (.call .sumBytes)
  | start =>
    foldItems r source start fun acc x => do
      return (← Act.ofExcept (BinaryOp.add.apply acc x), true)

def sorted (r : Reach) (v : Value) : Act Value := do
  let xs ← collect r v
  return .list (← Act.ofExcept (Sort.sort (Value.compares .less) xs))

/-- The members of a set. -/
def toMembers (r : Reach) (v : Value) : Act (List Value) :=
  foldItems r v [] fun xs x => do
    Act.ofExcept x.checkKey
    return (Value.addMember xs x, true)

/-- The entry that an item of a dictionary's source stands for. -/
def toEntry (r : Reach) (index : Nat) (v : Value) : Act (Value × Value) := do
  let xs ← tryCatch (collect r v) fun f =>
    throw (if f.errorClass == .typeError then .call (.entryNotSequence index) else f)
  match xs with
  | [k, w] => return (k, w)
  | xs => throw (.call (.entryLength index xs.length))

def toDict (r : Reach) (v : Value) : Act Value :=
  match v with
  | .dict es => return .dict es
  | v => do
    let (_, es) ← foldItems r v (0, []) fun (i, es) x => do
      let (k, w) ← toEntry r i x
      Act.ofExcept k.checkKey
      return ((i + 1, Value.insertKey es k w), true)
    return .dict es

def range (args : List Value) : Except Fault Value := do
  match args with
  | [] => throw (.call (.expectedAtLeast "range" 1 0))
  | [stop] => return .range 0 (← needInt stop) 1
  | [start, stop] =>
    let a ← needInt start
    return .range a (← needInt stop) 1
  | [start, stop, step] =>
    let a ← needInt start
    let b ← needInt stop
    let c ← needInt step
    if c = 0 then throw (.call .zeroStep)
    return .range a b c
  | args => throw (.call (.expectedAtMost "range" 3 args.length))

def slice (args : List Value) : Except Fault Value :=
  match args with
  | [] => .error (.call (.expectedAtLeast "slice" 1 0))
  | [stop] => .ok (.slice .none stop .none)
  | [start, stop] => .ok (.slice start stop .none)
  | [start, stop, step] => .ok (.slice start stop step)
  | args => .error (.call (.expectedAtMost "slice" 3 args.length))

/-! ### Iterators -/

/-- An iterator with a state of its own, as a value. -/
def iteratorOf (kind : Ty) (cell : Cell) : Act Value := do
  return .iterator (← Act.allocate cell) kind

/-- The numbers of iterators over several values. -/
def sources : List Value → Act (List Nat)
  | [] => return []
  | v :: vs => do
    let (ref, _) ← v.iterate
    return ref :: (← sources vs)

def enumerate (v : Value) (start : Option Value) : Act Value := do
  let n ←
    match start with
    | none => pure 0
    | some s => Act.ofExcept (needInt s)
  let (ref, _) ← v.iterate
  iteratorOf .enumerate (.numbered ref n)

def zip (args : List Value) : Act Value := do iteratorOf .zip (.zipped (← sources args))

def map (args : List Value) : Act Value :=
  match args with
  | f :: v :: vs => do iteratorOf .map (.mapped f (← sources (v :: vs)))
  | _ => throw (.call .mapArguments)

def filter (f v : Value) : Act Value := do
  let (ref, _) ← v.iterate
  iteratorOf .filter (.filtered f ref)

/-- The progression of a range from its end. -/
def reversedRange (start stop step : Int) : Act Value :=
  let n := rangeLength start stop step
  iteratorOf (Value.rangeKind start stop step) (.counting (start + step * (n - 1)) (-step) n)

def reversed (v : Value) : Act Value :=
  match v with
  | .range a b c => reversedRange a b c
  | .list xs => iteratorOf .listReverseIterator (.items xs.reverse)
  | .dict es => iteratorOf .dictReverseKeyIterator (.items (es.map (·.1)).reverse)
  | .tuple _ | .str _ | .bytes _ => iteratorOf .reversed (.items (v.items?.getD []).reverse)
  | v => throw (.call (.notReversible v.tyName))

/-- The next item of an iterator, or a default at its end. -/
def next (r : Reach) (v : Value) (default : Option Value) : Act Value :=
  match v with
  | .iterator ref _ => do
    match ← r.pull ref with
    | some x => return x
    | none =>
      match default with
      | some d => return d
      | none => throw .exhausted
  | v => throw (.notIterator v.tyName)

end Stackwise.Builtin
