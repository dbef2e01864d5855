import Stackwise.Value.Same
import Stackwise.World

/-!
# Iterators

Making an iterator over a value, taking its next item, and going through all items. Some iterators
call functions, and some functions go through iterators; `Reach` stands for both, one level deeper.
-/
namespace Stackwise

/-- Calling a value, and taking the next item of an iterator. -/
structure Reach where
  call : Value → List Value → Act Value
  pull : Nat → Act (Option Value)

/-- More items than any iterator gives in practice. -/
def maxItemsPulled : Nat := Nat.pow 2 62

/-- Whether a number fits a machine word. -/
def fitsWord (n : Int) : Bool := decide (-Int.pow 2 63 ≤ n) && decide (n < Int.pow 2 63)

namespace Value

/-- The class of the iterators over a container. -/
def iteratorKind : Value → Ty
  | .str s => if s.toList.all (fun c : Char => c.toNat < 128) then .asciiIterator else .strIterator
  | .bytes _ => .bytesIterator
  | .list _ => .listIterator
  | .tuple _ => .tupleIterator
  | .dict _ => .dictKeyIterator
  | _ => .setIterator

/-- The progression of a range. -/
def progression (start stop step : Int) : Cell := .counting start step (rangeLength start stop step)

/-- The class of the iterators over a range: long ones do not fit machine words. -/
def rangeKind (start stop step : Int) : Ty :=
  let n : Int := rangeLength start stop step
  if [start, stop, step, n, start + n * step].all fitsWord then
    .rangeIterator
  else .longRangeIterator

/-- An iterator over a value, with its class. -/
def iterate (v : Value) : Act (Nat × Ty) :=
  match v with
  | .iterator ref kind => return (ref, kind)
  | .range a b c => do return (← Act.allocate (progression a b c), rangeKind a b c)
  | v =>
    match v.items? with
    | some xs => do return (← Act.allocate (.items xs), v.iteratorKind)
    | Option.none => throw (.notIterable v.tyName)

/-- An iterator over a value, as a value. -/
def toIterator (v : Value) : Act Value := do
  let (ref, kind) ← v.iterate
  return .iterator ref kind

end Value

/-- The end of an iteration inside a function ends the iteration that called it. -/
def untilExhausted (act : Act (Option Value)) : Act (Option Value) :=
  tryCatch act fun f =>
    match f with
    | .exhausted => pure none
    | f => throw f

/-- One item of each source; `none` as soon as one has no more. -/
def pullEach (r : Reach) : List Nat → Act (Option (List Value))
  | [] => return some []
  | s :: rest => do
    match ← r.pull s with
    | none => return none
    | some v => return (← pullEach r rest).map (v :: ·)

/-- The next item that satisfies a condition. -/
def pullWhere (r : Reach) (f : Value) (source : Nat) : Nat → Act (Option Value)
  | 0 => throw .endless
  | fuel + 1 => do
    match ← r.pull source with
    | none => return none
    | some v =>
      let ok ←
        match f with
        | .none => pure v.truthy
        | .type .bool => pure v.truthy
        | f => Value.truthy <$> r.call f [v]
      if ok then return some v else pullWhere r f source fuel

/-- The next item of an iterator. -/
def pullWith (r : Reach) (ref : Nat) : Act (Option Value) := do
  match (← get).cells[ref]? with
  | none => return none
  | some (.items []) => return none
  | some (.items (x :: xs)) =>
    Act.setCell ref (.items xs)
    return some x
  | some (.counting n step left) =>
    if left = 0 then return none
    else
      Act.setCell ref (.counting (n + step) step (left - 1))
      return some (.int n)
  | some (.numbered source n) =>
    match ← r.pull source with
    | none => return none
    | some v =>
      Act.setCell ref (.numbered source (n + 1))
      return some (.tuple [.int n, v])
  | some (.zipped sources) =>
    if sources.isEmpty then return none
    else return (← pullEach r sources).map .tuple
  | some (.mapped f sources) =>
    untilExhausted do
      match ← pullEach r sources with
      | none => return none
      | some args => return some (← r.call f args)
  | some (.filtered f source) => untilExhausted (pullWhere r f source maxItemsPulled)
  | some (.repeated f sentinel) =>
    let v ← untilExhausted do return some (← r.call f [])
    match v with
    | none =>
      Act.setCell ref (.items [])
      return none
    | some v =>
      if v.same sentinel then
        Act.setCell ref (.items [])
        return none
      else return some v

/-- Go through the items of an iterator. A step gives the new state and whether to go on. -/
def foldPulled {σ : Type} (pull : Act (Option Value)) (step : σ → Value → Act (σ × Bool)) :
    Nat → σ → Act σ
  | 0, _ => throw .endless
  | fuel + 1, s => do
    match ← pull with
    | none => return s
    | some v =>
      let (s, go) ← step s v
      if go then foldPulled pull step fuel s else return s

/-- Go through the items of a list. -/
def foldListed {σ : Type} (step : σ → Value → Act (σ × Bool)) : List Value → σ → Act σ
  | [], s => return s
  | v :: vs, s => do
    let (s, go) ← step s v
    if go then foldListed step vs s else return s

/-- Go through the items of a value, one after the other. -/
def foldItems {σ : Type} (r : Reach) (v : Value) (init : σ) (step : σ → Value → Act (σ × Bool)) :
    Act σ := do
  match v.items? with
  | some xs => foldListed step xs init
  | none =>
    let (ref, _) ← v.iterate
    foldPulled (r.pull ref) step maxItemsPulled init

/-- All items of a value. -/
def collect (r : Reach) (v : Value) : Act (List Value) := do
  match v.items? with
  | some xs => return xs
  | none =>
    let acc ← foldItems r v #[] fun (acc : Array Value) x => return (acc.push x, true)
    return acc.toList

end Stackwise
