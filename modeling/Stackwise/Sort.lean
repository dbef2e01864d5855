/-!
# Sorting

A stable merge sort for an order that has to be asked and may fail to answer. It takes the list
apart into the runs that it begins with, makes short runs longer by insertion, and merges
neighbours. An order that is not transitive is no obstacle, but then the result depends on which
questions are asked, so the questions are part of what is defined here.

A merge goes item by item at first. When one side wins often enough in a row, it goes on in leaps:
how many items of one side come before the next item of the other is found by a search that doubles
its steps. `patience` is the number of wins in a row that this takes; leaps that go far lower it.
-/
namespace Stackwise.Sort

variable {ε α : Type} [Inhabited α]

/-! ### Searching -/

/-- The end of the items that come before, in a stretch from `lo` up to `hi`, by halving it. -/
def bisect (before : Nat → Except ε Bool) : Nat → Nat → Nat → Except ε Nat
  | 0, lo, _ => .ok lo
  | fuel + 1, lo, hi =>
    if hi ≤ lo then .ok lo
    else do
      let mid := lo + (hi - lo) / 2
      if ← before mid then bisect before fuel (mid + 1) hi else bisect before fuel lo mid

/-- Distances one, three, seven and so on, as long as `more` holds: the last one where it did, and
the first one where it did not or the limit. -/
def stride (more : Nat → Except ε Bool) (limit : Nat) : Nat → Nat → Nat → Except ε (Nat × Nat)
  | 0, last, _ => .ok (last, limit)
  | fuel + 1, last, distance =>
    if limit ≤ distance then .ok (last, limit)
    else do
      if ← more distance then stride more limit fuel distance (2 * distance + 1)
      else return (last, distance)

/-- The end of the items that come before, among `n` items, starting the search at `hint`. -/
def gallop (before : Nat → Except ε Bool) (n hint : Nat) : Except ε Nat := do
  if ← before hint then
    let (near, far) ← stride (fun d => before (hint + d)) (n - hint) n 0 1
    bisect before n (hint + near + 1) (hint + far)
  else
    let (near, far) ← stride (fun d => return !(← before (hint - d))) (hint + 1) n 0 1
    bisect before n (hint + 1 - far) (hint - near)

/-- Where an item goes among sorted ones, after those that are equal to it. -/
def placeAfter (less : α → α → Except ε Bool) (x : α) (xs : Array α) (i : Nat) : Except ε Bool := do
  return !(← less x (xs.getD i default))

/-- Where an item goes among sorted ones, before those that are equal to it. -/
def placeBefore (less : α → α → Except ε Bool) (x : α) (xs : Array α) (i : Nat) : Except ε Bool :=
  less (xs.getD i default) x

/-! ### Runs -/

/-- The length of a run after its second item: it ascends, or it strictly descends. -/
def runLength (less : α → α → Except ε Bool) (descending : Bool) :
    α → List α → Nat → Except ε Nat
  | _, [], n => .ok n
  | last, x :: xs, n => do
    if (← less x last) == descending then runLength less descending x xs (n + 1) else return n

/-- Insert items one by one into a sorted array, each after those that are equal to it. -/
def insertAll (less : α → α → Except ε Bool) : Array α → List α → Except ε (Array α)
  | acc, [] => .ok acc
  | acc, x :: xs => do
    let i ← bisect (placeAfter less x acc) (acc.size + 1) 0 acc.size
    insertAll less (acc.insertIdxIfInBounds i x) xs

/-- The run at the beginning of a list, in ascending order and with at least `least` items if there
are as many, and the rest of the list. -/
def nextRun (less : α → α → Except ε Bool) (least : Nat) :
    List α → Except ε (Array α × List α)
  | x :: y :: rest => do
    let xs := x :: y :: rest
    let descending ← less y x
    let n ← runLength less descending y rest 2
    let start := if descending then (xs.take n).reverse else xs.take n
    let items ← insertAll less start.toArray ((xs.drop n).take (least - n))
    return (items, xs.drop items.size)
  | xs => .ok (xs.toArray, [])

/-- The first number with no more than six binary digits that a number comes to when it is halved,
rounded up if a digit was lost. -/
def leastRun : Nat → Nat → Nat → Nat
  | 0, n, lost => n + lost
  | fuel + 1, n, lost =>
    if n < 64 then n + lost else leastRun fuel (n / 2) (if n % 2 = 1 then 1 else lost)

/-! ### Merging -/

/-- The patience to begin with, and the length of a leap that is worth while. -/
def firstPatience : Nat := 7

/-- How a merge goes on. -/
inductive Pace where
  /-- Item by item, with the wins in a row of either side. -/
  | turns (left right : Nat)
  /-- In leaps, just begun or not. -/
  | leaps (begun : Bool)

/-- The pace after a round of leaps, and the patience. -/
def nextPace (patience left right : Nat) : Pace × Nat :=
  if firstPatience ≤ left || firstPatience ≤ right then (.leaps true, patience)
  else (.turns 0 0, patience + 1)

/-- The patience in a round of leaps: every round after the first lowers it. -/
def leapPatience (begun : Bool) (patience : Nat) : Nat :=
  if begun && decide (1 < patience) then patience - 1 else patience

/-- What is left of two sides when one of them has run out, or only the greatest item of the left
one is left. -/
def restUp (as bs : Array α) (i j : Nat) (out : Array α) : Array α :=
  out ++ bs.extract j bs.size ++ as.extract i as.size

/-- Whether a merge from the front has come to its end. -/
def isOverUp (as bs : Array α) (i j : Nat) : Bool :=
  decide (bs.size ≤ j) || decide (as.size ≤ i + 1)

/-- Merge from the front. The last item of the left side is known to be the greatest. -/
def mergeUp (less : α → α → Except ε Bool) (as bs : Array α) :
    Nat → Pace → Nat → Nat → Nat → Array α → Except ε (Array α × Nat)
  | 0, _, patience, i, j, out => .ok (restUp as bs i j out, patience)
  | fuel + 1, .turns left right, patience, i, j, out => do
    let x := as.getD i default
    let y := bs.getD j default
    if ← less y x then
      if isOverUp as bs i (j + 1) then return (restUp as bs i (j + 1) (out.push y), patience)
      else
        let pace := if patience ≤ right + 1 then .leaps false else .turns 0 (right + 1)
        mergeUp less as bs fuel pace patience i (j + 1) (out.push y)
    else
      if isOverUp as bs (i + 1) j then return (restUp as bs (i + 1) j (out.push x), patience)
      else
        let pace := if patience ≤ left + 1 then .leaps false else .turns (left + 1) 0
        mergeUp less as bs fuel pace patience (i + 1) j (out.push x)
  | fuel + 1, .leaps begun, patience, i, j, out => do
    let patience := leapPatience begun patience
    let y := bs.getD j default
    let left ← gallop (fun k => placeAfter less y as (i + k)) (as.size - i) 0
    let out := out ++ as.extract i (i + left)
    let i := i + left
    if isOverUp as bs i j then return (restUp as bs i j out, patience)
    let out := out.push y
    let j := j + 1
    if isOverUp as bs i j then return (restUp as bs i j out, patience)
    let x := as.getD i default
    let right ← gallop (fun k => placeBefore less x bs (j + k)) (bs.size - j) 0
    let out := out ++ bs.extract j (j + right)
    let j := j + right
    if isOverUp as bs i j then return (restUp as bs i j out, patience)
    let out := out.push x
    let i := i + 1
    if isOverUp as bs i j then return (restUp as bs i j out, patience)
    let (pace, patience) := nextPace patience left right
    mergeUp less as bs fuel pace patience i j out

/-- What is left of two sides when one of them has run out, or only the least item of the right one
is left. The output is kept from its end. -/
def restDown (as bs : Array α) (i j : Nat) (out : List α) : Array α :=
  bs.extract 0 j ++ as.extract 0 i ++ out.toArray

/-- Whether a merge from the back has come to its end. -/
def isOverDown (i j : Nat) : Bool := decide (i = 0) || decide (j ≤ 1)

/-- Merge from the back; `i` and `j` items of the two sides are left. The first item of the right
side is known to be the least. -/
def mergeDown (less : α → α → Except ε Bool) (as bs : Array α) :
    Nat → Pace → Nat → Nat → Nat → List α → Except ε (Array α × Nat)
  | 0, _, patience, i, j, out => .ok (restDown as bs i j out, patience)
  | fuel + 1, .turns left right, patience, i, j, out => do
    let x := as.getD (i - 1) default
    let y := bs.getD (j - 1) default
    if ← less y x then
      if isOverDown (i - 1) j then return (restDown as bs (i - 1) j (x :: out), patience)
      else
        let pace := if patience ≤ left + 1 then .leaps false else .turns (left + 1) 0
        mergeDown less as bs fuel pace patience (i - 1) j (x :: out)
    else
      if isOverDown i (j - 1) then return (restDown as bs i (j - 1) (y :: out), patience)
      else
        let pace := if patience ≤ right + 1 then .leaps false else .turns 0 (right + 1)
        mergeDown less as bs fuel pace patience i (j - 1) (y :: out)
  | fuel + 1, .leaps begun, patience, i, j, out => do
    let patience := leapPatience begun patience
    let y := bs.getD (j - 1) default
    let k ← gallop (placeAfter less y as) i (i - 1)
    let left := i - k
    let out := (as.extract k i).toList ++ out
    let i := k
    if isOverDown i j then return (restDown as bs i j out, patience)
    let out := y :: out
    let j := j - 1
    if isOverDown i j then return (restDown as bs i j out, patience)
    let x := as.getD (i - 1) default
    let k ← gallop (placeBefore less x bs) j (j - 1)
    let right := j - k
    let out := (bs.extract k j).toList ++ out
    let j := k
    if isOverDown i j then return (restDown as bs i j out, patience)
    let out := x :: out
    let i := i - 1
    if isOverDown i j then return (restDown as bs i j out, patience)
    let (pace, patience) := nextPace patience left right
    mergeDown less as bs fuel pace patience i j out

/-- Merge two sides that overlap: the first item of the right side is less than all of the left
side, and the last item of the left side greater than all of the right side. -/
def mergeOverlap (less : α → α → Except ε Bool) (patience : Nat) (as bs : Array α) :
    Except ε (Array α × Nat) :=
  let fuel := as.size + bs.size
  if as.size ≤ bs.size then
    let out := #[bs.getD 0 default]
    if isOverUp as bs 0 1 then .ok (restUp as bs 0 1 out, patience)
    else mergeUp less as bs fuel (.turns 0 0) patience 0 1 out
  else
    let out := [as.getD (as.size - 1) default]
    let i := as.size - 1
    if isOverDown i bs.size then .ok (restDown as bs i bs.size out, patience)
    else mergeDown less as bs fuel (.turns 0 0) patience i bs.size out

/-- Merge two sorted arrays. What comes before the other side and what comes after it stays where it
is. -/
def merge (less : α → α → Except ε Bool) (patience : Nat) (as bs : Array α) :
    Except ε (Array α × Nat) := do
  let first := bs.getD 0 default
  let k ← gallop (placeAfter less first as) as.size 0
  if as.size ≤ k then return (as ++ bs, patience)
  let last := as.getD (as.size - 1) default
  let n ← gallop (placeBefore less last bs) bs.size (bs.size - 1)
  if n = 0 then return (as ++ bs, patience)
  let (middle, patience) ←
    mergeOverlap less patience (as.extract k as.size) (bs.extract 0 n)
  return (as.extract 0 k ++ middle ++ bs.extract n bs.size, patience)

/-! ### The order of merges -/

/-- A run, where it starts, and the depth of its border with the next one. -/
structure Run (α : Type) where
  start : Nat
  items : Array α
  depth : Nat

/-- The depth at which a list of `n` items that is halved again and again has a border between two
points, given by their distances from its start. -/
def depthBetween (n : Nat) : Nat → Nat → Nat → Nat
  | 0, _, _ => 0
  | fuel + 1, a, b =>
    if n ≤ a then depthBetween n fuel (2 * (a - n)) (2 * (b - n)) + 1
    else if n ≤ b then 1
    else depthBetween n fuel (2 * a) (2 * b) + 1

/-- The depth of the border between two neighbours, by the middles of both. -/
def borderDepth (n : Nat) (r : Run α) (size : Nat) : Nat :=
  let a := 2 * r.start + r.items.size
  depthBetween n (Nat.log2 n + 2) a (a + r.items.size + size)

/-- Merge a run with the next one. -/
def join (less : α → α → Except ε Bool) (patience : Nat) (r s : Run α) :
    Except ε (Run α × Nat) := do
  let (items, patience) ← merge less patience r.items s.items
  return ({ r with items }, patience)

/-- Merge the last run with those before it whose borders are deeper than a new one. -/
def settle (less : α → α → Except ε Bool) (depth : Nat) :
    Nat → Run α → List (Run α) → Except ε (Run α × List (Run α) × Nat)
  | patience, top, [] => .ok (top, [], patience)
  | patience, top, r :: rest =>
    if depth < r.depth then do
      let (top, patience) ← join less patience r top
      settle less depth patience top rest
    else .ok (top, r :: rest, patience)

/-- Add a run to those before it, the last of which comes first. -/
def addRun (less : α → α → Except ε Bool) (n patience : Nat) (new : Run α) :
    List (Run α) → Except ε (List (Run α) × Nat)
  | [] => .ok ([new], patience)
  | top :: rest => do
    let depth := borderDepth n top new.items.size
    let (top, rest, patience) ← settle less depth patience top rest
    return (new :: { top with depth } :: rest, patience)

/-- The runs of a list of `n` items, the last one first. -/
def findRuns (less : α → α → Except ε Bool) (n : Nat) :
    Nat → Nat → Nat → List (Run α) → List α → Except ε (List (Run α) × Nat)
  | 0, _, patience, runs, _ => .ok (runs, patience)
  | _, _, patience, runs, [] => .ok (runs, patience)
  | fuel + 1, start, patience, runs, xs => do
    let (items, rest) ← nextRun less (leastRun n n 0) xs
    let (runs, patience) ← addRun less n patience ⟨start, items, 0⟩ runs
    findRuns less n fuel (start + items.size) patience runs rest

/-- Merge all runs from the end, the shorter neighbour of the last but one first. -/
def joinAll (less : α → α → Except ε Bool) :
    Nat → Run α → Run α → List (Run α) → Except ε (Array α)
  | patience, last, r, [] => do
    let (r, _) ← join less patience r last
    return r.items
  | patience, last, r, q :: rest =>
    if q.items.size < last.items.size then do
      let (r, patience) ← join less patience q r
      joinAll less patience last r rest
    else do
      let (last, patience) ← join less patience r last
      joinAll less patience last q rest

/-- A list in ascending order; equal items keep their order. -/
def sort (less : α → α → Except ε Bool) (xs : List α) : Except ε (List α) := do
  let (runs, patience) ← findRuns less xs.length xs.length 0 firstPatience [] xs
  match runs with
  | [] => return []
  | [r] => return r.items.toList
  | last :: r :: rest => return (← joinAll less patience last r rest).toList

end Stackwise.Sort
