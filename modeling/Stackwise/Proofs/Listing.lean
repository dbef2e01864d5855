import Stackwise.Proofs.Outcome

/-!
# Listings

A listing is code before it is spelled out in bytes: one line for each instruction, with the value
or the name its operand stands for, and one for each label. `Tree.draft` lists a tree. What it needs
of an assembler is only a `Pool`: the tables and the number of markers made.

`Tree.emit_follows` says that emitting a tree is drafting it and appending its lines, for trees of
any shape. Everything about compiled code is proved about listings from there on.
-/
namespace Stackwise

/-! ### Lines -/

/-- What an instruction does with a variable. -/
inductive NameUse where
  | load | store | delete
  deriving DecidableEq

def NameUse.opcode : NameUse → Opcode
  | .load => .loadName
  | .store => .storeName
  | .delete => .delName

/-- When a jump is taken. -/
inductive JumpKind where
  | always | ifFalse | atEnd
  deriving DecidableEq

def JumpKind.opcode : JumpKind → Opcode
  | .always => .jump
  | .ifFalse => .jumpIfFalse
  | .atEnd => .forIter

theorem JumpKind.opcode_ne_extendedArg (kind : JumpKind) : kind.opcode ≠ .extendedArg := by
  cases kind <;> simp [opcode]

/-- An operation whose operand is a plain number: no place in a table and no position in code. -/
def Opcode.isPlain : Opcode → Bool
  | .loadConst | .loadName | .storeName | .delName => false
  | .jump | .jumpIfFalse | .forIter | .extendedArg => false
  | _ => true

/-- A line of a listing. -/
inductive Line where
  /-- Load a constant, which has a place in the table. -/
  | const (i : Nat) (v : Value)
  /-- Use a variable, whose name has a place in the table. -/
  | name (use : NameUse) (i : Nat) (n : Name)
  | plain (op : Opcode) (arg : Nat) (isPlain : op.isPlain = true)
  | jump (kind : JumpKind) (target : Marker)
  /-- A marker stands for the next instruction. -/
  | label (m : Marker)

namespace Line

/-- The code of a line. -/
def slots : Line → List Slot
  | .const i _ => instructionSlots .loadConst i
  | .name use i _ => instructionSlots use.opcode i
  | .plain op arg _ => instructionSlots op arg
  | .jump kind m => [.byte kind.opcode.toNat, .mark m]
  | .label _ => []

/-- The number of instructions and prefixes of a line. -/
def width (l : Line) : Nat := l.slots.length / 2

/-- The markers that lines define. -/
def labels (ls : List Line) : List Marker :=
  ls.filterMap fun
    | .label m => some m
    | _ => none

/-- The markers that lines define, with their positions. -/
def labelsFrom : Nat → List Line → List (Marker × Nat)
  | _, [] => []
  | start, .label m :: ls => (m, start) :: labelsFrom start ls
  | start, l :: ls => labelsFrom (start + l.width) ls

/-- The code of several lines. -/
def allSlots (ls : List Line) : List Slot := ls.flatMap slots

/-- The number of instructions and prefixes of several lines. -/
def totalWidth : List Line → Nat
  | [] => 0
  | l :: ls => l.width + totalWidth ls

theorem length_instructionSlots (op : Opcode) (arg : Nat) :
    (instructionSlots op arg).length = 2 * ((splitOperand arg).1.length + 1) := by
  simp [instructionSlots, prefixSlots, List.length_flatMap, List.map_const']
  omega

theorem length_slots (l : Line) : l.slots.length = 2 * l.width := by
  cases l <;> simp [width, slots, length_instructionSlots]

@[simp] theorem width_label (m : Marker) : (Line.label m).width = 0 := by simp [width, slots]

@[simp] theorem width_jump (kind : JumpKind) (m : Marker) : (Line.jump kind m).width = 1 := by
  simp [width, slots]

@[simp] theorem totalWidth_nil : totalWidth [] = 0 := rfl

@[simp] theorem totalWidth_cons (l : Line) (ls : List Line) :
    totalWidth (l :: ls) = l.width + totalWidth ls := rfl

@[simp] theorem totalWidth_append (ls ms : List Line) :
    totalWidth (ls ++ ms) = totalWidth ls + totalWidth ms := by
  induction ls with
  | nil => simp
  | cons l ls ih =>
    simp only [List.cons_append, totalWidth_cons, ih]
    omega

@[simp] theorem allSlots_append (ls ms : List Line) :
    allSlots (ls ++ ms) = allSlots ls ++ allSlots ms := List.flatMap_append

theorem length_allSlots (ls : List Line) : (allSlots ls).length = 2 * totalWidth ls := by
  induction ls with
  | nil => rfl
  | cons l ls ih =>
    have h : allSlots (l :: ls) = l.slots ++ allSlots ls := rfl
    rw [h, List.length_append, ih, length_slots, totalWidth_cons]
    omega

@[simp] theorem labels_append (ls ms : List Line) : labels (ls ++ ms) = labels ls ++ labels ms := by
  simp [labels]

theorem labelsFrom_append (start : Nat) (ls ms : List Line) :
    labelsFrom start (ls ++ ms) = labelsFrom start ls ++ labelsFrom (start + totalWidth ls) ms := by
  induction ls generalizing start with
  | nil => rfl
  | cons l ls ih => cases l <;> simp [labelsFrom, ih, Nat.add_assoc]

theorem map_fst_labelsFrom (start : Nat) (ls : List Line) :
    (labelsFrom start ls).map (·.1) = labels ls := by
  induction ls generalizing start with
  | nil => rfl
  | cons l ls ih => cases l <;> simp [labelsFrom, labels, ih]

theorem labelsFrom_eq_nil {ls : List Line} (h : labels ls = []) (start : Nat) :
    labelsFrom start ls = [] := by
  rw [← List.map_eq_nil_iff, map_fst_labelsFrom, h]

end Line

/-! ### Drafts -/

/-- What emitting a tree needs to know of an assembler, and changes in it besides its code. -/
structure Pool where
  names : Array Name := #[]
  consts : Array Value := #[]
  /-- The number of markers made so far. -/
  made : Nat := 0

/-- A computation of lines over a pool. -/
abbrev Draft := StateT Pool Option

namespace Draft

/-- The place of a name in the table. -/
def addName (n : Name) : Draft Nat := fun p =>
  match n.checkKey, p.names.toList.findIdx? (· == n) with
  | .error _, _ => none
  | .ok _, some i => some (i, p)
  | .ok _, none => some (p.names.size, { p with names := p.names.push n })

/-- The place of a constant in the table. -/
def addConst (v : Value) : Draft Nat := fun p =>
  match v.checkKey, p.consts.toList.findIdx? (fun w => Value.sameConstant w v) with
  | .error _, _ => none
  | .ok _, some i => some (i, p)
  | .ok _, none => some (p.consts.size, { p with consts := p.consts.push v })

/-- A marker that nobody has used. -/
def freshMarker : Draft Marker := fun p => some (.fresh p.made, { p with made := p.made + 1 })

/-- Lines that need nothing. -/
def lines (ls : List Line) : Draft (List Line) := pure ls

/-- One after the other. -/
def join (d e : Draft (List Line)) : Draft (List Line) := do
  let ls ← d
  let ms ← e
  return ls ++ ms

instance : Append (Draft (List Line)) := ⟨join⟩

/-- Use a name. -/
def useName (use : NameUse) (n : Name) : Draft (List Line) := do
  let i ← addName n
  lines [.name use i n]

/-- An operation on a number of items. -/
def counted (op : Opcode) (isPlain : op.isPlain = true) : Option Nat → Draft (List Line)
  | some n => lines [.plain op n isPlain]
  | none => failure

/-- Change the variable of a name, if there is one, by an operation with a value. -/
def update (n? : Option Name) (value op : Draft (List Line)) : Draft (List Line) :=
  match n? with
  | some n => do
    let i ← addName n
    lines [.name .load i n] ++ value ++ op ++ lines [.name .store i n]
  | none => failure

/-- A conditional from its three parts. -/
def conditional (test body orelse : Draft (List Line)) : Draft (List Line) := do
  let otherwise ← freshMarker
  let done ← freshMarker
  test ++ lines [.jump .ifFalse otherwise, .plain .popTop 0 rfl] ++ body ++
    lines [.jump .always done, .label otherwise, .plain .popTop 0 rfl] ++ orelse ++
    lines [.label done]

/-- A loop on a condition. -/
def whileLoop (test body : Draft (List Line)) : Draft (List Line) := do
  let again ← freshMarker
  let done ← freshMarker
  lines [.label again] ++ test ++ lines [.jump .ifFalse done, .plain .popTop 0 rfl] ++ body ++
    lines [.jump .always again, .label done, .plain .popTop 0 rfl]

/-- A loop over the items of a value. -/
def forLoop (iter target body : Draft (List Line)) : Draft (List Line) := do
  let again ← freshMarker
  let done ← freshMarker
  iter ++ lines [.plain .getIter 0 rfl, .label again, .jump .atEnd done] ++ target ++ body ++
    lines [.jump .always again, .label done, .plain .popTop 0 rfl]

/-- Several, one after the other. -/
def concat : List (Draft (List Line)) → Draft (List Line)
  | [] => lines []
  | d :: ds => d ++ concat ds

/-- An assignment: every target but the last gets a copy of the value. -/
def targets : List (Draft (List Line)) → Draft (List Line)
  | [] => lines []
  | [last] => last
  | d :: ds => lines [.plain .dupTop 0 rfl] ++ d ++ targets ds

/-- The entries of a dictionary, each value before its key. -/
def entries : List (Draft (List Line)) → List (Draft (List Line)) → Draft (List Line)
  | [], _ => lines []
  | k :: ks, v :: vs => v ++ k ++ entries ks vs
  | _ :: _, [] => failure

end Draft

namespace Tree

/-- The identifier of a node that has one. -/
def identifier? (t : Tree) : Option Name := (outcome t.identifier {}).1.toOption

/-- The number of items of a field that has any. -/
def count? : Tree → Option Nat
  | .list items => some items.length
  | .leaf v => v.each?.map List.length
  | _ => none

/-- Whether a field that has items can do without its last. -/
def sliceable : Tree → Bool
  | .leaf v => (v.index withoutLast).toBool
  | _ => true

/-- The lines of a plain value among the items of a field. -/
def draftPlain : Value → Draft (List Line)
  | .list [] => Draft.lines []
  | _ => failure

/-- The lines of the items of a plain value at its first places. -/
def draftAt (v : Value) (n : Nat) : List (Draft (List Line)) :=
  (List.range n).map fun (i : Nat) => ((v.index (.int i)).toOption.map draftPlain).getD failure

/-- Delete the variable a node names. -/
def draftDelete (t : Tree) : Draft (List Line) :=
  match t.identifier? with
  | some n => Draft.useName .delete n
  | none => failure

open Draft (lines)

mutual
/-- The lines of a tree. -/
def draft : Tree → Draft (List Line)
  | .missing => failure
  | .leaf _ => failure
  | .list items => draftItems items
  | .module body => Draft.concat (parts body)
  | .interactive body => Draft.concat (parts body)
  | .expr value => draft value ++ lines [.plain .printExpr 0 rfl]
  | .assign targets value =>
    if targets.truthy && targets.sliceable then draft value ++ Draft.targets (parts targets)
    else failure
  | .augAssign target op value => Draft.update target.identifier? (draft value) (draft op)
  | .delete (.list items) => Draft.concat (items.map draftDelete)
  | .delete (.leaf v) => if (leaf v).count? = some 0 then lines [] else failure
  | .delete _ => failure
  | .pass => lines []
  | .ifStmt test body orelse => Draft.conditional (draft test) (draft body) (draft orelse)
  | .ifExp test body orelse => Draft.conditional (draft test) (draft body) (draft orelse)
  | .whileLoop test body _ => Draft.whileLoop (draft test) (draft body)
  | .forLoop target iter body orelse =>
    if orelse.isPresent && !orelse.truthy then
      Draft.forLoop (draft iter) (draft target) (draft body)
    else failure
  | .name .missing _ => failure
  | .name id (.context .store) => Draft.useName .store id.toName
  | .name id (.context .load) => Draft.useName .load id.toName
  | .name _ _ => failure
  | .constant none => failure
  | .constant (some v) => do
    let i ← Draft.addConst v
    lines [.const i v]
  | .tuple elts _ => Draft.concat (parts elts) ++ Draft.counted .buildTuple rfl elts.count?
  | .listDisplay elts _ => Draft.concat (parts elts) ++ Draft.counted .buildList rfl elts.count?
  | .setDisplay elts => Draft.concat (parts elts) ++ Draft.counted .buildSet rfl elts.count?
  | .dictDisplay keys values =>
    let n := keys.count?.getD 0
    (if keys.count? = some 0 then lines [] else Draft.entries (firsts keys n) (firsts values n)) ++
      Draft.counted .buildDict rfl keys.count?
  | .binOp left op right => draft left ++ draft right ++ draft op
  | .unaryOp op operand => draft operand ++ draft op
  | .subscript value slice _ => draft value ++ draft slice
  | .index value => draft value ++ lines [.plain .index 0 rfl]
  | .sealedIndex value => draft value ++ lines [.plain .index 0 rfl]
  | .call func args _ =>
    draft func ++ draft args ++ Draft.counted .callFunction rfl args.count?
  | .binaryOperator op => lines [.plain (.binary op) 0 rfl]
  | .unaryOperator op => lines [.plain (.unary op) 0 rfl]
  | .context _ => failure
  | .extended _ _ node => draft node
  | .other cls fields =>
    if cls == "Index" then draftIndex fields ++ lines [.plain .index 0 rfl] else failure
/-- The lines of the index among the fields of an index node. -/
def draftIndex : List (String × Tree) → Draft (List Line)
  | [] => failure
  | (f, t) :: fs => if f == "value" then draft t else draftIndex fs
/-- The lines of the nodes of a list. -/
def draftItems : List Tree → Draft (List Line)
  | [] => lines []
  | .list _ :: _ => failure
  | t :: ts => draft t ++ draftItems ts
/-- The drafts of the items of a field. One that cannot be gone through has a single item, which
fails. -/
def parts : Tree → List (Draft (List Line))
  | .list items => draftEach items
  | .leaf v => (v.each?.map (List.map draftPlain)).getD [failure]
  | _ => [failure]
/-- The drafts of the items of a field at its first places. -/
def firsts (t : Tree) (n : Nat) : List (Draft (List Line)) :=
  match t with
  | .list items => draftEach items
  | .leaf v => draftAt v n
  | _ => [failure]
/-- One draft for each tree. -/
def draftEach : List Tree → List (Draft (List Line))
  | [] => []
  | t :: ts => draft t :: draftEach ts
end

theorem draftEach_eq_map (ts : List Tree) : draftEach ts = ts.map draft := by
  induction ts with
  | nil => rfl
  | cons t ts ih => rw [draftEach, ih, List.map_cons]

/-- Where there are no lists among them, the nodes of a list are listed one after the other. -/
theorem draftItems_eq_concat {ts : List Tree} (h : ∀ t ∈ ts, ∀ items, t ≠ .list items) :
    draftItems ts = Draft.concat (draftEach ts) := by
  induction ts with
  | nil => rfl
  | cons t ts ih =>
    have ht := h t (by simp)
    rw [draftItems, ih fun s hs => h s (by simp [hs])]
    · rfl
    · exact ht

end Tree
end Stackwise
