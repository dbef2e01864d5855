import Mathlib.Data.Nat.Digits.Defs
import Stackwise.Proofs.Emission

/-!
# From listings to bytes

Operands are spelled in base 256, and `splitOperand_value` reads them back. Building spells every
slot as one byte, a marker as the position of its label (`outcome_build`). Together with
`Tree.emit_follows` this says what compiling a tree is: `Tree.compile_eq_ok`. `Code.Lists.decode?`
reads the code back: its pairs of bytes are the cells of the listing, one after the other.
-/
namespace Stackwise

/-! ### Operands -/

theorem byteDigits_go (fuel n : Nat) (h : n < 256 ^ fuel) :
    byteDigits.go fuel n = Nat.digits 256 n := by
  induction fuel generalizing n with
  | zero =>
    obtain rfl : n = 0 := by simpa using h
    rfl
  | succ fuel ih =>
    rw [byteDigits.go]
    split_ifs with hn
    · simp [hn]
    · rw [Nat.digits_def' (by decide) (Nat.pos_of_ne_zero hn), ih]
      rw [Nat.pow_succ] at h
      omega

/-- The bytes of an operand are its digits. -/
theorem byteDigits_eq (n : Nat) : byteDigits n = Nat.digits 256 n := by
  apply byteDigits_go
  calc
    n < 2 ^ (n.log2 + 1) := Nat.lt_log2_self
    _ ≤ 2 ^ (8 * (n.log2 / 8 + 1)) := Nat.pow_le_pow_right (by decide) (by omega)
    _ = 256 ^ (n.log2 / 8 + 1) := by rw [Nat.pow_mul]

/-- What prefixes, high bytes first, add up to. -/
def prefixValue (high : List Nat) : Nat := high.foldl (fun v b => v * 256 + b) 0

theorem prefixValue_concat (high : List Nat) (b : Nat) :
    prefixValue (high ++ [b]) = prefixValue high * 256 + b := by simp [prefixValue]

/-- The prefixes and the last byte of an operand add up to it. -/
theorem splitOperand_value (arg : Nat) :
    prefixValue (splitOperand arg).1 * 256 + (splitOperand arg).2 = arg := by
  have value : Nat.ofDigits 256 (byteDigits arg) = arg := by
    rw [byteDigits_eq, Nat.ofDigits_digits]
  rw [Nat.ofDigits_eq_foldr] at value
  unfold splitOperand
  cases hd : byteDigits arg with
  | nil => simpa [hd, prefixValue] using value
  | cons low high =>
    rw [hd, List.foldr_cons] at value
    simp only [prefixValue, List.foldl_reverse]
    have same : List.foldr (fun b v => v * 256 + b) 0 high =
        List.foldr (fun b v => b + 256 * v) 0 high := by
      congr 1
      funext b v
      omega
    rw [same]
    simp only [Nat.cast_id] at value
    omega

/-- The bytes of an operand are bytes. -/
theorem splitOperand_lt (arg : Nat) :
    (∀ b ∈ (splitOperand arg).1, b < 256) ∧ (splitOperand arg).2 < 256 := by
  have digit : ∀ b ∈ byteDigits arg, b < 256 := by
    intro b hb
    rw [byteDigits_eq] at hb
    exact Nat.digits_lt_base (by decide) hb
  unfold splitOperand
  cases hd : byteDigits arg with
  | nil => simp
  | cons low high =>
    rw [hd] at digit
    simpa [and_comm] using digit

/-- An operand of one byte has no prefixes. -/
theorem splitOperand_of_lt {arg : Nat} (h : arg < 256) : splitOperand arg = ([], arg) := by
  unfold splitOperand
  rw [byteDigits_eq]
  cases arg with
  | zero => simp
  | succ n => rw [Nat.digits_of_lt 256 (n + 1) (by omega) h]; rfl

/-! ### Building -/

/-- A byte spells a slot: a number itself, and a marker the position of its label. -/
def Slot.SpelledBy (labels : List (Marker × Nat)) : Slot → UInt8 → Prop
  | .byte n, b => b.toNat = n
  | .mark m, b => labels.lookup m = some b.toNat

theorem toNat_ofNat_of_lt {n : Nat} (h : n < 256) : (UInt8.ofNat n).toNat = n := by
  rw [UInt8.toNat_ofNat']
  omega

/-- Resolving and spelling succeed exactly when every slot has a byte. -/
theorem slotBytes_resolveSlots {labels : List (Marker × Nat)} {slots : List Slot}
    {bytes : List UInt8} :
    (resolveSlots labels slots).2 = none ∧
        slotBytes (resolveSlots labels slots).1 = some bytes ↔
      List.Forall₂ (Slot.SpelledBy labels) slots bytes := by
  induction slots generalizing bytes with
  | nil => simp [resolveSlots, slotBytes]
  | cons slot slots ih =>
    have number : ∀ n, slotBytes (.byte n :: (resolveSlots labels slots).1) = some bytes ↔
        ∃ b bs, b.toNat = n ∧ slotBytes (resolveSlots labels slots).1 = some bs ∧
          bytes = b :: bs := by
      intro n
      rw [slotBytes]
      constructor
      · intro h
        split_ifs at h with hn
        obtain ⟨bs, hbs, rfl⟩ := Option.map_eq_some_iff.1 h
        exact ⟨_, bs, toNat_ofNat_of_lt hn, hbs, rfl⟩
      · rintro ⟨b, bs, rfl, hbs, rfl⟩
        simp [hbs, b.toNat_lt]
    rw [List.forall₂_cons_left_iff]
    cases slot with
    | byte n =>
      simp only [resolveSlots, number, Slot.SpelledBy, ← ih]
      grind
    | mark m =>
      cases hm : labels.lookup m with
      | none => simp [resolveSlots, hm, Slot.SpelledBy]
      | some n =>
        simp only [resolveSlots, hm, number, Slot.SpelledBy, ← ih]
        grind

/-- Building succeeds exactly when every slot has a byte. -/
theorem outcome_build {a : Assembler} {code : Code} :
    (outcome Emit.build a).1 = .ok code ↔
      ∃ bytes, List.Forall₂ (Slot.SpelledBy a.labels) a.code.toList bytes ∧
        code = ⟨a.names, a.consts, bytes.toArray⟩ := by
  simp only [← slotBytes_resolveSlots]
  cases hs : resolveSlots a.labels a.code.toList with
  | mk slots stuck =>
    simp only [Emit.build, outcome_bind, outcome_get, chain_ok, hs, outcome_set]
    cases stuck with
    | some m => simp
    | none =>
      cases hb : slotBytes slots with
      | none => simp
      | some bytes => simp [eq_comm]

/-! ### Compiling -/

/-- Bytes are the code of a listing. -/
def Line.Encodes (ls : List Line) (bytes : List UInt8) : Prop :=
  List.Forall₂ (Slot.SpelledBy (Line.labelsFrom 0 ls)) (Line.allSlots ls) bytes

/-- A program is made of a listing: it has the tables, and the bytes are those of the lines. -/
structure Code.Lists (code : Code) (ls : List Line) (p : Pool) : Prop where
  names : code.names = p.names
  consts : code.consts = p.consts
  encodes : Line.Encodes ls code.bytes.toList
  labels : (Line.labels ls).Nodup

/-- Compiling a tree, of whatever shape, is drafting a listing and spelling it out. -/
theorem Tree.compile_eq_ok {t : Tree} {code : Code} :
    t.compile = .ok code ↔ ∃ ls p, t.draft {} = some (ls, p) ∧ code.Lists ls p := by
  have run : t.compile = (outcome (do t.emit; Emit.build) {}).1 := rfl
  rw [run, outcome_bind]
  constructor
  · intro h
    rcases he : outcome t.emit {} with ⟨_ | u, a⟩
    · simp [he] at h
    · obtain ⟨ls, p, hd, ⟨hl, -⟩, rfl⟩ := (t.emit_follows _ _).1 he
      rw [he, chain_ok] at h
      obtain ⟨bytes, hb, rfl⟩ := outcome_build.1 h
      exact ⟨ls, p, hd, rfl, rfl, by simpa [Line.Encodes, Assembler.extend] using hb, hl⟩
  · rintro ⟨ls, p, hd, hn, hc, hb, hl⟩
    have he : outcome t.emit {} = (.ok (), Assembler.extend {} ls p) :=
      (t.emit_follows _ _).2 ⟨ls, p, hd, ⟨hl, by simp⟩, rfl⟩
    rw [he, chain_ok, outcome_build]
    refine ⟨code.bytes.toList, by simpa [Line.Encodes, Assembler.extend] using hb, ?_⟩
    simp [Assembler.extend, ← hn, ← hc]

/-! ### Positions of labels -/

namespace Line

/-- A marker stands for the place where its label is. -/
theorem lookup_labelsFrom {start n : Nat} {ls : List Line} {m : Marker}
    (h : (labelsFrom start ls).lookup m = some n) :
    ∃ pre post, ls = pre ++ Line.label m :: post ∧ m ∉ labels pre ∧ n = start + totalWidth pre := by
  induction ls generalizing start with
  | nil => simp [labelsFrom] at h
  | cons l ls ih =>
    have later : ∀ start', (labelsFrom start' ls).lookup m = some n → start' = start + l.width →
        m ∉ labels [l] → ∃ pre post, l :: ls = pre ++ Line.label m :: post ∧ m ∉ labels pre ∧
          n = start + totalWidth pre := by
      rintro _ h rfl hl
      obtain ⟨pre, post, rfl, hm, rfl⟩ := ih h
      refine ⟨l :: pre, post, rfl, ?_, by simp; omega⟩
      rw [← List.singleton_append, labels_append]
      simp [hl, hm]
    cases l with
    | label k =>
      rw [labelsFrom, List.lookup_cons] at h
      by_cases hk : m = k
      · subst hk
        obtain rfl : start = n := by simpa using h
        exact ⟨[], ls, rfl, by simp [labels], by simp⟩
      · rw [beq_false_of_ne hk] at h
        exact later _ h (by simp) (by simpa [labels] using hk)
    | _ => exact later _ h rfl (by simp [labels])

end Line

/-! ### Listings that have bytes -/

theorem exists_forall₂_iff {α β : Type} {R : α → β → Prop} {xs : List α} :
    (∃ ys, List.Forall₂ R xs ys) ↔ ∀ x ∈ xs, ∃ y, R x y := by
  induction xs with
  | nil => simp
  | cons x xs ih =>
    rw [List.forall_mem_cons, ← ih]
    constructor
    · rintro ⟨_, _ | ⟨hy, hys⟩⟩
      exact ⟨⟨_, hy⟩, _, hys⟩
    · rintro ⟨⟨y, hy⟩, ys, hys⟩
      exact ⟨y :: ys, .cons hy hys⟩

theorem Slot.exists_spelledBy_byte {labels : List (Marker × Nat)} {n : Nat} :
    (∃ b, (Slot.byte n).SpelledBy labels b) ↔ n < 256 :=
  ⟨fun ⟨b, hb⟩ => hb ▸ b.toNat_lt, fun hn => ⟨_, toNat_ofNat_of_lt hn⟩⟩

theorem Slot.exists_spelledBy_mark {labels : List (Marker × Nat)} {m : Marker} :
    (∃ b, (Slot.mark m).SpelledBy labels b) ↔ ∃ n < 256, labels.lookup m = some n := by
  constructor
  · rintro ⟨b, hb⟩
    exact ⟨_, b.toNat_lt, hb⟩
  · rintro ⟨n, hn, hm⟩
    exact ⟨.ofNat n, by rw [SpelledBy, toNat_ofNat_of_lt hn, hm]⟩

theorem Opcode.toNat_lt (op : Opcode) : op.toNat < 256 :=
  Nat.lt_trans (List.getElem?_eq_some_iff.1 (Opcode.ofNat?_toNat op)).1 (by decide)

namespace Line

/-- An instruction without a jump is made of bytes. -/
theorem instructionSlots_byte {op : Opcode} {arg : Nat} {x : Slot}
    (h : x ∈ instructionSlots op arg) : ∃ n < 256, x = .byte n := by
  obtain ⟨high, low⟩ := splitOperand_lt arg
  simp only [instructionSlots, prefixSlots, List.mem_append, List.mem_flatMap, List.mem_cons,
    List.not_mem_nil, or_false] at h
  rcases h with ⟨b, hb, rfl | rfl⟩ | rfl | rfl
  · exact ⟨_, Opcode.toNat_lt _, rfl⟩
  · exact ⟨_, high b hb, rfl⟩
  · exact ⟨_, Opcode.toNat_lt _, rfl⟩
  · exact ⟨_, low, rfl⟩

/-- A listing has bytes exactly if every jump has a label whose place fits into a byte. -/
theorem exists_encodes {ls : List Line} :
    (∃ bytes, Encodes ls bytes) ↔
      ∀ kind m, .jump kind m ∈ ls → ∃ n < 256, (labelsFrom 0 ls).lookup m = some n := by
  have spelled : (∃ bytes, Encodes ls bytes) ↔
      ∀ l ∈ ls, ∀ x ∈ l.slots, ∃ b, x.SpelledBy (labelsFrom 0 ls) b := by
    simp only [Encodes, exists_forall₂_iff, allSlots, List.mem_flatMap]
    grind
  rw [spelled]
  constructor
  · intro h kind m hl
    exact Slot.exists_spelledBy_mark.1 (h _ hl (.mark m) (by simp [slots]))
  · intro h l hl x hx
    have ordinary : (∃ n < 256, x = .byte n) → ∃ b, x.SpelledBy (labelsFrom 0 ls) b := by
      rintro ⟨n, hn, rfl⟩
      exact Slot.exists_spelledBy_byte.2 hn
    cases l with
    | label m => cases hx
    | jump kind m =>
      obtain rfl | rfl : x = .byte kind.opcode.toNat ∨ x = .mark m := by simpa [slots] using hx
      · exact Slot.exists_spelledBy_byte.2 (by cases kind <;> decide)
      · exact Slot.exists_spelledBy_mark.2 (h kind m hl)
    | _ => exact ordinary (instructionSlots_byte hx)

end Line

/-! ### Reading code back -/

/-- The operation and the operand byte at a place, if there is an operation. -/
def Code.decode? (c : Code) (pc : Nat) : Option (Opcode × Nat) := do
  let (op, byte) ← c.fetch? pc
  let op ← Opcode.ofNat? op.toNat
  return (op, byte.toNat)

namespace Line

/-- The instruction of an operation and the prefixes before it. -/
def operationCells (op : Opcode) (arg : Nat) : List (Opcode × Slot) :=
  (splitOperand arg).1.map (fun b => (.extendedArg, .byte b)) ++ [(op, .byte (splitOperand arg).2)]

/-- The instruction of a line and the prefixes before it. -/
def cells : Line → List (Opcode × Slot)
  | .const i _ => operationCells .loadConst i
  | .name use i _ => operationCells use.opcode i
  | .plain op arg _ => operationCells op arg
  | .jump kind m => [(kind.opcode, .mark m)]
  | .label _ => []

/-- The cells of several lines. -/
def allCells (ls : List Line) : List (Opcode × Slot) := ls.flatMap cells

/-- The two slots of a cell. -/
def cellSlots (c : Opcode × Slot) : List Slot := [.byte c.1.toNat, c.2]

theorem operationCells_slots (op : Opcode) (arg : Nat) :
    (operationCells op arg).flatMap cellSlots = instructionSlots op arg := by
  simp [operationCells, instructionSlots, prefixSlots, cellSlots, List.flatMap_append,
    List.flatMap_map]

theorem cells_slots (l : Line) : l.cells.flatMap cellSlots = l.slots := by
  cases l with
  | jump kind m => rfl
  | label m => rfl
  | _ => exact operationCells_slots _ _

theorem allCells_slots (ls : List Line) : (allCells ls).flatMap cellSlots = allSlots ls := by
  simp [allCells, allSlots, List.flatMap_assoc, cells_slots]

@[simp] theorem allCells_append (ls ms : List Line) :
    allCells (ls ++ ms) = allCells ls ++ allCells ms := List.flatMap_append

@[simp] theorem allCells_cons (l : Line) (ls : List Line) :
    allCells (l :: ls) = l.cells ++ allCells ls := rfl

theorem length_cells (l : Line) : l.cells.length = l.width := by
  cases l <;> simp [cells, operationCells, width, slots, length_instructionSlots]

theorem length_allCells (ls : List Line) : (allCells ls).length = totalWidth ls := by
  induction ls with
  | nil => rfl
  | cons l ls ih => rw [allCells_cons, List.length_append, length_cells, ih, totalWidth_cons]

end Line

/-- The number in a slot once the positions of labels are known. -/
def Slot.Holds (labels : List (Marker × Nat)) : Slot → Nat → Prop
  | .byte n, b => b = n
  | .mark m, b => labels.lookup m = some b

theorem spelled_cells {labels : List (Marker × Nat)} {cs : List (Opcode × Slot)}
    {bytes : List UInt8}
    (h : List.Forall₂ (Slot.SpelledBy labels) (cs.flatMap Line.cellSlots) bytes) :
    bytes.length = 2 * cs.length ∧ ∀ (s : Nat) (op : Opcode) (x : Slot), cs[s]? = some (op, x) →
      ∃ b n : UInt8, bytes[2 * s]? = some b ∧ bytes[2 * s + 1]? = some n ∧ b.toNat = op.toNat ∧
        x.Holds labels n.toNat := by
  induction cs generalizing bytes with
  | nil =>
    cases h
    simp
  | cons c cs ih =>
    rw [List.flatMap_cons, Line.cellSlots, List.cons_append, List.cons_append, List.nil_append] at h
    obtain ⟨b, bs, hb, hbs, rfl⟩ := List.forall₂_cons_left_iff.1 h
    obtain ⟨n, ns, hn, hns, rfl⟩ := List.forall₂_cons_left_iff.1 hbs
    obtain ⟨hlength, hcells⟩ := ih hns
    refine ⟨by simp [hlength]; omega, ?_⟩
    rintro (_ | s) op x hx
    · obtain rfl : c = (op, x) := by simpa using hx
      refine ⟨b, n, rfl, rfl, hb, ?_⟩
      cases x <;> exact hn
    · simpa [Nat.mul_add] using hcells s op x hx

/-- The bytes of a program are those of cells. -/
def Code.Spells (code : Code) (labels : List (Marker × Nat)) (cs : List (Opcode × Slot)) : Prop :=
  List.Forall₂ (Slot.SpelledBy labels) (cs.flatMap Line.cellSlots) code.bytes.toList

namespace Code.Spells

variable {code : Code} {labels : List (Marker × Nat)} {cs : List (Opcode × Slot)}
  (h : code.Spells labels cs)
include h

theorem size_bytes : code.bytes.size = 2 * cs.length := by
  simpa using (spelled_cells h).1

theorem size_eq : code.size = cs.length := by
  rw [Code.size, h.size_bytes]
  omega

theorem decode? {s : Nat} {op : Opcode} {x : Slot} (hx : cs[s]? = some (op, x)) :
    ∃ n, code.decode? s = some (op, n) ∧ x.Holds labels n := by
  obtain ⟨b, n, hb, hn, hop, hx⟩ := (spelled_cells h).2 s op x hx
  refine ⟨n.toNat, ?_, hx⟩
  rw [Array.getElem?_toList] at hb hn
  simp [Code.decode?, Code.fetch?, hb, hn, hop, Opcode.ofNat?_toNat]

theorem fetch?_eq_none {s : Nat} : code.fetch? s = none ↔ cs.length ≤ s := by
  have size := h.size_bytes
  constructor
  · intro hs
    by_contra lt
    have first : 2 * s < code.bytes.size := by omega
    have second : 2 * s + 1 < code.bytes.size := by omega
    simp [Code.fetch?, first, second] at hs
  · intro le
    have first : code.bytes[2 * s]? = none := Array.getElem?_eq_none (by omega)
    simp [Code.fetch?, first]

/-- A cell of a part of the code. -/
theorem decode?_part {pre part post : List (Opcode × Slot)} (hcs : cs = pre ++ part ++ post)
    {k : Nat} {op : Opcode} {x : Slot} (hx : part[k]? = some (op, x)) :
    ∃ n, code.decode? (pre.length + k) = some (op, n) ∧ x.Holds labels n := by
  apply h.decode?
  obtain ⟨hk, -⟩ := List.getElem?_eq_some_iff.1 hx
  rw [hcs, List.append_assoc, List.getElem?_append_right (by omega), Nat.add_sub_cancel_left,
    List.getElem?_append_left hk, hx]

section
variable {pre post : List (Opcode × Slot)} {op : Opcode} {arg : Nat}
  (hcs : cs = pre ++ Line.operationCells op arg ++ post)
include hcs

/-- An instruction begins with its prefixes. -/
theorem decode?_prefix {k : Nat} (hk : k < (splitOperand arg).1.length) :
    code.decode? (pre.length + k) = some (.extendedArg, (splitOperand arg).1[k]) := by
  have hcell : (Line.operationCells op arg)[k]? =
      some (.extendedArg, .byte (splitOperand arg).1[k]) := by
    rw [Line.operationCells, List.getElem?_append_left (by simpa)]
    simp
  obtain ⟨n, hn, rfl⟩ := h.decode?_part hcs hcell
  exact hn

/-- The operation of an instruction comes after its prefixes. -/
theorem decode?_operation :
    code.decode? (pre.length + (splitOperand arg).1.length) = some (op, (splitOperand arg).2) := by
  have hcell : (Line.operationCells op arg)[(splitOperand arg).1.length]? =
      some (op, .byte (splitOperand arg).2) := by
    rw [Line.operationCells]
    simp
  obtain ⟨n, hn, rfl⟩ := h.decode?_part hcs hcell
  exact hn

end

end Code.Spells

namespace Code.Lists

variable {code : Code} {ls : List Line} {p : Pool} (h : code.Lists ls p)
include h

theorem spells : code.Spells (Line.labelsFrom 0 ls) (Line.allCells ls) := by
  rw [Code.Spells, Line.allCells_slots]
  exact h.encodes

theorem size_eq : code.size = Line.totalWidth ls := by
  rw [h.spells.size_eq, Line.length_allCells]

theorem decode? {s : Nat} {op : Opcode} {x : Slot} (hx : (Line.allCells ls)[s]? = some (op, x)) :
    ∃ n, code.decode? s = some (op, n) ∧ x.Holds (Line.labelsFrom 0 ls) n :=
  h.spells.decode? hx

theorem fetch?_eq_none {s : Nat} : code.fetch? s = none ↔ Line.totalWidth ls ≤ s := by
  rw [h.spells.fetch?_eq_none, Line.length_allCells]

end Code.Lists
end Stackwise
