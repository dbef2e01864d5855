import Mathlib.Data.List.Induction
import Stackwise.Proofs.Loop
import Stackwise.Proofs.Tables
import Stackwise.Syntax.Build

/-!
# Well-formed code

Code is well formed if it is made of whole instructions with their prefixes, operands that point
into a table or into the code do point there, and jumps lead to the first prefix of an instruction
or to the end. Compiled code is (`Code.Lists.wellFormed`), and a run of well-formed code never
leaves it: each turn of the loop keeps the place in the code and the prefixes read so far together
(`Code.WellFormed.turn`).
-/
namespace Stackwise

namespace Code

variable (c : Code)

/-- What the prefixes right before a place add up to. -/
def pending : Nat → Nat
  | 0 => 0
  | s + 1 =>
    match c.decode? s with
    | some (.extendedArg, b) => pending s * 256 + b
    | _ => 0

/-- A place that no prefix stands before: an instruction begins there, or the code ends. -/
def IsStart : Nat → Prop
  | 0 => True
  | s + 1 => ∀ b, c.decode? s ≠ some (.extendedArg, b)

/-- An operand that is an index points into its table. -/
def InTable (op : Opcode) (arg : Nat) : Prop :=
  (op = .loadConst → arg < c.consts.size) ∧
    ∀ use, op = NameUse.opcode use → arg < c.names.size

/-- Code that a run cannot leave. -/
structure WellFormed : Prop where
  even : 2 ∣ c.bytes.size
  /-- Every pair of bytes has an operation. -/
  operation : ∀ s < c.size, ∃ op b, c.decode? s = some (op, b)
  /-- A prefix is not the last instruction. -/
  followed : ∀ s b, c.decode? s = some (.extendedArg, b) → s + 1 < c.size
  /-- Operands with all their prefixes point into the tables. -/
  entry : ∀ s op b, c.decode? s = some (op, b) → c.InTable op (c.pending s * 256 + b)
  /-- A jump has no prefix, and leads to the start of an instruction or to the end. -/
  jump : ∀ kind s b, c.decode? s = some (JumpKind.opcode kind, b) →
    c.IsStart s ∧ (b < c.size ∧ c.IsStart b ∨ b = c.size)

end Code

/-! ### Lines in code -/

namespace Line

/-- The operation and the operand of a line that is neither a jump nor a label. -/
def operation? : Line → Option (Opcode × Nat)
  | .const i _ => some (.loadConst, i)
  | .name use i _ => some (use.opcode, i)
  | .plain op arg _ => some (op, arg)
  | .jump _ _ | .label _ => none

theorem jump_cell (kind : JumpKind) (m : Marker) :
    (Line.jump kind m).cells[0]? = some (kind.opcode, Slot.mark m) := rfl

/-- Such an operation is no prefix and no jump. -/
theorem operation?_ordinary {l : Line} {op : Opcode} {arg : Nat}
    (h : l.operation? = some (op, arg)) :
    op ≠ .extendedArg ∧ ∀ kind, op ≠ JumpKind.opcode kind := by
  cases l with
  | const i v =>
    cases h
    exact ⟨nofun, fun kind => by cases kind <;> nofun⟩
  | name use i n =>
    cases h
    exact ⟨by cases use <;> nofun, fun kind => by cases use <;> cases kind <;> nofun⟩
  | plain op arg hop =>
    cases h
    exact ⟨fun he => by simp [he, Opcode.isPlain] at hop,
      fun kind he => by cases kind <;> simp [he, JumpKind.opcode, Opcode.isPlain] at hop⟩
  | jump kind m => cases h
  | label m => cases h

theorem cells_of_operation {l : Line} {op : Opcode} {arg : Nat}
    (h : l.operation? = some (op, arg)) :
    l.cells = operationCells op arg := by
  cases l <;> cases h <;> rfl

theorem width_of_operation {l : Line} {op : Opcode} {arg : Nat}
    (h : l.operation? = some (op, arg)) :
    l.width = (splitOperand arg).1.length + 1 := by
  rw [← length_cells, cells_of_operation h]
  simp [operationCells]

/-- The operand of a line that is known to the tables points into them. -/
theorem Known.inTable {l : Line} {p : Pool} {code : Code} {op : Opcode} {arg : Nat}
    (h : l.Known p) (hc : code.consts = p.consts) (hn : code.names = p.names)
    (hop : l.operation? = some (op, arg)) : code.InTable op arg := by
  cases l with
  | const i v =>
    cases hop
    obtain ⟨w, hw, -⟩ := h
    refine ⟨fun _ => hc ▸ (Array.getElem?_eq_some_iff.1 hw).1, fun use => by cases use <;> nofun⟩
  | name use i n =>
    cases hop
    obtain ⟨k, hk, -⟩ := h
    exact ⟨by cases use <;> nofun, fun _ _ => hn ▸ (Array.getElem?_eq_some_iff.1 hk).1⟩
  | plain op arg hp =>
    cases hop
    exact ⟨fun he => by simp [he, Opcode.isPlain] at hp,
      fun use he => by cases use <;> simp [he, NameUse.opcode, Opcode.isPlain] at hp⟩
  | jump kind m => cases hop
  | label m => cases hop

/-- A place in the code of a listing is a place in the code of one of its lines. -/
theorem exists_line_at {ls : List Line} {s : Nat} (h : s < totalWidth ls) :
    ∃ (pre : List Line) (l : Line) (post : List Line) (k : Nat),
      ls = pre ++ l :: post ∧ s = totalWidth pre + k ∧ k < l.width := by
  induction ls generalizing s with
  | nil => simp at h
  | cons l ls ih =>
    by_cases hs : s < l.width
    · exact ⟨[], l, ls, s, rfl, by simp, hs⟩
    · rw [totalWidth_cons] at h
      obtain ⟨pre, l', post, k, rfl, hk, hlt⟩ := ih (s := s - l.width) (by omega)
      exact ⟨l :: pre, l', post, k, rfl, by rw [totalWidth_cons]; omega, hlt⟩

/-- The last cell of lines is no prefix. -/
theorem getLast?_allCells {ls : List Line} {c : Opcode × Slot}
    (h : (allCells ls).getLast? = some c) : c.1 ≠ .extendedArg := by
  induction ls using List.reverseRecOn with
  | nil => cases h
  | append_singleton ls l ih =>
    have hl : ∀ d, l.cells.getLast? = some d → d.1 ≠ .extendedArg := by
      intro d hd
      cases hop : l.operation? with
      | some p =>
        rw [cells_of_operation hop, operationCells, List.getLast?_concat] at hd
        cases hd
        exact (operation?_ordinary hop).1
      | none =>
        cases l with
        | jump kind m =>
          cases hd
          exact JumpKind.opcode_ne_extendedArg kind
        | label m => cases hd
        | _ => cases hop
    rw [allCells_append, List.getLast?_append] at h
    cases hd : l.cells.getLast? with
    | none =>
      refine ih ?_
      simpa [allCells, hd] using h
    | some d =>
      obtain rfl : d = c := by simpa [allCells, hd] using h
      exact hl d hd

end Line

theorem Code.pending_of_isStart {c : Code} {s : Nat} (h : c.IsStart s) : c.pending s = 0 := by
  cases s with
  | zero => rfl
  | succ s =>
    rw [pending]
    split
    · next b hb => exact absurd hb (h b)
    · rfl

namespace Code.Lists

variable {code : Code} {ls : List Line} {p : Pool} (h : code.Lists ls p)
include h

/-- What a line is in the code: the cell with a given number. -/
theorem decode?_line {pre post : List Line} {l : Line} (hls : ls = pre ++ l :: post) {k : Nat}
    {op : Opcode} {x : Slot} (hx : l.cells[k]? = some (op, x)) :
    ∃ n, code.decode? (Line.totalWidth pre + k) = some (op, n) ∧
      x.Holds (Line.labelsFrom 0 ls) n := by
  have hcells : Line.allCells ls = Line.allCells pre ++ l.cells ++ Line.allCells post := by
    simp [hls]
  rw [← Line.length_allCells]
  exact h.spells.decode?_part hcells hx

/-- An instruction starts where a line does. -/
theorem isStart_totalWidth {pre post : List Line} (hls : ls = pre ++ post) :
    code.IsStart (Line.totalWidth pre) := by
  cases hs : Line.totalWidth pre with
  | zero => trivial
  | succ s =>
    intro b hb
    have hlast : (Line.allCells pre).getLast? = (Line.allCells pre)[s]? := by
      rw [List.getLast?_eq_getElem?, Line.length_allCells, hs, Nat.add_sub_cancel]
    have hlt : s < (Line.allCells pre).length := by rw [Line.length_allCells]; omega
    obtain ⟨⟨op, x⟩, hx⟩ : ∃ c, (Line.allCells pre)[s]? = some c :=
      ⟨_, List.getElem?_eq_getElem hlt⟩
    have hcell : (Line.allCells ls)[s]? = some (op, x) := by
      rw [hls, Line.allCells_append, List.getElem?_append_left hlt, hx]
    obtain ⟨n, hn, -⟩ := h.decode? hcell
    rw [hb] at hn
    cases hn
    exact Line.getLast?_allCells (hlast.trans hx) rfl

section
variable {pre post : List Line} {l : Line} (hls : ls = pre ++ l :: post) {op : Opcode} {arg : Nat}
  (hop : l.operation? = some (op, arg))
include hls hop

omit h in
theorem allCells_of_operation :
    Line.allCells ls = Line.allCells pre ++ Line.operationCells op arg ++ Line.allCells post := by
  rw [hls, Line.allCells_append, Line.allCells_cons, Line.cells_of_operation hop,
    List.append_assoc]

/-- An ordinary line begins with its prefixes. -/
theorem decode?_prefix {k : Nat} (hk : k < (splitOperand arg).1.length) :
    code.decode? (Line.totalWidth pre + k) = some (.extendedArg, (splitOperand arg).1[k]) := by
  rw [← Line.length_allCells]
  exact h.spells.decode?_prefix (allCells_of_operation hls hop) hk

/-- The operation of an ordinary line comes after its prefixes. -/
theorem decode?_operation :
    code.decode? (Line.totalWidth pre + (splitOperand arg).1.length) =
      some (op, (splitOperand arg).2) := by
  rw [← Line.length_allCells]
  exact h.spells.decode?_operation (allCells_of_operation hls hop)

/-- Inside an instruction, the prefixes before a place are those of the instruction. -/
theorem pending_line {k : Nat} (hk : k ≤ (splitOperand arg).1.length) :
    code.pending (Line.totalWidth pre + k) = prefixValue ((splitOperand arg).1.take k) := by
  induction k with
  | zero => exact pending_of_isStart (h.isStart_totalWidth hls)
  | succ k ih =>
    rw [List.take_succ_eq_append_getElem (by omega), prefixValue_concat, ← ih (by omega)]
    simp [pending, h.decode?_prefix hls hop hk]

end

/-- What stands at a place is in the code of a line: a prefix, or its last instruction, which is an
ordinary operation with its full operand or a jump. -/
theorem line_at {s b : Nat} {op : Opcode} (hd : code.decode? s = some (op, b)) :
    ∃ (pre : List Line) (l : Line) (post : List Line) (k : Nat),
      ls = pre ++ l :: post ∧ s = Line.totalWidth pre + k ∧
      (op = .extendedArg ∧ k + 1 < l.width ∨ k + 1 = l.width ∧
        (l.operation? = some (op, code.pending s * 256 + b) ∨
          ∃ kind m, l = .jump kind m ∧ op = kind.opcode ∧
            (Line.labelsFrom 0 ls).lookup m = some b)) := by
  have hlt : s < Line.totalWidth ls := by
    by_contra hge
    rw [Code.decode?, (h.fetch?_eq_none).2 (by omega)] at hd
    cases hd
  obtain ⟨pre, l, post, k, hls, rfl, hk⟩ := Line.exists_line_at hlt
  refine ⟨pre, l, post, k, hls, rfl, ?_⟩
  cases hop : l.operation? with
  | none =>
    cases l with
    | jump kind m =>
      obtain rfl : k = 0 := by simpa using hk
      obtain ⟨n, hn, hm⟩ := h.decode?_line hls (Line.jump_cell kind m)
      cases hn.symm.trans hd
      exact .inr ⟨by simp, .inr ⟨kind, m, rfl, rfl, hm⟩⟩
    | label m => simp at hk
    | _ => cases hop
  | some o =>
    obtain ⟨op', arg⟩ := o
    have hwidth := Line.width_of_operation hop
    by_cases hlast : k = (splitOperand arg).1.length
    · subst hlast
      cases (h.decode?_operation hls hop).symm.trans hd
      refine .inr ⟨hwidth.symm, .inl ?_⟩
      rw [h.pending_line hls hop (le_refl _), List.take_length, splitOperand_value]
    · cases (h.decode?_prefix hls hop (k := k) (by omega)).symm.trans hd
      exact .inl ⟨rfl, by omega⟩

/-- What stands at a place: a prefix, an ordinary operation with its full operand, or a jump. -/
theorem instruction_at {s b : Nat} {op : Opcode} (hd : code.decode? s = some (op, b)) :
    op = .extendedArg ∧ s + 1 < code.size ∨
      (∃ l ∈ ls, l.operation? = some (op, code.pending s * 256 + b)) ∨
      ∃ kind m, Line.jump kind m ∈ ls ∧ op = kind.opcode ∧ code.IsStart s ∧
        (Line.labelsFrom 0 ls).lookup m = some b := by
  obtain ⟨pre, l, post, k, hls, rfl, hline⟩ := h.line_at hd
  have hmem : l ∈ ls := by simp [hls]
  rcases hline with ⟨rfl, hk⟩ | ⟨hk, hop | ⟨kind, m, rfl, rfl, hm⟩⟩
  · refine .inl ⟨rfl, ?_⟩
    rw [h.size_eq, hls, Line.totalWidth_append, Line.totalWidth_cons]
    omega
  · exact .inr (.inl ⟨l, hmem, hop⟩)
  · obtain rfl : k = 0 := by simpa using hk
    exact .inr (.inr ⟨kind, m, hmem, rfl, h.isStart_totalWidth hls, hm⟩)

/-- A label stands for the start of an instruction or for the end of the code. -/
theorem isStart_label {m : Marker} {n : Nat} (hm : (Line.labelsFrom 0 ls).lookup m = some n) :
    n ≤ code.size ∧ code.IsStart n := by
  obtain ⟨pre, post, hls, -, rfl⟩ := Line.lookup_labelsFrom hm
  rw [Nat.zero_add]
  refine ⟨?_, h.isStart_totalWidth hls⟩
  rw [h.size_eq, hls, Line.totalWidth_append]
  omega

/-- Code whose lines are known to its tables is well formed. -/
theorem wellFormed (known : ∀ l ∈ ls, l.Known p) : code.WellFormed where
  even := ⟨_, h.spells.size_bytes⟩
  operation := by
    intro s hs
    rw [h.size_eq, ← Line.length_allCells] at hs
    obtain ⟨⟨op, x⟩, hx⟩ : ∃ c, (Line.allCells ls)[s]? = some c :=
      ⟨_, List.getElem?_eq_getElem hs⟩
    obtain ⟨n, hn, -⟩ := h.decode? hx
    exact ⟨op, n, hn⟩
  followed := by
    intro s b hd
    obtain ⟨-, hlt⟩ | ⟨l, -, hop⟩ | ⟨kind, m, -, hop, -⟩ := h.instruction_at hd
    · exact hlt
    · exact absurd rfl (Line.operation?_ordinary hop).1
    · cases kind <;> cases hop
  entry := by
    intro s op b hd
    obtain ⟨rfl, -⟩ | ⟨l, hl, hop⟩ | ⟨kind, m, -, rfl, -⟩ := h.instruction_at hd
    · exact ⟨nofun, fun use => by cases use <;> nofun⟩
    · exact (known l hl).inTable h.consts h.names hop
    · exact ⟨by cases kind <;> nofun, fun use => by cases kind <;> cases use <;> nofun⟩
  jump := by
    intro kind s b hd
    obtain ⟨hop, -⟩ | ⟨l, -, hop⟩ | ⟨kind', m, -, -, hs, hm⟩ := h.instruction_at hd
    · cases kind <;> cases hop
    · exact absurd rfl ((Line.operation?_ordinary hop).2 kind)
    · obtain ⟨hle, hb⟩ := h.isStart_label hm
      refine ⟨hs, ?_⟩
      rcases Nat.lt_or_eq_of_le hle with hlt | heq
      · exact .inl ⟨hlt, hb⟩
      · exact .inr heq

end Code.Lists

/-! ### Runs of well-formed code -/

/-- The place in the code and the prefixes read so far belong together: the loop has read all
prefixes of the instruction it has come to, and is not past the end. -/
def Code.Inside (c : Code) (high : Nat) (s : Machine) : Prop :=
  s.pc ≤ c.size ∧ high = c.pending s.pc

namespace Code

variable {c : Code}

theorem lt_size_of_decode? {s b : Nat} {op : Opcode} (hd : c.decode? s = some (op, b)) :
    s < c.size := by
  by_contra hge
  have hnone : c.bytes[2 * s + 1]? = none := Array.getElem?_eq_none (by rw [size] at hge; omega)
  obtain ⟨o, byte, hf, -⟩ := Exec.fetch?_of_decode? hd
  simp [fetch?, hnone] at hf

/-- A place right after an instruction that is no prefix. -/
theorem pending_succ {s b : Nat} {op : Opcode} (hd : c.decode? s = some (op, b))
    (hop : op ≠ .extendedArg) : c.pending (s + 1) = 0 := by
  apply pending_of_isStart
  intro b' hb
  rw [hd] at hb
  cases hb
  exact hop rfl

theorem pending_with_consts (consts : Array Value) (s : Nat) :
    pending { c with consts } s = c.pending s := by
  induction s with
  | zero => rfl
  | succ s ih =>
    rw [pending, pending, ih]
    rfl

end Code

namespace Code.WellFormed

variable {c : Code} (h : c.WellFormed)
include h

theorem fetch?_eq_none {s : Nat} (hs : s ≤ c.size) (hf : c.fetch? s = none) : s = c.size := by
  by_contra hne
  obtain ⟨op, b, hd⟩ := h.operation s (by omega)
  obtain ⟨o, byte, hf', -⟩ := Exec.fetch?_of_decode? hd
  rw [hf] at hf'
  cases hf'

theorem lt_size_of_fetch? {s : Nat} (hs : s ≤ c.size) (hf : c.fetch? s ≠ none) : s < c.size := by
  obtain ⟨n, hn⟩ := h.even
  refine Nat.lt_of_le_of_ne hs ?_
  rintro rfl
  have hnone : c.bytes[2 * c.size]? = none := Array.getElem?_eq_none (by rw [size]; omega)
  simp [fetch?, hnone] at hf

/-- The end is a start: the last instruction is no prefix. -/
theorem pending_size : c.pending c.size = 0 := by
  apply pending_of_isStart
  cases hsize : c.size with
  | zero => trivial
  | succ n =>
    intro b hb
    have := h.followed n b hb
    omega

/-- Every turn of the loop stays inside. -/
theorem turn {s s' : Nat × Machine} (ht : Exec.Turn c s s') (hs : c.Inside s.1 s.2) :
    c.Inside s'.1 s'.2 := by
  cases ht with
  | @extend high b m hd =>
    obtain rfl : high = c.pending m.pc := hs.2
    refine ⟨h.followed _ _ hd |>.le, ?_⟩
    simp [pending, hd]
  | @execute high b m m' op hd hop hrun =>
    obtain rfl : high = c.pending m.pc := hs.2
    rcases Exec.execute_pc hrun with hpc | ⟨⟨kind, rfl⟩, hpc⟩
    · -- The instruction did not jump.
      rw [Machine.at_pc] at hpc
      exact ⟨hpc ▸ lt_size_of_decode? hd, hpc ▸ (pending_succ hd hop).symm⟩
    · obtain ⟨hstart, hb⟩ := h.jump kind m.pc b hd
      rw [pending_of_isStart hstart, Nat.zero_mul, Nat.zero_add] at hpc
      rcases hb with ⟨hlt, hb⟩ | hb
      · exact ⟨hpc ▸ hlt.le, hpc ▸ (pending_of_isStart hb).symm⟩
      · refine ⟨(hpc.trans hb).le, ?_⟩
        rw [hpc, hb, h.pending_size]

/-- Every place that the loop comes to is inside. -/
theorem turns {s s' : Nat × Machine} (ht : Relation.ReflTransGen (Exec.Turn c) s s')
    (hs : c.Inside s.1 s.2) : c.Inside s'.1 s'.2 := by
  induction ht with
  | refl => exact hs
  | tail _ ht ih => exact h.turn ht ih

/-- Where the loop has come to there is an operation whose operand points into its table. -/
theorem inTable {high : Nat} {s : Machine} (hs : c.Inside high s) (hlt : s.pc < c.size) :
    ∃ op b, c.decode? s.pc = some (op, b) ∧ c.InTable op (high * 256 + b) := by
  obtain ⟨op, b, hd⟩ := h.operation s.pc hlt
  exact ⟨op, b, hd, hs.2 ▸ h.entry _ _ _ hd⟩

/-- Other constants, as many as before. -/
theorem with_consts {consts : Array Value} (hsize : consts.size = c.consts.size) :
    WellFormed { c with consts } where
  even := h.even
  operation := h.operation
  followed := h.followed
  entry := by
    intro s op b hd
    obtain ⟨hconst, hname⟩ := h.entry s op b hd
    rw [pending_with_consts]
    exact ⟨fun hop => hsize ▸ hconst hop, hname⟩
  jump := h.jump

end Code.WellFormed

/-- The loop of a run of `code` from the machine `m` comes to the machine `s` after it has read the
prefixes `high`. The program it runs is `loaded`, which is `code` with marks on its constants. -/
def Exec.Visits (code : Code) (m : Machine) (loaded : Code) (high : Nat) (s : Machine) : Prop :=
  ∃ m₀, outcome (load code) m = (.ok loaded, m₀) ∧
    Relation.ReflTransGen (Turn loaded) (0, m₀.at 0) (high, s)

/-- The loop goes through the code with marks on its constants, from the start of it. -/
theorem Exec.Visits.turns {code loaded : Code} {m s : Machine} {high : Nat}
    (h : Visits code m loaded high s) :
    ∃ consts w, consts.size = code.consts.size ∧ loaded = { code with consts } ∧
      Relation.ReflTransGen (Turn { code with consts }) (0, Machine.at { m with world := w } 0)
        (high, s) := by
  obtain ⟨m₀, hload, hturns⟩ := h
  obtain ⟨consts, w, hload', hsize⟩ := load_returns code m
  cases hload.symm.trans hload'
  exact ⟨consts, w, hsize, rfl, hturns⟩

/-- How a run ends: the loop has come to the end of the code, or the bound is reached, or an
instruction fails whose operand points into its table. -/
theorem Code.WellFormed.runWithin_ends {code : Code} (h : code.WellFormed) (m : Machine)
    (fuel : Nat) :
    ∃ loaded high s, Exec.Visits code m loaded high s ∧
      (s.pc = code.size ∧ m.perform (Exec.runWithin fuel code) =
          (if s.stack.isEmpty then .ok () else .error .leftOver, s) ∨
        m.perform (Exec.runWithin fuel code) = (.error .endless, s) ∨
        ∃ op b f m', loaded.decode? s.pc = some (op, b) ∧ loaded.InTable op (high * 256 + b) ∧
          outcome (Exec.execute loaded op (high * 256 + b)) (s.at (s.pc + 1)) = (.error f, m') ∧
          m.perform (Exec.runWithin fuel code) = (.error f, m')) := by
  obtain ⟨consts, w, hload, hsize⟩ := Exec.load_returns code m
  have hloaded := h.with_consts hsize
  obtain ⟨⟨high, s⟩, hturns, hends⟩ :=
    Exec.runFrom_ends { code with consts } fuel 0 (Machine.at { m with world := w } 0)
  have hinside := hloaded.turns hturns ⟨Nat.zero_le _, rfl⟩
  refine ⟨_, high, s, ⟨_, hload, hturns⟩, ?_⟩
  rw [Exec.perform_runWithin fuel hload]
  generalize outcome (Exec.runFrom { code with consts } fuel 0) _ = r at hends ⊢
  cases hends with
  | finished hf => exact .inl ⟨hloaded.fetch?_eq_none hinside.1 hf, rfl⟩
  | cut => exact .inr (.inl rfl)
  | unknown hf hd =>
    obtain ⟨op, b, hd', -⟩ := hloaded.inTable hinside (hloaded.lt_size_of_fetch? hinside.1 hf)
    rw [hd] at hd'
    cases hd'
  | @failed _ b _ m' op f hd hop hfail =>
    have hin := hloaded.entry _ _ _ hd
    rw [← show high = _ from hinside.2] at hin
    exact .inr (.inr ⟨op, b, f, m', hd, hin, hfail, rfl⟩)

theorem Tree.wellFormed_code {t : Tree} {code : Code} (h : t.compile = .ok code) :
    code.WellFormed := by
  obtain ⟨ls, p, hd, hls⟩ := compile_eq_ok.1 h
  have grows := t.draft_keeps (P := fun _ => True) (by simp) {} ls p hd
  exact hls.wellFormed grows.known

/-- Compiled code is well formed, whatever the tree. In a run of it from any machine the loop never
goes past the end of the code and has read all prefixes of every instruction it comes to; there is
an operation there, and an operand that is an index points into its table. A loop that ends does so
at the end of the code. -/
theorem Tree.compile_wellFormed {t : Tree} {code : Code} (h : t.compile = .ok code) :
    code.WellFormed ∧ ∀ m : Machine,
      (∀ loaded high s, Exec.Visits code m loaded high s →
        s.pc ≤ code.size ∧ high = code.pending s.pc ∧
          (s.pc < code.size → ∃ op b, loaded.decode? s.pc = some (op, b) ∧
            loaded.InTable op (high * 256 + b))) ∧
      ∀ fuel, ∃ loaded high s, Exec.Visits code m loaded high s ∧
        (s.pc = code.size ∧ m.perform (Exec.runWithin fuel code) =
            (if s.stack.isEmpty then .ok () else .error .leftOver, s) ∨
          m.perform (Exec.runWithin fuel code) = (.error .endless, s) ∨
          ∃ op b f m', loaded.decode? s.pc = some (op, b) ∧ loaded.InTable op (high * 256 + b) ∧
            outcome (Exec.execute loaded op (high * 256 + b)) (s.at (s.pc + 1)) = (.error f, m') ∧
            m.perform (Exec.runWithin fuel code) = (.error f, m')) := by
  obtain ⟨ls, p, hd, hls⟩ := Tree.compile_eq_ok.1 h
  have grows := t.draft_keeps (P := fun _ => True) (by simp) {} ls p hd
  have hwf := hls.wellFormed grows.known
  refine ⟨hwf, fun m => ⟨?_, hwf.runWithin_ends m⟩⟩
  rintro loaded high s ⟨m₀, hload, hturns⟩
  obtain ⟨consts, w, hload', hsize⟩ := Exec.load_returns code m
  cases hload.symm.trans hload'
  have hloaded := hwf.with_consts hsize
  have hinside := hloaded.turns hturns ⟨Nat.zero_le _, rfl⟩
  refine ⟨hinside.1, ?_, hloaded.inTable hinside⟩
  rw [← Code.pending_with_consts consts]
  exact hinside.2

/-- A program with a loop in a loop, a condition and a constant used twice. -/
theorem compile_wellFormed_nested :
    ∃ code, (Tree.program [.forEach "i" (.callOf "range" [.num 3])
        [.repeatWhile (.var "n") [.update "n" .sub (.num 3)],
          .branch (.var "i") [.expr (.var "i")] []]]).compile = .ok code ∧ code.WellFormed :=
  exists_ok_and (by decide +kernel) fun _ h => (Tree.compile_wellFormed h).1

end Stackwise
