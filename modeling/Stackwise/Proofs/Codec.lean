import Mathlib.Data.Nat.Digits.Lemmas
import Stackwise.Proofs.Loop

/-!
# Instructions in bytes, and back

`Emit.emitNamed` spells an instruction out: its operand in base 256, the high bytes in prefixes. The
loop of the machine puts the operand together again. How it does so does not depend on what the
instructions do, so it is stated about `Exec.runWith` with any handler that does not jump: the loop
over the bytes of some instructions handles these instructions in order and ends
(`Exec.runWith_spelled`). The encoding has no choice: an instruction has as many prefixes as its
operand needs, and two lists of instructions with the same bytes are the same.
-/
namespace Stackwise

theorem Opcode.ofName?_name (op : Opcode) : ofName? op.name = some op := by
  cases op with
  | binary op => cases op <;> rfl
  | unary op => cases op <;> rfl
  | _ => rfl

/-- An instruction by name, with its operand. -/
abbrev NamedInstruction := String × Nat

/-- There is an operation of that name, and it is not the one that is only a prefix. -/
def NamedInstruction.IsProper (i : NamedInstruction) : Prop :=
  i.1 ∈ Opcode.all.map Opcode.name ∧ i.1 ≠ Opcode.extendedArg.name

instance (i : NamedInstruction) : Decidable i.IsProper := inferInstanceAs (Decidable (_ ∧ _))

/-- The number of bytes that an operand takes. -/
def operandWidth (arg : Nat) : Nat := max 1 (Nat.digits 256 arg).length

theorem length_splitOperand (arg : Nat) : (splitOperand arg).1.length + 1 = operandWidth arg := by
  unfold splitOperand operandWidth
  rw [byteDigits_eq]
  cases Nat.digits 256 arg <;> simp

/-- The first prefix of an operand is not zero. -/
theorem head?_splitOperand (arg : Nat) : (splitOperand arg).1.head? ≠ some 0 := by
  unfold splitOperand
  rw [byteDigits_eq]
  cases hd : Nat.digits 256 arg with
  | nil => simp
  | cons low high =>
    intro hzero
    have harg : arg ≠ 0 := by
      rintro rfl
      simp at hd
    have hlast := Nat.getLast_digit_ne_zero 256 harg
    rw [List.head?_reverse] at hzero
    have hne : high ≠ [] := by
      rintro rfl
      simp at hzero
    simp only [hd, List.getLast_cons hne] at hlast
    rw [List.getLast?_eq_getLast_of_ne_nil hne] at hzero
    exact hlast (Option.some.inj hzero)

/-! ### Bytes -/

/-- Prefixes with high bytes. -/
def prefixBytes (high : List UInt8) : List UInt8 :=
  high.flatMap fun b => [.ofNat Opcode.extendedArg.toNat, b]

/-- Bytes are the encoding of an instruction: its operation and the lowest byte of its operand,
after as many prefixes as the operand needs, of which the first is not zero. -/
def NamedInstruction.Canonical (i : NamedInstruction) (bytes : List UInt8) : Prop :=
  ∃ (op : Opcode) (high : List UInt8) (low : UInt8), op.name = i.1 ∧
    bytes = prefixBytes high ++ [.ofNat op.toNat, low] ∧
    high.length + 1 = operandWidth i.2 ∧ high.head? ≠ some 0

/-- The bytes of an instruction. -/
def instructionBytes (op : Opcode) (arg : Nat) : List UInt8 :=
  prefixBytes ((splitOperand arg).1.map UInt8.ofNat) ++
    [.ofNat op.toNat, .ofNat (splitOperand arg).2]

/-- Every slot of an instruction is a byte. -/
theorem instructionSlots_eq (op : Opcode) (arg : Nat) :
    instructionSlots op arg = (instructionBytes op arg).map fun b => .byte b.toNat := by
  obtain ⟨hhigh, hlow⟩ := splitOperand_lt arg
  have hmark := toNat_ofNat_of_lt Opcode.extendedArg.toNat_lt
  have hprefix : prefixSlots (splitOperand arg).1 =
      (prefixBytes ((splitOperand arg).1.map UInt8.ofNat)).map fun b => .byte b.toNat := by
    generalize (splitOperand arg).1 = high at hhigh
    induction high with
    | nil => rfl
    | cons b high ih =>
      rw [List.forall_mem_cons] at hhigh
      have hrest := ih hhigh.2
      simp only [prefixSlots, prefixBytes, List.map_cons, List.flatMap_cons, List.map_append,
        List.map_nil, toNat_ofNat_of_lt hhigh.1, hmark] at hrest ⊢
      rw [hrest]
  simp only [instructionSlots, instructionBytes, List.map_append, List.map_cons, List.map_nil,
    hprefix, toNat_ofNat_of_lt op.toNat_lt, toNat_ofNat_of_lt hlow]

theorem instructionBytes_canonical (op : Opcode) (arg : Nat) :
    NamedInstruction.Canonical (op.name, arg) (instructionBytes op arg) := by
  refine ⟨op, (splitOperand arg).1.map UInt8.ofNat, .ofNat (splitOperand arg).2, rfl, rfl, ?_, ?_⟩
  · rw [List.length_map, length_splitOperand]
  · intro hzero
    obtain ⟨b, hb, hb0⟩ := Option.map_eq_some_iff.1 (List.head?_map ▸ hzero)
    have hlt := (splitOperand_lt arg).1 b (List.mem_of_mem_head? hb)
    have hnat := toNat_ofNat_of_lt hlt
    rw [hb0] at hnat
    exact head?_splitOperand arg (by rw [hb, ← hnat]; rfl)

/-! ### Emitting -/

/-- Instructions emitted in turn. -/
def Emit.emitAll (prog : List NamedInstruction) : Emit Unit :=
  prog.forM fun i => Emit.emitNamed i.1 i.2

/-- Instructions by name. -/
def byName (ops : List (Opcode × Nat)) : List NamedInstruction := ops.map fun i => (i.1.name, i.2)

theorem exists_byName {prog : List NamedInstruction} (h : ∀ i ∈ prog, i.IsProper) :
    ∃ ops : List (Opcode × Nat), prog = byName ops ∧ ∀ i ∈ ops, i.1 ≠ .extendedArg := by
  induction prog with
  | nil => exact ⟨[], rfl, by simp⟩
  | cons i prog ih =>
    rw [List.forall_mem_cons] at h
    obtain ⟨⟨hi, hne⟩, hprog⟩ := h
    obtain ⟨ops, rfl, hops⟩ := ih hprog
    obtain ⟨op, -, hop⟩ := List.mem_map.1 hi
    refine ⟨(op, i.2) :: ops, by simp [byName, hop], List.forall_mem_cons.2 ⟨?_, hops⟩⟩
    rintro rfl
    exact hne hop.symm

/-- The bytes of each of several instructions. -/
def programBytes (ops : List (Opcode × Nat)) : List (List UInt8) :=
  ops.map fun i => instructionBytes i.1 i.2

theorem programBytes_canonical (ops : List (Opcode × Nat)) :
    List.Forall₂ NamedInstruction.Canonical (byName ops) (programBytes ops) := by
  rw [byName, programBytes, List.forall₂_map_left_iff, List.forall₂_map_right_iff]
  exact List.forall₂_same.2 fun i _ => instructionBytes_canonical i.1 i.2

/-- Code with bytes after it. -/
def Assembler.withBytes (a : Assembler) (bytes : List UInt8) : Assembler :=
  { a with code := a.code ++ (bytes.map fun b => Slot.byte b.toNat).toArray }

theorem Assembler.withBytes_append (a : Assembler) (bs cs : List UInt8) :
    (a.withBytes bs).withBytes cs = a.withBytes (bs ++ cs) := by
  simp [withBytes]

theorem Assembler.withBytes_injective {a : Assembler} {bs cs : List UInt8}
    (h : a.withBytes bs = a.withBytes cs) : bs = cs := by
  have hcode := congrArg (fun b => b.code.toList) h
  simp only [withBytes, Array.toList_append, List.append_cancel_left_eq] at hcode
  refine List.map_injective_iff.2 ?_ hcode
  intro b c hbc
  exact UInt8.toNat_inj.1 (Slot.byte.inj hbc)

theorem outcome_emitNamed (op : Opcode) (arg : Nat) (a : Assembler) :
    outcome (Emit.emitNamed op.name arg) a = (.ok (), a.withBytes (instructionBytes op arg)) := by
  rw [Assembler.withBytes, ← instructionSlots_eq]
  simp [Emit.emitNamed, Opcode.ofName?_name, Emit.append, instructionSlots]

theorem outcome_emitAll (ops : List (Opcode × Nat)) (a : Assembler) :
    outcome (Emit.emitAll (byName ops)) a = (.ok (), a.withBytes (programBytes ops).flatten) := by
  induction ops generalizing a with
  | nil => simp [Emit.emitAll, byName, programBytes, Assembler.withBytes]
  | cons i ops ih =>
    have step : Emit.emitAll (byName (i :: ops)) =
        Emit.emitNamed i.1.name i.2 >>= fun _ => Emit.emitAll (byName ops) := rfl
    rw [step, outcome_bind, outcome_emitNamed, chain_ok, ih, Assembler.withBytes_append]
    rfl

/-! ### Reading -/

/-- The cells of several instructions. -/
def programCells (ops : List (Opcode × Nat)) : List (Opcode × Slot) :=
  ops.flatMap fun i => Line.operationCells i.1 i.2

theorem length_programCells (ops : List (Opcode × Nat)) :
    (programCells ops).length = (ops.map fun i => operandWidth i.2).sum := by
  simp [programCells, Line.operationCells, List.length_flatMap, length_splitOperand]

theorem programCells_slots (ops : List (Opcode × Nat)) :
    (programCells ops).flatMap Line.cellSlots =
      (programBytes ops).flatten.map fun b => .byte b.toNat := by
  induction ops with
  | nil => rfl
  | cons i ops ih =>
    have hcells : programCells (i :: ops) =
      Line.operationCells i.1 i.2 ++ programCells ops := rfl
    have hbytes : programBytes (i :: ops) = instructionBytes i.1 i.2 :: programBytes ops := rfl
    rw [hcells, hbytes, List.flatMap_append, Line.operationCells_slots, instructionSlots_eq, ih,
      List.flatten_cons, List.map_append]

theorem spells_programBytes {code : Code} {ops : List (Opcode × Nat)}
    (h : code.bytes.toList = (programBytes ops).flatten) : code.Spells [] (programCells ops) := by
  rw [Code.Spells, programCells_slots, h, List.forall₂_map_left_iff]
  exact List.forall₂_same.2 fun b _ => rfl

/-- Instructions handled one after the other: the machine moves on to the next one, and then handles
this one. -/
def Exec.dispatch (handle : String → Nat → Exec Unit) (prog : List NamedInstruction) : Exec Unit :=
  prog.forM fun i => do
    modify fun m => m.at (m.pc + operandWidth i.2)
    handle i.1 i.2

namespace Exec

variable {code : Code} {handle : String → Nat → Exec Unit}

theorem outcome_dispatch_cons (i : NamedInstruction) (prog : List NamedInstruction) (m : Machine) :
    outcome (dispatch handle (i :: prog)) m =
      chain (outcome (handle i.1 i.2) (m.at (m.pc + operandWidth i.2))) fun _ m' =>
        outcome (dispatch handle prog) m' := by
  simp [dispatch, List.forM_cons, outcome_bind]

section
variable {ops : List (Opcode × Nat)} (hcode : code.Spells [] (programCells ops))
include hcode

/-- The loop reads an instruction as a whole, handles it, and goes on. -/
theorem runWith_spelled_cons {pre rest : List (Opcode × Nat)} {i : Opcode × Nat}
    (hops : ops = pre ++ i :: rest) (hne : i.1 ≠ .extendedArg) (fuel : Nat) (m : Machine) :
    outcome (runWith code (fun op => handle op.name) (fuel + operandWidth i.2) 0)
        (m.at (programCells pre).length) =
      chain (outcome (handle i.1.name i.2) (m.at ((programCells pre).length + operandWidth i.2)))
        fun _ m' => outcome (runWith code (fun op => handle op.name) fuel 0) m' := by
  have hcells : programCells ops =
      programCells pre ++ Line.operationCells i.1 i.2 ++ programCells rest := by
    simp [hops, programCells]
  rw [← length_splitOperand, runWith_instruction (fun _ hk => hcode.decode?_prefix hcells hk)
    (hcode.decode?_operation hcells) hne, splitOperand_value]

/-- The loop over the bytes of some instructions handles them in order, and ends. -/
theorem runWith_spelled (hne : ∀ i ∈ ops, i.1 ≠ .extendedArg)
    (hpc : ∀ i ∈ byName ops, ∀ m, (outcome (handle i.1 i.2) m).2.pc = m.pc)
    {fuel : Nat} (hfuel : code.size < fuel) (m : Machine) :
    outcome (runWith code (fun op => handle op.name) fuel 0) (m.at 0) =
      outcome (dispatch handle (byName ops)) (m.at 0) := by
  -- The instructions before are read already, and fuel is left for those to come.
  suffices key : ∀ pre rest fuel (m : Machine), ops = pre ++ rest →
      (programCells rest).length < fuel →
      outcome (runWith code (fun op => handle op.name) fuel 0)
          (m.at (programCells pre).length) =
        outcome (dispatch handle (byName rest)) (m.at (programCells pre).length) by
    exact key [] ops fuel m rfl (hcode.size_eq ▸ hfuel)
  intro pre rest
  induction rest generalizing pre with
  | nil =>
    intro fuel m hops hfuel
    have hend : code.fetch? (m.at (programCells pre).length).pc = none := by
      rw [hcode.fetch?_eq_none]
      simp [hops]
    obtain ⟨fuel, rfl⟩ := Nat.exists_eq_succ_of_ne_zero (Nat.ne_zero_of_lt hfuel)
    rw [runWith_end hend]
    rfl
  | cons i rest ih =>
    intro fuel m hops hfuel
    have hcons : (programCells (i :: rest)).length =
        operandWidth i.2 + (programCells rest).length := by
      simp [length_programCells]
    have hnext : (programCells (pre ++ [i])).length =
        (programCells pre).length + operandWidth i.2 := by
      simp [length_programCells]
    have hmem : i ∈ ops := by simp [hops]
    have hnamed : byName (i :: rest) = (i.1.name, i.2) :: byName rest := rfl
    obtain ⟨more, rfl⟩ : ∃ more, fuel = more + operandWidth i.2 :=
      ⟨fuel - operandWidth i.2, by omega⟩
    rw [runWith_spelled_cons hcode hops (hne i hmem), hnamed, outcome_dispatch_cons,
      Machine.at_pc, Machine.at_at, ← hnext]
    refine chain_congr fun _ m' hrun => ?_
    have hstay := hpc (i.1.name, i.2) (List.mem_map_of_mem hmem)
      (m.at (programCells (pre ++ [i])).length)
    rw [hrun] at hstay
    have hat : m' = m'.at (programCells (pre ++ [i])).length := congrArg m'.at hstay
    rw [hat]
    exact ih (pre ++ [i]) more m' (by simp [hops]) (by omega)

end

/-- A handler that writes down what it is given. -/
def record (name : String) (arg : Nat) : Exec Unit := push (.tuple [.str name, .int arg])

theorem stack_record (prog : List NamedInstruction) (m : Machine) :
    (outcome (dispatch record prog) m).2.stack =
      (prog.map fun i => Value.tuple [.str i.1, .int i.2]).reverse ++ m.stack := by
  induction prog generalizing m with
  | nil => simp [dispatch]
  | cons i prog ih =>
    rw [outcome_dispatch_cons, record, push, outcome_modify, chain_ok, ih]
    simp

end Exec

/-- Instructions can be read off their bytes. -/
theorem programBytes_injective {ops ops' : List (Opcode × Nat)}
    (hne : ∀ i ∈ ops, i.1 ≠ .extendedArg) (hne' : ∀ i ∈ ops', i.1 ≠ .extendedArg)
    (h : (programBytes ops').flatten = (programBytes ops).flatten) : byName ops' = byName ops := by
  let code : Code := ⟨#[], #[], (programBytes ops).flatten.toArray⟩
  -- the loop is run over the bytes they have in common, and both lists are what is written down
  have hread : ∀ qs, (∀ i ∈ qs, i.1 ≠ .extendedArg) →
      (programBytes qs).flatten = (programBytes ops).flatten →
      (outcome (Exec.runWith code (fun op => Exec.record op.name) (code.size + 1) 0)
          (Machine.at default 0)).2.stack =
        ((byName qs).map fun i => Value.tuple [.str i.1, .int i.2]).reverse := by
    intro qs hqs hbytes
    rw [Exec.runWith_spelled (spells_programBytes hbytes.symm) hqs (fun _ _ _ => rfl)
      (Nat.lt_succ_self _), Exec.stack_record]
    exact List.append_nil _
  have hsame := (hread ops' hne' h).symm.trans (hread ops hne rfl)
  refine List.map_injective_iff.2 ?_ (List.reverse_injective hsame)
  intro i j hij
  simpa [Prod.ext_iff] using hij

/-- Instructions of any operands are emitted as bytes that the loop of the machine reads as the same
instructions, and as no others. -/
theorem Emit.emitAll_round_trip {prog : List NamedInstruction} (hprog : ∀ i ∈ prog, i.IsProper) :
    ∃ parts : List (List UInt8), List.Forall₂ NamedInstruction.Canonical prog parts ∧
      (∀ a : Assembler, outcome (Emit.emitAll prog) a = (.ok (), a.withBytes parts.flatten)) ∧
      (∀ code : Code, code.bytes.toList = parts.flatten →
        (∀ fuel high,
          Exec.runFrom code fuel high = Exec.runWith code (Exec.execute code) fuel high) ∧
        ∀ handle : String → Nat → Exec Unit,
          (∀ i ∈ prog, ∀ m, (outcome (handle i.1 i.2) m).2.pc = m.pc) →
          ∀ fuel, code.size < fuel → ∀ m : Machine,
            outcome (Exec.runWith code (fun op => handle op.name) fuel 0) (m.at 0) =
              outcome (Exec.dispatch handle prog) (m.at 0)) ∧
      ∀ prog' : List NamedInstruction, (∀ i ∈ prog', i.IsProper) → ∀ a : Assembler,
        outcome (Emit.emitAll prog') a = outcome (Emit.emitAll prog) a → prog' = prog := by
  obtain ⟨ops, rfl, hne⟩ := exists_byName hprog
  refine ⟨programBytes ops, programBytes_canonical ops, outcome_emitAll ops, ?_, ?_⟩
  · intro code hcode
    refine ⟨Exec.runFrom_eq_runWith code, fun handle hpc fuel hfuel m => ?_⟩
    exact Exec.runWith_spelled (spells_programBytes hcode) hne hpc hfuel m
  · intro prog' hprog' a hemit
    obtain ⟨ops', rfl, hne'⟩ := exists_byName hprog'
    rw [outcome_emitAll, outcome_emitAll] at hemit
    exact programBytes_injective hne hne' (Assembler.withBytes_injective (Prod.ext_iff.1 hemit).2)

/-- Operands of one, three and two bytes, with zeros inside. -/
def longOperands : List NamedInstruction :=
  [("LOAD_CONST", 0), ("BUILD_LIST", 65536), ("CALL_FUNCTION", 256)]

theorem Emit.emitAll_round_trip_long :
    (∀ i ∈ longOperands, i.IsProper) ∧ ∀ code : Code,
      code.bytes = #[0, 0, 28, 1, 28, 0, 7, 0, 28, 1, 33, 0] → ∀ m : Machine,
        outcome (Exec.runWith code (fun op => Exec.record op.name) (code.size + 1) 0) (m.at 0) =
          outcome (Exec.dispatch Exec.record longOperands) (m.at 0) := by
  have hproper : ∀ i ∈ longOperands, i.IsProper := by decide
  refine ⟨hproper, fun code hcode m => ?_⟩
  obtain ⟨parts, -, hemit, hread, -⟩ := Emit.emitAll_round_trip hproper
  have hbytes : outcome (Emit.emitAll longOperands) {} =
      (.ok (), Assembler.withBytes {} [0, 0, 28, 1, 28, 0, 7, 0, 28, 1, 33, 0]) := rfl
  have hparts := Assembler.withBytes_injective (Prod.ext_iff.1 (hbytes.symm.trans (hemit {}))).2
  exact (hread code (by rw [hcode, ← hparts])).2 _ (fun _ _ _ => rfl) _ (Nat.lt_succ_self _) m

end Stackwise
