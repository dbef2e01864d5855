import Mathlib.Logic.Relation
import Stackwise.Proofs.Instruction
import Stackwise.Proofs.Layout

/-!
# The loop of the machine

`runFrom` fetches and executes with a bound on the number of turns. How it fetches does not depend
on what instructions do: `runWith` is the same loop with anything in their place. `Turn` is one
turn, and a run that is not cut off by the bound is a sequence of turns and an end: `runFrom_ends`.
More turns do not change a run that ends (`runFrom_mono`), so that `Halts` can leave the bound out.
-/
namespace Stackwise

/-! ### Loading -/

namespace Act

/-- An operation that always returns, with a result that satisfies a predicate. -/
def Returns {α : Type} (a : Act α) (P : α → Prop) : Prop :=
  ∀ w, ∃ x w', outcome a w = (.ok x, w') ∧ P x

theorem Returns.bind {α β : Type} {a : Act α} {g : α → Act β} {P : α → Prop} {Q : β → Prop}
    (ha : Returns a P) (hg : ∀ x, P x → Returns (g x) Q) : Returns (a >>= g) Q := by
  intro w
  obtain ⟨x, w', hx, hP⟩ := ha w
  obtain ⟨y, w'', hy, hQ⟩ := hg x hP w'
  exact ⟨y, w'', by rw [outcome_bind, hx, chain_ok, hy], hQ⟩

theorem Returns.pure {α : Type} {x : α} {P : α → Prop} (h : P x) : Returns (pure x) P :=
  fun w => ⟨x, w, rfl, h⟩

theorem markFloat_returns (x : Binary64) : Returns (markFloat x) fun _ => True := by
  unfold markFloat
  split
  · exact fun w => ⟨_, _, rfl, trivial⟩
  · exact .pure trivial

theorem markObject_returns (v : Value) : Returns (markObject v) fun _ => True := by
  unfold markObject
  split
  · exact (markFloat_returns _).bind fun _ _ => .pure trivial
  · exact (markFloat_returns _).bind fun _ _ =>
      (markFloat_returns _).bind fun _ _ => .pure trivial
  · exact fun w => ⟨_, _, rfl, trivial⟩
  · exact .pure trivial

mutual
theorem markAll_returns : ∀ v : Value, Returns (markAll v) fun _ => True
  | .list xs | .tuple xs | .set xs | .frozenset xs =>
    (markItems_returns xs).bind fun _ _ => .pure trivial
  | .dict es => (markEntries_returns es).bind fun _ _ => .pure trivial
  | .slice a b c => (markAll_returns a).bind fun _ _ => (markAll_returns b).bind fun _ _ =>
      (markAll_returns c).bind fun _ _ => .pure trivial
  | .error _ _ args => (markItems_returns args).bind fun _ _ => markObject_returns _
  | .float _ | .complex _ _ => markObject_returns _
  | .none | .ellipsis | .notImplemented | .bool _ | .int _ | .str _ | .bytes _ | .range _ _ _
  | .type _ | .union _ | .alias _ _ | .function _ | .quitter _ | .iterator _ _ => .pure trivial
/-- Marking goes through, and there are as many values after it. -/
theorem markItems_returns :
    ∀ vs : List Value, Returns (markItems vs) fun ws => ws.length = vs.length
  | [] => .pure rfl
  | v :: vs => (markAll_returns v).bind fun _ _ =>
      (markItems_returns vs).bind fun _ h => .pure (by simp [h])
theorem markEntries_returns :
    ∀ es : List (Value × Value), Returns (markEntries es) fun _ => True
  | [] => .pure trivial
  | (k, v) :: es => (markAll_returns k).bind fun _ _ => (markAll_returns v).bind fun _ _ =>
      (markEntries_returns es).bind fun _ _ => .pure trivial
end

end Act

/-- A value without objects that are told apart by more than their value: it gets no marks. -/
def Value.Anonymous (v : Value) : Prop := ∀ w, outcome (Act.markAll v) w = (.ok v, w)

theorem Act.markItems_anonymous {vs : List Value} (h : ∀ v ∈ vs, v.Anonymous) (w : World) :
    outcome (markItems vs) w = (.ok vs, w) := by
  induction vs with
  | nil => rfl
  | cons v vs ih =>
    rw [List.forall_mem_cons] at h
    simp [markItems, h.1 w, ih h.2]

namespace Exec

@[simp] theorem outcome_act {α : Type} (a : Act α) (m : Machine) :
    outcome (act a) m = ((outcome a m.world).1, { m with world := (outcome a m.world).2 }) := rfl

/-- Loading gives marks to the constants and keeps their number. -/
theorem load_returns (code : Code) (m : Machine) :
    ∃ consts w, outcome (load code) m = (.ok { code with consts }, { m with world := w }) ∧
      consts.size = code.consts.size := by
  obtain ⟨ws, w, hw, hlength⟩ := Act.markItems_returns code.consts.toList m.world
  refine ⟨ws.toArray, w, ?_, by simpa using hlength⟩
  simp [load, hw]

/-- Loading does nothing if there is nothing to mark. -/
theorem load_anonymous {code : Code} (h : ∀ v ∈ code.consts.toList, v.Anonymous) (m : Machine) :
    outcome (load code) m = (.ok code, m) := by
  simp [load, Act.markItems_anonymous h]

/-! ### Turns -/

variable {code : Code} {high fuel : Nat} {m : Machine}

/-- The loop of the machine with `handle` in place of what instructions do. -/
def runWith (code : Code) (handle : Opcode → Nat → Exec Unit) : Nat → Nat → Exec Unit
  | 0, _ => throw .endless
  | fuel + 1, high => do
    let pc := (← get).pc
    match code.fetch? pc with
    | none => pure ()
    | some (op, byte) =>
      jump (pc + 1)
      let arg := high * 256 + byte.toNat
      match Opcode.ofNat? op.toNat with
      | none => throw .noInstruction
      | some .extendedArg => runWith code handle fuel arg
      | some op =>
        handle op arg
        runWith code handle fuel 0

theorem runFrom_eq_runWith (code : Code) (fuel high : Nat) :
    runFrom code fuel high = runWith code (execute code) fuel high := by
  induction fuel generalizing high with
  | zero => rfl
  | succ fuel ih =>
    rw [runFrom, funext ih]
    rfl

section
variable {handle : Opcode → Nat → Exec Unit}

theorem runWith_end (h : code.fetch? m.pc = none) :
    outcome (runWith code handle (fuel + 1) high) m = (.ok (), m) := by
  simp [runWith, h]

theorem decode?_of_fetch? {s : Nat} {o byte : UInt8} (h : code.fetch? s = some (o, byte)) :
    code.decode? s = (Opcode.ofNat? o.toNat).map fun op => (op, byte.toNat) := by
  cases ho : Opcode.ofNat? o.toNat <;> simp [Code.decode?, h, ho]

theorem fetch?_of_decode? {s b : Nat} {op : Opcode} (h : code.decode? s = some (op, b)) :
    ∃ o byte, code.fetch? s = some (o, byte) ∧ Opcode.ofNat? o.toNat = some op ∧
      byte.toNat = b := by
  cases hf : code.fetch? s with
  | none => simp [Code.decode?, hf] at h
  | some f =>
    obtain ⟨o, byte⟩ := f
    rw [decode?_of_fetch? hf, Option.map_eq_some_iff] at h
    obtain ⟨op, ho, rfl, rfl⟩ := h
    exact ⟨o, byte, rfl, ho, rfl⟩

theorem runWith_extend {b : Nat} (h : code.decode? m.pc = some (.extendedArg, b)) :
    outcome (runWith code handle (fuel + 1) high) m =
      outcome (runWith code handle fuel (high * 256 + b)) (m.at (m.pc + 1)) := by
  obtain ⟨o, byte, hf, ho, rfl⟩ := fetch?_of_decode? h
  simp [runWith, hf, ho, jump, Machine.at]

theorem runWith_handle {op : Opcode} {b : Nat} (h : code.decode? m.pc = some (op, b))
    (hop : op ≠ .extendedArg) :
    outcome (runWith code handle (fuel + 1) high) m =
      chain (outcome (handle op (high * 256 + b)) (m.at (m.pc + 1))) fun _ m' =>
        outcome (runWith code handle fuel 0) m' := by
  obtain ⟨o, byte, hf, ho, rfl⟩ := fetch?_of_decode? h
  simp only [runWith, outcome_bind, outcome_get, chain_ok, hf, ho]
  cases op with
  | extendedArg => exact absurd rfl hop
  | _ => rfl

/-- The loop reads prefixes one after the other. -/
theorem runWith_prefixes {s : Nat} {bytes : List Nat}
    (h : ∀ (k : Nat) (hk : k < bytes.length), code.decode? (s + k) = some (.extendedArg, bytes[k]))
    (fuel : Nat) (m : Machine) {k : Nat} (hk : k ≤ bytes.length) :
    outcome (runWith code handle (fuel + k) 0) (m.at s) =
      outcome (runWith code handle fuel (prefixValue (bytes.take k))) (m.at (s + k)) := by
  induction k generalizing fuel with
  | zero => rfl
  | succ k ih =>
    have hd : code.decode? (m.at (s + k)).pc = _ := h k hk
    rw [show fuel + (k + 1) = (fuel + 1) + k by omega, ih (fuel + 1) (by omega),
      runWith_extend hd, List.take_succ_eq_append_getElem (by omega), prefixValue_concat]
    rfl

/-- An instruction with all its prefixes. -/
theorem runWith_instruction {s low : Nat} {bytes : List Nat} {op : Opcode}
    (h : ∀ (k : Nat) (hk : k < bytes.length), code.decode? (s + k) = some (.extendedArg, bytes[k]))
    (hd : code.decode? (s + bytes.length) = some (op, low)) (hop : op ≠ .extendedArg)
    (fuel : Nat) (m : Machine) :
    outcome (runWith code handle (fuel + (bytes.length + 1)) 0) (m.at s) =
      chain (outcome (handle op (prefixValue bytes * 256 + low)) (m.at (s + (bytes.length + 1))))
        fun _ m' => outcome (runWith code handle fuel 0) m' := by
  have hd : code.decode? (m.at (s + bytes.length)).pc = _ := hd
  rw [show fuel + (bytes.length + 1) = (fuel + 1) + bytes.length by omega,
    runWith_prefixes h (fuel + 1) m (le_refl _), runWith_handle hd hop, List.take_length]
  rfl

end

theorem runFrom_end (h : code.fetch? m.pc = none) :
    outcome (runFrom code (fuel + 1) high) m = (.ok (), m) := by
  rw [runFrom_eq_runWith, runWith_end h]

/-- There is no operation of that number. -/
theorem runFrom_unknown (h : code.fetch? m.pc ≠ none) (hd : code.decode? m.pc = none) :
    outcome (runFrom code (fuel + 1) high) m = (.error .noInstruction, m.at (m.pc + 1)) := by
  obtain ⟨⟨op, byte⟩, hf⟩ := Option.ne_none_iff_exists'.1 h
  have hop : Opcode.ofNat? op.toNat = none := by simpa [decode?_of_fetch? hf] using hd
  simp [runFrom, hf, hop, jump, Machine.at]

theorem runFrom_extend {b : Nat} (h : code.decode? m.pc = some (.extendedArg, b)) :
    outcome (runFrom code (fuel + 1) high) m =
      outcome (runFrom code fuel (high * 256 + b)) (m.at (m.pc + 1)) := by
  rw [runFrom_eq_runWith, runFrom_eq_runWith, runWith_extend h]

theorem runFrom_execute {op : Opcode} {b : Nat} (h : code.decode? m.pc = some (op, b))
    (hop : op ≠ .extendedArg) :
    outcome (runFrom code (fuel + 1) high) m =
      chain (outcome (execute code op (high * 256 + b)) (m.at (m.pc + 1))) fun _ m' =>
        outcome (runFrom code fuel 0) m' := by
  rw [runFrom_eq_runWith, runWith_handle h hop]
  simp only [runFrom_eq_runWith]

/-- One turn of the loop, from the prefixes read so far and the machine. -/
inductive Turn (code : Code) : Nat × Machine → Nat × Machine → Prop
  | extend {high b : Nat} {m : Machine} (h : code.decode? m.pc = some (.extendedArg, b)) :
    Turn code (high, m) (high * 256 + b, m.at (m.pc + 1))
  | execute {high b : Nat} {m m' : Machine} {op : Opcode} (h : code.decode? m.pc = some (op, b))
    (hop : op ≠ .extendedArg)
    (hrun : outcome (execute code op (high * 256 + b)) (m.at (m.pc + 1)) = (.ok (), m')) :
    Turn code (high, m) (0, m')

/-- How the loop ends where it has come to. -/
inductive Ends (code : Code) : Nat × Machine → Except Fault Unit × Machine → Prop
  /-- It is past the end of the code. -/
  | finished {high : Nat} {m : Machine} (h : code.fetch? m.pc = none) :
    Ends code (high, m) (.ok (), m)
  /-- The bound is reached. -/
  | cut {high : Nat} {m : Machine} : Ends code (high, m) (.error .endless, m)
  | unknown {high : Nat} {m : Machine} (h : code.fetch? m.pc ≠ none)
    (hd : code.decode? m.pc = none) :
    Ends code (high, m) (.error .noInstruction, m.at (m.pc + 1))
  /-- The instruction fails. -/
  | failed {high b : Nat} {m m' : Machine} {op : Opcode} {f : Fault}
    (h : code.decode? m.pc = some (op, b)) (hop : op ≠ .extendedArg)
    (hrun : outcome (execute code op (high * 256 + b)) (m.at (m.pc + 1)) = (.error f, m')) :
    Ends code (high, m) (.error f, m')

/-- The loop takes turns until it ends. -/
theorem runFrom_ends (code : Code) (fuel high : Nat) (m : Machine) :
    ∃ s, Relation.ReflTransGen (Turn code) (high, m) s ∧
      Ends code s (outcome (runFrom code fuel high) m) := by
  induction fuel generalizing high m with
  | zero => exact ⟨_, .refl, .cut⟩
  | succ fuel ih =>
    by_cases hf : code.fetch? m.pc = none
    · exact ⟨_, .refl, runFrom_end hf ▸ .finished hf⟩
    · cases hd : code.decode? m.pc with
      | none => exact ⟨_, .refl, runFrom_unknown hf hd ▸ .unknown hf hd⟩
      | some d =>
        obtain ⟨op, b⟩ := d
        by_cases hop : op = .extendedArg
        · subst hop
          obtain ⟨s, hs, he⟩ := ih (high * 256 + b) (m.at (m.pc + 1))
          exact ⟨s, .head (.extend hd) hs, runFrom_extend hd ▸ he⟩
        · rw [runFrom_execute hd hop]
          rcases hrun : outcome (execute code op (high * 256 + b)) (m.at (m.pc + 1)) with
            ⟨f | ⟨⟩, m'⟩
          · exact ⟨_, .refl, .failed hd hop hrun⟩
          · obtain ⟨s, hs, he⟩ := ih 0 m'
            exact ⟨s, .head (.execute hd hop hrun) hs, he⟩

/-- A turn takes one of the bound. -/
theorem Turn.runFrom {s s' : Nat × Machine} (h : Turn code s s') (n : Nat) :
    outcome (runFrom code (n + 1) s.1) s.2 = outcome (Exec.runFrom code n s'.1) s'.2 := by
  cases h with
  | extend hd => exact runFrom_extend hd
  | execute hd hop hrun => rw [runFrom_execute hd hop, hrun, chain_ok]

/-- After turns the loop goes on where they have led. -/
theorem runFrom_turns {s s' : Nat × Machine} (h : Relation.ReflTransGen (Turn code) s s') :
    ∃ k, ∀ n, outcome (runFrom code (n + k) s.1) s.2 = outcome (runFrom code n s'.1) s'.2 := by
  induction h with
  | refl => exact ⟨0, fun n => rfl⟩
  | tail _ hturn ih =>
    obtain ⟨k, hk⟩ := ih
    refine ⟨k + 1, fun n => ?_⟩
    rw [show n + (k + 1) = (n + 1) + k by omega, hk, hturn.runFrom]

/-- A run loads the program, goes through the loop, and looks at the stack. -/
theorem perform_runWithin {code loaded : Code} {m m₀ : Machine} (fuel : Nat)
    (hload : outcome (load code) m = (.ok loaded, m₀)) :
    m.perform (runWithin fuel code) =
      chain (outcome (runFrom loaded fuel 0) (m₀.at 0)) fun _ m' =>
        (if m'.stack.isEmpty then .ok () else .error .leftOver, m') := by
  rw [Machine.perform_eq]
  simp only [runWithin, outcome_bind, hload, chain_ok, jump, outcome_modify, outcome_get]
  congr 1
  funext _ m'
  cases m'.stack <;> rfl

/-- A run that ends is the same with a greater bound. -/
theorem runFrom_mono {fuel' : Nat} {r : Except Fault Unit} {m' : Machine}
    (h : outcome (runFrom code fuel high) m = (r, m')) (hr : r ≠ .error .endless)
    (hle : fuel ≤ fuel') : outcome (runFrom code fuel' high) m = (r, m') := by
  induction fuel generalizing fuel' high m with
  | zero =>
    cases h
    exact absurd rfl hr
  | succ fuel ih =>
    obtain ⟨fuel', rfl⟩ : ∃ n, fuel' = n + 1 := ⟨fuel' - 1, by omega⟩
    by_cases hf : code.fetch? m.pc = none
    · rw [runFrom_end hf] at h ⊢
      exact h
    · cases hd : code.decode? m.pc with
      | none =>
        rw [runFrom_unknown hf hd] at h ⊢
        exact h
      | some d =>
        obtain ⟨op, b⟩ := d
        by_cases hop : op = .extendedArg
        · subst hop
          rw [runFrom_extend hd] at h ⊢
          exact ih h (by omega)
        · rw [runFrom_execute hd hop] at h ⊢
          rcases hrun : outcome (execute code op (high * 256 + b)) (m.at (m.pc + 1)) with
            ⟨f | ⟨⟩, m₁⟩
          · rw [hrun] at h
            exact h
          · rw [hrun, chain_ok] at h
            exact ih h (by omega)

end Exec

/-- A program ends with a result when it is run without a bound. -/
def Machine.Halts (m : Machine) (code : Code) (r : Except Fault Unit) (m' : Machine) : Prop :=
  r ≠ .error .endless ∧ ∃ fuel, m.perform (Exec.runWithin fuel code) = (r, m')

/-- A run that ends is the same with a greater bound. -/
theorem Machine.perform_mono {code : Code} {m m' : Machine} {r : Except Fault Unit} {k k' : Nat}
    (h : m.perform (Exec.runWithin k code) = (r, m')) (hr : r ≠ .error .endless) (hle : k ≤ k') :
    m.perform (Exec.runWithin k' code) = (r, m') := by
  obtain ⟨consts, w, hload, -⟩ := Exec.load_returns code m
  rw [Exec.perform_runWithin k hload] at h
  rw [Exec.perform_runWithin k' hload]
  rcases hrun : outcome (Exec.runFrom { code with consts } k 0)
    (Machine.at { m with world := w } 0) with ⟨f | u, m''⟩
  · rw [hrun] at h
    cases h
    rw [Exec.runFrom_mono hrun hr hle]
    rfl
  · rw [hrun] at h
    rw [Exec.runFrom_mono hrun (by simp) hle]
    exact h

theorem Machine.halts_of_toBool {m : Machine} {code : Code} {fuel : Nat}
    (h : (m.perform (Exec.runWithin fuel code)).1.toBool = true) :
    m.Halts code (.ok ()) (m.perform (Exec.runWithin fuel code)).2 := by
  obtain ⟨u, hu, -⟩ := exists_ok_and (P := fun _ => True) h fun _ _ => trivial
  exact ⟨nofun, fuel, Prod.ext hu rfl⟩

/-- A program ends in one way only. -/
theorem Machine.Halts.unique {m m₁ m₂ : Machine} {code : Code} {r₁ r₂ : Except Fault Unit}
    (h₁ : m.Halts code r₁ m₁) (h₂ : m.Halts code r₂ m₂) : r₁ = r₂ ∧ m₁ = m₂ := by
  obtain ⟨hr₁, k₁, hk₁⟩ := h₁
  obtain ⟨hr₂, k₂, hk₂⟩ := h₂
  have hsame := (perform_mono hk₁ hr₁ (Nat.le_max_left k₁ k₂)).symm.trans
    (perform_mono hk₂ hr₂ (Nat.le_max_right k₁ k₂))
  exact ⟨congrArg (·.1) hsame, congrArg (·.2) hsame⟩

end Stackwise
