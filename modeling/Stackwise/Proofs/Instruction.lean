import Stackwise.Proofs.ExecInduction

/-!
# What instructions do to the place in the code

Operations of the machine do not look at the place in the code, and only jumps change it. `Blind`
says that of an operation. An instruction that can jump decides whether it does, which is blind, and
then goes to its operand: `execute_jump`.
-/
namespace Stackwise

/-- The machine at another place in its code. -/
def Machine.at (m : Machine) (pc : Nat) : Machine := { m with pc }

namespace Machine

variable (m : Machine) (p q : Nat)

@[simp] theorem at_pc : (m.at p).pc = p := rfl
@[simp] theorem at_stack : (m.at p).stack = m.stack := rfl
@[simp] theorem at_globals : (m.at p).globals = m.globals := rfl
@[simp] theorem at_world : (m.at p).world = m.world := rfl
@[simp] theorem at_at : (m.at p).at q = m.at q := rfl
@[simp] theorem at_self : m.at m.pc = m := rfl

end Machine

/-- The same result with the machine after it at another place. -/
def placed {α : Type} (r : Except Fault α × Machine) (p : Nat) : Except Fault α × Machine :=
  (r.1, r.2.at p)

theorem eq_placed {α : Type} {x y : Except Fault α × Machine} (h : placed x 0 = placed y 0) :
    x = placed y x.2.pc := by
  obtain ⟨r, m⟩ := x
  obtain ⟨r', m'⟩ := y
  obtain ⟨rfl, hm⟩ : r = r' ∧ m.at 0 = m'.at 0 := by simpa [placed] using h
  have hat : m = m'.at m.pc := by
    calc
      m = (m.at 0).at m.pc := rfl
      _ = (m'.at 0).at m.pc := by rw [hm]
  rw [placed, ← hat]

namespace Exec

/-- An operation that neither looks at the place in the code nor changes it. -/
def Blind {α : Type} (e : Exec α) : Prop :=
  ∀ (m : Machine) (p : Nat), outcome e (m.at p) = placed (outcome e m) p

namespace Blind

variable {α β : Type} {e : Exec α}

theorem pure (a : α) : Blind (pure a) := fun _ _ => rfl

theorem throw (f : Fault) : Blind (throw f : Exec α) := fun _ _ => rfl

theorem bind {g : α → Exec β} (he : Blind e) (hg : ∀ a, Blind (g a)) : Blind (e >>= g) := by
  intro m p
  simp only [outcome_bind, he m p]
  rcases outcome e m with ⟨_ | a, m'⟩
  · rfl
  · exact hg a m' p

theorem ofExcept (r : Except Fault α) : Blind (ofExcept r) := by
  cases r with
  | ok a => exact pure a
  | error f => exact throw f

theorem lookup (name : Name) : Blind (lookup name) := by
  refine (ofExcept _).bind fun _ m p => ?_
  simp only [outcome_bind, outcome_get, chain_ok, Machine.at_globals]
  cases m.globals.lookup name with
  | some v => rfl
  | none =>
    dsimp only
    cases predefined? name with
    | some v => rfl
    | none => exact ((ofExcept name.repr).bind fun s => throw (.undefinedName s)) m p

theorem store (name : Name) (v : Value) : Blind (store name v) :=
  (ofExcept _).bind fun _ _ _ => rfl

theorem delete (name : Name) : Blind (delete name) := by
  refine (ofExcept _).bind fun _ m p => ?_
  simp only [outcome_bind, outcome_get, chain_ok, Machine.at_globals]
  cases m.globals.lookup name <;> rfl

theorem chained : Chained fun _ => Blind where
  pure := pure
  throw := throw
  bind := bind
  act _ _ _ := rfl
  push _ _ _ := rfl
  pop m p := by rcases h : m.stack with _ | ⟨v, rest⟩ <;> simp [Exec.pop, h] <;> rfl
  top m p := by rcases h : m.stack with _ | ⟨v, rest⟩ <;> simp [Exec.top, h] <;> rfl
  lookup := lookup

end Blind

/-- What an operation returns and does from another place. -/
theorem Blind.outcome_eq {α : Type} {e : Exec α} (h : Blind e) (m : Machine) :
    outcome e m = placed (outcome e (m.at 0)) m.pc := h (m.at 0) m.pc

theorem Blind.pc_eq {α : Type} {e : Exec α} (h : Blind e) {m m' : Machine} {r : Except Fault α}
    (hm : outcome e m = (r, m')) : m'.pc = m.pc := by
  have := h.outcome_eq m
  rw [hm] at this
  exact congrArg (·.2.pc) this

end Exec

/-! ### Jumps -/

/-- Whether a jump is taken. An iterator that has an item pushes it. -/
def JumpKind.taken : JumpKind → Exec Bool
  | .always => return true
  | .ifFalse => return !(← Exec.top).truthy
  | .atEnd => do
    match ← Exec.top with
    | .iterator ref _ =>
      match ← Exec.act (pull ref) with
      | some v =>
        Exec.push v
        return false
      | none => return true
    | v => throw (.notIterator v.tyName)

namespace Exec

theorem Chained.taken {P : (α : Type) → Exec α → Prop} (h : Chained P) (kind : JumpKind) :
    P Bool kind.taken := by
  cases kind with
  | always => exact h.pure true
  | ifFalse => exact h.bind h.top fun v => h.pure !v.truthy
  | atEnd =>
    refine h.bind h.top fun v => ?_
    split
    · refine h.bind (h.act _) fun next => ?_
      cases next with
      | some v => exact h.bind (h.push v) fun _ => h.pure false
      | none => exact h.pure true
    · exact h.throw _

theorem Blind.taken (kind : JumpKind) : Blind kind.taken := chained.taken kind

/-- An instruction that can jump goes to its operand if the jump is taken. -/
theorem execute_jump (code : Code) (kind : JumpKind) (arg : Nat) (m : Machine) :
    outcome (execute code kind.opcode arg) m =
      chain (outcome kind.taken m) fun b m' => (.ok (), if b then m'.at arg else m') := by
  cases kind with
  | always => rfl
  | ifFalse =>
    simp only [JumpKind.opcode, execute, JumpKind.taken, outcome_bind, bind_pure_comp, outcome_map]
    rcases outcome top m with ⟨_ | v, m'⟩
    · rfl
    · cases h : v.truthy <;> simp [h, jump, Machine.at]
  | atEnd =>
    simp only [JumpKind.opcode, execute, advance, JumpKind.taken, outcome_bind]
    rcases outcome top m with ⟨_ | v, m'⟩
    · rfl
    · cases v with
      | iterator ref kind =>
        simp only [chain_ok, outcome_bind]
        rcases outcome (act (pull ref)) m' with ⟨_ | next, m''⟩
        · rfl
        · cases next <;> rfl
      | _ => rfl

/-- Every other instruction is blind. -/
theorem Blind.execute (code : Code) (op : Opcode) (arg : Nat)
    (h : ∀ kind, op ≠ JumpKind.opcode kind) : Blind (execute code op arg) := by
  refine chained.execute (fun kind hkind => absurd hkind (h kind)) ?call (fun _ n v _ => store n v)
    (fun _ n _ => delete n)
  rintro rfl
  have harguments : Blind (popArguments arg) := fun _ _ => rfl
  refine harguments.bind fun args => chained.bind chained.pop fun f => ?_
  exact chained.bind (chained.act _) chained.push

/-- After an instruction the place is what it was, or the operand of a jump. -/
theorem execute_pc {code : Code} {op : Opcode} {arg : Nat} {m m' : Machine}
    (h : outcome (execute code op arg) m = (.ok (), m')) :
    m'.pc = m.pc ∨ (∃ kind, op = JumpKind.opcode kind) ∧ m'.pc = arg := by
  by_cases hop : ∃ kind, op = JumpKind.opcode kind
  · obtain ⟨kind, rfl⟩ := hop
    rw [execute_jump, chain_eq_ok] at h
    obtain ⟨b, m₁, ht, he⟩ := h
    cases he
    cases b with
    | true => exact .inr ⟨⟨kind, rfl⟩, rfl⟩
    | false => exact .inl ((Blind.taken kind).pc_eq ht)
  · exact .inl ((Blind.execute code op arg fun kind he => hop ⟨kind, he⟩).pc_eq h)

end Exec
end Stackwise
