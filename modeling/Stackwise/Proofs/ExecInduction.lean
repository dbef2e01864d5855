import Stackwise.Proofs.Listing

/-!
# Induction over what an instruction does

What holds of the single operations of the machine, and is kept when operations follow one another,
holds of every instruction. Few properties hold of all operations: jumps change the place in the
code, calls can take the whole stack, and two operations change variables. `Exec.Chained.execute`
leaves those four to the property in question. `Exec.Stable.execute` is for properties of jumps and
calls as well, and changing a variable can be asked for less: only with the names that the
instruction has in its table.
-/
namespace Stackwise.Exec

/-- A property that the single operations of the machine have, apart from jumps, those that take
arguments and those that change a variable, and that going on from one to the next keeps. -/
structure Chained (P : (α : Type) → Exec α → Prop) : Prop where
  pure : ∀ {α : Type} (a : α), P α (pure a)
  throw : ∀ {α : Type} (f : Fault), P α (throw f)
  bind : ∀ {α β : Type} {e : Exec α} {g : α → Exec β}, P α e → (∀ a, P β (g a)) → P β (e >>= g)
  act : ∀ {α : Type} (a : Act α), P α (act a)
  push : ∀ v, P Unit (push v)
  pop : P Value pop
  top : P Value top
  lookup : ∀ n, P Value (lookup n)

namespace Chained

variable {P : (α : Type) → Exec α → Prop} (h : Chained P)
include h

theorem map {α β : Type} {e : Exec α} (g : α → β) (he : P α e) : P β (g <$> e) := by
  rw [← bind_pure_comp]
  exact h.bind he fun a => h.pure (g a)

theorem ofExcept {α : Type} (r : Except Fault α) : P α (Exec.ofExcept r) := by
  cases r with
  | ok a => exact h.pure a
  | error f => exact h.throw f

theorem popMany (n : Nat) : P (List Value) (Exec.popMany n) := by
  induction n with
  | zero => exact h.pure []
  | succ n ih => exact h.bind h.pop fun v => h.map (v :: ·) ih

theorem popMembers (n : Nat) (xs : List Value) : P (List Value) (Exec.popMembers n xs) := by
  induction n generalizing xs with
  | zero => exact h.pure xs
  | succ n ih => exact h.bind h.pop fun v => h.bind (h.ofExcept _) fun _ => ih _

theorem popEntries (n : Nat) (es : List (Value × Value)) :
    P (List (Value × Value)) (Exec.popEntries n es) := by
  induction n generalizing es with
  | zero => exact h.pure es
  | succ n ih =>
    exact h.bind h.pop fun k => h.bind h.pop fun v => h.bind (h.ofExcept _) fun _ => ih _

/-- What is done with an entry of a table is done with the one that the operand points to. -/
theorem bind_entryAt {α β : Type} {table : Array α} {i : Nat} {g : α → Exec β}
    (hg : ∀ x, table[i]? = some x → P β (g x)) : P β (Exec.entryAt table i >>= g) := by
  unfold Exec.entryAt
  cases hx : table[i]? with
  | some x => simpa using hg x hx
  | none => exact h.throw _

theorem display (v : Value) : P Unit (Exec.display v) := by
  unfold Exec.display
  split
  · exact h.pure ()
  · exact h.bind (h.ofExcept _) fun s => h.act _

/-- Such a property holds of every instruction, if it holds of jumps, of calls and of changing the
variables that the instruction names. -/
theorem execute {code : Code} {op : Opcode} {arg : Nat}
    (hjump : ∀ kind, op = JumpKind.opcode kind → P Unit (Exec.execute code op arg))
    (hcall : op = .callFunction → P Unit (Exec.execute code op arg))
    (hstore : op = .storeName → ∀ n v, code.names[arg]? = some n → P Unit (Exec.store n v))
    (hdelete : op = .delName → ∀ n, code.names[arg]? = some n → P Unit (Exec.delete n)) :
    P Unit (Exec.execute code op arg) := by
  cases op with
  | jump => exact hjump .always rfl
  | jumpIfFalse => exact hjump .ifFalse rfl
  | forIter => exact hjump .atEnd rfl
  | callFunction => exact hcall rfl
  | loadConst => exact h.bind_entryAt fun v _ => h.push v
  | printExpr => exact h.bind h.pop fun v => h.display v
  | dupTop => exact h.bind h.top fun v => h.push v
  | popTop => exact h.bind h.pop fun _ => h.pure ()
  | loadName => exact h.bind_entryAt fun n _ => h.bind (h.lookup n) fun v => h.push v
  | storeName => exact h.bind_entryAt fun n hn => h.bind h.pop fun v => hstore rfl n v hn
  | delName => exact h.bind_entryAt fun n hn => hdelete rfl n hn
  | buildList => exact h.bind (h.popMany _) fun vs => h.push _
  | buildTuple => exact h.bind (h.popMany _) fun vs => h.push _
  | buildSet => exact h.bind (h.popMembers _ _) fun vs => h.push _
  | buildDict => exact h.bind (h.popEntries _ _) fun es => h.push _
  | binary op =>
    refine h.bind h.pop fun right => h.bind h.pop fun left => ?_
    exact h.bind (h.ofExcept _) fun v => h.bind (h.act _) fun w => h.push w
  | unary op =>
    refine h.bind h.pop fun v => ?_
    exact h.bind (h.ofExcept _) fun w => h.bind (h.act _) fun w => h.push w
  | index =>
    refine h.bind h.pop fun i => h.bind h.pop fun v => ?_
    exact h.bind (h.ofExcept _) fun w => h.push w
  | extendedArg => exact h.pure ()
  | getIter => exact h.bind h.pop fun v => h.bind (h.act _) fun w => h.push w

end Chained

/-- A property that the single operations of the machine have, apart from those that change a
variable, and that going on from one to the next keeps. -/
structure Stable (P : (α : Type) → Exec α → Prop) : Prop where
  pure : ∀ {α : Type} (a : α), P α (pure a)
  throw : ∀ {α : Type} (f : Fault), P α (throw f)
  bind : ∀ {α β : Type} {e : Exec α} {g : α → Exec β}, P α e → (∀ a, P β (g a)) → P β (e >>= g)
  act : ∀ {α : Type} (a : Act α), P α (act a)
  push : ∀ v, P Unit (push v)
  pop : P Value pop
  top : P Value top
  popArguments : ∀ n, P (List Value) (popArguments n)
  jump : ∀ target, P Unit (jump target)
  lookup : ∀ n, P Value (lookup n)

namespace Stable

variable {P : (α : Type) → Exec α → Prop} (h : Stable P)
include h

theorem chained : Chained P :=
  ⟨h.pure, h.throw, h.bind, h.act, h.push, h.pop, h.top, h.lookup⟩

theorem advance (target : Nat) : P Unit (Exec.advance target) := by
  refine h.bind h.top fun v => ?_
  split
  · refine h.bind (h.act _) fun next => ?_
    cases next with
    | some v => exact h.push v
    | none => exact h.jump target
  · exact h.throw _

/-- A stable property holds of every instruction, if it holds of changing the variables that the
instruction names. -/
theorem execute {code : Code} {op : Opcode} {arg : Nat}
    (hstore : op = .storeName → ∀ n v, code.names[arg]? = some n → P Unit (Exec.store n v))
    (hdelete : op = .delName → ∀ n, code.names[arg]? = some n → P Unit (Exec.delete n)) :
    P Unit (Exec.execute code op arg) := by
  refine h.chained.execute ?jump ?call hstore hdelete
  case jump =>
    rintro kind rfl
    cases kind with
    | always => exact h.jump arg
    | ifFalse =>
      refine h.bind h.top fun v => ?_
      split
      · exact h.jump arg
      · exact h.pure ()
    | atEnd => exact h.advance arg
  case call =>
    rintro rfl
    refine h.bind (h.popArguments _) fun args => h.bind h.pop fun f => ?_
    exact h.bind (h.act _) fun v => h.push v

end Stable
end Stackwise.Exec
