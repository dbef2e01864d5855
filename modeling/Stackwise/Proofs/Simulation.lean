import Stackwise.Proofs.Evaluator
import Stackwise.Proofs.ListingRun

/-!
# Lines that do what an evaluation does

`Sim bound xs ins e ys outs` says: a machine that has the values `ins` on its stack and the lines
`xs` left does what the evaluation `e` does, and then has `outs` in their place and the lines `ys`
left. What is below `ins` on the stack stays there. If `e` fails, the lines fail in the same way. If
`e` is cut off, the lines do not end within `bound` turns; this is how evaluations that never end
are told apart from runs that do.

The rules follow the ways in which lines are put together: `Sim.bind` for one after the other,
`Sim.branch` for a jump on a condition, `Sim.whileLoop` and `Sim.forLoop` for loops.
-/
namespace Stackwise

open Exec

/-! ### Machines and environments -/

namespace Machine

/-- The machine with another stack and another environment. -/
def withEnv (m : Machine) (stack : List Value) (env : Env) : Machine :=
  { m with stack, globals := env.globals, world := env.world }

variable (m : Machine) (S T : List Value) (e f : Env)

@[simp] theorem env_globals : m.env.globals = m.globals := rfl
@[simp] theorem env_world : m.env.world = m.world := rfl
@[simp] theorem withEnv_stack : (m.withEnv S e).stack = S := rfl
@[simp] theorem withEnv_globals : (m.withEnv S e).globals = e.globals := rfl
@[simp] theorem withEnv_world : (m.withEnv S e).world = e.world := rfl
@[simp] theorem withEnv_env : (m.withEnv S e).env = e := rfl
@[simp] theorem withEnv_withEnv : (m.withEnv S e).withEnv T f = m.withEnv T f := rfl

theorem withEnv_eq {m : Machine} {S : List Value} (h : m.stack = S) : m.withEnv S m.env = m := by
  subst h
  rfl

end Machine

theorem Eval.outcome_act_eq {α : Type} {a : Act α} {m : Machine} {r : Except Fault α} {env : Env} :
    outcome (Eval.act a) m.env = (r, env) ↔
      ∃ w, outcome a m.world = (r, w) ∧ env = ⟨m.globals, w⟩ := by
  change ((outcome a m.world).1, (⟨m.globals, (outcome a m.world).2⟩ : Env)) = (r, env) ↔ _
  rcases outcome a m.world with ⟨r', w⟩
  constructor
  · intro h
    cases h
    exact ⟨w, rfl, rfl⟩
  · rintro ⟨_, h, rfl⟩
    cases h
    rfl

/-! ### Running lines -/

section
variable (code : Code) (ls : List Line)

/-- Some turns lead from one point of a listing to another. -/
def Leads (k : Nat) (xs : List Line) (m : Machine) (ys : List Line) (m' : Machine) : Prop :=
  ∀ n, outcome (Line.run code ls (n + k) xs) m = outcome (Line.run code ls n ys) m'

/-- The lines that are left fail. -/
def Stops (xs : List Line) (m : Machine) (f : Fault) (m' : Machine) : Prop :=
  ∃ k, ∀ n, outcome (Line.run code ls (n + k) xs) m = (.error f, m')

/-- The lines that are left do not end within a number of turns. -/
def Lasts (bound : Nat) (xs : List Line) (m : Machine) : Prop :=
  ∀ n ≤ bound, (outcome (Line.run code ls n xs) m).1 = .error .endless

end

variable {code : Code} {ls : List Line} {p : Pool} {xs ys zs : List Line} {m m' m'' : Machine}
  {k l bound bound' : Nat}

theorem Leads.refl : Leads code ls 0 xs m xs m := fun _ => rfl

theorem Leads.trans (h : Leads code ls k xs m ys m') (h' : Leads code ls l ys m' zs m'') :
    Leads code ls (l + k) xs m zs m'' := by
  intro n
  rw [← Nat.add_assoc, h, h']

theorem Leads.stops {f : Fault} (h : Leads code ls k xs m ys m')
    (h' : Stops code ls ys m' f m'') : Stops code ls xs m f m'' := by
  obtain ⟨l, hl⟩ := h'
  refine ⟨l + k, fun n => ?_⟩
  rw [← Nat.add_assoc, h, hl]

theorem Lasts.mono (h : Lasts code ls bound xs m) (hle : bound' ≤ bound) :
    Lasts code ls bound' xs m := fun n hn => h n (by omega)

/-- Turns that lead to lines that last are turns more. -/
theorem Leads.lasts (hls : code.Lists ls p) (hs : xs <:+ ls) (h : Leads code ls k xs m ys m')
    (h' : Lasts code ls bound ys m') : Lasts code ls (bound + k) xs m := by
  intro n hn
  apply hls.run_endless_of_le (bound + k) hs _ hn
  rw [h]
  exact h' bound (le_refl _)

/-- A fault that says that something has no end comes after any number of turns. -/
theorem Stops.lasts (hls : code.Lists ls p) (hs : xs <:+ ls)
    (h : Stops code ls xs m .endless m') : Lasts code ls bound xs m := by
  obtain ⟨k, hk⟩ := h
  intro n _
  apply hls.run_endless_of_le (n + k) hs _ (by omega)
  rw [hk]

theorem lasts_zero : Lasts code ls 0 xs m := by
  intro n hn
  obtain rfl : n = 0 := by omega
  induction xs with
  | nil => rw [Line.run]; rfl
  | cons x xs ih =>
    cases x with
    | label t => rw [Line.run_label, ih]
    | _ =>
      rw [Line.run_zero (by simp)]
      rfl

/-! ### Simulation -/

/-- An evaluation can return a value. -/
def Eval.Gives {α : Type} (e : Eval α) (a : α) : Prop := ∃ env env', outcome e env = (.ok a, env')

/-- The lines from `xs` to `ys` do what an evaluation does: they take `ins` from the stack and leave
`outs` there. -/
structure Sim {α : Type} (code : Code) (ls : List Line) (bound : Nat) (xs : List Line)
    (ins : List Value) (e : Eval α) (ys : List Line) (outs : α → List Value) : Prop where
  suffix : xs <:+ ls
  returns : ∀ (m : Machine) (S : List Value) (a : α) (env : Env), m.stack = ins ++ S →
    outcome e m.env = (.ok a, env) → ∃ k, Leads code ls k xs m ys (m.withEnv (outs a ++ S) env)
  fails : ∀ (m : Machine) (S : List Value) (f : Fault) (env : Env), m.stack = ins ++ S →
    outcome e m.env = (.error f, env) → f ≠ .endless →
    ∃ T, Stops code ls xs m f (m.withEnv (T ++ S) env)
  lasts : ∀ (m : Machine) (S : List Value) (env : Env), m.stack = ins ++ S →
    outcome e m.env = (.error .endless, env) → Lasts code ls bound xs m

/-- An operation of the machine does what an evaluation does. -/
structure Does {α : Type} (x : Exec Unit) (ins : List Value) (e : Eval α)
    (outs : α → List Value) : Prop where
  returns : ∀ (m : Machine) (S : List Value) (a : α) (env : Env), m.stack = ins ++ S →
    outcome e m.env = (.ok a, env) → outcome x m = (.ok (), m.withEnv (outs a ++ S) env)
  fails : ∀ (m : Machine) (S : List Value) (f : Fault) (env : Env), m.stack = ins ++ S →
    outcome e m.env = (.error f, env) → ∃ T, outcome x m = (.error f, m.withEnv (T ++ S) env)

namespace Sim

variable {α β : Type} {e e' : Eval α} {g : α → Eval β} {ins : List Value}
  {mid outs : α → List Value} {ws : List Line}

theorem mono (h : Sim code ls bound xs ins e ys outs) (hle : bound' ≤ bound) :
    Sim code ls bound' xs ins e ys outs :=
  ⟨h.suffix, h.returns, h.fails, fun m S env hm he => (h.lasts m S env hm he).mono hle⟩

/-- What is further down on the stack may be counted in. -/
theorem frame (h : Sim code ls bound xs ins e ys outs) (T : List Value) :
    Sim code ls bound xs (ins ++ T) e ys fun a => outs a ++ T where
  suffix := h.suffix
  returns := by
    intro m S a env hm he
    simpa using h.returns m (T ++ S) a env (by simpa using hm) he
  fails := by
    intro m S f env hm he hf
    obtain ⟨U, hU⟩ := h.fails m (T ++ S) f env (by simpa using hm) he hf
    exact ⟨U ++ T, by simpa using hU⟩
  lasts := fun m S env hm he => h.lasts m (T ++ S) env (by simpa using hm) he

theorem pure (outs : α → List Value) (hs : xs <:+ ls) (a : α) :
    Sim code ls bound xs (outs a) (pure a) xs outs where
  suffix := hs
  returns := by
    intro m S b env hm he
    cases he
    exact ⟨0, by rw [Machine.withEnv_eq hm]; exact .refl⟩
  fails := by
    intro m S f env hm he
    cases he
  lasts := by
    intro m S env hm he
    cases he

/-- One after the other. -/
theorem bind {outs : β → List Value} (hls : code.Lists ls p)
    (h : Sim code ls bound xs ins e ys mid)
    (h' : ∀ a, e.Gives a → Sim code ls bound ys (mid a) (g a) zs outs) :
    Sim code ls bound xs ins (e >>= g) zs outs where
  suffix := h.suffix
  returns := by
    intro m S b env hm he
    rw [outcome_bind, chain_eq_ok] at he
    obtain ⟨a, env₁, he, hg⟩ := he
    obtain ⟨k, hk⟩ := h.returns m S a env₁ hm he
    obtain ⟨l, hl⟩ := (h' a ⟨_, _, he⟩).returns (m.withEnv (mid a ++ S) env₁) S b env rfl hg
    exact ⟨l + k, hk.trans hl⟩
  fails := by
    intro m S f env hm he hf
    rw [outcome_bind, chain_eq_error] at he
    obtain he | ⟨a, env₁, he, hg⟩ := he
    · exact h.fails m S f env hm he hf
    · obtain ⟨k, hk⟩ := h.returns m S a env₁ hm he
      obtain ⟨T, hT⟩ := (h' a ⟨_, _, he⟩).fails (m.withEnv (mid a ++ S) env₁) S f env rfl hg hf
      exact ⟨T, hk.stops hT⟩
  lasts := by
    intro m S env hm he
    rw [outcome_bind, chain_eq_error] at he
    obtain he | ⟨a, env₁, he, hg⟩ := he
    · exact h.lasts m S env hm he
    · obtain ⟨k, hk⟩ := h.returns m S a env₁ hm he
      have hlasts := (h' a ⟨_, _, he⟩).lasts (m.withEnv (mid a ++ S) env₁) S env rfl hg
      exact (hk.lasts hls h.suffix hlasts).mono (by omega)

/-- Lines that change nothing after others. -/
theorem followed (hls : code.Lists ls p) (h : Sim code ls bound xs ins e ys outs)
    (h' : ∀ a, Sim code ls bound ys (outs a) (Pure.pure a : Eval α) zs outs) :
    Sim code ls bound xs ins e zs outs := by
  rw [← bind_pure e]
  exact bind hls h fun a _ => h' a

/-- An ordinary line. -/
theorem operation (hls : code.Lists ls p) {x : Line} {op : Opcode} {arg : Nat}
    (hop : x.operation? = some (op, arg)) (hs : x :: ys <:+ ls)
    (h : Does (execute code op arg) ins e outs) : Sim code ls bound (x :: ys) ins e ys outs := by
  have stops : ∀ (m : Machine) (S : List Value) (f : Fault) (env : Env), m.stack = ins ++ S →
      outcome e m.env = (.error f, env) →
      ∃ T, Stops code ls (x :: ys) m f (m.withEnv (T ++ S) env) := by
    intro m S f env hm he
    obtain ⟨T, hT⟩ := h.fails m S f env hm he
    exact ⟨T, x.width, fun n => by rw [Line.run_operation hop, outcome_bind, hT, chain_error]⟩
  refine ⟨hs, ?_, fun m S f env hm he _ => stops m S f env hm he, ?_⟩
  · intro m S a env hm he
    refine ⟨x.width, fun n => ?_⟩
    rw [Line.run_operation hop, outcome_bind, h.returns m S a env hm he, chain_ok]
  · intro m S env hm he
    obtain ⟨T, hT⟩ := stops m S _ env hm he
    exact hT.lasts hls hs

/-- Turns that change nothing but the lines that are left. -/
theorem prepend (hls : code.Lists ls p) (hs : xs <:+ ls)
    (hk : ∀ (m : Machine) (S : List Value), m.stack = ins ++ S → Leads code ls k xs m ys m)
    (h : Sim code ls bound ys ins e zs outs) : Sim code ls (bound + k) xs ins e zs outs where
  suffix := hs
  returns := by
    intro m S a env hm he
    obtain ⟨l, hl⟩ := h.returns m S a env hm he
    exact ⟨l + k, (hk m S hm).trans hl⟩
  fails := by
    intro m S f env hm he hf
    obtain ⟨T, hT⟩ := h.fails m S f env hm he hf
    exact ⟨T, (hk m S hm).stops hT⟩
  lasts := fun m S env hm he => (hk m S hm).lasts hls hs (h.lasts m S env hm he)

theorem label (hls : code.Lists ls p) {t : Marker} (hs : .label t :: xs <:+ ls)
    (h : Sim code ls bound xs ins e ys outs) :
    Sim code ls bound (.label t :: xs) ins e ys outs :=
  h.prepend hls hs (k := 0) fun m S _ n => by rw [Line.run_label, Nat.add_zero]

/-- A jump that is always taken costs a turn. -/
theorem jump (hls : code.Lists ls p) {t : Marker} (hs : .jump .always t :: xs <:+ ls)
    (ht : .label t :: ys <:+ ls) (h : Sim code ls bound ys ins e zs outs) :
    Sim code ls (bound + 1) (.jump .always t :: xs) ins e zs outs := by
  refine h.prepend hls hs fun m S _ n => ?_
  rw [Line.run_jump, Line.after_eq hls.labels ht]
  rfl

/-- A jump that evaluates something before it is decided. -/
theorem decided (hls : code.Lists ls p) (mid : α → List Value) (taken : α → Bool)
    {kind : JumpKind} {t : Marker} {outs : β → List Value} (hs : .jump kind t :: xs <:+ ls)
    (ht : .label t :: ys <:+ ls)
    (returns : ∀ (m : Machine) (S : List Value) (a : α) (env : Env), m.stack = ins ++ S →
      outcome e m.env = (.ok a, env) →
      outcome kind.taken m = (.ok (taken a), m.withEnv (mid a ++ S) env))
    (fails : ∀ (m : Machine) (S : List Value) (f : Fault) (env : Env), m.stack = ins ++ S →
      outcome e m.env = (.error f, env) →
        outcome kind.taken m = (.error f, m.withEnv (ins ++ S) env))
    (h : ∀ a, taken a = false → Sim code ls bound xs (mid a) (g a) zs outs)
    (h' : ∀ a, taken a = true → Sim code ls bound ys (mid a) (g a) zs outs) :
    Sim code ls bound (.jump kind t :: xs) ins (e >>= g) zs outs := by
  -- The lines after the jump, either way.
  let target (a : α) : List Line := if taken a then ys else xs
  have leads : ∀ (m : Machine) (S : List Value) (a : α) (env : Env), m.stack = ins ++ S →
      outcome e m.env = (.ok a, env) → Leads code ls 1 (.jump kind t :: xs) m (target a)
        (m.withEnv (mid a ++ S) env) := by
    intro m S a env hm he n
    rw [Line.run_jump, outcome_bind, returns m S a env hm he, chain_ok,
      Line.after_eq hls.labels ht]
    cases hb : taken a <;> simp [target, hb]
  have sim : ∀ a, Sim code ls bound (target a) (mid a) (g a) zs outs := by
    intro a
    cases hb : taken a with
    | true => simpa [target, hb] using h' a hb
    | false => simpa [target, hb] using h a hb
  have stops : ∀ (m : Machine) (S : List Value) (f : Fault) (env : Env), m.stack = ins ++ S →
      outcome e m.env = (.error f, env) →
      Stops code ls (.jump kind t :: xs) m f (m.withEnv (ins ++ S) env) := by
    intro m S f env hm he
    exact ⟨1, fun n => by rw [Line.run_jump, outcome_bind, fails m S f env hm he, chain_error]⟩
  refine ⟨hs, ?_, ?_, ?_⟩
  · intro m S b env hm he
    rw [outcome_bind, chain_eq_ok] at he
    obtain ⟨a, env₁, he, hg⟩ := he
    obtain ⟨l, hl⟩ := (sim a).returns (m.withEnv (mid a ++ S) env₁) S b env rfl hg
    exact ⟨l + 1, (leads m S a env₁ hm he).trans hl⟩
  · intro m S f env hm he hf
    rw [outcome_bind, chain_eq_error] at he
    obtain he | ⟨a, env₁, he, hg⟩ := he
    · exact ⟨ins, stops m S f env hm he⟩
    · obtain ⟨T, hT⟩ := (sim a).fails (m.withEnv (mid a ++ S) env₁) S f env rfl hg hf
      exact ⟨T, (leads m S a env₁ hm he).stops hT⟩
  · intro m S env hm he
    rw [outcome_bind, chain_eq_error] at he
    obtain he | ⟨a, env₁, he, hg⟩ := he
    · exact (stops m S _ env hm he).lasts hls hs
    · have hlasts := (sim a).lasts (m.withEnv (mid a ++ S) env₁) S env rfl hg
      exact ((leads m S a env₁ hm he).lasts hls hs hlasts).mono (by omega)

/-- A jump on a condition that keeps what it tests. -/
theorem branch (hls : code.Lists ls p) {t : Marker} {v : Value}
    (hs : .jump .ifFalse t :: xs <:+ ls) (ht : .label t :: ys <:+ ls)
    (h : Sim code ls bound xs (v :: ins) e zs outs)
    (h' : Sim code ls bound ys (v :: ins) e' zs outs) :
    Sim code ls bound (.jump .ifFalse t :: xs) (v :: ins) (if v.truthy then e else e') zs outs := by
  rw [← pure_bind () fun _ => if v.truthy then e else e']
  refine decided hls (fun _ => v :: ins) (fun _ => !v.truthy) hs ht ?_ ?_ ?_ ?_
  · intro m S a env hm he
    cases he
    rw [Machine.withEnv_eq hm]
    simp [JumpKind.taken, top, hm]
  · intro m S f env hm he
    cases he
  · intro _ hv
    simpa [show v.truthy = true by simpa using hv] using h
  · intro _ hv
    simpa [show v.truthy = false by simpa using hv] using h'

/-- The next item of an iterator goes on the stack; the jump is taken when there is none. -/
theorem next (hls : code.Lists ls p) {g : Option Value → Eval α} {t : Marker} {ref : Nat}
    {kind : Ty} (hs : .jump .atEnd t :: xs <:+ ls) (ht : .label t :: ys <:+ ls)
    (h : ∀ v, Sim code ls bound xs (v :: .iterator ref kind :: ins) (g (some v)) zs outs)
    (h' : Sim code ls bound ys (.iterator ref kind :: ins) (g none) zs outs) :
    Sim code ls bound (.jump .atEnd t :: xs) (.iterator ref kind :: ins)
      (Eval.act (pull ref) >>= g) zs outs := by
  let mid (v : Option Value) := v.toList ++ Value.iterator ref kind :: ins
  refine decided hls mid Option.isNone hs ht ?_ ?_ ?_ ?_
  · intro m S v env hm he
    obtain ⟨w, hp, rfl⟩ := Eval.outcome_act_eq.1 he
    cases v <;> simp [JumpKind.taken, top, hm, hp, Exec.push] <;> rfl
  · intro m S f env hm he
    obtain ⟨w, hp, rfl⟩ := Eval.outcome_act_eq.1 he
    simp [JumpKind.taken, top, hm, hp]
    rfl
  · intro v hv
    obtain ⟨v, rfl⟩ := Option.isSome_iff_exists.1 (by simpa using hv)
    exact h v
  · intro v hv
    obtain rfl := Option.isNone_iff_eq_none.1 hv
    exact h'

/-- An ordinary line that only changes the stack. -/
theorem silent (hls : code.Lists ls p) {x : Line} {op : Opcode} {arg : Nat} {between : List Value}
    (hop : x.operation? = some (op, arg)) (hs : x :: xs <:+ ls)
    (hx : Does (execute code op arg) ins (Pure.pure () : Eval Unit) fun _ => between)
    (h : Sim code ls bound xs between e ys outs) : Sim code ls bound (x :: xs) ins e ys outs := by
  rw [← pure_bind () fun _ => e]
  exact bind hls (operation hls hop hs hx) fun _ _ => h

theorem cut (hs : xs <:+ ls) : Sim code ls 0 xs ins (throw .endless : Eval α) ys outs where
  suffix := hs
  returns := nofun
  fails := by
    intro m S f env hm he hf
    cases he
    exact absurd rfl hf
  lasts := fun _ _ _ _ _ => lasts_zero

end Sim

theorem suffix_of_cons {x : Line} (h : x :: xs <:+ ls) : xs <:+ ls :=
  (List.suffix_cons x xs).trans h

theorem suffix_of_append (h : xs ++ ys <:+ ls) : ys <:+ ls := (List.suffix_append xs ys).trans h

theorem does_popTop (v : Value) :
    Does (execute code .popTop 0) [v] (pure () : Eval Unit) fun _ => [] where
  returns := by
    intro m S a env hm he
    cases he
    simp [execute, pop, hm]
    rfl
  fails := by
    intro m S f env hm he
    cases he

namespace Sim

variable {test : Eval Value} {body : Eval Unit} {again done : Marker}

/-- A loop on a condition: `xs` is where a round begins, `ys` where its body does. -/
theorem whileLoop (hls : code.Lists ls p) (hagain : .label again :: xs <:+ ls)
    (htest : Sim code ls bound xs [] test
      (.jump .ifFalse done :: .plain .popTop 0 rfl :: ys) fun v => [v])
    (hbody : Sim code ls bound ys [] body
      (.jump .always again :: .label done :: .plain .popTop 0 rfl :: zs) fun _ => [])
    (hs : .jump .ifFalse done :: .plain .popTop 0 rfl :: ys <:+ ls)
    (hs' : .jump .always again :: .label done :: .plain .popTop 0 rfl :: zs <:+ ls)
    {n : Nat} (hn : n ≤ bound) :
    Sim code ls n xs [] (Eval.whileLoop test body n) zs fun _ => [] := by
  induction n with
  | zero => exact cut (suffix_of_cons hagain)
  | succ n ih =>
    have hdone := suffix_of_cons hs'
    rw [Eval.whileLoop]
    refine bind hls (htest.mono hn) fun v _ => branch hls hs hdone ?_ ?_
    · refine silent hls rfl (suffix_of_cons hs) (does_popTop v) ?_
      refine bind hls (hbody.mono hn) fun _ _ => ?_
      exact jump hls hs' hagain (ih (by omega))
    · refine silent hls rfl (suffix_of_cons hdone) (does_popTop v) ?_
      exact .pure (fun _ => []) (suffix_of_cons (suffix_of_cons hdone)) ()

/-- A loop over the items of an iterator, which stays on the stack. -/
theorem forLoop (hls : code.Lists ls p) {name : String} {ref : Nat} {kind : Ty}
    (hagain : .label again :: .jump .atEnd done :: xs <:+ ls)
    (htarget : ∀ v, Sim code ls bound xs [v] (Eval.store v name) ys fun _ => [])
    (hbody : Sim code ls bound ys [] body
      (.jump .always again :: .label done :: .plain .popTop 0 rfl :: zs) fun _ => [])
    (hs' : .jump .always again :: .label done :: .plain .popTop 0 rfl :: zs <:+ ls)
    {n : Nat} (hn : n ≤ bound) :
    Sim code ls n (.jump .atEnd done :: xs) [.iterator ref kind]
      (Eval.forLoop name ref body n) zs fun _ => [] := by
  induction n with
  | zero => exact cut (suffix_of_cons hagain)
  | succ n ih =>
    have hdone := suffix_of_cons hs'
    rw [Eval.forLoop]
    refine next hls (suffix_of_cons hagain) hdone (fun v => ?_) ?_
    · refine bind hls (((htarget v).mono hn).frame [.iterator ref kind]) fun _ _ => ?_
      refine bind hls ((hbody.mono hn).frame [.iterator ref kind]) fun _ _ => ?_
      exact jump hls hs' hagain (ih (by omega))
    · refine silent hls rfl (suffix_of_cons hdone) (does_popTop _) ?_
      exact .pure (fun _ => []) (suffix_of_cons (suffix_of_cons hdone)) ()

end Sim
end Stackwise
