import Mathlib.Data.List.Induction
import Stackwise.Proofs.Loop

/-!
# Values beneath the stack, and sessions

A run that returns does not touch what lies beneath its own part of the stack: with more values
there it returns the same and leaves them where they are (`Framed`). The check at the end of a run
is the only place that sees them. A fault leaves the operands it had on the stack, so a session goes
on as if nothing had happened exactly when the stack is empty, and otherwise every later program
does its work and then fails at that check: `Machine.session_after_fault`.
-/
namespace Stackwise

/-- The machine with more values beneath its stack. -/
def Machine.above (m : Machine) (s : List Value) : Machine := { m with stack := m.stack ++ s }

/-- The machine with an empty stack. -/
def Machine.cleared (m : Machine) : Machine := { m with stack := [] }

namespace Machine

variable (m : Machine) (s : List Value)

@[simp] theorem above_stack : (m.above s).stack = m.stack ++ s := rfl
@[simp] theorem above_globals : (m.above s).globals = m.globals := rfl
@[simp] theorem above_world : (m.above s).world = m.world := rfl
@[simp] theorem above_pc : (m.above s).pc = m.pc := rfl
@[simp] theorem at_above (p : Nat) : (m.above s).at p = (m.at p).above s := rfl
@[simp] theorem cleared_stack : m.cleared.stack = [] := rfl
@[simp] theorem cleared_above : m.cleared.above m.stack = m := rfl

end Machine

namespace Exec

/-! ### Operations that keep what is beneath -/

/-- Where an operation returns, it returns the same above more values, and keeps them. -/
def Framed {α : Type} (e : Exec α) : Prop :=
  ∀ ⦃m : Machine⦄ ⦃a : α⦄ ⦃m' : Machine⦄, outcome e m = (.ok a, m') →
    ∀ s, outcome e (m.above s) = (.ok a, m'.above s)

namespace Framed

variable {α β : Type} {e : Exec α}

theorem pure (a : α) : Framed (pure a) := by
  rintro m _ _ ⟨⟩ s
  rfl

theorem throw (f : Fault) : Framed (throw f : Exec α) := nofun

theorem bind {g : α → Exec β} (he : Framed e) (hg : ∀ a, Framed (g a)) : Framed (e >>= g) := by
  intro m b m' h s
  rw [outcome_bind, chain_eq_ok] at h
  obtain ⟨a, m₁, ha, hb⟩ := h
  rw [outcome_bind, he ha s]
  exact hg a hb s

theorem act (a : Act α) : Framed (act a) := by
  intro m x m' h s
  obtain ⟨hx, rfl⟩ := Prod.mk.inj h
  exact Prod.ext hx rfl

theorem ofExcept (r : Except Fault α) : Framed (ofExcept r) := by
  cases r with
  | ok a => exact pure a
  | error f => exact throw f

theorem push (v : Value) : Framed (push v) := by
  rintro m _ _ ⟨⟩ s
  rfl

theorem pop : Framed pop := by
  intro m v m' h s
  rcases hstack : m.stack with _ | ⟨w, rest⟩
  · simp [Exec.pop, hstack] at h
  · simp only [Exec.pop, outcome_bind, outcome_get, chain_ok, hstack] at h
    obtain ⟨⟨⟩, rfl⟩ := h
    simp [Exec.pop, hstack, Machine.above]

theorem top : Framed top := by
  intro m v m' h s
  rcases hstack : m.stack with _ | ⟨w, rest⟩
  · simp [Exec.top, hstack] at h
  · simp only [Exec.top, outcome_bind, outcome_get, chain_ok, hstack] at h
    obtain ⟨⟨⟩, rfl⟩ := h
    simp [Exec.top, hstack]

/-- Arguments are taken together with the function below them. An operand of zero or one that is too
great takes the whole stack, and then there is no function. -/
theorem popCall (n : Nat) :
    Framed (Exec.popArguments n >>= fun args => Exec.pop >>= fun f => Pure.pure (args, f)) := by
  intro m b m' h s
  simp only [popArguments, outcome_bind, outcome_get, outcome_modify, outcome_pure, chain_ok] at h
  obtain ⟨f, m₁, hpop, hb⟩ := chain_eq_ok.1 h
  have hlength : n ≠ 0 ∧ n < m.stack.length := by
    by_contra hn
    have hdrop : m.stack.drop (if n = 0 then m.stack.length else n) = [] := by
      rw [List.drop_eq_nil_iff]
      split <;> omega
    simp [Exec.pop, hdrop] at hpop
  have htake : (m.stack ++ s).take n = m.stack.take n := by
    rw [List.take_append_of_le_length (by omega)]
  have hdrop : (m.stack ++ s).drop n = m.stack.drop n ++ s := by
    rw [List.drop_append_of_le_length (by omega)]
  rw [if_neg hlength.1] at hpop hb
  have hframed := pop hpop s
  simp only [Machine.above] at hframed
  simp only [popArguments, outcome_bind, outcome_get, outcome_modify, outcome_pure, chain_ok,
    Machine.above_stack, if_neg hlength.1, htake, hdrop]
  cases hb
  simp only [Machine.above, hframed, chain_ok]

theorem lookup (name : Name) : Framed (lookup name) := by
  refine (ofExcept _).bind fun _ m v m' h s => ?_
  simp only [outcome_bind, outcome_get, chain_ok, Machine.above_globals] at h ⊢
  cases hv : m.globals.lookup name with
  | some v =>
    rw [hv] at h
    exact pure v h s
  | none =>
    rw [hv] at h
    dsimp only at h ⊢
    cases hp : predefined? name with
    | some v =>
      rw [hp] at h
      exact pure v h s
    | none =>
      rw [hp] at h
      exact (ofExcept name.repr).bind (fun s => throw (.undefinedName s)) h s

theorem store (name : Name) (v : Value) : Framed (store name v) := by
  refine (ofExcept _).bind fun _ => ?_
  rintro m _ _ ⟨⟩ s
  rfl

theorem delete (name : Name) : Framed (delete name) := by
  refine (ofExcept _).bind fun _ m v m' h s => ?_
  simp only [outcome_bind, outcome_get, chain_ok, Machine.above_globals] at h ⊢
  cases hv : m.globals.lookup name with
  | some v =>
    rw [hv] at h
    cases h
    rfl
  | none =>
    rw [hv] at h
    exact throw _ h s

theorem chained : Chained fun _ => Framed where
  pure := pure
  throw := throw
  bind := bind
  act := act
  push := push
  pop := pop
  top := top
  lookup := lookup

theorem jumps (code : Code) (kind : JumpKind) (arg : Nat) :
    Framed (execute code kind.opcode arg) := by
  intro m _ m' h s
  rw [execute_jump, chain_eq_ok] at h
  obtain ⟨b, m₁, ht, hm⟩ := h
  rw [execute_jump, chained.taken kind ht s]
  cases hm
  cases b <;> rfl

theorem execute (code : Code) (op : Opcode) (arg : Nat) : Framed (execute code op arg) := by
  refine chained.execute ?jump ?call (fun _ n v _ => store n v) (fun _ n _ => delete n)
  case jump =>
    rintro kind rfl
    exact jumps code kind arg
  case call =>
    rintro rfl
    have hcall := (popCall arg).bind fun c : List Value × Value =>
      (act (c.2.call c.1)).bind push
    simp only [bind_assoc, pure_bind] at hcall
    exact hcall

theorem load (code : Code) : Framed (load code) := (act _).bind fun _ => pure _

/-- A loop that ends takes the same turns above more values. -/
theorem runFrom (code : Code) (fuel high : Nat) : Framed (runFrom code fuel high) := by
  induction fuel generalizing high with
  | zero => exact throw .endless
  | succ fuel ih =>
    intro m _ m' h s
    by_cases hf : code.fetch? m.pc = none
    · rw [runFrom_end hf] at h
      cases h
      exact runFrom_end hf
    · cases hd : code.decode? m.pc with
      | none =>
        rw [runFrom_unknown hf hd] at h
        cases h
      | some d =>
        obtain ⟨op, b⟩ := d
        by_cases hop : op = .extendedArg
        · subst hop
          rw [runFrom_extend hd] at h
          rw [runFrom_extend (m := m.above s) hd]
          exact ih _ h s
        · rw [runFrom_execute hd hop, chain_eq_ok] at h
          obtain ⟨_, m₁, hrun, hrest⟩ := h
          rw [runFrom_execute (m := m.above s) hd hop]
          exact chain_eq_ok.2 ⟨_, _, execute code op _ hrun s, ih 0 hrest s⟩

end Framed
end Exec

/-! ### Sessions -/

namespace Machine

/-- A program that returns leaves an empty stack. -/
theorem stack_of_runCode {m m' : Machine} {code : Code} (h : m.runCode code = (.ok (), m')) :
    m'.stack = [] := by
  obtain ⟨consts, w, hload, -⟩ := Exec.load_returns code m
  rw [runCode, Exec.run, Exec.perform_runWithin _ hload, chain_eq_ok] at h
  obtain ⟨_, m₁, -, hend⟩ := h
  cases hstack : m₁.stack with
  | nil =>
    obtain ⟨-, rfl⟩ := Prod.mk.inj hend
    exact hstack
  | cons v vs => simp [hstack] at hend

/-- A program that returns does the same above other values, keeps them, and then fails because they
are there. -/
theorem runCode_above {m m' : Machine} {code : Code} (h : m.runCode code = (.ok (), m'))
    (s : List Value) : (m.above s).runCode code =
      (if s = [] then .ok () else .error .leftOver, m'.above s) := by
  have hempty := stack_of_runCode h
  obtain ⟨consts, w, hload, -⟩ := Exec.load_returns code m
  have hload' := Exec.Framed.load code hload s
  rw [runCode, Exec.run, Exec.perform_runWithin _ hload, chain_eq_ok] at h
  obtain ⟨_, m₁, hrun, hend⟩ := h
  obtain ⟨-, rfl⟩ := Prod.mk.inj hend
  have hrun' := Exec.Framed.runFrom _ _ _ hrun s
  rw [runCode, Exec.run, Exec.perform_runWithin _ hload', at_above, hrun', chain_ok, above_stack,
    hempty, List.nil_append]
  cases s <;> rfl

/-- The code of a program text is run, or there is none and nothing happens. -/
theorem runText_cases (text : String) :
    (∃ code, Code.ofText text = .ok code ∧ ∀ m : Machine, m.runText text = m.runCode code) ∨
      ∃ f, ∀ m : Machine, m.runText text = (.error f, m) := by
  cases h : Code.ofText text with
  | ok code => exact .inl ⟨code, rfl, fun m => by rw [runText, h, runResult]⟩
  | error f => exact .inr ⟨f, fun m => by rw [runText, h, runResult]⟩

theorem runText_above {m m' : Machine} {text : String} (h : m.runText text = (.ok (), m'))
    (s : List Value) : (m.above s).runText text =
      (if s = [] then .ok () else .error .leftOver, m'.above s) := by
  obtain ⟨code, -, hrun⟩ | ⟨f, hrun⟩ := runText_cases text
  · rw [hrun] at h ⊢
    exact runCode_above h s
  · rw [hrun] at h
    cases h

/-- Where a program finds an empty stack and leaves values on it, its run has failed. -/
theorem fails_of_stack_ne_nil {m : Machine} {text : String} (hm : m.stack = [])
    (h : (m.runText text).2.stack ≠ []) :
    ∃ code f, Code.ofText text = .ok code ∧ (m.runCode code).1 = .error f := by
  obtain ⟨code, hcode, hrun⟩ | ⟨f, hrun⟩ := runText_cases text
  · rw [hrun] at h
    rcases hresult : m.runCode code with ⟨f | ⟨⟩, m'⟩
    · exact ⟨code, f, hcode, by rw [hresult]⟩
    · rw [hresult] at h
      exact absurd (stack_of_runCode hresult) h
  · rw [hrun] at h
    exact absurd hm h

/-- The outcome of every program of a session. -/
def session (m : Machine) : List String → List (Except Fault Unit × Machine)
  | [] => []
  | text :: texts => m.runText text :: (m.runText text).2.session texts

/-- The machine after a session. -/
def after (m : Machine) : List String → Machine
  | [] => m
  | text :: texts => (m.runText text).2.after texts

theorem after_append (m : Machine) (xs ys : List String) :
    m.after (xs ++ ys) = (m.after xs).after ys := by
  induction xs generalizing m with
  | nil => rfl
  | cons text texts ih => exact ih _

/-- Programs that all return do so above other values, up to the check at the end of each. -/
theorem session_above {m : Machine} {texts : List String}
    (h : ∀ step ∈ m.session texts, step.1 = .ok ()) (s : List Value) :
    (m.above s).session texts = (m.session texts).map fun step =>
      (if s = [] then .ok () else .error .leftOver, step.2.above s) := by
  induction texts generalizing m with
  | nil => rfl
  | cons text texts ih =>
    rcases hstep : m.runText text with ⟨r, m'⟩
    simp only [session, hstep, List.forall_mem_cons] at h
    obtain ⟨rfl, hrest⟩ := h
    simp only [session, hstep, runText_above hstep s, List.map_cons, ih hrest]

/-- Values on the stack come from a program that found it empty and failed in its run, and there
have been values on it ever since. -/
theorem fault_of_stack_ne_nil {m : Machine} (hm : m.stack = []) {texts : List String}
    (h : (m.after texts).stack ≠ []) :
    ∃ earlier text rest code f, texts = earlier ++ text :: rest ∧ (m.after earlier).stack = [] ∧
      Code.ofText text = .ok code ∧ ((m.after earlier).runCode code).1 = .error f ∧
      ∀ n, (m.after (earlier ++ text :: rest.take n)).stack ≠ [] := by
  induction texts using List.reverseRecOn with
  | nil => exact absurd hm h
  | append_singleton init last ih =>
    rw [after_append] at h
    by_cases hinit : (m.after init).stack = []
    · obtain ⟨code, f, hcode, hfail⟩ := fails_of_stack_ne_nil hinit h
      exact ⟨init, last, [], code, f, rfl, hinit, hcode, hfail, fun n => by simpa [after_append]⟩
    · obtain ⟨earlier, text, rest, code, f, rfl, hempty, hcode, hfail, hsince⟩ := ih hinit
      refine ⟨earlier, text, rest ++ [last], code, f, by simp, hempty, hcode, hfail, fun n => ?_⟩
      by_cases hn : n ≤ rest.length
      · rw [List.take_append_of_le_length hn]
        exact hsince n
      · rw [List.take_of_length_le (by simp; omega)]
        rw [← List.cons_append, ← List.append_assoc, after_append]
        exact h

/-- After any session, programs that would all return with an empty stack print the same and leave
the same variables with the stack as it is. They return exactly if it is empty; otherwise each of
them fails at its end, and the values stay. Such values are what a program left that failed in its
run. -/
theorem session_after_fault {m : Machine} (hm : m.stack = []) (texts later : List String)
    (h : ∀ step ∈ (m.after texts).cleared.session later, step.1 = .ok ()) :
    ((m.after texts).session later = ((m.after texts).cleared.session later).map fun step =>
      (if (m.after texts).stack = [] then .ok () else .error .leftOver,
        step.2.above (m.after texts).stack)) ∧
    ((m.after texts).stack ≠ [] →
      ∃ earlier text rest code f, texts = earlier ++ text :: rest ∧ (m.after earlier).stack = [] ∧
        Code.ofText text = .ok code ∧ ((m.after earlier).runCode code).1 = .error f ∧
        ∀ n, (m.after (earlier ++ text :: rest.take n)).stack ≠ []) :=
  ⟨session_above h (m.after texts).stack, fault_of_stack_ne_nil hm⟩

/-- A number is left behind where its sum fails, and an assignment fails that would have gone
through. -/
theorem session_after_fault_operand :
    (({} : Machine).after ["1 + nope"]).stack ≠ [] ∧
      (∀ step ∈ (({} : Machine).after ["1 + nope"]).cleared.session ["x = 2"], step.1 = .ok ()) ∧
      ∀ step ∈ (({} : Machine).after ["1 + nope"]).session ["x = 2"],
        step.1 = .error .leftOver ∧ step.2.stack ≠ [] := by
  have hstack : (({} : Machine).after ["1 + nope"]).stack ≠ [] := by
    rw [← List.isEmpty_eq_false_iff]
    decide +kernel
  have hall : ((({} : Machine).after ["1 + nope"]).cleared.session ["x = 2"]).all
      (·.1.toBool) = true := by
    decide +kernel
  have hclean : ∀ step ∈ (({} : Machine).after ["1 + nope"]).cleared.session ["x = 2"],
      step.1 = .ok () := by
    rintro ⟨f | ⟨⟩, m⟩ hstep
    · cases List.all_eq_true.1 hall _ hstep
    · rfl
  have hsession := (session_after_fault rfl ["1 + nope"] ["x = 2"] hclean).1
  generalize ({} : Machine).after ["1 + nope"] = s at *
  refine ⟨hstack, hclean, fun step hstep => ?_⟩
  rw [hsession, List.mem_map] at hstep
  obtain ⟨clean, -, rfl⟩ := hstep
  exact ⟨if_neg hstack, by simp [hstack]⟩

end Machine
end Stackwise
