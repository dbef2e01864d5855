import Stackwise.Proofs.Simulation

/-!
# Instructions as evaluations

Each instruction takes values from the stack, does what one step of an evaluation does, and pushes
the result. `Mirrors` says that of operations that leave the stack alone, `Does` of instructions.
-/
namespace Stackwise

open Exec

/-! ### Instructions -/

/-- An operation of the machine leaves the stack alone and otherwise is an evaluation. -/
def Mirrors {α : Type} (x : Exec α) (e : Eval α) : Prop :=
  ∀ m : Machine, outcome x m =
    ((outcome e m.env).1, m.withEnv m.stack (outcome e m.env).2)

namespace Mirrors

variable {α β : Type}

theorem pure (a : α) : Mirrors (pure a) (pure a) := fun _ => rfl

theorem bind {x : Exec α} {e : Eval α} {y : α → Exec β} {g : α → Eval β} (h : Mirrors x e)
    (h' : ∀ a, Mirrors (y a) (g a)) : Mirrors (x >>= y) (e >>= g) := by
  intro m
  rw [outcome_bind, outcome_bind, h m]
  rcases outcome e m.env with ⟨f | a, env⟩
  · rfl
  · rw [chain_ok, h' a]
    rfl

theorem act (a : Act α) : Mirrors (act a) (Eval.act a) := fun _ => rfl

theorem ofExcept (r : Except Fault α) : Mirrors (Exec.ofExcept r) (Eval.ofExcept r) := by
  cases r <;> exact fun _ => rfl

theorem lookup (s : String) : Mirrors (lookup (.text s)) (Eval.lookup s) := by
  intro m
  simp only [Exec.lookup, Eval.lookup, outcome_bind, outcome_get, chain_ok, Machine.env_globals,
    Name.checkKey, Exec.ofExcept, outcome_pure]
  cases m.globals.lookup (.text s) with
  | some v => rfl
  | none =>
    simp only [predefined?]
    cases builtin? s <;> rfl

theorem store (v : Value) (s : String) : Mirrors (store (.text s) v) (Eval.store v s) :=
  fun _ => rfl

theorem delete (s : String) : Mirrors (delete (.text s)) (Eval.delete s) := by
  intro m
  simp only [Exec.delete, Eval.delete, outcome_bind, outcome_get, chain_ok, Machine.env_globals,
    Name.checkKey, Exec.ofExcept, outcome_pure]
  cases m.globals.lookup (.text s) <;> rfl

theorem display (v : Value) : Mirrors (display v) (Eval.display v) := by
  cases v with
  | none => exact pure ()
  | _ => exact (ofExcept _).bind fun s => act _

end Mirrors

namespace Does

variable {α : Type} {x : Exec Unit} {ins : List Value}

/-- Take values from the stack, do something, and push what it returns. -/
theorem pushes {y : Exec Value} {e : Eval Value} (hy : Mirrors y e)
    (hx : ∀ (m : Machine) (S : List Value), m.stack = ins ++ S →
      outcome x m = outcome (y >>= push) (m.withEnv S m.env)) :
    Does x ins e fun v => [v] where
  returns := by
    intro m S v env hm he
    rw [hx m S hm, outcome_bind, hy, Machine.withEnv_env, he]
    rfl
  fails := by
    intro m S f env hm he
    refine ⟨[], ?_⟩
    rw [hx m S hm, outcome_bind, hy, Machine.withEnv_env, he]
    rfl

/-- Take values from the stack and do something. -/
theorem runs {y : Exec Unit} {e : Eval Unit} (hy : Mirrors y e)
    (hx : ∀ (m : Machine) (S : List Value), m.stack = ins ++ S →
      outcome x m = outcome y (m.withEnv S m.env)) :
    Does x ins e fun _ => [] where
  returns := by
    intro m S v env hm he
    rw [hx m S hm, hy, Machine.withEnv_env, he]
    rfl
  fails := by
    intro m S f env hm he
    refine ⟨[], ?_⟩
    rw [hx m S hm, hy, Machine.withEnv_env, he]
    rfl

/-- Take values from the stack into one value. What is left of them if that fails stays. -/
theorem collects {y : Exec α} {r : Except Fault α} (mk : α → Value)
    (hy : ∀ (m : Machine) (S : List Value), m.stack = ins ++ S →
      ∃ T, outcome y m = (r, m.withEnv (T ++ S) m.env) ∧ ∀ a, r = .ok a → T = []) :
    Does (y >>= fun a => push (mk a)) ins (mk <$> Eval.ofExcept r) fun v => [v] where
  returns := by
    intro m S v env hm he
    obtain ⟨T, hT, hok⟩ := hy m S hm
    cases r with
    | error f => simp [Eval.ofExcept] at he
    | ok a =>
      obtain ⟨rfl, rfl⟩ : mk a = v ∧ m.env = env := by simpa [Eval.ofExcept] using he
      simp [hT, hok a rfl, push]
      rfl
  fails := by
    intro m S f env hm he
    obtain ⟨T, hT, -⟩ := hy m S hm
    cases r with
    | ok a => simp [Eval.ofExcept] at he
    | error g =>
      obtain ⟨rfl, rfl⟩ : g = f ∧ m.env = env := by simpa [Eval.ofExcept] using he
      exact ⟨T, by simp [hT]⟩

end Does

section
variable {code : Code}

theorem outcome_pop {m : Machine} {v : Value} {S : List Value} (h : m.stack = v :: S) :
    outcome pop m = (.ok v, m.withEnv S m.env) := by
  simp [pop, h]
  rfl

theorem outcome_entryAt {α : Type} {table : Array α} {i : Nat} {x : α} (h : table[i]? = some x)
    (m : Machine) : outcome (entryAt table i) m = (.ok x, m) := by
  simp [entryAt, h]

theorem does_loadConst {i : Nat} {v : Value} (h : code.consts[i]? = some v) :
    Does (execute code .loadConst i) [] (pure v : Eval Value) fun v => [v] := by
  refine .pushes (.pure v) fun m S hm => ?_
  rw [Machine.withEnv_eq (by simpa using hm)]
  simp [execute, outcome_entryAt h]

theorem does_loadName {i : Nat} {s : String} (h : code.names[i]? = some (.text s)) :
    Does (execute code .loadName i) [] (Eval.lookup s) fun v => [v] := by
  refine .pushes (.lookup s) fun m S hm => ?_
  rw [Machine.withEnv_eq (by simpa using hm)]
  simp [execute, outcome_entryAt h]

theorem does_storeName {i : Nat} {s : String} (h : code.names[i]? = some (.text s)) (v : Value) :
    Does (execute code .storeName i) [v] (Eval.store v s) fun _ => [] := by
  refine .runs (.store v s) fun m S hm => ?_
  simp [execute, outcome_entryAt h, outcome_pop hm]

theorem does_delName {i : Nat} {s : String} (h : code.names[i]? = some (.text s)) :
    Does (execute code .delName i) [] (Eval.delete s) fun _ => [] := by
  refine .runs (.delete s) fun m S hm => ?_
  rw [Machine.withEnv_eq (by simpa using hm)]
  simp [execute, outcome_entryAt h]

theorem does_printExpr (v : Value) :
    Does (execute code .printExpr 0) [v] (Eval.display v) fun _ => [] := by
  refine .runs (.display v) fun m S hm => ?_
  simp [execute, outcome_pop hm]

theorem does_dupTop (v : Value) :
    Does (execute code .dupTop 0) [v] (pure () : Eval Unit) fun _ => [v, v] where
  returns := by
    intro m S a env hm he
    cases he
    simp [execute, top, push, hm]
    rfl
  fails := by
    intro m S f env hm he
    cases he

theorem does_binary (op : BinaryOp) (left right : Value) :
    Does (execute code (.binary op) 0) [right, left] (Eval.binary op left right) fun v => [v] := by
  refine .pushes ((Mirrors.ofExcept (op.apply left right)).bind fun v => .act (Act.markObject v)) ?_
  intro m S hm
  have hleft : (m.withEnv (left :: S) m.env).stack = left :: S := rfl
  simp [execute, outcome_pop hm, outcome_pop hleft]

theorem does_unary (op : UnaryOp) (v : Value) :
    Does (execute code (.unary op) 0) [v] (Eval.unary op v) fun v => [v] := by
  refine .pushes ((Mirrors.ofExcept (op.apply v)).bind fun w => .act (Act.markObject w)) ?_
  intro m S hm
  simp [execute, outcome_pop hm]

theorem does_index (v i : Value) :
    Does (execute code .index 0) [i, v] (Eval.ofExcept (v.index i)) fun v => [v] := by
  refine .pushes (.ofExcept (v.index i)) fun m S hm => ?_
  have hv : (m.withEnv (v :: S) m.env).stack = v :: S := rfl
  simp [execute, outcome_pop hm, outcome_pop hv]

theorem does_getIter (v : Value) :
    Does (execute code .getIter 0) [v] (Eval.act v.iterate) fun i => [.iterator i.1 i.2] where
  returns := by
    intro m S i env hm he
    obtain ⟨w, hw, rfl⟩ := Eval.outcome_act_eq.1 he
    simp [execute, outcome_pop hm, Value.toIterator, hw, push]
    rfl
  fails := by
    intro m S f env hm he
    obtain ⟨w, hw, rfl⟩ := Eval.outcome_act_eq.1 he
    refine ⟨[], ?_⟩
    simp [execute, outcome_pop hm, Value.toIterator, hw]
    rfl

/-- The arguments of a call are above the function, the last on top. -/
theorem does_call {f : Value} {args : List Value} (hne : args ≠ []) :
    Does (execute code .callFunction args.length) (args.reverse ++ [f]) (Eval.act (f.call args))
      fun v => [v] := by
  refine .pushes (.act (f.call args)) fun m S hm => ?_
  have hlength : args.length ≠ 0 := by simpa using hne
  have htake : m.stack.take args.length = args.reverse := by simp [hm]
  have hdrop : m.stack.drop args.length = f :: S := by simp [hm]
  have hf : ({ m with stack := f :: S } : Machine).stack = f :: S := rfl
  simp [execute, popArguments, hlength, htake, hdrop, outcome_pop hf]
  rfl

theorem outcome_popMany {m : Machine} {vs S : List Value} (h : m.stack = vs ++ S) :
    outcome (popMany vs.length) m = (.ok vs, m.withEnv S m.env) := by
  induction vs generalizing m with
  | nil => simp [popMany, Machine.withEnv_eq (by simpa using h)]
  | cons v vs ih =>
    have hrest : (m.withEnv (vs ++ S) m.env).stack = vs ++ S := rfl
    simp [popMany, outcome_pop h, ih hrest]

theorem does_buildTuple (vs : List Value) :
    Does (execute code .buildTuple vs.length) vs.reverse (pure (.tuple vs) : Eval Value)
      fun v => [v] := by
  refine .pushes (.pure (Value.tuple vs)) fun m S hm => ?_
  have hpop := outcome_popMany hm
  rw [List.length_reverse] at hpop
  simp [execute, hpop]

theorem does_buildList (vs : List Value) :
    Does (execute code .buildList vs.length) vs.reverse (pure (.list vs) : Eval Value)
      fun v => [v] := by
  refine .pushes (.pure (Value.list vs)) fun m S hm => ?_
  have hpop := outcome_popMany hm
  rw [List.length_reverse] at hpop
  simp [execute, hpop]

/-- The members of a set are taken from the stack and inserted one by one. -/
theorem outcome_popMembers {m : Machine} {vs S : List Value} (xs : List Value)
    (h : m.stack = vs ++ S) :
    ∃ T, outcome (popMembers vs.length xs) m =
      (Eval.insertAll xs vs, m.withEnv (T ++ S) m.env) ∧
        ∀ r, Eval.insertAll xs vs = .ok r → T = [] := by
  induction vs generalizing m xs with
  | nil => exact ⟨[], by simp [popMembers, Eval.insertAll, Machine.withEnv_eq (by simpa using h)]⟩
  | cons v vs ih =>
    have hrest : (m.withEnv (vs ++ S) m.env).stack = vs ++ S := rfl
    cases hv : v.checkKey with
    | error f =>
      have hins : Eval.insertAll xs (v :: vs) = .error f := by rw [Eval.insertAll, hv]; rfl
      refine ⟨vs, ?_, by simp [hins]⟩
      simp [popMembers, outcome_pop h, Exec.ofExcept, hv, hins]
    | ok u =>
      have hins : Eval.insertAll xs (v :: vs) = Eval.insertAll (Value.addMember xs v) vs := by
        rw [Eval.insertAll, hv]
        rfl
      obtain ⟨T, hT, hok⟩ := ih (Value.addMember xs v) hrest
      refine ⟨T, ?_, hins ▸ hok⟩
      simp [popMembers, outcome_pop h, Exec.ofExcept, hv, hins, hT]

theorem does_buildSet (vs : List Value) :
    Does (execute code .buildSet vs.length) vs.reverse
      (Value.set <$> Eval.ofExcept (Eval.insertAll [] vs.reverse)) fun v => [v] := by
  refine .collects (y := popMembers vs.length []) Value.set fun m S hm => ?_
  simpa using outcome_popMembers [] hm

/-- The entries of a dictionary on the stack, each key above its value. -/
def stacked : List (Value × Value) → List Value
  | [] => []
  | (k, v) :: es => k :: v :: stacked es

/-- The entries of a dictionary are taken from the stack and inserted one by one. -/
theorem outcome_popEntries {m : Machine} {es : List (Value × Value)} {S : List Value}
    (ds : List (Value × Value)) (h : m.stack = stacked es ++ S) :
    ∃ T, outcome (popEntries es.length ds) m =
      (Eval.insertEntries ds es, m.withEnv (T ++ S) m.env) ∧
        ∀ r, Eval.insertEntries ds es = .ok r → T = [] := by
  induction es generalizing m ds with
  | nil =>
    have hm : m.withEnv S m.env = m := Machine.withEnv_eq h
    exact ⟨[], by simp [popEntries, Eval.insertEntries, hm]⟩
  | cons e es ih =>
    obtain ⟨k, v⟩ := e
    have h : m.stack = k :: (v :: (stacked es ++ S)) := h
    have hv : (m.withEnv (v :: (stacked es ++ S)) m.env).stack = v :: (stacked es ++ S) := rfl
    have hrest : (m.withEnv (stacked es ++ S) m.env).stack = stacked es ++ S := rfl
    cases hk : k.checkKey with
    | error f =>
      have hins : Eval.insertEntries ds ((k, v) :: es) = .error f := by
        rw [Eval.insertEntries, hk]
        rfl
      refine ⟨stacked es, ?_, by simp [hins]⟩
      simp [popEntries, outcome_pop h, outcome_pop hv, Exec.ofExcept, hk, hins]
    | ok u =>
      have hins : Eval.insertEntries ds ((k, v) :: es) =
          Eval.insertEntries (Value.insertKey ds k v) es := by
        rw [Eval.insertEntries, hk]
        rfl
      obtain ⟨T, hT, hok⟩ := ih (Value.insertKey ds k v) hrest
      refine ⟨T, ?_, hins ▸ hok⟩
      simp [popEntries, outcome_pop h, outcome_pop hv, Exec.ofExcept, hk, hins, hT]

theorem does_buildDict (es : List (Value × Value)) :
    Does (execute code .buildDict es.length) (stacked es.reverse)
      (Value.dict <$> Eval.ofExcept (Eval.insertEntries [] es.reverse)) fun v => [v] := by
  refine .collects (y := popEntries es.length []) Value.dict fun m S hm => ?_
  simpa using outcome_popEntries [] hm

end
end Stackwise
