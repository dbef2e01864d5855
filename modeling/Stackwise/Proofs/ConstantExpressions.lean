import Stackwise.Proofs.Building
import Stackwise.Proofs.FoldFaults
import Stackwise.Proofs.Marks

/-!
# Constant expressions

Expressions of literals, tuples and binary operations always have code. To fold one of them and to
run an assignment of it come to the same: both give one value, or both fail with the same fault,
which is that of the first part that fails. This is `Tree.IsConstantExpression.fold_iff_run`. Values
are compared up to marks, since a NaN gets a new one when it is computed in a run.
-/
namespace Stackwise

/-! ### Lines without labels -/

namespace Draft

/-- A draft that gives lines in every pool, and no labels among them. -/
def Straight (d : Draft (List Line)) : Prop :=
  ∀ p, ∃ ls q, d p = some (ls, q) ∧ Line.labels ls = []

namespace Straight

variable {d e : Draft (List Line)}

theorem lines {ls : List Line} (h : Line.labels ls = []) : Straight (lines ls) :=
  fun p => ⟨ls, p, rfl, h⟩

theorem join (hd : Straight d) (he : Straight e) : Straight (d ++ e) := by
  intro p
  obtain ⟨ls, q, hls, hl⟩ := hd p
  obtain ⟨ms, r, hms, hm⟩ := he q
  refine ⟨ls ++ ms, r, join_eq_some.2 ⟨ls, ms, q, hls, hms, rfl⟩, ?_⟩
  rw [Line.labels_append, hl, hm, List.append_nil]

theorem concat {ds : List (Draft (List Line))} (h : ∀ d ∈ ds, Straight d) :
    Straight (concat ds) := by
  induction ds with
  | nil => exact lines rfl
  | cons d ds ih =>
    rw [List.forall_mem_cons] at h
    exact h.1.join (ih h.2)

theorem const {v : Value} (h : v.IsKey) :
    Straight (do let i ← addConst v; Draft.lines [.const i v]) := by
  intro p
  have key : v.checkKey = .ok () := Value.checkKey_eq_ok.2 h
  obtain ⟨i, q, hi⟩ : ∃ i q, addConst v p = some (i, q) := by
    unfold addConst
    rw [key]
    split <;> simp_all
  exact ⟨[.const i v], q, bind_eq_some.2 ⟨i, q, hi, rfl⟩, rfl⟩

theorem exists_addName (s : String) (p : Pool) : ∃ i q, addName (.text s) p = some (i, q) := by
  unfold addName
  split <;> simp_all [Name.checkKey]

theorem useName (use : NameUse) (s : String) : Straight (Draft.useName use (.text s)) := by
  intro p
  obtain ⟨i, q, hi⟩ := exists_addName s p
  exact ⟨[.name use i (.text s)], q, bind_eq_some.2 ⟨i, q, hi, rfl⟩, rfl⟩

end Straight

end Draft

/-- A tree whose draft is straight compiles. -/
theorem Tree.exists_compile {t : Tree} (h : t.draft.Straight) : ∃ code, t.compile = .ok code := by
  obtain ⟨ls, p, hd, hlabels⟩ := h {}
  obtain ⟨code, hcode, -⟩ :=
    exists_lists hd (by simp [hlabels]) (by simp [Line.labelsFrom_eq_nil hlabels])
  exact ⟨code, hcode⟩

namespace Tree

/-- An expression of literals, tuples and binary operations. -/
inductive IsConstantExpression : Tree → Prop
  | constant {v : Value} (h : IsLiteral v) : IsConstantExpression (.const v)
  | tuple {es : List Tree} {c : Context} (h : ∀ e ∈ es, IsConstantExpression e) :
    IsConstantExpression (.tuple (.list es) (.context c))
  | binOp {left right : Tree} {o : BinaryOp} (hl : IsConstantExpression left)
    (hr : IsConstantExpression right) : IsConstantExpression (.op o left right)

theorem IsLiteral.isKey {v : Value} (h : IsLiteral v) : v.IsKey := by
  cases h <;> rfl

namespace IsConstantExpression

variable {e : Tree}

theorem isExpression (h : IsConstantExpression e) : IsExpression e := by
  induction h with
  | constant h => exact .constant h
  | tuple _ ih => exact .tuple ih
  | binOp _ _ ihl ihr => exact .binOp ihl ihr

theorem isList (h : IsConstantExpression e) : e.isList = false := by
  cases h <;> rfl

theorem isNode (h : IsConstantExpression e) : e.isNode = true := by
  cases h <;> rfl

theorem fold_eq (h : IsConstantExpression e) : e.fold = e.foldNode := if_pos h.isNode

theorem straight (h : IsConstantExpression e) : e.draft.Straight := by
  induction h with
  | constant h => exact .const h.isKey
  | tuple _ ih =>
    rw [draft, parts, draftEach_eq_map]
    exact (Draft.Straight.concat (List.forall_mem_map.2 ih)).join (.lines rfl)
  | binOp _ _ ihl ihr => exact (ihl.join ihr).join (.lines rfl)

/-- An assignment of a constant expression compiles. -/
theorem exists_compile (h : IsConstantExpression e) (x : String) :
    ∃ code, (program [set x e]).compile = .ok code := by
  refine Tree.exists_compile (Draft.Straight.concat ?_)
  simp only [parts, draftEach, List.forall_mem_singleton]
  exact h.straight.join (.useName .store x)

end IsConstantExpression

end Tree

/-! ### Folding and evaluating -/

section
variable {α β γ δ : Type} {R : α → β → Prop}

/-- An evaluation goes like a computation without a world: it has the same fault or a related value,
and changes nothing but the world. -/
structure Parallel (R : α → β → Prop) (x : Except Fault α) (e : Eval β) : Prop where
  settled : Settled x
  evaluates (env : Env) : ∃ r w, outcome e env = (r, { env with world := w }) ∧ Agree R x r

namespace Parallel

theorem pure {a : α} {b : β} (h : R a b) : Parallel R (.ok a) (Pure.pure b) where
  settled := settled_ok a
  evaluates env := ⟨.ok b, env.world, rfl, .ok h⟩

theorem bind {S : γ → δ → Prop} {x : Except Fault α} {e : Eval β} {f : α → Except Fault γ}
    {g : β → Eval δ} (h : Parallel R x e) (hf : ∀ a b, R a b → Parallel S (f a) (g b)) :
    Parallel S (x >>= f) (e >>= g) where
  settled := by
    refine settled_bind.2 ⟨h.settled, ?_⟩
    rintro a rfl
    -- A related value comes out of any environment.
    obtain ⟨r, w, -, agree⟩ := h.evaluates ⟨[], {}⟩
    cases agree with
    | ok hab => exact (hf a _ hab).settled
  evaluates env := by
    obtain ⟨r, w, he, agree⟩ := h.evaluates env
    rw [outcome_bind, he]
    cases agree with
    | error f => exact ⟨.error f, w, rfl, .error f⟩
    | ok hab => exact (hf _ _ hab).evaluates { env with world := w }

/-- An operation on values that differ in marks. -/
theorem binary (op : BinaryOp) {x x' y y' : Value} (hx : x.Alike x') (hy : y.Alike y') :
    Parallel Value.Alike (op.apply x y) (Eval.binary op x' y') where
  settled := op.settled_apply x y
  evaluates env := by
    unfold Eval.binary
    have agree : Agree Value.Alike (op.apply x y) (op.apply x' y') := BinaryOp.apply_alike hx hy
    generalize op.apply x y = r, op.apply x' y' = r' at agree ⊢
    cases agree with
    | error f => exact ⟨.error f, env.world, rfl, .error f⟩
    | @ok v v' hv =>
      obtain ⟨u, w, hu, hmark⟩ := Act.markObject_alike v' env.world
      have hact : outcome (Eval.act (Act.markObject v')) env = (.ok u, { env with world := w }) :=
        congrArg (fun p => (p.1, { env with world := p.2 })) hu
      exact ⟨.ok u, w, hact, .ok (hv.trans hmark.symm)⟩

end Parallel

end

namespace Tree

/-- A tree is a constant of a value, up to marks. -/
def Holds (t : Tree) (w : Value) : Prop := ∃ v, t = .const v ∧ v.Alike w

/-- Constants are the items of a constant. -/
theorem constantItems_of_holds {ts : List Tree} {ws : List Value} (h : List.Forall₂ Holds ts ws) :
    ∃ vs, constantItems ts = .ok (some vs) ∧ Value.unmarkedAll vs = Value.unmarkedAll ws := by
  induction h with
  | nil => exact ⟨[], rfl, rfl⟩
  | cons ht _ ih =>
    obtain ⟨v, rfl, hv⟩ := ht
    obtain ⟨vs, hvs, halike⟩ := ih
    refine ⟨v :: vs, ?_, ?_⟩
    · rw [const, constantItems, hvs]
      rfl
    · rw [Value.unmarkedAll, Value.unmarkedAll, hv, halike]

theorem foldItems_parallel {es : List Tree} (hlist : ∀ e ∈ es, e.isList = false)
    (h : ∀ e ∈ es, Parallel Holds e.foldNode e.eval) :
    Parallel (List.Forall₂ Holds) (foldItems es) (Eval.all (evalEach es)) := by
  induction es with
  | nil => exact .pure .nil
  | cons e es ih =>
    rw [List.forall_mem_cons] at hlist h
    rw [foldItems_cons hlist.1, evalEach, Eval.all]
    refine h.1.bind fun t v htv => (ih hlist.2 h.2).bind fun ts vs htvs => ?_
    exact .pure (.cons htv htvs)

/-- What an assignment does. -/
theorem outcome_exec_set (x : String) (e : Tree) (env : Env) :
    outcome ((program [set x e]).exec 0) env = chain (outcome e.eval env) fun v env' =>
      (.ok (), { env' with globals := setGlobal env'.globals (.text x) v }) := by
  simp [program, set, setAll, target, ofText, exec, execAll, identText, Eval.store]

namespace IsConstantExpression

variable {e : Tree}

/-- Folding a constant expression goes like evaluating it. -/
theorem parallel (h : IsConstantExpression e) : Parallel Holds e.foldNode e.eval := by
  induction h with
  | @constant v h => exact .pure ⟨v, rfl, rfl⟩
  | @tuple es c h ih =>
    have items := foldItems_parallel (fun e he => (h e he).isList) ih
    have hfold : foldNode (.tuple (.list es) (.context c)) =
        foldItems es >>= fun ts => foldTuple (.list ts) (.context c) := by
      simp [foldNode, ok_bind]
    rw [hfold, eval]
    refine items.bind fun ts ws hts => ?_
    -- All items are constants now, and so is the tuple.
    obtain ⟨vs, hvs, halike⟩ := constantItems_of_holds hts
    have htuple : foldTuple (.list ts) (.context c) = .ok (.const (.tuple vs)) := by
      rw [foldTuple, hvs]
      rfl
    rw [htuple]
    exact .pure ⟨.tuple vs, rfl, congrArg Value.tuple halike⟩
  | @binOp left right o hl hr ihl ihr =>
    have hfold : foldNode (.op o left right) = left.foldNode >>= fun l =>
        right.foldNode >>= fun r => foldBinOp l (.binaryOperator o) r := by
      simp [op, foldNode, ok_bind]
    rw [hfold, op, eval]
    refine ihl.bind fun l a hla => ihr.bind fun r b hrb => ?_
    obtain ⟨u, rfl, hu⟩ := hla
    obtain ⟨v, rfl, hv⟩ := hrb
    have happly : foldBinOp (.const u) (.binaryOperator o) (.const v) =
        (o.apply u v >>= fun w => .ok (.const w)) := by
      rw [foldBinOp_const]
      cases o.apply u v <;> rfl
    rw [happly, ← bind_pure (Eval.binary o a b)]
    exact (Parallel.binary o hu hv).bind fun w w' hw => .pure ⟨w, rfl, hw⟩

/-- A run of an assignment of a constant expression on a new machine ends as folding does. -/
theorem halts (h : IsConstantExpression e) (x : String) {code : Code}
    (hcode : (program [set x e]).compile = .ok code) :
    ∃ r m, ({} : Machine).Halts code (r.map fun _ => ()) m ∧ Agree Holds e.fold r ∧
      ∀ v, r = .ok v → m.globals = [(.text x, v)] := by
  have ht : IsProgram (program [set x e]) := by
    have assign : IsStatement (setAll [x] e) := .assign (by simp) h.isExpression
    exact .mk (List.forall_mem_singleton.2 assign)
  obtain ⟨ls, pool, hd, hls⟩ := compile_eq_ok.1 hcode
  have grows := (program [set x e]).draft_keeps ht.literals {} ls pool hd
  obtain ⟨r, w, heval, agree⟩ := h.parallel.evaluates ({} : Machine).env
  have hexec := outcome_exec_set x e ({} : Machine).env
  rw [heval] at hexec
  have settled := h.parallel.settled
  rw [h.fold_eq]
  generalize e.foldNode = folded at agree settled
  cases agree with
  | error f =>
    have done : (program [set x e]).Evaluates ({} : Machine).env (.error f) ⟨[], w⟩ :=
      ⟨by simpa using settled, 0, hexec⟩
    obtain ⟨r, m, hm, -, -, rfl⟩ := exists_halts hls hd grows ht {} done
    exact ⟨.error f, m, hm, .error f, nofun⟩
  | @ok t v htv =>
    have done : (program [set x e]).Evaluates ({} : Machine).env (.ok ()) ⟨[(.text x, v)], w⟩ :=
      ⟨nofun, 0, hexec⟩
    obtain ⟨r, m, hm, henv, -, rfl⟩ := exists_halts hls hd grows ht {} done
    refine ⟨.ok v, m, hm, .ok htv, ?_⟩
    intro v' hv
    cases hv
    exact congrArg Env.globals henv

/-- Folding and running agree on constant expressions. An assignment of one has code. Folding gives
a constant exactly if a run of the code on a new machine returns with the variable set to its value,
and it fails exactly if the run does, with the same fault; it gives nothing else. A NaN that a run
computes has a mark of its own, so that the values are the same up to marks; one without a NaN is
the same on both sides. -/
theorem fold_iff_run (h : IsConstantExpression e) (x : String) :
    ∃ code, (program [set x e]).compile = .ok code ∧
      (∀ v, (∃ v', e.fold = .ok (.const v') ∧ v'.Alike v) ↔
        ∃ m w, ({} : Machine).Halts code (.ok ()) m ∧ m.globals = [(.text x, w)] ∧ w.Alike v) ∧
      (∀ v, v.markFree = true → (e.fold = .ok (.const v) ↔
        ∃ m, ({} : Machine).Halts code (.ok ()) m ∧ m.globals = [(.text x, v)])) ∧
      (∀ f, e.fold = .error f ↔ ∃ m, ({} : Machine).Halts code (.error f) m) ∧
      ((∃ v, e.fold = .ok (.const v)) ∨ ∃ f, e.fold = .error f) := by
  obtain ⟨code, hcode⟩ := h.exists_compile x
  obtain ⟨r, m, hm, agree, hset⟩ := h.halts x hcode
  -- The code ends in one way only, so that every run in the statement is this one.
  have ends : ∀ r' m', ({} : Machine).Halts code r' m' ↔ r.map (fun _ => ()) = r' ∧ m = m' := by
    intro r' m'
    refine ⟨hm.unique, ?_⟩
    rintro ⟨rfl, rfl⟩
    exact hm
  refine ⟨code, hcode, ?_⟩
  generalize e.fold = folded at agree
  cases agree with
  | error f => simp [ends, Except.map]
  | @ok t w htw =>
    obtain ⟨u, rfl, huw⟩ := htw
    refine ⟨fun v => ?_, fun v hv => ?_, fun f => ?_, .inl ⟨u, rfl⟩⟩
    · have alike : u.Alike v ↔ w.Alike v := by rw [Value.Alike, huw, Value.Alike]
      simpa [ends, Except.map, hset w rfl, const] using alike
    · have same : u = v ↔ w = v := by
        constructor
        · rintro rfl
          exact Value.Alike.eq_of_markFree huw.symm hv
        · rintro rfl
          exact huw.eq_of_markFree hv
      simpa [ends, Except.map, hset w rfl, const] using same
    · simp [ends, Except.map]

end IsConstantExpression

/-- A tuple of a repeated text and a power. -/
def powers : Tree :=
  tupleOf [op .mult (.const (.str "ab")) (num 2), op .pow (.const (.int (-2))) (num 3)]

/-- An operation both operands of which fail. -/
def twoFaults : Tree :=
  op .add (op .div (num 1) (num 0)) (op .add (num 1) (.const (.str "a")))

theorem fold_iff_run_powers :
    (IsConstantExpression powers ∧
      powers.fold = .ok (.const (.tuple [.str "abab", .int (-8)])) ∧
      ∃ code m, (program [set "x" powers]).compile = .ok code ∧
        ({} : Machine).Halts code (.ok ()) m ∧
        m.globals = [(.text "x", .tuple [.str "abab", .int (-8)])]) ∧
    (IsConstantExpression twoFaults ∧
      twoFaults.fold = .error (.zeroDivision .quotient) ∧
      ∃ code m, (program [set "x" twoFaults]).compile = .ok code ∧
        ({} : Machine).Halts code (.error (.zeroDivision .quotient)) m) := by
  have hpowers : IsConstantExpression powers := by
    refine .tuple (List.forall_mem_cons.2 ⟨?_, List.forall_mem_singleton.2 ?_⟩)
    · exact .binOp (.constant (.str "ab")) (.constant (.int 2))
    · exact .binOp (.constant (.int (-2))) (.constant (.int 3))
  have hfaults : IsConstantExpression twoFaults :=
    .binOp (.binOp (.constant (.int 1)) (.constant (.int 0)))
      (.binOp (.constant (.int 1)) (.constant (.str "a")))
  have hvalue : powers.fold = .ok (.const (.tuple [.str "abab", .int (-8)])) := by rfl
  have hfault : twoFaults.fold = .error (.zeroDivision .quotient) := by rfl
  obtain ⟨code, hcode, -, values, -, -⟩ := hpowers.fold_iff_run "x"
  obtain ⟨code', hcode', -, -, faults, -⟩ := hfaults.fold_iff_run "x"
  obtain ⟨m, hm, hset⟩ := (values _ (by decide)).1 hvalue
  obtain ⟨m', hm'⟩ := (faults _).1 hfault
  exact ⟨⟨hpowers, hvalue, code, m, hcode, hm, hset⟩, hfaults, hfault, code', m', hcode', hm'⟩

end Tree

end Stackwise
