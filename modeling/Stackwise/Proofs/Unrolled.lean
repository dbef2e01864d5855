import Mathlib.Algebra.BigOperators.Group.List.Basic
import Mathlib.Tactic.IntervalCases
import Stackwise.Proofs.ConstantExpressions
import Stackwise.Proofs.Constants
import Stackwise.Workload

/-!
# Unrolled sums

Programs without branches that add to a variable in one statement after the other, as many as there
are numbers. They always compile, folding leaves them alone, and what they come to is found by
evaluating one statement (`Tree.Adds.exec`) and then, by induction, all of them
(`Tree.execAll_adds`). Two workloads are of this kind: `Workload.wideOperands_returns`, whose table
of constants grows beyond what one byte can number, and `Workload.subscripts_returns`, whose table
does not grow.
-/
namespace Stackwise

/-! ### Variables -/

theorem Name.text_beq (s : String) (n : Name) : (Name.text s == n) = (n == .text s) := by
  cases n with
  | text t => exact Bool.eq_iff_iff.2 (by simp [BEq.beq, same, eq_comm])
  | _ => rfl

theorem Name.text_beq_self (s : String) : (Name.text s == .text s) = true :=
  Name.beq_text_iff.2 rfl

theorem setGlobal_cons_of_ne {g : Name × Value} {k : Name} (h : (g.1 == k) = false)
    (gs : List (Name × Value)) (v : Value) : setGlobal (g :: gs) k v = g :: setGlobal gs k v := by
  simp only [setGlobal, List.any_cons, h, Bool.false_or, List.map_cons, Bool.false_eq_true,
    if_false]
  split <;> rfl

theorem lookup_setGlobal_self (gs : List (Name × Value)) (x : String) (v : Value) :
    (setGlobal gs (.text x) v).lookup (.text x) = some v := by
  induction gs with
  | nil => simp [setGlobal, List.lookup_cons, Name.text_beq_self]
  | cons g gs ih =>
    cases hg : g.1 == .text x with
    | true => simp [setGlobal, hg, List.lookup_cons, Name.text_beq]
    | false => rw [setGlobal_cons_of_ne hg, List.lookup_cons, Name.text_beq, hg, ih]

theorem lookup_setGlobal_of_ne (gs : List (Name × Value)) {x y : String} (hne : y ≠ x) (v : Value) :
    (setGlobal gs (.text x) v).lookup (.text y) = gs.lookup (.text y) := by
  have hother : (Name.text x == .text y) = false := by
    simpa [Bool.eq_false_iff, Name.beq_text_iff] using hne.symm
  unfold setGlobal
  split
  · clear * - hother
    induction gs with
    | nil => rfl
    | cons g gs ih =>
      rw [List.map_cons, List.lookup_cons, List.lookup_cons, ih]
      cases hg : g.1 == .text x with
      | true => simp [Name.text_beq, Name.beq_text_iff.1 hg, hother]
      | false => simp
  · simp [List.lookup_append, List.lookup_cons, Name.text_beq, hother]

/-- Set a variable. -/
def Env.put (env : Env) (x : String) (v : Value) : Env :=
  { env with globals := setGlobal env.globals (.text x) v }

/-- The value of a variable. -/
def Env.value? (env : Env) (x : String) : Option Value := env.globals.lookup (.text x)

theorem Env.value?_put_self (env : Env) (x : String) (v : Value) :
    (env.put x v).value? x = some v := lookup_setGlobal_self _ x v

theorem Env.value?_put_of_ne (env : Env) {x y : String} (hne : y ≠ x) (v : Value) :
    (env.put x v).value? y = env.value? y := lookup_setGlobal_of_ne _ hne v

theorem Eval.outcome_lookup {env : Env} {x : String} {v : Value} (h : env.value? x = some v) :
    outcome (Eval.lookup x) env = (.ok v, env) := by
  unfold Env.value? at h
  simp [Eval.lookup, h]

@[simp] theorem Eval.outcome_store (env : Env) (x : String) (v : Value) :
    outcome (Eval.store v x) env = (.ok (), env.put x v) := rfl

theorem Eval.outcome_add (env : Env) (a b : Int) :
    outcome (Eval.binary .add (.int a) (.int b)) env = (.ok (.int (a + b)), env) := rfl

/-! ### Statements without branches -/

namespace Draft.Straight

theorem update (s : String) {d e : Draft (List Line)} (hd : Straight d) (he : Straight e) :
    Straight (Draft.update (some (.text s)) d e) := by
  intro p
  obtain ⟨i, q, hi⟩ := exists_addName s p
  have hrest : Straight (Draft.lines [.name .load i (.text s)] ++ d ++ e ++
      Draft.lines [.name .store i (.text s)]) :=
    (((lines rfl).join hd).join he).join (lines rfl)
  obtain ⟨ls, r, hls, hlabels⟩ := hrest q
  exact ⟨ls, r, bind_eq_some.2 ⟨i, q, hi, hls⟩, hlabels⟩

end Draft.Straight

namespace Tree

/-- An expression or a statement without branches that folding leaves alone. -/
structure Unbranched (t : Tree) : Prop where
  straight : t.draft.Straight
  fixed : t.foldNode = .ok t
  isList : t.isList = false

theorem unbranched_num (k : Nat) : (num k).Unbranched where
  straight := .const (IsLiteral.int k).isKey
  fixed := rfl
  isList := rfl

theorem unbranched_itemOf (s : String) (i : Nat) : (itemOf s i).Unbranched where
  straight := (Draft.Straight.useName .load s).join ((unbranched_num i).straight.join (.lines rfl))
  fixed := rfl
  isList := rfl

theorem isExpression_num (k : Nat) : IsExpression (num k) := .constant (.int k)

theorem isExpression_itemOf (s : String) (i : Nat) : IsExpression (itemOf s i) :=
  .sealedSubscript (.name s) (isExpression_num i)

/-- Setting a variable to such an expression. -/
theorem Unbranched.set {e : Tree} (h : e.Unbranched) (x : String) : (set x e).Unbranched where
  straight := h.straight.join (.useName .store x)
  fixed := by simp [Tree.set, setAll, target, ofText, foldNode, foldItems, h.fixed, ok_bind]
  isList := rfl

theorem Unbranched.update {e : Tree} (h : e.Unbranched) (x : String) (o : BinaryOp) :
    (update x o e).Unbranched where
  straight := h.straight.update x (.lines rfl)
  fixed := by simp [Tree.update, target, ofText, foldNode, h.fixed, ok_bind]
  isList := rfl

/-- The statements of a program are folded one by one. -/
theorem toCode_program {body body' : List Tree} (h : foldItems body = .ok body') :
    (program body).toCode true = (program body').compile := by
  simp [toCode, program, fold, isNode, foldNode, h, ok_bind]

section
variable {body : List Tree} (hbody : ∀ s ∈ body, s.Unbranched)
include hbody

theorem foldItems_unbranched : foldItems body = .ok body := by
  induction body with
  | nil => rfl
  | cons t ts ih =>
    rw [List.forall_mem_cons] at hbody
    simp [foldItems_cons hbody.1.isList, hbody.1.fixed, ih hbody.2, ok_bind]

/-- Folding makes no difference to a program of such statements. -/
theorem toCode_unbranched (optimize : Bool) :
    (program body).toCode optimize = (program body).compile := by
  cases optimize with
  | false => rfl
  | true => exact toCode_program (foldItems_unbranched hbody)

theorem straight_program : (program body).draft.Straight := by
  refine Draft.Straight.concat ?_
  rw [parts, draftEach_eq_map]
  exact List.forall_mem_map.2 fun s hs => (hbody s hs).straight

/-- A program of such statements that can be evaluated is compiled and run. Its table has the
constants in the order in which they come. -/
theorem exists_run {env : Env} (hstatements : ∀ s ∈ body, IsStatement s)
    (heval : outcome (execAll 0 body) ⟨[], {}⟩ = (.ok (), env)) :
    ∃ code m, (∀ optimize, (program body).toCode optimize = .ok code) ∧
      code.consts.toList = Value.enterAll [] (program body).loads ∧
      ({} : Machine).Halts code (.ok ()) m ∧ m.env = env := by
  obtain ⟨code, hcode⟩ := exists_compile (straight_program hbody)
  have hprogram : IsProgram (program body) := ⟨hstatements⟩
  obtain ⟨ls, pool, hd, hls⟩ := compile_eq_ok.1 hcode
  have grows := (program body).draft_keeps hprogram.literals {} ls pool hd
  have hevaluates : (program body).Evaluates ({} : Machine).env (.ok ()) env :=
    ⟨nofun, 0, heval⟩
  obtain ⟨r, m, hm, henv, -, rfl⟩ := exists_halts hls hd grows hprogram {} hevaluates
  have henters := Draft.Enters.stable.draft (program body) (fun _ _ => trivial)
    (fun _ _ => trivial) _ _ _ hd
  exact ⟨code, m, fun optimize => (toCode_unbranched hbody optimize).trans hcode,
    hls.consts ▸ henters.1, hm, henv⟩

end

/-! ### Adding to a variable -/

/-- A statement that adds the value of an expression to a variable. -/
inductive Adds (x : String) (e : Tree) : Tree → Prop
  | update : Adds x e (update x .add e)
  | after : Adds x e (set x (op .add (var x) e))
  | before : Adds x e (set x (op .add e (var x)))

theorem IsExpression.core_ne_missing {e : Tree} (h : IsExpression e) : e.core ≠ .missing := by
  cases h <;> nofun

/-- An operation with a variable on its right is not folded. -/
theorem foldBinOp_var {e : Tree} (he : IsExpression e) (o : Tree) (x : String) :
    foldBinOp e o (var x) = .ok (.binOp e o (var x)) := by
  have hmissing := he.core_ne_missing
  unfold foldBinOp
  split
  · next hcore => exact absurd hcore hmissing
  · rfl
  · rfl

namespace Adds

variable {x : String} {e t : Tree}

theorem isStatement (h : Adds x e t) (he : IsExpression e) : IsStatement t := by
  cases h with
  | update => exact .augAssign he
  | after => exact .assign (by simp) (.binOp (.name x) he)
  | before => exact .assign (by simp) (.binOp he (.name x))

theorem unbranched (h : Adds x e t) (he : IsExpression e) (hu : e.Unbranched) : t.Unbranched := by
  have hvar : (var x).draft.Straight := .useName .load x
  cases h with
  | update => exact hu.update x .add
  | after =>
    have hsum : (op .add (var x) e).Unbranched :=
      { straight := (hvar.join hu.straight).join (.lines rfl)
        fixed := by simp [op, var, ofText, foldNode, hu.fixed, ok_bind, foldBinOp, core]
        isList := rfl }
    exact hsum.set x
  | before =>
    have hfold := foldBinOp_var he (.binaryOperator .add) x
    have hsum : (op .add e (var x)).Unbranched :=
      { straight := (hu.straight.join hvar).join (.lines rfl)
        fixed := by simpa [op, var, ofText, foldNode, hu.fixed, ok_bind] using hfold
        isList := rfl }
    exact hsum.set x

/-- The constants of the statement are those of the expression. -/
theorem loads (h : Adds x e t) : t.loads = e.loads := by
  cases h <;>
    simp [Tree.update, Tree.set, setAll, op, var, target, Tree.loads, loadParts, loadsEach]

/-- One statement adds one value. -/
theorem exec (h : Adds x e t) {env : Env} {a b : Int} (hx : env.value? x = some (.int a))
    (he : outcome e.eval env = (.ok (.int b), env)) (rounds : Nat) :
    outcome (t.exec rounds) env = (.ok (), env.put x (.int (a + b))) := by
  have hlookup : outcome (Eval.lookup x) env = (.ok (.int a), env) := Eval.outcome_lookup hx
  cases h with
  | update =>
    simp [Tree.update, target, ofText, Tree.exec, identText, hlookup, he, Eval.outcome_add]
  | after =>
    simp [Tree.set, setAll, target, op, var, ofText, Tree.exec, eval, identText, hlookup, he,
      Eval.outcome_add]
  | before =>
    simp [Tree.set, setAll, target, op, var, ofText, Tree.exec, eval, identText, hlookup, he,
      Eval.outcome_add, Int.add_comm]

end Adds

theorem Adds.of_mem {x : String} {es ts : List Tree} (h : List.Forall₂ (Adds x) es ts) {t : Tree}
    (ht : t ∈ ts) : ∃ e ∈ es, Adds x e t := by
  induction h with
  | nil => cases ht
  | cons hadds _ ih =>
    rcases List.mem_cons.1 ht with rfl | ht
    · exact ⟨_, List.mem_cons_self, hadds⟩
    · obtain ⟨e, he, hadds⟩ := ih ht
      exact ⟨e, List.mem_cons_of_mem _ he, hadds⟩

theorem loads_program_cons (s : Tree) (ts : List Tree) :
    (program (s :: ts)).loads = s.loads ++ (program ts).loads := by
  simp [program, loads, loadParts, loadsEach]

/-- Statements add up the values of their expressions. What the values depend on is not changed by
setting the variable. -/
theorem execAll_adds {x : String} {P : Env → Prop} (hP : ∀ env v, P env → P (env.put x v))
    {es ts : List Tree} (hts : List.Forall₂ (Adds x) es ts) {bs : List Int}
    (hes : List.Forall₂
      (fun e b => ∀ env, P env → outcome (eval e) env = (.ok (.int b), env)) es bs)
    {env : Env} {a : Int} (hx : env.value? x = some (.int a)) (henv : P env) (rounds : Nat) :
    ∃ env', outcome (execAll rounds ts) env = (.ok (), env') ∧
      env'.value? x = some (.int (a + bs.sum)) := by
  induction hts generalizing bs env a with
  | nil =>
    cases hes
    exact ⟨env, rfl, by simpa using hx⟩
  | cons ht _ ih =>
    cases hes with
    | @cons _ b _ bs he hes =>
      have hexec := ht.exec hx (he env henv) rounds
      obtain ⟨env', hrest, hsum⟩ :=
        ih hes (env.value?_put_self x (.int (a + b))) (hP env _ henv)
      refine ⟨env', by simp [execAll, hexec, hrest], ?_⟩
      rw [hsum, List.sum_cons, Int.add_assoc]

theorem outcome_execAll_append (rounds : Nat) (ss ts : List Tree) (env : Env) :
    outcome (execAll rounds (ss ++ ts)) env =
      chain (outcome (execAll rounds ss) env) fun _ env' => outcome (execAll rounds ts) env' := by
  induction ss generalizing env with
  | nil => simp [execAll]
  | cons s ss ih => simp [execAll, ih]

/-- A program that sets variables and then adds to one of them runs to its end, with the sum in that
variable. -/
theorem exists_sum {x : String} {P : Env → Prop} (hP : ∀ env v, P env → P (env.put x v))
    {start es ts : List Tree} (hstart : ∀ s ∈ start, IsStatement s ∧ s.Unbranched) {env : Env}
    (heval : outcome (execAll 0 start) ⟨[], {}⟩ = (.ok (), env)) {a : Int}
    (hx : env.value? x = some (.int a)) (henv : P env) (hts : List.Forall₂ (Adds x) es ts)
    (hplain : ∀ e ∈ es, IsExpression e ∧ e.Unbranched) {bs : List Int}
    (hes : List.Forall₂
      (fun e b => ∀ env, P env → outcome (eval e) env = (.ok (.int b), env)) es bs) :
    ∃ code m, (∀ optimize, (program (start ++ ts)).toCode optimize = .ok code) ∧
      code.consts.toList = Value.enterAll [] (program (start ++ ts)).loads ∧
      ({} : Machine).Halts code (.ok ()) m ∧ m.env.value? x = some (.int (a + bs.sum)) := by
  have hbody : ∀ s ∈ start ++ ts, IsStatement s ∧ s.Unbranched := by
    refine List.forall_mem_append.2 ⟨hstart, fun t ht => ?_⟩
    obtain ⟨e, he, hadds⟩ := Adds.of_mem hts ht
    obtain ⟨hexpression, hunbranched⟩ := hplain e he
    exact ⟨hadds.isStatement hexpression, hadds.unbranched hexpression hunbranched⟩
  obtain ⟨env', hrest, hsum⟩ := execAll_adds hP hts hes hx henv 0
  have hrun : outcome (execAll 0 (start ++ ts)) ⟨[], {}⟩ = (.ok (), env') := by
    rw [outcome_execAll_append, heval, chain_ok, hrest]
  obtain ⟨code, m, hcode, hconsts, hhalts, rfl⟩ :=
    exists_run (fun s hs => (hbody s hs).2) (fun s hs => (hbody s hs).1) hrun
  exact ⟨code, m, hcode, hconsts, hhalts, hsum⟩

end Tree

/-! ### Tables of literals -/

/-- Literals that are different all get places of their own. -/
theorem Value.enterAll_literals {table vs : List Value}
    (hliteral : ∀ v ∈ table ++ vs, Tree.IsLiteral v) (hnodup : (table ++ vs).Nodup) :
    enterAll table vs = table ++ vs := by
  induction vs generalizing table with
  | nil => simp [enterAll]
  | cons v vs ih =>
    have hfind : table.find? (sameConstant · v) = Option.none := by
      rw [List.find?_eq_none]
      intro w hw hsame
      obtain rfl := (hliteral w (by simp [hw])).eq_of_sameConstant (hliteral v (by simp)) hsame
      exact List.disjoint_of_nodup_append hnodup hw List.mem_cons_self
    have hsplit : table ++ v :: vs = table ++ [v] ++ vs := by simp
    rw [enterAll, enter, hfind, ih (hsplit ▸ hliteral) (hsplit ▸ hnodup), hsplit]

namespace Workload

open Stackwise.Tree

/-! ### Jobs -/

/-- A job returns a value if its program is run without a bound. -/
def Job.Returns (job : Job) (v : Value) : Prop := ∃ k, ∀ fuel ≥ k, job.runWithin fuel = .ok v

theorem runFresh_of_halts {code : Code} {m : Machine}
    (h : ({} : Machine).Halts code (.ok ()) m) : ∃ k, ∀ fuel ≥ k, runFresh fuel code = .ok m := by
  obtain ⟨-, k, hk⟩ := h
  refine ⟨k, fun fuel hle => ?_⟩
  rw [runFresh, Machine.perform_mono hk (by simp) hle]

theorem final_eq {m : Machine} {name : String} {v : Value} (h : m.env.value? name = some v) :
    final m name = .ok v := by
  have hlookup : m.globals.lookup (.text name) = some v := h
  rw [final, hlookup]

section
variable {t : Tree} {code : Code} {m : Machine} {name : String} {v : Value}
  (hcode : t.toCode true = .ok code) (hhalts : ({} : Machine).Halts code (.ok ()) m)
  (hv : m.env.value? name = some v)
include hcode hhalts hv

theorem returns_finals : Job.Returns (.finals t [name]) v := by
  obtain ⟨k, hk⟩ := runFresh_of_halts hhalts
  refine ⟨k, fun fuel hle => ?_⟩
  simp [Job.runWithin, hcode, hk fuel hle, ok_bind, finalsOf, final_eq hv]

theorem returns_finalAndConstants :
    Job.Returns (.finalAndConstants t name) (.tuple [v, .int code.consts.size]) := by
  obtain ⟨k, hk⟩ := runFresh_of_halts hhalts
  refine ⟨k, fun fuel hle => ?_⟩
  simp [Job.runWithin, hcode, hk fuel hle, ok_bind, final_eq hv]

end

/-! ### A table that grows -/

/-- Statements that add the numbers from one to `m`, each once and in any order. -/
def AddsNumbers (x : String) (m : Nat) (ts : List Tree) : Prop :=
  ∃ ks : List Nat, ks.Perm (List.range' 1 m) ∧ List.Forall₂ (fun k t => Adds x (num k) t) ks ts

section
variable {x : String} {m : Nat} {ks : List Nat} {ts : List Tree}

theorem sum_range'_one (m : Nat) : (List.range' 1 m).sum = m * (m + 1) / 2 := by
  cases m with
  | zero => rfl
  | succ m =>
    have hsplit : (m + 1) * (m + 1 + 1) = (m + 1) * m + (m + 1) * 2 := by ring
    rw [List.sum_range', hsplit, Nat.add_mul_div_right _ _ (by decide), Nat.add_sub_cancel,
      Nat.mul_one, Nat.mul_one, Nat.add_comm]

theorem loads_numbers (h : List.Forall₂ (fun k t => Adds x (num k) t) ks ts) :
    (program (set x (num 0) :: ts)).loads = (0 :: ks).map fun k => .int k := by
  have hts : (program ts).loads = ks.map fun k => .int k := by
    induction h with
    | nil => rfl
    | cons hadds _ ih => rw [loads_program_cons, hadds.loads, ih]; rfl
  rw [loads_program_cons, hts]
  rfl

/-- Numbers that are different all get places of their own. -/
theorem enterAll_numbers (hks : ks.Nodup) :
    Value.enterAll [] (ks.map fun k : Nat => .int k) = ks.map fun k : Nat => .int k := by
  refine Value.enterAll_literals ?_ ?_
  · simp only [List.nil_append, List.forall_mem_map]
    exact fun k _ => .int k
  · exact hks.map fun j k h => by simpa using h

/-- A program that adds up numbers returns their sum, and it has a constant for each of them and
one for the zero at its start. Folding makes no difference. -/
theorem AddsNumbers.returns (h : AddsNumbers x m ts) :
    Job.Returns (.finalAndConstants (program (set x (num 0) :: ts)) x)
        (.tuple [.int (m * (m + 1) / 2), .int (m + 1)]) ∧
      (program (set x (num 0) :: ts)).toCode false =
        (program (set x (num 0) :: ts)).toCode true := by
  obtain ⟨ks, hperm, hks⟩ := h
  have hplain : ∀ e ∈ ks.map num, IsExpression e ∧ e.Unbranched :=
    List.forall_mem_map.2 fun k _ => ⟨isExpression_num k, unbranched_num k⟩
  have hes : List.Forall₂
      (fun e b => ∀ env : Env, True → outcome (eval e) env = (.ok (.int b), env))
      (ks.map num) (ks.map fun k : Nat => (k : Int)) := by
    rw [List.forall₂_map_left_iff, List.forall₂_map_right_iff, List.forall₂_same]
    exact fun k _ env _ => rfl
  have hstart : ∀ s ∈ [set x (num 0)], IsStatement s ∧ s.Unbranched :=
    List.forall_mem_singleton.2
      ⟨.assign (by simp) (isExpression_num 0), (unbranched_num 0).set x⟩
  obtain ⟨code, m', hcode, hconsts, hhalts, hx⟩ := exists_sum (fun _ _ _ => trivial) hstart rfl
    (Env.value?_put_self ⟨[], {}⟩ x (.int 0)) trivial (List.forall₂_map_left_iff.2 hks) hplain hes
  rw [List.singleton_append] at hcode hconsts
  have hsum : (0 : Int) + (ks.map fun k : Nat => (k : Int)).sum = m * (m + 1) / 2 := by
    rw [zero_add, ← Nat.cast_list_sum, hperm.sum_eq, sum_range'_one]
    push_cast
    rfl
  have hnodup : (0 :: ks).Nodup := by
    rw [List.nodup_cons, hperm.nodup_iff, hperm.mem_iff]
    simp [List.nodup_range']
  have hsize : code.consts.size = m + 1 := by
    rw [← Array.length_toList, hconsts, loads_numbers hks, enterAll_numbers hnodup]
    simp [hperm.length_eq]
  have hreturns := returns_finalAndConstants (hcode true) hhalts hx
  rw [hsum, hsize] at hreturns
  exact ⟨by simpa using hreturns, (hcode false).trans (hcode true).symm⟩

/-- The statements of the workload. -/
theorem addsNumbers_map (x : String) (m : Nat) :
    AddsNumbers x m ((List.range' 1 m).map fun k => set x (op .add (var x) (num k))) :=
  ⟨_, .rfl, List.forall₂_map_right_iff.2 (List.forall₂_same.2 fun _ _ => .after)⟩

end

/-- The greater of two integers. -/
theorem atLeast_int (least n : Int) : atLeast least (.int n) = .ok (.int (max least n)) := by
  have hcompares : (Value.int n).compares .greater (.int least) = .ok (decide (least < n)) := by
    have haccepts : Comparison.greater.accepts (compare n least) = decide (least < n) := by
      rw [Bool.eq_iff_iff, decide_eq_true_iff, ← compare_gt_iff_gt]
      exact beq_iff_eq
    simp only [Value.compares, Value.number?, Number.compare?]
    rw [haccepts]
  simp only [atLeast, hcompares, ok_bind]
  by_cases hlt : least < n
  · simp [hlt, max_eq_right hlt.le, pure_eq_ok]
  · simp [hlt, max_eq_left (not_lt.1 hlt), pure_eq_ok]

/-- For every size the workload returns the sum of the numbers up to it, or up to 260 if that is
more, and has a constant for each of them and one for zero. So does every program with one statement
for each of the numbers, with folding and without. -/
theorem wideOperands_returns (n : Int) :
    (∃ job, prepare .wideOperands (.int n) = .ok job ∧
      job.Returns (.tuple [.int (max 260 n * (max 260 n + 1) / 2), .int (max 260 n + 1)])) ∧
    ∀ ts, AddsNumbers "acc" (max 260 n).toNat ts →
      Job.Returns (.finalAndConstants (program (set "acc" (num 0) :: ts)) "acc")
          (.tuple [.int (max 260 n * (max 260 n + 1) / 2), .int (max 260 n + 1)]) ∧
        (program (set "acc" (num 0) :: ts)).toCode false =
          (program (set "acc" (num 0) :: ts)).toCode true := by
  have hcast : ((max 260 n).toNat : Int) = max 260 n := Int.toNat_of_nonneg (by omega)
  have hreturns := fun {ts} (h : AddsNumbers "acc" (max 260 n).toNat ts) => h.returns
  simp only [hcast] at hreturns
  refine ⟨⟨_, ?_, (hreturns (addsNumbers_map "acc" _)).1⟩, fun ts => hreturns⟩
  simp [prepare, leastConstants, atLeast_int, Builtin.needInt, Value.asInt?, ok_bind,
    wideOperandsProgram]

theorem wideOperands_returns_seven :
    Job.Returns (.finalAndConstants (wideOperandsProgram 260) "acc")
      (.tuple [.int 33930, .int 261]) :=
  ((wideOperands_returns 7).2 _ (addsNumbers_map "acc" 260)).1

/-! ### A table that does not grow -/

/-- The list of the numbers from one to eight. -/
def eightValues : Value := .list ((List.range 8).map fun i => .int (i + 1))

/-- Statements that set one variable to the list of the numbers from one to eight and another to
zero, in either order, and then add `n` items of the list, from the first to the last and again from
the first. -/
def AddsItems (x items : String) (n : Nat) (body : List Tree) : Prop :=
  ∃ start ts, body = start ++ ts ∧
    (start = [set items oneToEight, set x (num 0)] ∨
      start = [set x (num 0), set items oneToEight]) ∧
    List.Forall₂ (fun i t => Adds x (itemOf items (i % 8)) t) (List.range n) ts

theorem unbranched_oneToEight : oneToEight.Unbranched where
  straight := by
    refine Draft.Straight.join (.concat ?_) (.lines rfl)
    rw [parts, draftEach_eq_map]
    refine List.forall_mem_map.2 (List.forall_mem_map.2 fun i _ => ?_)
    exact (unbranched_num (i + 1)).straight
  fixed := rfl
  isList := rfl

theorem isExpression_oneToEight : IsExpression oneToEight :=
  .list (List.forall_mem_map.2 fun i _ => isExpression_num (i + 1))

theorem index_eightValues {i : Nat} (h : i < 8) :
    eightValues.index (.int i) = .ok (.int (i + 1)) := by
  interval_cases i <;> rfl

/-- An item of the list is one more than its place. -/
theorem eval_itemOf {env : Env} {items : String} {i : Nat} (h : i < 8)
    (hitems : env.value? items = some eightValues) :
    outcome (eval (itemOf items i)) env = (.ok (.int (i + 1)), env) := by
  have hlookup := Eval.outcome_lookup hitems
  simp [itemOf, var, ofText, num, Tree.const, eval, hlookup, index_eightValues h, Eval.ofExcept]

theorem sum_items (n : Nat) :
    ((List.range n).map fun i => i % 8 + 1).sum = 36 * (n / 8) + n % 8 * (n % 8 + 1) / 2 := by
  induction n with
  | zero => rfl
  | succ n ih =>
    rw [List.range_succ, List.map_append, List.sum_append, ih, List.map_singleton,
      List.sum_singleton]
    have hlt : n % 8 < 8 := Nat.mod_lt n (by decide)
    by_cases hlast : n % 8 = 7
    · have hdiv : (n + 1) / 8 = n / 8 + 1 := by omega
      have hmod : (n + 1) % 8 = 0 := by omega
      rw [hlast, hdiv, hmod]
      omega
    · have hdiv : (n + 1) / 8 = n / 8 := by omega
      have hmod : (n + 1) % 8 = n % 8 + 1 := by omega
      rw [hdiv, hmod]
      clear ih hmod
      generalize n % 8 = r at *
      interval_cases r <;> omega

section
variable {x items : String} {n : Nat} {body : List Tree}

/-- A program that adds up items of the list returns their sum. Folding makes no difference. -/
theorem AddsItems.returns (hne : items ≠ x) (h : AddsItems x items n body) :
    Job.Returns (.finals (program body) [x])
        (.int (((List.range n).map fun i => i % 8 + 1).sum : Nat)) ∧
      (program body).toCode false = (program body).toCode true := by
  obtain ⟨start, ts, rfl, hstart, hts⟩ := h
  have hlist : IsStatement (set items oneToEight) ∧ (set items oneToEight).Unbranched :=
    ⟨.assign (by simp) isExpression_oneToEight, unbranched_oneToEight.set items⟩
  have hzero : IsStatement (set x (num 0)) ∧ (set x (num 0)).Unbranched :=
    ⟨.assign (by simp) (isExpression_num 0), (unbranched_num 0).set x⟩
  -- Whichever comes first, both variables are set.
  obtain ⟨env, heval, hx, hitems, hplain⟩ : ∃ env,
      outcome (execAll 0 start) ⟨[], {}⟩ = (.ok (), env) ∧ env.value? x = some (.int 0) ∧
        env.value? items = some eightValues ∧ ∀ s ∈ start, IsStatement s ∧ s.Unbranched := by
    rcases hstart with rfl | rfl
    · refine ⟨(Env.put ⟨[], {}⟩ items eightValues).put x (.int 0), rfl,
        Env.value?_put_self _ x _, ?_, by simp [hlist, hzero]⟩
      rw [Env.value?_put_of_ne _ hne, Env.value?_put_self]
    · refine ⟨(Env.put ⟨[], {}⟩ x (.int 0)).put items eightValues, rfl, ?_,
        Env.value?_put_self _ items _, by simp [hlist, hzero]⟩
      rw [Env.value?_put_of_ne _ hne.symm, Env.value?_put_self]
  have hes : List.Forall₂ (fun e b => ∀ env : Env, env.value? items = some eightValues →
      outcome (eval e) env = (.ok (.int b), env))
      ((List.range n).map fun i => itemOf items (i % 8))
      ((List.range n).map fun i => ((i % 8 + 1 : Nat) : Int)) := by
    rw [List.forall₂_map_left_iff, List.forall₂_map_right_iff, List.forall₂_same]
    exact fun i _ env henv => eval_itemOf (Nat.mod_lt i (by decide)) henv
  have hexpressions : ∀ e ∈ (List.range n).map fun i => itemOf items (i % 8),
      IsExpression e ∧ e.Unbranched :=
    List.forall_mem_map.2 fun i _ => ⟨isExpression_itemOf items _, unbranched_itemOf items _⟩
  obtain ⟨code, m, hcode, -, hhalts, hsum⟩ := exists_sum
    (fun env v henv => by rwa [Env.value?_put_of_ne _ hne]) hplain heval hx hitems
    (List.forall₂_map_left_iff.2 hts) hexpressions hes
  have hreturns := returns_finals (hcode true) hhalts hsum
  refine ⟨?_, (hcode false).trans (hcode true).symm⟩
  rw [Nat.cast_list_sum, List.map_map]
  rwa [Int.zero_add] at hreturns

/-- The statements of the workload. -/
theorem addsItems_lookups (x items : String) (n : Nat) :
    AddsItems x items n ([set items oneToEight, set x (num 0)] ++ lookups x items n) :=
  ⟨_, _, rfl, .inl rfl, List.forall₂_map_right_iff.2 (List.forall₂_same.2 fun _ _ => .update)⟩

end

theorem AddsItems.length_eq {x items : String} {n : Nat} {body : List Tree}
    (h : AddsItems x items n body) : body.length = n + 2 := by
  obtain ⟨start, ts, rfl, hstart, hts⟩ := h
  have hlength := hts.length_eq
  rcases hstart with rfl | rfl <;> simp_all

/-- For every size the workload returns the sum of as many items of the list, again from the first
after each eighth. So does every program with one statement for each of them, with folding and
without. -/
theorem subscripts_returns (n : Nat) :
    (∃ job, prepare .subscripts (.int n) = .ok job ∧
      job.Returns (.int (((List.range n).map fun i => i % 8 + 1).sum : Nat))) ∧
    ((List.range n).map fun i => i % 8 + 1).sum = 36 * (n / 8) + n % 8 * (n % 8 + 1) / 2 ∧
    ∀ x items body, items ≠ x → AddsItems x items n body →
      body.length = n + 2 ∧
        Job.Returns (.finals (program body) [x])
          (.int (((List.range n).map fun i => i % 8 + 1).sum : Nat)) ∧
        (program body).toCode false = (program body).toCode true := by
  have hworkload := (addsItems_lookups "acc" "items" n).returns (by decide)
  exact ⟨⟨_, rfl, hworkload.1⟩, sum_items n, fun x items body hne h =>
    ⟨h.length_eq, h.returns hne⟩⟩

theorem subscripts_returns_ten :
    Job.Returns (.finals (subscriptsProgram 10) ["acc"]) (.int 39) :=
  ((subscripts_returns 10).2.2 _ _ _ (by decide) (addsItems_lookups "acc" "items" 10)).2.1

end Workload

end Stackwise
