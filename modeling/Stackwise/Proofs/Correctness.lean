import Stackwise.Proofs.Mirror

/-!
# Compiling is correct

Running the code of a program does what the evaluator says: `Tree.compile_correct`. `Realizes` says
that the lines of a draft do what an evaluation does, wherever they stand in a listing. It is proved
of expressions and of statements by induction on the tree, and holds of a whole program from the
first line on. The loop on the lines is the loop of the machine on the bytes.
-/
namespace Stackwise

open Exec

/-- A line stands for what the tables hold, if its name is a text. -/
def Line.Exact (code : Code) : Line → Prop
  | .const i v => code.consts[i]? = some v
  | .name _ i n => ∀ s, n = .text s → code.names[i]? = some (.text s)
  | _ => True

/-- The lines of a draft do what an evaluation does, wherever they stand in a listing. -/
def Draft.Realizes {α : Type} (code : Code) (ls : List Line) (bound : Nat) (d : Draft (List Line))
    (ins : List Value) (e : Eval α) (outs : α → List Value) : Prop :=
  ∀ p seg q rest, d p = some (seg, q) → seg ++ rest <:+ ls →
    Sim code ls bound (seg ++ rest) ins e rest outs

namespace Draft.Realizes

variable {code : Code} {ls : List Line} {pool : Pool} {bound : Nat} {α β : Type}
  {d d' : Draft (List Line)} {ins : List Value} {e : Eval α} {g : α → Eval β}
  {mid outs : α → List Value}

theorem frame (h : Realizes code ls bound d ins e outs) (T : List Value) :
    Realizes code ls bound d (ins ++ T) e fun a => outs a ++ T :=
  fun p seg q rest hd hs => (h p seg q rest hd hs).frame T

theorem pure (outs : α → List Value) (a : α) :
    Realizes code ls bound (lines []) (outs a) (pure a : Eval α) outs := by
  intro p seg q rest hd hs
  obtain ⟨rfl, rfl⟩ := lines_eq_some.1 hd
  exact .pure outs hs a

/-- One draft after the other. -/
theorem join {outs : β → List Value} (hls : code.Lists ls pool)
    (h : Realizes code ls bound d ins e mid)
    (h' : ∀ a, e.Gives a → Realizes code ls bound d' (mid a) (g a) outs) :
    Realizes code ls bound (d ++ d') ins (e >>= g) outs := by
  intro p seg q rest hd hs
  obtain ⟨xs, ys, r, hx, hy, rfl⟩ := join_eq_some.1 hd
  rw [List.append_assoc] at hs ⊢
  exact .bind hls (h p xs r _ hx hs) fun a ha => h' a ha r ys q rest hy (suffix_of_append hs)

/-- Another result that stands for the same values. -/
theorem mapped {outs : β → List Value} (hls : code.Lists ls pool) (f : α → β)
    (h : Realizes code ls bound d ins e mid) (hf : ∀ a, outs (f a) = mid a) :
    Realizes code ls bound d ins (e >>= fun a => Pure.pure (f a)) outs := by
  intro p seg q rest hd hs
  refine .bind hls (h p seg q rest hd hs) fun a _ => ?_
  rw [← hf a]
  exact .pure outs (suffix_of_append hs) (f a)

/-- A draft that only changes the stack before another one. -/
theorem silent {between : List Value} (hls : code.Lists ls pool)
    (h : Realizes code ls bound d ins (Pure.pure () : Eval Unit) fun _ => between)
    (h' : Realizes code ls bound d' between e outs) :
    Realizes code ls bound (d ++ d') ins e outs := by
  rw [← pure_bind () fun _ => e]
  exact h.join hls fun _ _ => h'

theorem plain (hls : code.Lists ls pool) {op : Opcode} {arg : Nat} {isPlain : op.isPlain = true}
    (h : Does (execute code op arg) ins e outs) :
    Realizes code ls bound (lines [.plain op arg isPlain]) ins e outs := by
  intro p seg q rest hd hs
  obtain ⟨rfl, rfl⟩ := lines_eq_some.1 hd
  exact .operation hls rfl hs h

/-- A line with an entry in a table stands for that entry. -/
theorem exact_of_suffix {x : Line} {xs : List Line} (exact : ∀ l ∈ ls, l.Exact code)
    (hs : x :: xs <:+ ls) : x.Exact code := exact x (hs.subset (by simp))

theorem const (hls : code.Lists ls pool) (exact : ∀ l ∈ ls, l.Exact code) (v : Value) :
    Realizes code ls bound (do let i ← addConst v; lines [.const i v]) []
      (Pure.pure v : Eval Value) fun v => [v] := by
  intro p seg q rest hd hs
  obtain ⟨i, r, -, hl⟩ := bind_eq_some.1 hd
  obtain ⟨rfl, rfl⟩ := lines_eq_some.1 hl
  exact .operation hls rfl hs (does_loadConst (exact_of_suffix exact hs))

section
variable (hls : code.Lists ls pool) (exact : ∀ l ∈ ls, l.Exact code) (s : String)
include hls exact

theorem load :
    Realizes code ls bound (useName .load (.text s)) [] (Eval.lookup s) fun v => [v] := by
  intro p seg q rest hd hs
  obtain ⟨i, r, -, hl⟩ := bind_eq_some.1 hd
  obtain ⟨rfl, rfl⟩ := lines_eq_some.1 hl
  exact .operation hls rfl hs (does_loadName (exact_of_suffix exact hs s rfl))

theorem store (v : Value) :
    Realizes code ls bound (useName .store (.text s)) [v] (Eval.store v s) fun _ => [] := by
  intro p seg q rest hd hs
  obtain ⟨i, r, -, hl⟩ := bind_eq_some.1 hd
  obtain ⟨rfl, rfl⟩ := lines_eq_some.1 hl
  exact .operation hls rfl hs (does_storeName (exact_of_suffix exact hs s rfl) v)

theorem delete :
    Realizes code ls bound (useName .delete (.text s)) [] (Eval.delete s) fun _ => [] := by
  intro p seg q rest hd hs
  obtain ⟨i, r, -, hl⟩ := bind_eq_some.1 hd
  obtain ⟨rfl, rfl⟩ := lines_eq_some.1 hl
  exact .operation hls rfl hs (does_delName (exact_of_suffix exact hs s rfl))

end

/-! Conditionals and loops -/

theorem conditional {dt db de : Draft (List Line)} {test : Eval Value} {e e' : Eval α}
    (hls : code.Lists ls pool) (ht : Realizes code ls bound dt [] test fun v => [v])
    (hb : Realizes code ls bound db [] e outs) (he : Realizes code ls bound de [] e' outs) :
    Realizes code ls bound (Draft.conditional dt db de) []
      (test >>= fun v => if v.truthy then e else e') outs := by
  intro p seg q rest hd hs
  obtain ⟨ts, bs, es, p₁, p₂, hts, hbs, hes, rfl⟩ := conditional_eq_some.1 hd
  simp only [List.append_assoc, List.cons_append, List.nil_append] at hs ⊢
  have htest := suffix_of_append hs
  have hbody := suffix_of_cons (suffix_of_cons htest)
  have hjump := suffix_of_append hbody
  have hother := suffix_of_cons hjump
  have horelse := suffix_of_cons (suffix_of_cons hother)
  have hdone := suffix_of_append horelse
  refine .bind hls (ht _ _ _ _ hts hs) fun v _ => .branch hls htest hother ?_ ?_
  · refine .silent hls rfl (suffix_of_cons htest) (does_popTop v) ?_
    refine .followed hls (hb _ _ _ _ hbs hbody) fun a => ?_
    exact (Sim.jump hls hjump hdone (.pure outs (suffix_of_cons hdone) a)).mono (Nat.le_succ bound)
  · refine .silent hls rfl (suffix_of_cons hother) (does_popTop v) ?_
    refine .followed hls (he _ _ _ _ hes horelse) fun a => ?_
    exact .label hls hdone (.pure outs (suffix_of_cons hdone) a)

theorem whileLoop {dt db : Draft (List Line)} {test : Eval Value} {body : Eval Unit}
    (hls : code.Lists ls pool) (ht : Realizes code ls bound dt [] test fun v => [v])
    (hb : Realizes code ls bound db [] body fun _ => []) :
    Realizes code ls bound (Draft.whileLoop dt db) [] (Eval.whileLoop test body bound)
      fun _ => [] := by
  intro p seg q rest hd hs
  obtain ⟨ts, bs, p₁, hts, hbs, rfl⟩ := whileLoop_eq_some.1 hd
  simp only [List.append_assoc, List.cons_append, List.nil_append] at hs ⊢
  have htest := suffix_of_append (suffix_of_cons hs)
  have hbody := suffix_of_cons (suffix_of_cons htest)
  refine .label hls hs (.whileLoop hls hs (ht _ _ _ _ hts (suffix_of_cons hs))
    (hb _ _ _ _ hbs hbody) htest (suffix_of_append hbody) (le_refl _))

theorem forLoop {di db : Draft (List Line)} {iter : Eval Value} {body : Eval Unit} {name : String}
    (hls : code.Lists ls pool) (exact : ∀ l ∈ ls, l.Exact code)
    (hi : Realizes code ls bound di [] iter fun v => [v])
    (hb : Realizes code ls bound db [] body fun _ => []) :
    Realizes code ls bound (Draft.forLoop di (useName .store (.text name)) db) []
      (iter >>= fun v => Eval.act v.iterate >>= fun i => Eval.forLoop name i.1 body bound)
      fun _ => [] := by
  intro p seg q rest hd hs
  obtain ⟨is, ts, bs, p₁, p₂, his, hts, hbs, rfl⟩ := forLoop_eq_some.1 hd
  simp only [List.append_assoc, List.cons_append, List.nil_append] at hs ⊢
  have hiter := suffix_of_append hs
  have hagain := suffix_of_cons hiter
  have htarget := suffix_of_cons (suffix_of_cons hagain)
  have hbody := suffix_of_append htarget
  refine .bind hls (hi _ _ _ _ his hs) fun v _ => ?_
  refine .bind hls (.operation hls rfl hiter (does_getIter v)) fun i _ => .label hls hagain ?_
  exact .forLoop hls hagain (fun v => store hls exact name v _ _ _ _ hts htarget)
    (hb _ _ _ _ hbs hbody) (suffix_of_append hbody) (le_refl _)

/-- A variable is changed by an operation with a value. -/
theorem update {dv : Draft (List Line)} {value : Eval Value} {op : BinaryOp} {name : String}
    (hls : code.Lists ls pool) (exact : ∀ l ∈ ls, l.Exact code)
    (hv : Realizes code ls bound dv [] value fun v => [v]) :
    Realizes code ls bound
      (Draft.update (some (.text name)) dv (lines [.plain (.binary op) 0 rfl])) []
      (Eval.lookup name >>= fun a => value >>= fun b => Eval.binary op a b >>= fun v =>
        Eval.store v name) fun _ => [] := by
  intro p seg q rest hd hs
  obtain ⟨i, r, vs, _, p₁, -, hvs, hl, rfl⟩ := update_eq_some.1 hd
  obtain ⟨rfl, rfl⟩ := lines_eq_some.1 hl
  simp only [List.append_assoc, List.cons_append, List.nil_append] at hs ⊢
  have hvalue := suffix_of_cons hs
  have hop := suffix_of_append hvalue
  have hstore := suffix_of_cons hop
  refine .bind hls (.operation hls rfl hs
    (does_loadName (exact_of_suffix exact hs name rfl))) fun a _ => ?_
  refine .bind hls ((hv _ _ _ _ hvs hvalue).frame [a]) fun b _ => ?_
  refine .bind hls (.operation hls rfl hop (does_binary op a b)) fun v _ => ?_
  exact .operation hls rfl hstore (does_storeName (exact_of_suffix exact hstore name rfl) v)

end Draft.Realizes

/-! ### Expressions -/

namespace Eval

theorem gives_bind {α β : Type} {e : Eval α} {g : α → Eval β} {b : β} (h : (e >>= g).Gives b) :
    ∃ a, e.Gives a ∧ (g a).Gives b := by
  obtain ⟨env, env', h⟩ := h
  rw [outcome_bind, chain_eq_ok] at h
  obtain ⟨a, env₁, he, hg⟩ := h
  exact ⟨a, ⟨_, _, he⟩, _, _, hg⟩

theorem gives_pure {α : Type} {a b : α} (h : (pure a : Eval α).Gives b) : a = b := by
  obtain ⟨env, env', h⟩ := h
  cases h
  rfl

theorem length_of_all {es : List (Eval Value)} {vs : List Value} (h : (all es).Gives vs) :
    vs.length = es.length := by
  induction es generalizing vs with
  | nil =>
    obtain rfl := gives_pure h
    rfl
  | cons e es ih =>
    obtain ⟨v, -, h⟩ := gives_bind h
    obtain ⟨ws, hws, h⟩ := gives_bind h
    obtain rfl := gives_pure h
    simp [ih hws]

theorem length_of_entries {ks vs : List (Eval Value)} {es : List (Value × Value)}
    (h : (entries ks vs).Gives es) (hlength : ks.length = vs.length) : es.length = ks.length := by
  induction ks generalizing vs es with
  | nil =>
    obtain rfl := gives_pure h
    rfl
  | cons k ks ih =>
    cases vs with
    | nil => cases hlength
    | cons v vs =>
      obtain ⟨value, -, h⟩ := gives_bind h
      obtain ⟨key, -, h⟩ := gives_bind h
      obtain ⟨ds, hds, h⟩ := gives_bind h
      obtain rfl := gives_pure h
      simp [ih hds (by simpa using hlength)]

end Eval

theorem stacked_append (es fs : List (Value × Value)) :
    stacked (es ++ fs) = stacked es ++ stacked fs := by
  induction es with
  | nil => rfl
  | cons e es ih => simp [stacked, ih]

namespace Tree

@[simp] theorem length_evalEach (ts : List Tree) : (evalEach ts).length = ts.length := by
  induction ts with
  | nil => rfl
  | cons t ts ih => simp [evalEach, ih]

variable {code : Code} {ls : List Line} {pool : Pool} {bound : Nat}

open Draft (Realizes)

/-- An expression is realized wherever it stands. -/
abbrev Valued (code : Code) (ls : List Line) (bound : Nat) (t : Tree) : Prop :=
  Realizes code ls bound t.draft [] t.eval fun v => [v]

theorem realizes_concat (hls : code.Lists ls pool) {es : List Tree}
    (h : ∀ e ∈ es, Valued code ls bound e) :
    Realizes code ls bound (Draft.concat (draftEach es)) [] (Eval.all (evalEach es))
      List.reverse := by
  induction es with
  | nil => exact .pure List.reverse []
  | cons e es ih =>
    refine (h e (by simp)).join hls fun v _ => ?_
    exact ((ih fun e he => h e (by simp [he])).frame [v]).mapped hls _ fun vs => by simp

theorem realizes_entries (hls : code.Lists ls pool) {es : List (Tree × Tree)}
    (hk : ∀ e ∈ es, Valued code ls bound e.1) (hv : ∀ e ∈ es, Valued code ls bound e.2) :
    Realizes code ls bound
      (Draft.entries (draftEach (es.map (·.1))) (draftEach (es.map (·.2)))) []
      (Eval.entries (evalEach (es.map (·.1))) (evalEach (es.map (·.2))))
      fun ds => stacked ds.reverse := by
  induction es with
  | nil => exact .pure (fun ds => stacked (List.reverse ds)) []
  | cons e es ih =>
    have rest := ih (fun e he => hk e (by simp [he])) fun e he => hv e (by simp [he])
    simp only [List.map_cons, draftEach, evalEach, Draft.entries, Eval.entries]
    rw [Draft.join_assoc]
    refine (hv e (by simp)).join hls fun value _ => ?_
    refine ((hk e (by simp)).frame [value]).join hls fun key _ => ?_
    exact (rest.frame [key, value]).mapped hls _ fun ds => by simp [stacked_append, stacked]

/-- The lines of a display: its items, and an instruction that collects them. -/
theorem realizes_display (hls : code.Lists ls pool) {es : List Tree} {op : Opcode}
    {isPlain : op.isPlain = true} {g : List Value → Eval Value}
    (h : ∀ e ∈ es, Valued code ls bound e)
    (hop : ∀ vs, Does (execute code op vs.length) vs.reverse (g vs) fun v => [v]) :
    Realizes code ls bound
      (Draft.concat (draftEach es) ++ Draft.lines [.plain op es.length isPlain]) []
      (Eval.all (evalEach es) >>= g) fun v => [v] := by
  refine (realizes_concat hls h).join hls fun vs hvs => .plain hls ?_
  rw [show es.length = vs.length by simpa using (Eval.length_of_all hvs).symm]
  exact hop vs

/-- The lines of a dictionary; one without entries has no lines for them. -/
theorem realizes_dict (hls : code.Lists ls pool) {es : List (Tree × Tree)}
    (hk : ∀ e ∈ es, Valued code ls bound e.1) (hv : ∀ e ∈ es, Valued code ls bound e.2) :
    Valued code ls bound (dictOf es) := by
  have split : (dictOf es).draft =
      Draft.entries (draftEach (es.map (·.1))) (draftEach (es.map (·.2))) ++
        Draft.lines [.plain .buildDict es.length rfl] := by
    cases es with
    | nil => rfl
    | cons e es => simp [dictOf, draft, count?, firsts, Draft.counted]
  rw [Valued, split]
  refine (realizes_entries hls hk hv).join hls fun ds hds => .plain hls ?_
  have hlength : es.length = ds.length := by simpa using (Eval.length_of_entries hds (by simp)).symm
  rw [hlength]
  simpa only [bind_pure_comp] using does_buildDict ds

theorem IsExpression.not_list {t : Tree} (h : IsExpression t) (items : List Tree) :
    t ≠ .list items := by
  cases h <;> nofun

/-- Every expression is realized. -/
theorem IsExpression.realizes (hls : code.Lists ls pool) (exact : ∀ l ∈ ls, l.Exact code)
    {t : Tree} (h : IsExpression t) : Valued code ls bound t := by
  induction h with
  | @constant v _ => exact .const hls exact v
  | name s => exact .load hls exact s
  | tuple _ ih => exact realizes_display hls ih does_buildTuple
  | list _ ih => exact realizes_display hls ih does_buildList
  | set _ ih =>
    refine realizes_display hls ih fun vs => ?_
    simpa only [bind_pure_comp] using does_buildSet vs
  | @dict es _ _ ihk ihv => exact realizes_dict hls ihk ihv
  | @binOp left right o _ _ ihl ihr =>
    have split : (op o left right).draft = left.draft ++ (right.draft ++
        Draft.lines [.plain (.binary o) 0 rfl]) := Draft.join_assoc _ _ _
    rw [Valued, split]
    refine ihl.join hls fun a _ => (ihr.frame [a]).join hls fun b _ => ?_
    exact .plain hls (does_binary o a b)
  | @unaryOp operand o _ ih => exact ih.join hls fun v _ => .plain hls (does_unary o v)
  | ifExp _ _ _ iht ihb ihe => exact .conditional hls iht ihb ihe
  | subscript _ _ ihv ihi | sealedSubscript _ _ ihv ihi =>
    refine ihv.join hls fun v _ => (ihi.frame [v]).join hls fun i _ => ?_
    exact .plain hls (does_index v i)
  | @call func args hne _ ha ihf iha =>
    have split : (Tree.call func (.list args) (.list [])).draft = func.draft ++
        (Draft.concat (draftEach args) ++ Draft.lines [.plain .callFunction args.length rfl]) := by
      rw [← draftItems_eq_concat fun t ht => (ha t ht).not_list]
      exact Draft.join_assoc _ _ _
    rw [Valued, split]
    refine ihf.join hls fun f _ => ?_
    refine ((realizes_concat hls iha).frame [f]).join hls fun vs hvs => .plain hls ?_
    have hlength : args.length = vs.length := by simpa using (Eval.length_of_all hvs).symm
    rw [hlength]
    refine does_call ?_
    rintro rfl
    exact hne (List.eq_nil_of_length_eq_zero hlength)

/-! ### Statements -/

/-- A statement is realized wherever it stands. -/
abbrev Done (code : Code) (ls : List Line) (bound : Nat) (t : Tree) : Prop :=
  Realizes code ls bound t.draft [] (t.exec bound) fun _ => []

theorem realizes_execAll (hls : code.Lists ls pool) {ts : List Tree}
    (h : ∀ t ∈ ts, Done code ls bound t) :
    Realizes code ls bound (Draft.concat (draftEach ts)) [] (execAll bound ts) fun _ => [] := by
  induction ts with
  | nil => exact .pure (fun _ => []) ()
  | cons t ts ih =>
    exact (h t (by simp)).join hls fun _ _ => ih fun s hs => h s (by simp [hs])

/-- Every target but the last gets a copy of the value. -/
theorem realizes_targets (hls : code.Lists ls pool) (exact : ∀ l ∈ ls, l.Exact code) (v : Value)
    {names : List String} (hne : names ≠ []) :
    Realizes code ls bound (Draft.targets (draftEach (names.map target))) [v]
      (names.forM (Eval.store v)) fun _ => [] := by
  induction names with
  | nil => exact absurd rfl hne
  | cons s names ih =>
    cases names with
    | nil =>
      have hforM : [s].forM (Eval.store v) = Eval.store v s := by simp
      rw [hforM]
      exact .store hls exact s v
    | cons s' names =>
      have split : Draft.targets (draftEach ((s :: s' :: names).map target)) =
          Draft.lines [.plain .dupTop 0 rfl] ++ (Draft.useName .store (.text s) ++
            Draft.targets (draftEach ((s' :: names).map target))) := Draft.join_assoc _ _ _
      rw [split]
      refine .silent hls (.plain hls (does_dupTop v)) ?_
      exact ((Realizes.store hls exact s v).frame [v]).join hls fun _ _ => ih (by simp)

theorem realizes_delete (hls : code.Lists ls pool) (exact : ∀ l ∈ ls, l.Exact code)
    (names : List String) :
    Realizes code ls bound
      (Draft.concat ((names.map fun s => Tree.name (.ofText s) (.context .del)).map draftDelete))
      [] (names.forM Eval.delete) fun _ => [] := by
  induction names with
  | nil => exact .pure (fun _ => []) ()
  | cons s names ih => exact (Realizes.delete hls exact s).join hls fun _ _ => ih

theorem IsStatement.not_list {t : Tree} (h : IsStatement t) (items : List Tree) :
    t ≠ .list items := by
  cases h <;> nofun

/-- The lines of a block. -/
theorem realizes_block (hls : code.Lists ls pool) {ts : List Tree} (ht : ∀ t ∈ ts, IsStatement t)
    (h : ∀ t ∈ ts, Done code ls bound t) :
    Realizes code ls bound (Tree.list ts).draft [] (execAll bound ts) fun _ => [] := by
  rw [draft, draftItems_eq_concat fun t hmem => (ht t hmem).not_list]
  exact realizes_execAll hls h

/-- Every statement is realized. -/
theorem IsStatement.realizes (hls : code.Lists ls pool) (exact : ∀ l ∈ ls, l.Exact code)
    {t : Tree} (h : IsStatement t) : Done code ls bound t := by
  induction h with
  | expr h => exact (h.realizes hls exact).join hls fun v _ => .plain hls (does_printExpr v)
  | @assign names value hne h =>
    have split : (setAll names value).draft = value.draft ++
        Draft.targets (draftEach (names.map target)) := by
      simp [setAll, draft, truthy, sliceable, hne, parts]
    rw [Done, split]
    refine (h.realizes hls exact).join hls fun v _ => ?_
    have hnames : (names.map target).map identText = names := by
      simp [Function.comp_def, target, identText, ofText]
    rw [hnames]
    exact realizes_targets hls exact v hne
  | augAssign h => exact .update hls exact (h.realizes hls exact)
  | delete names =>
    have hnames : (names.map fun s => Tree.name (.ofText s) (.context .del)).map identText =
        names := by simp [Function.comp_def, identText, ofText]
    rw [Done, draft, exec, hnames]
    exact realizes_delete hls exact names
  | pass => exact .pure (fun _ => []) ()
  | ifStmt ht hb he ihb ihe =>
    exact .conditional hls (ht.realizes hls exact) (realizes_block hls hb ihb)
      (realizes_block hls he ihe)
  | whileLoop ht hb ihb =>
    exact .whileLoop hls (ht.realizes hls exact) (realizes_block hls hb ihb)
  | forLoop hi hb ihb =>
    exact .forLoop hls exact (hi.realizes hls exact) (realizes_block hls hb ihb)

/-- Every program is realized. -/
theorem IsProgram.realizes (hls : code.Lists ls pool) (exact : ∀ l ∈ ls, l.Exact code)
    {t : Tree} (h : IsProgram t) : Done code ls bound t := by
  obtain ⟨h⟩ := h
  exact realizes_execAll hls fun s hs => (h s hs).realizes hls exact

/-! ### Constants -/

theorem IsLiteral.eq_of_sameConstant {v w : Value} (hw : IsLiteral w) (hv : IsLiteral v)
    (h : Value.sameConstant w v = true) : w = v := by
  have hty : w.ty = v.ty := by simpa using (Bool.and_eq_true_iff.1 h).1
  have hsame : Value.same w v = true := (Bool.and_eq_true_iff.1 h).2
  cases hw with
  | none => cases hv <;> first | rfl | cases hty
  | bool b =>
    cases hv with
    | bool c => cases b <;> cases c <;> simp_all [Value.same, Value.number?, Number.same]
    | _ => cases hty
  | int n =>
    cases hv with
    | int k => simpa [Value.same, Value.number?, Number.same] using hsame
    | _ => cases hty
  | str s =>
    cases hv with
    | str t => simpa [Value.same] using hsame
    | _ => cases hty
  | bytes b =>
    cases hv with
    | bytes c => simpa [Value.same] using hsame
    | _ => cases hty

theorem IsLiteral.anonymous {v : Value} (h : IsLiteral v) : v.Anonymous := by
  intro w
  cases h <;> rfl

theorem forall_constantsOf {P : Value → Prop} {ts : List Tree}
    (h : ∀ t ∈ ts, ∀ v ∈ t.constants, P v) : ∀ v ∈ constantsOf ts, P v := by
  induction ts with
  | nil => simp [constantsOf]
  | cons t ts ih =>
    simp only [constantsOf, List.forall_mem_append]
    exact ⟨h t (by simp), ih fun s hs => h s (by simp [hs])⟩

theorem IsExpression.literals {t : Tree} (h : IsExpression t) :
    ∀ v ∈ t.constants, IsLiteral v := by
  induction h with
  | constant h => simpa [const, constants] using h
  | name s => simp [var, constants, ofText]
  | tuple _ ih | list _ ih | set _ ih => simpa [constants] using forall_constantsOf ih
  | dict _ _ ihk ihv =>
    simp only [dictOf, constants, List.forall_mem_append]
    refine ⟨forall_constantsOf fun t ht => ?_, forall_constantsOf fun t ht => ?_⟩
    · obtain ⟨e, he, rfl⟩ := List.mem_map.1 ht
      exact ihk e he
    · obtain ⟨e, he, rfl⟩ := List.mem_map.1 ht
      exact ihv e he
  | binOp _ _ ihl ihr =>
    simp only [op, constants, List.forall_mem_append]
    exact ⟨⟨ihl, by simp⟩, ihr⟩
  | unaryOp _ ih => simpa [sign, constants] using ih
  | ifExp _ _ _ iht ihb ihe =>
    simp only [constants, List.forall_mem_append]
    exact ⟨⟨iht, ihb⟩, ihe⟩
  | subscript _ _ ihv ihi | sealedSubscript _ _ ihv ihi =>
    simp only [constants, List.forall_mem_append]
    exact ⟨⟨ihv, ihi⟩, by simp⟩
  | call _ _ _ ihf iha =>
    simp only [constants, List.forall_mem_append]
    exact ⟨⟨ihf, forall_constantsOf iha⟩, by simp [constantsOf]⟩

theorem IsStatement.literals {t : Tree} (h : IsStatement t) :
    ∀ v ∈ t.constants, IsLiteral v := by
  have names : ∀ (names : List String) (c : Context), ∀ v ∈
      constantsOf (names.map fun s => Tree.name (.ofText s) (.context c)), IsLiteral v := by
    intro names c
    refine forall_constantsOf fun t ht => ?_
    obtain ⟨s, -, rfl⟩ := List.mem_map.1 ht
    simp [constants, ofText]
  induction h with
  | expr h => exact h.literals
  | assign _ h =>
    simp only [setAll, constants, List.forall_mem_append]
    exact ⟨names _ .store, h.literals⟩
  | augAssign h => simpa [update, target, constants, ofText] using h.literals
  | delete ns => exact names ns .del
  | pass => simp [constants]
  | ifStmt ht _ _ ihb ihe =>
    simp only [branch, constants, List.forall_mem_append]
    exact ⟨⟨ht.literals, forall_constantsOf ihb⟩, forall_constantsOf ihe⟩
  | whileLoop ht _ ihb =>
    simp only [repeatWhile, constants, List.forall_mem_append]
    exact ⟨⟨ht.literals, forall_constantsOf ihb⟩, by simp [constantsOf]⟩
  | forLoop hi _ ihb =>
    simp only [forEach, constants, List.forall_mem_append]
    exact ⟨⟨⟨by simp [target, constants, ofText], hi.literals⟩, forall_constantsOf ihb⟩,
      by simp [constantsOf]⟩

theorem IsProgram.literals {t : Tree} (h : IsProgram t) : ∀ v ∈ t.constants, IsLiteral v := by
  obtain ⟨h⟩ := h
  exact forall_constantsOf fun s hs => (h s hs).literals

/-! ### Programs -/

/-- The lines of a program stand for what its tables hold. -/
theorem exact_of_known {code : Code} {ls : List Line} {q : Pool} (hls : code.Lists ls q)
    (h : Pool.Grows IsLiteral {} ls q) : ∀ l ∈ ls, l.Exact code := by
  intro l hl
  cases l with
  | const i v =>
    rw [Line.Exact, hls.consts]
    exact h.const_eq (fun v w hv hw same => hv.eq_of_sameConstant hw same) hl
  | name use i n =>
    rintro s rfl
    obtain ⟨k, hk, same⟩ := h.known _ hl
    obtain rfl : k = .text s := by
      rcases same with rfl | same
      · rfl
      · cases k with
        | text t => simpa [BEq.beq, Name.same] using same
        | value v => cases same
        | node shown => cases same
    exact hls.names ▸ hk
  | _ => trivial

/-- The constants of a program need no marks. -/
theorem load_program {code : Code} {ls : List Line} {q : Pool} (hls : code.Lists ls q)
    (h : Pool.Grows IsLiteral {} ls q) (m : Machine) :
    outcome (load code) m = (.ok code, m) := by
  refine load_anonymous (fun v hv => ?_) m
  rw [hls.consts] at hv
  exact (h.entry hv).anonymous

/-- How a run from the machine `m` that ends with `r` and `m'` and an evaluation agree. -/
def RunAgrees (m : Machine) (r : Except Fault Unit) (m' : Machine) (r' : Except Fault Unit)
    (env : Env) : Prop :=
  m'.env = env ∧
    match r' with
    | .ok _ => m'.stack = m.stack ∧ r = if m.stack.isEmpty then .ok () else .error .leftOver
    | .error f => m.stack <:+ m'.stack ∧ r = .error f

section
variable {code : Code} {ls : List Line} {pool : Pool} {t : Tree}
  (hls : code.Lists ls pool) (hd : t.draft {} = some (ls, pool))
  (grows : Pool.Grows IsLiteral {} ls pool) (ht : IsProgram t) (m : Machine)
include hls hd grows ht

/-- The lines of a program do what the program does. -/
theorem sim_program (rounds : Nat) :
    Sim code ls rounds ls [] (t.exec rounds) [] fun _ => [] := by
  have hdone : Done code ls rounds t := ht.realizes hls (exact_of_known hls grows)
  simpa using hdone {} ls pool [] hd (by simp)

/-- A program that ends is run to the same end. -/
theorem exists_halts {r' : Except Fault Unit} {env : Env} (h : t.Evaluates m.env r' env) :
    ∃ r m', m.Halts code r m' ∧ RunAgrees m r m' r' env := by
  obtain ⟨hr, rounds, he⟩ := h
  have sim := sim_program hls hd grows ht rounds
  have hload := load_program hls grows m
  cases r' with
  | ok u =>
    obtain ⟨k, hk⟩ := sim.returns m m.stack u env rfl he
    have hrun : outcome (Line.run code ls (1 + k) ls) m = (.ok (), m.withEnv m.stack env) := by
      rw [hk 1, Line.run]
      rfl
    obtain ⟨pc, hpc⟩ := hls.perform_runWithin hload (1 + k)
    rw [hrun] at hpc
    refine ⟨_, _, ⟨?_, 1 + k, hpc⟩, rfl, rfl, rfl⟩
    rw [Machine.at_stack, Machine.withEnv_stack]
    cases m.stack <;> simp
  | error f =>
    obtain ⟨T, k, hk⟩ := sim.fails m m.stack f env rfl he fun hf => hr (by rw [hf])
    obtain ⟨pc, hpc⟩ := hls.perform_runWithin hload (0 + k)
    rw [hk 0] at hpc
    exact ⟨_, _, ⟨hr, 0 + k, hpc⟩, rfl, List.suffix_append T m.stack, rfl⟩

/-- A program whose run ends, ends. -/
theorem exists_evaluates {r : Except Fault Unit} {m' : Machine} (h : m.Halts code r m') :
    ∃ r' env, t.Evaluates m.env r' env := by
  obtain ⟨hr, fuel, hrun⟩ := h
  refine ⟨_, _, fun he => hr ?_, fuel, rfl⟩
  have sim := sim_program hls hd grows ht fuel
  have hlasts := sim.lasts m m.stack _ rfl (Prod.ext he rfl) fuel (le_refl _)
  obtain ⟨pc, hpc⟩ := hls.perform_runWithin (load_program hls grows m) fuel
  rcases houtcome : outcome (Line.run code ls fuel ls) m with ⟨r₀, m₀⟩
  rw [houtcome] at hlasts hpc
  obtain rfl : r₀ = .error .endless := hlasts
  exact congrArg (·.1) (hrun.symm.trans hpc)

end

/-- Compiling is correct. A run of a compiled program ends exactly if its evaluation does, from any
machine. They then agree on the variables in their order, on the world with all that was printed,
and on the fault, if there is one; a program that returns leaves the stack as it was, and one that
fails leaves what was on the stack at its bottom. -/
theorem compile_correct {t : Tree} {code : Code} (ht : IsProgram t) (h : t.compile = .ok code)
    (m : Machine) :
    ((∃ r m', m.Halts code r m') ↔ ∃ r env, t.Evaluates m.env r env) ∧
      ∀ r m' r' env, m.Halts code r m' → t.Evaluates m.env r' env → RunAgrees m r m' r' env := by
  obtain ⟨ls, pool, hd, hls⟩ := compile_eq_ok.1 h
  have grows := t.draft_keeps ht.literals {} ls pool hd
  refine ⟨⟨?_, ?_⟩, ?_⟩
  · rintro ⟨r, m', hm⟩
    exact exists_evaluates hls hd grows ht m hm
  · rintro ⟨r, env, he⟩
    obtain ⟨r', m', hm, -⟩ := exists_halts hls hd grows ht m he
    exact ⟨r', m', hm⟩
  · intro r m' r' env hm he
    obtain ⟨r₁, m₁, hm₁, agrees⟩ := exists_halts hls hd grows ht m he
    obtain ⟨rfl, rfl⟩ := hm.unique hm₁
    exact agrees

/-- Shows 3, 2 and 1. -/
def countdown : Tree :=
  program [set "n" (num 3), repeatWhile (var "n") [.expr (var "n"), update "n" .sub (num 1)]]

theorem isProgram_countdown : IsProgram countdown := by
  refine ⟨fun s hs => ?_⟩
  obtain rfl | rfl : s = set "n" (num 3) ∨
      s = repeatWhile (var "n") [.expr (var "n"), update "n" .sub (num 1)] := by simpa using hs
  · exact .assign (by simp) (.constant (.int 3))
  · refine .whileLoop (.name "n") fun s hs => ?_
    obtain rfl | rfl : s = .expr (var "n") ∨ s = update "n" .sub (num 1) := by simpa using hs
    · exact .expr (.name "n")
    · exact .augAssign (.constant (.int 1))

theorem compile_correct_countdown :
    ∃ code, countdown.compile = .ok code ∧ ∃ m', ({} : Machine).Halts code (.ok ()) m' := by
  refine exists_ok_and (by decide +kernel) fun code h => ?_
  have correct := compile_correct isProgram_countdown h {}
  obtain ⟨u, he, -⟩ : ∃ u, (outcome (countdown.exec 4) ⟨[], {}⟩).1 = .ok u ∧ True :=
    exists_ok_and (by decide +kernel) fun _ _ => trivial
  have evaluates : countdown.Evaluates ⟨[], {}⟩ (.ok u)
      (outcome (countdown.exec 4) ⟨[], {}⟩).2 := ⟨nofun, 4, by rw [← he]⟩
  obtain ⟨r, m', hm⟩ := correct.1.2 ⟨_, _, evaluates⟩
  obtain ⟨-, -, rfl⟩ := correct.2 _ _ _ _ hm evaluates
  exact ⟨m', hm⟩

end Tree
end Stackwise
