import Stackwise.Proofs.Correctness
import Stackwise.Proofs.FoldedCode
import Stackwise.Proofs.SideBySide

/-!
# Folded programs run as before

A folded program and the program before run side by side, from any machine: `Together.moves` is what
their listings do until they are at the same point again, with the same machine. A run of one ends
exactly if a run of the other does, and in the same way: `Tree.fold_preserves_runs`.
-/
namespace Stackwise

open Exec

/-! ### Anonymous constants -/

namespace Line

/-- Nothing in what is pushed is told apart by more than its value. -/
theorem Pushes.pushed_anonymous {ls : List Line} {s : List Value}
    (h : Pushes Value.Anonymous ls s) : ∀ v ∈ s, v.Anonymous := by
  induction h with
  | nil => simp
  | const i _ _ hanon ih => exact List.forall_mem_cons.2 ⟨hanon, ih⟩
  | binary _ _ hanon ih =>
    rw [List.forall_mem_cons, List.forall_mem_cons] at ih
    exact List.forall_mem_cons.2 ⟨hanon, ih.2.2⟩
  | tuple _ ih =>
    simp only [List.forall_mem_append, List.mem_reverse] at ih
    refine List.forall_mem_cons.2 ⟨fun w => ?_, ih.2⟩
    simp [Act.markAll, Act.markItems_anonymous ih.1]

theorem Pushes.anonymous {ls : List Line} {s : List Value} (h : Pushes Value.Anonymous ls s)
    {i : Nat} {v : Value} (hv : .const i v ∈ ls) : v.Anonymous := by
  induction h with
  | nil => cases hv
  | const j _ _ hanon ih =>
    rcases List.mem_append.1 hv with hv | hv
    · exact ih hv
    · cases List.mem_singleton.1 hv
      exact hanon
  | binary _ _ _ ih => exact ih (by simpa using hv)
  | tuple _ ih => exact ih (by simpa using hv)

section
variable {ls ms : List Line} (h : Folds Value.Anonymous ls ms)
include h

/-- All constants, of the listing and of the folded one, are told apart by their value only. -/
theorem Folds.anonymous {i : Nat} {v : Value} (hv : .const i v ∈ ls ∨ .const i v ∈ ms) :
    v.Anonymous := by
  induction h with
  | nil => simp at hv
  | keep hl _ ih =>
    refine ih (hv.imp ?_ ?_)
    · exact fun hv => (List.mem_cons.1 hv).resolve_left fun he => hl i v he.symm
    · exact fun hv => (List.mem_cons.1 hv).resolve_left fun he => hl i v he.symm
  | fold j hseg _ ih =>
    rw [List.mem_append, List.mem_cons] at hv
    rcases hv with (hv | hv) | (hv | hv)
    · exact hseg.anonymous hv
    · exact ih (.inl hv)
    · cases hv
      exact hseg.pushed_anonymous _ (by simp)
    · exact ih (.inr hv)

end

/-- A jump goes to the same point of both listings. -/
theorem Folds.after {A : Value → Prop} {ls ms : List Line} (h : Folds A ls ms) (m : Marker) :
    Folds A (after m ls) (after m ms) := by
  induction h with
  | nil => exact .nil
  | @keep l ls ms hl h ih =>
    cases l with
    | label t =>
      simp only [Line.after]
      split
      · exact h
      · exact ih
    | _ => exact ih
  | fold i hseg _ ih =>
    rw [after_append (by simp [hseg.labels_eq_nil])]
    exact ih

end Line

/-! ### Running straight-line code -/

theorem Value.Anonymous.outcome_markObject {v : Value} (h : v.Anonymous) (w : World) :
    outcome (Act.markObject v) w = (.ok v, w) := by
  cases v with
  | float x => exact h w
  | complex re im => exact h w
  | error mark c args =>
    cases mark with
    | succ k => rfl
    | zero =>
      -- It would get a mark, which is never zero.
      have hw := h w
      rw [Act.markAll, outcome_bind, chain_eq_ok] at hw
      obtain ⟨args', w', -, hmark⟩ := hw
      cases hmark
  | _ => rfl

section
variable {code : Code} {ls rest : List Line} {m : Machine}

/-- One operation more at the end of straight-line code. -/
theorem Does.concat {α : Type} {xs : List Line} {x : Line} {op : Opcode} {arg : Nat}
    {ins S : List Value} {e : Eval α} {outs : α → List Value} {a : α}
    (hx : Does (execute code op arg) ins e outs) (hop : x.operation? = some (op, arg))
    (h : Leads code ls (Line.totalWidth xs) (xs ++ x :: rest) m (x :: rest)
      (m.withEnv (ins ++ S) m.env))
    (he : outcome e m.env = (.ok a, m.env)) :
    Leads code ls (Line.totalWidth (xs ++ [x])) (xs ++ [x] ++ rest) m rest
      (m.withEnv (outs a ++ S) m.env) := by
  have last : Leads code ls x.width (x :: rest) (m.withEnv (ins ++ S) m.env) rest
      (m.withEnv (outs a ++ S) m.env) := by
    intro n
    have hstep := hx.returns (m.withEnv (ins ++ S) m.env) S a m.env rfl he
    rw [Line.run_operation hop, outcome_bind, hstep, chain_ok, Machine.withEnv_withEnv]
  simpa [Nat.add_comm] using h.trans last

/-- Straight-line code pushes its values, if the constants it loads are in the table. -/
theorem Line.Pushes.leads {xs : List Line} {s : List Value} (h : Pushes Value.Anonymous xs s)
    (hc : ∀ i v, .const i v ∈ xs → code.consts[i]? = some v) (rest : List Line) :
    Leads code ls (totalWidth xs) (xs ++ rest) m rest (m.withEnv (s ++ m.stack) m.env) := by
  induction h generalizing rest with
  | nil => exact .refl
  | @const xs s v i _ _ _ ih =>
    have before := ih (fun j w hw => hc j w (by simp [hw])) (.const i v :: rest)
    have load := does_loadConst (hc i v (by simp))
    exact load.concat (S := s ++ m.stack) rfl before rfl
  | @binary xs s a b c op _ hop hanon ih =>
    have before := ih (fun j w hw => hc j w (by simp [hw])) (.plain (.binary op) 0 rfl :: rest)
    have result : outcome (Eval.act (Act.markObject c)) m.env = (.ok c, m.env) :=
      Eval.outcome_act_eq.2 ⟨m.world, hanon.outcome_markObject m.world, rfl⟩
    refine (does_binary op a b).concat (S := s ++ m.stack) rfl before ?_
    simpa [Eval.binary, hop, Eval.ofExcept] using result
  | @tuple xs s vs _ ih =>
    have before := ih (fun j w hw => hc j w (by simp [hw]))
      (.plain .buildTuple vs.length rfl :: rest)
    rw [List.append_assoc] at before
    exact (does_buildTuple vs).concat rfl before rfl

end

/-! ### Folded listings -/

section
variable {code code' : Code} {ls ls' : List Line} {p p' : Pool}

/-- The points at which a listing and the folded one are together. -/
def Together (ls ls' xs ys : List Line) : Prop :=
  Line.Folds Value.Anonymous xs ys ∧ xs <:+ ls ∧ ys <:+ ls'

variable (hls : code.ListsExactly ls p) (hls' : code'.ListsExactly ls' p')
  (hnames : code.names = code'.names) (hfolds : Line.Folds Value.Anonymous ls ls')
include hls hls' hnames hfolds

theorem Together.moves {xs ys : List Line} (h : Together ls ls' xs ys) (m : Machine) :
    Moves (Together ls ls') code ls code' ls' xs ys m := by
  obtain ⟨folds, hs, hs'⟩ := h
  induction folds with
  | nil => exact .ends .nil .nil
  | @keep l xs ys hl folds ih =>
    have rest : Together ls ls' xs ys :=
      ⟨folds, (List.suffix_cons l xs).trans hs, (List.suffix_cons l ys).trans hs'⟩
    have operation : ∀ {op arg}, l.operation? = some (op, arg) → op ≠ .loadConst →
        Moves (Together ls ls') code ls code' ls' (l :: xs) (l :: ys) m := by
      intro op arg hop hne
      have left : Turns code ls _ (l :: xs) m _ := .operation hop
      have right : Turns code' ls' _ (l :: ys) m _ := .operation hop
      rw [← execute_congr hnames hne] at right
      generalize outcome (execute code op arg) m = result at left right
      rcases result with ⟨f | u, m'⟩
      · exact .ends left right
      · exact .goes rest left right
    cases l with
    | const i v => exact absurd rfl (hl i v)
    | label t => exact (ih rest.2.1 rest.2.2).label t t
    | jump kind t =>
      have left : Turns code ls _ (.jump kind t :: xs) m _ := .jump kind t
      have right : Turns code' ls' _ (.jump kind t :: ys) m _ := .jump kind t
      generalize outcome kind.taken m = result at left right
      rcases result with ⟨f | b, m'⟩
      · exact .ends left right
      · refine .goes ?_ left right
        cases b with
        | false => exact rest
        | true => exact ⟨hfolds.after t, Line.after_suffix t ls, Line.after_suffix t ls'⟩
    | name use i n => exact operation rfl (by cases use <;> nofun)
    | plain op arg hop => exact operation rfl fun he => by simp [he, Opcode.isPlain] at hop
  | @fold seg v xs ys i hseg folds ih =>
    have hconst : Line.Pushes Value.Anonymous [.const i v] [v] :=
      Line.Pushes.nil.const i (hseg.isKey v (by simp)) (hseg.pushed_anonymous v (by simp))
    have left : Leads code ls _ (seg ++ xs) m xs _ :=
      hseg.leads (fun j w hw => hls.loads j w (hs.subset (by simp [hw]))) xs
    have right : Leads code' ls' _ ([Line.const i v] ++ ys) m ys _ :=
      hconst.leads (fun j w hw => hls'.loads j w (hs'.subset (by simp_all))) ys
    refine .goes ⟨folds, (List.suffix_append seg xs).trans hs, (List.suffix_cons _ ys).trans hs'⟩
      (.of_leads hls.toLists hs (hseg.totalWidth_pos (by simp)) left)
      (.of_leads hls'.toLists hs' (hconst.totalWidth_pos (by simp)) right)

end

/-! ### Folded trees -/

namespace Tree

/-- Constants of a tree that are equal and of one class are the same value, at every depth. -/
def Coherent (t : Tree) : Prop :=
  ∀ v ∈ t.constants, ∀ w ∈ t.constants, Value.sameConstant v w = true → v = w

theorem Coherent.listsExactly {t : Tree} {code : Code} {ls : List Line} {p : Pool}
    (ht : t.Coherent) (hd : t.draft {} = some (ls, p)) (hls : code.Lists ls p)
    (hanon : ∀ i v, .const i v ∈ ls → v.Anonymous) : code.ListsExactly ls p := by
  have grows : Pool.Grows (· ∈ t.constants) {} ls p := t.draft_keeps (fun v hv => hv) {} ls p hd
  refine { hls with loads := fun i v hv => ?_, anonymous := fun v hv => ?_ }
  · rw [hls.consts]
    exact grows.const_eq (fun v w hv hw => ht v hv w hw) hv
  · rw [hls.consts] at hv
    obtain hv | ⟨i, hi⟩ := grows.loaded v hv
    · cases hv
    · exact hanon i v hi

/-- The folded tree compiles, and from any machine a run of one of the two programs ends exactly if
a run of the other does, in the same way. -/
theorem Ordinary.fold_runs {t t' : Tree} {code : Code} (hord : t.Ordinary) (hfold : t.fold = .ok t')
    (hcode : t.compile = .ok code) (hcoherent : t.Coherent) (hcoherent' : t'.Coherent)
    (hanon : t.FoldsAnonymously) :
    ∃ code', t'.compile = .ok code' ∧ ∀ (m : Machine) (r : Except Fault Unit) (m' : Machine),
      (m.Halts code r m' → ∃ pc, m.Halts code' r (m'.at pc)) ∧
      (m.Halts code' r m' → ∃ pc, m.Halts code r (m'.at pc)) := by
  obtain ⟨ls, p, hd, hls⟩ := compile_eq_ok.1 hcode
  obtain ⟨ls', p', code', hd', hls', alike, folds⟩ :=
    hord.fold_lists (A := Value.Anonymous) hfold hanon hd hls
  refine ⟨code', compile_eq_ok.2 ⟨ls', p', hd', hls'⟩, fun m r m' => ?_⟩
  have exact := hcoherent.listsExactly hd hls fun i v hv => folds.anonymous (.inl hv)
  have exact' := hcoherent'.listsExactly hd' hls' fun i v hv => folds.anonymous (.inr hv)
  have names : code.names = code'.names := by rw [hls.names, alike.names, hls'.names]
  have step := fun xs ys m (h : Together ls ls' xs ys) => h.moves exact exact' names folds m
  have start : Together ls ls' ls ls' := ⟨folds, List.suffix_rfl, List.suffix_rfl⟩
  constructor
  · intro h
    exact h.transfer exact exact' (Moves.exists_run step start)
  · intro h
    exact h.transfer exact' exact (Moves.exists_run (fun ys xs m h => (step xs ys m h).swap) start)

/-- Folding keeps what a program does. If a tree that is read, with or without index nodes, is
folded and compiles, then the folded tree compiles; and from any machine, a run of one of the two
programs ends exactly if a run of the other does, with the same result, stack, variables and world.

The table holds one of two equal constants, so these have to be the same value in both trees. The
machine makes a new object each time it computes a NaN, where a constant is one object; that the two
are not told apart is assumed by asking that no part of the tree is folded to such a value. -/
theorem fold_preserves_runs {mode : Mode} {text : String} {t₀ t t' : Tree} {code : Code}
    (hread : read mode text = .ok t₀) (ht : t = t₀ ∨ t = t₀.wrapIndices) (hfold : t.fold = .ok t')
    (hcode : t.compile = .ok code) (hcoherent : t.Coherent) (hcoherent' : t'.Coherent)
    (hanon : t.FoldsAnonymously) :
    ∃ code', t'.compile = .ok code' ∧ ∀ (m : Machine) (r : Except Fault Unit) (m' : Machine),
      (m.Halts code r m' → ∃ pc, m.Halts code' r (m'.at pc)) ∧
      (m.Halts code' r m' → ∃ pc, m.Halts code r (m'.at pc)) := by
  have hord : t.Ordinary := by
    rcases ht with rfl | rfl
    · exact read_ordinary hread
    · exact (read_ordinary hread).wrapIndices
  exact hord.fold_runs hfold hcode hcoherent hcoherent' hanon

/-! Literals satisfy the conditions. -/

theorem coherent_of_literals {t : Tree} (h : ∀ v ∈ t.constants, IsLiteral v) : t.Coherent :=
  fun v hv w hw same => (h v hv).eq_of_sameConstant (h w hw) same

/-- Whether a tree becomes a literal, if folding makes a constant of it. -/
def foldsToLiteral (t : Tree) : Bool :=
  match t.foldNode with
  | .ok (.constant (some v)) => decide (IsLiteral v)
  | _ => true

theorem foldsAnonymously_of_literals {t : Tree} (h : t.foldable.all foldsToLiteral = true) :
    t.FoldsAnonymously := by
  intro s hs v hv
  have hs := List.all_eq_true.1 h s hs
  rw [foldsToLiteral, hv] at hs
  exact (of_decide_eq_true hs).anonymous

/-- Numbers and texts, before a loop and in it. -/
def halving : String := "n = 2 * 3\nwhile n:\n    n -= 1 + 1\n    'ab' * n\n    'c' * 2"

theorem fold_preserves_runs_halving :
    ∃ t t' code, read .program halving = .ok t ∧ t.fold = .ok t' ∧ t.compile = .ok code ∧
      t.Coherent ∧ t'.Coherent ∧ t.FoldsAnonymously ∧
        ∃ code' m', t'.compile = .ok code' ∧ ({} : Machine).Halts code' (.ok ()) m' := by
  obtain ⟨t, hread, t', hfold, code, hcode, h⟩ :
      ∃ t, read .program halving = .ok t ∧ ∃ t', t.fold = .ok t' ∧ ∃ code, t.compile = .ok code ∧
        ((∀ v ∈ t.constants, IsLiteral v) ∧ (∀ v ∈ t'.constants, IsLiteral v) ∧
          t.foldable.all foldsToLiteral = true ∧
          (({} : Machine).perform (runWithin 100 code)).1.toBool = true) := by
    decide +kernel
  obtain ⟨hliterals, hliterals', hfoldable, hrun⟩ := h
  have hcoherent := coherent_of_literals hliterals
  have hcoherent' := coherent_of_literals hliterals'
  have hanon := foldsAnonymously_of_literals hfoldable
  obtain ⟨code', hcode', hruns⟩ :=
    fold_preserves_runs hread (.inl rfl) hfold hcode hcoherent hcoherent' hanon
  obtain ⟨u, hu, -⟩ := exists_ok_and (P := fun _ => True) hrun fun _ _ => trivial
  have halts : ({} : Machine).Halts code (.ok ()) (({} : Machine).perform (runWithin 100 code)).2 :=
    ⟨nofun, 100, Prod.ext hu rfl⟩
  obtain ⟨pc, halts'⟩ := (hruns {} (.ok ()) _).1 halts
  exact ⟨t, t', code, hread, hfold, hcode, hcoherent, hcoherent', hanon, code', _, hcode', halts'⟩

end Tree

end Stackwise
