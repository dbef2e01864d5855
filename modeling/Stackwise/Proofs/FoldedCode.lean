import Stackwise.Proofs.Folding
import Stackwise.Proofs.Relocation

/-!
# Folded programs compile

The listing of a folded tree differs from the one before in straight-line code only, which has
become constants (`Line.Folds`). Folding can make the table of constants longer and the load of a
later constant wider, but not before a label whose place fits into a byte: there are no more
constants than places. In a program that compiles every label has such a place, since there is a
jump to each. So the labels come no later than before (`Line.Folds.label_le`), and the folded tree
compiles (`Tree.fold_compiles`).
-/
namespace Stackwise

/-! ### Places of labels -/

namespace Line

variable {A : Value → Prop}

section
variable {ls : List Line} {s : List Value} (h : Pushes A ls s)
include h

/-- Straight-line code has neither jumps nor labels. -/
theorem Pushes.ordinary : ∀ l ∈ ls, l.operation?.isSome = true := by
  induction h with
  | nil => simp
  | const i _ _ _ ih => exact List.forall_mem_append.2 ⟨ih, by simp [operation?]⟩
  | binary _ _ _ ih => exact List.forall_mem_append.2 ⟨ih, by simp [operation?]⟩
  | tuple _ ih => exact List.forall_mem_append.2 ⟨ih, by simp [operation?]⟩

theorem Pushes.labels_eq_nil : labels ls = [] := by
  refine List.filterMap_eq_nil_iff.2 fun l hl => ?_
  have := h.ordinary l hl
  cases l with
  | label m => cases this
  | _ => rfl

theorem Pushes.totalWidth_pos (hs : s ≠ []) : 0 < totalWidth ls := by
  have last : ∀ (xs : List Line) {l : Line} {op : Opcode} {arg : Nat},
      l.operation? = some (op, arg) → 0 < totalWidth (xs ++ [l]) := by
    intro xs l op arg hop
    simp [width_of_operation hop]
  cases h with
  | nil => exact absurd rfl hs
  | const i => exact last _ rfl
  | binary => exact last _ rfl
  | tuple => exact last _ rfl

end

theorem width_const {i : Nat} (h : i < 256) (v : Value) : (Line.const i v).width = 1 := by
  rw [width_of_operation rfl, splitOperand_of_lt h]
  rfl

section
variable {ls ms : List Line} (h : Folds A ls ms)
include h

theorem Folds.labels_eq : labels ms = labels ls := by
  induction h with
  | nil => rfl
  | @keep l ls ms _ _ ih =>
    rw [← List.singleton_append, labels_append, ih, ← labels_append, List.singleton_append]
  | fold i hseg _ ih =>
    rw [labels_append, hseg.labels_eq_nil, ← ih]
    rfl

theorem Folds.mem_of_jump {kind : JumpKind} {m : Marker} (hm : .jump kind m ∈ ms) :
    .jump kind m ∈ ls := by
  induction h with
  | nil => exact hm
  | keep _ _ ih => exact List.mem_cons.2 ((List.mem_cons.1 hm).imp_right ih)
  | fold i hseg _ ih => exact List.mem_append_right _ (ih (by simpa using hm))

/-- A label whose place fits into a byte comes no later than before. A constant takes one place as
long as there are few of them, and the code that it replaces takes at least one. -/
theorem Folds.label_le {start start' n count k : Nat} {m : Marker} (hn : n < 256)
    (hm : (labelsFrom start ls).lookup m = some n) (hstart : start' ≤ start)
    (hcount : count ≤ start) (hnumbered : Numbered count ms k) :
    ∃ n' ≤ n, (labelsFrom start' ms).lookup m = some n' := by
  induction h generalizing start start' count with
  | nil => cases hm
  | @keep l ls ms hl _ ih =>
    cases l with
    | const i v => exact absurd rfl (hl i v)
    | label t =>
      simp only [labelsFrom, List.lookup_cons] at hm ⊢
      split at hm
      · cases hm
        exact ⟨start', hstart, rfl⟩
      · exact ih hm hstart hcount hnumbered
    | _ => exact ih hm (by omega) (by omega) hnumbered
  | @fold seg v ls ms i hseg _ ih =>
    obtain ⟨_, _, -, -, hplace⟩ := lookup_labelsFrom hm
    have hpos := hseg.totalWidth_pos (by simp)
    rw [labelsFrom_append, labelsFrom_eq_nil hseg.labels_eq_nil, List.nil_append] at hm
    obtain ⟨hi, hnumbered⟩ := hnumbered
    have hwidth : (Line.const i v).width = 1 := width_const (by omega) v
    exact ih hm (by omega) (by omega) hnumbered

/-- The folded listing has bytes if the listing has. -/
theorem Folds.exists_encodes {k : Nat} (hnumbered : Numbered 0 ms k)
    (hls : ∃ bytes, Encodes ls bytes) : ∃ bytes, Encodes ms bytes := by
  rw [Line.exists_encodes] at hls ⊢
  intro kind m hm
  obtain ⟨n, hn, hlookup⟩ := hls kind m (h.mem_of_jump hm)
  obtain ⟨n', hle, hlookup'⟩ := h.label_le hn hlookup (Nat.le_refl 0) (Nat.le_refl 0) hnumbered
  exact ⟨n', by omega, hlookup'⟩

end

/-- If there is a jump to every label and the listing has bytes, labels have places that fit into a
byte. -/
theorem label_lt {ls : List Line} (hmatched : Matched ls) (hls : ∃ bytes, Encodes ls bytes)
    {m : Marker} {n : Nat} (hm : (labelsFrom 0 ls).lookup m = some n) : n < 256 := by
  obtain ⟨pre, post, hls', -, -⟩ := lookup_labelsFrom hm
  obtain ⟨kind, hjump⟩ := (hmatched m).1 (by simp [hls', labels])
  obtain ⟨k, hk, hlookup⟩ := Line.exists_encodes.1 hls kind m hjump
  cases hm.symm.trans hlookup
  exact hk

end Line

/-! ### Folded trees -/

namespace Tree

theorem foldNode_eq_ok {t t' : Tree} (h : t.fold = .ok t') : t.foldNode = .ok t' := by
  unfold fold at h
  split at h
  · exact h
  · cases h

/-- The folded tree has a listing, which is the folded one and the listing of a program. -/
theorem Ordinary.fold_lists {A : Value → Prop} {t t' : Tree} {code : Code} {ls : List Line}
    {p : Pool} (hord : t.Ordinary) (hfold : t.fold = .ok t') (hA : t.FoldsInto A)
    (hd : t.draft {} = some (ls, p)) (hls : code.Lists ls p) :
    ∃ ls' p', ∃ code' : Code, t'.draft {} = some (ls', p') ∧ code'.Lists ls' p' ∧ p.Alike p' ∧
      Line.Folds A ls ls' := by
  obtain ⟨ls', p', hd', alike, folds⟩ :=
    (hord.foldsTo t' (foldNode_eq_ok hfold) hA).draft {} ls p hd {} (.refl _)
  have grows := t'.draft_keeps (P := fun _ => True) (by simp) {} ls' p' hd'
  obtain ⟨bytes, hbytes⟩ := folds.exists_encodes grows.numbered ⟨_, hls.encodes⟩
  refine ⟨ls', p', ⟨p'.names, p'.consts, bytes.toArray⟩, hd', ?_, alike, folds⟩
  exact ⟨rfl, rfl, by simpa using hbytes, folds.labels_eq ▸ hls.labels⟩

/-- The markers that have a label once a tree is emitted, with their places. -/
def labels (t : Tree) : List (Marker × Nat) := (outcome t.emit {}).2.labels

theorem labels_eq {t : Tree} {ls : List Line} {p : Pool} (hd : t.draft {} = some (ls, p))
    (hlabels : (Line.labels ls).Nodup) : t.labels = Line.labelsFrom 0 ls := by
  have hemit : outcome t.emit {} = (.ok (), Assembler.extend {} ls p) :=
    (t.emit_follows _ _).2 ⟨ls, p, hd, ⟨hlabels, by simp⟩, rfl⟩
  simp [labels, hemit, Assembler.extend]

/-- Folding keeps a program that compiles compilable. If a tree that is read, with or without index
nodes, compiles and is folded, then the folded tree compiles; the names are the same, and so are the
markers that have labels, each at a place no later than before. -/
theorem fold_compiles {mode : Mode} {text : String} {t₀ t t' : Tree} {code : Code}
    (hread : read mode text = .ok t₀) (ht : t = t₀ ∨ t = t₀.wrapIndices)
    (hcode : t.compile = .ok code) (hfold : t.fold = .ok t') :
    ∃ code', t'.compile = .ok code' ∧ code'.names = code.names ∧
      t'.labels.map (·.1) = t.labels.map (·.1) ∧
      ∀ m n, t.labels.lookup m = some n → ∃ n' ≤ n, t'.labels.lookup m = some n' := by
  have hord : t.Ordinary := by
    rcases ht with rfl | rfl
    · exact read_ordinary hread
    · exact (read_ordinary hread).wrapIndices
  obtain ⟨ls, p, hd, hls⟩ := compile_eq_ok.1 hcode
  obtain ⟨ls', p', code', hd', hls', alike, folds⟩ :=
    hord.fold_lists (A := fun _ => True) hfold (by simp [FoldsInto]) hd hls
  refine ⟨code', compile_eq_ok.2 ⟨ls', p', hd', hls'⟩, ?_, ?_, ?_⟩
  · rw [hls'.names, hls.names, alike.names]
  · rw [labels_eq hd hls.labels, labels_eq hd' hls'.labels, Line.map_fst_labelsFrom,
      Line.map_fst_labelsFrom, folds.labels_eq]
  · intro m n hm
    rw [labels_eq hd hls.labels] at hm
    rw [labels_eq hd' hls'.labels]
    have grows := t'.draft_keeps (P := fun _ => True) (by simp) {} ls' p' hd'
    have hn := Line.label_lt (draft_matched hd) ⟨_, hls.encodes⟩ hm
    exact folds.label_le hn hm (Nat.le_refl 0) (Nat.le_refl 0) grows.numbered

/-- A loop whose body becomes shorter. -/
def shortened : String := "n = 2 * 3\nwhile n:\n    n -= 1 + 1\n    (1, 'ab' * 2)"

theorem fold_compiles_shortened :
    ∃ t t' code, read .program shortened = .ok t ∧ t.compile = .ok code ∧ t.fold = .ok t' ∧
      t.labels = [(.fresh 0, 4), (.fresh 1, 20)] ∧
        ∃ code' n', t'.compile = .ok code' ∧ code'.names = code.names ∧ n' ≤ 20 ∧
          t'.labels.lookup (.fresh 1) = some n' := by
  obtain ⟨t, hread, t', hfold, code, hcode, hlabels⟩ :
      ∃ t, read .program shortened = .ok t ∧ ∃ t', t.fold = .ok t' ∧ ∃ code, t.compile = .ok code ∧
        t.labels = [(.fresh 0, 4), (.fresh 1, 20)] := by
    decide +kernel
  obtain ⟨code', hcode', hnames, -, hle⟩ := fold_compiles hread (.inl rfl) hcode hfold
  obtain ⟨n', hn', hlookup⟩ := hle (.fresh 1) 20 (by rw [hlabels]; rfl)
  exact ⟨t, t', code, hread, hcode, hfold, hlabels, code', n', hcode', hnames, hn', hlookup⟩

end Tree
end Stackwise
