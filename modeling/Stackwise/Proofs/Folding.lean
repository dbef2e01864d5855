import Stackwise.Fold
import Stackwise.Proofs.Keys
import Stackwise.Proofs.Loop
import Stackwise.Proofs.Shape
import Stackwise.Proofs.Tables

/-!
# What folding does to a listing

Folding a tree changes its listing in one way only: straight-line code that pushes a value which is
known beforehand becomes the load of a constant. `Line.Folds` relates the two listings; labels,
jumps, names and everything else stay, in their order. `Tree.Ordinary.foldsTo` says this of trees
that are read, and that folding keeps a tree listable.

What is asked of the values that folding computes is a parameter `A` of all this: nothing to compile
the folded tree, and to run it that they are anonymous.
-/
namespace Stackwise

/-! ### Straight-line code -/

namespace Line

/-- Lines that push values which are known beforehand, the last of them on top. Constants and
results of operations satisfy `A`. -/
inductive Pushes (A : Value → Prop) : List Line → List Value → Prop
  | nil : Pushes A [] []
  | const {ls : List Line} {s : List Value} {v : Value} (i : Nat) (h : Pushes A ls s)
    (hkey : v.IsKey) (hv : A v) : Pushes A (ls ++ [.const i v]) (v :: s)
  | binary {ls : List Line} {s : List Value} {a b c : Value} {op : BinaryOp}
    (h : Pushes A ls (b :: a :: s)) (hop : op.apply a b = .ok c) (hc : A c) :
    Pushes A (ls ++ [.plain (.binary op) 0 rfl]) (c :: s)
  | tuple {ls : List Line} {s vs : List Value} (h : Pushes A ls (vs.reverse ++ s)) :
    Pushes A (ls ++ [.plain .buildTuple vs.length rfl]) (.tuple vs :: s)

variable {A : Value → Prop}

theorem Pushes.append {ls ms : List Line} {s r : List Value} (h : Pushes A ls s)
    (h' : Pushes A ms r) : Pushes A (ls ++ ms) (r ++ s) := by
  induction h' with
  | nil => simpa using h
  | const i _ hkey hv ih =>
    rw [← List.append_assoc]
    exact ih.const i hkey hv
  | binary _ hop hc ih =>
    rw [← List.append_assoc]
    exact ih.binary hop hc
  | tuple _ ih =>
    rw [← List.append_assoc]
    rw [List.append_assoc] at ih
    exact ih.tuple

/-- What is pushed can be a constant. -/
theorem Pushes.isKey {ls : List Line} {s : List Value} (h : Pushes A ls s) : ∀ v ∈ s, v.IsKey := by
  induction h with
  | nil => simp
  | const i _ hkey _ ih => exact List.forall_mem_cons.2 ⟨hkey, ih⟩
  | binary _ hop _ ih =>
    rw [List.forall_mem_cons, List.forall_mem_cons] at ih
    obtain ⟨hb, ha, hs⟩ := ih
    exact List.forall_mem_cons.2 ⟨BinaryOp.apply_isKey ha hb hop, hs⟩
  | tuple _ ih =>
    simp only [List.forall_mem_append, List.mem_reverse] at ih
    exact List.forall_mem_cons.2 ⟨Value.isKey_tuple.2 ih.1, ih.2⟩

/-- A listing, and the same with straight-line code replaced by constants. -/
inductive Folds (A : Value → Prop) : List Line → List Line → Prop
  | nil : Folds A [] []
  | keep {l : Line} {ls ms : List Line} (hl : ∀ i v, l ≠ .const i v) (h : Folds A ls ms) :
    Folds A (l :: ls) (l :: ms)
  | fold {seg : List Line} {v : Value} {ls ms : List Line} (i : Nat) (hseg : Pushes A seg [v])
    (h : Folds A ls ms) : Folds A (seg ++ ls) (.const i v :: ms)

theorem Folds.append {ls ms ls' ms' : List Line} (h : Folds A ls ms) (h' : Folds A ls' ms') :
    Folds A (ls ++ ls') (ms ++ ms') := by
  induction h with
  | nil => exact h'
  | keep hl _ ih => exact ih.keep hl
  | fold i hseg _ ih =>
    rw [List.append_assoc]
    exact ih.fold i hseg

/-- Lines without constants stay as they are. -/
theorem Folds.refl {ls : List Line} (h : ∀ l ∈ ls, ∀ i v, l ≠ .const i v) : Folds A ls ls := by
  induction ls with
  | nil => exact .nil
  | cons l ls ih =>
    rw [List.forall_mem_cons] at h
    exact (ih h.2).keep h.1

end Line

/-! ### Drafts -/

/-- Pools that differ in their constants only. -/
structure Pool.Alike (p q : Pool) : Prop where
  names : p.names = q.names
  made : p.made = q.made

theorem Pool.Alike.refl (p : Pool) : p.Alike p := ⟨rfl, rfl⟩

theorem Pool.Alike.trans {p q r : Pool} (h : p.Alike q) (h' : q.Alike r) : p.Alike r :=
  ⟨h.names.trans h'.names, h.made.trans h'.made⟩

namespace Draft

/-- Where a draft succeeds, another one does with other constants in the pool, and lists the same
with straight-line code replaced by constants. -/
def FoldsTo (A : Value → Prop) (d e : Draft (List Line)) : Prop :=
  ∀ p ls p', d p = some (ls, p') → ∀ q, p.Alike q →
    ∃ ms q', e q = some (ms, q') ∧ p'.Alike q' ∧ Line.Folds A ls ms

/-- Where a draft succeeds, it lists code that pushes a value. -/
def Computes (A : Value → Prop) (d : Draft (List Line)) (v : Value) : Prop :=
  ∀ p ls p', d p = some (ls, p') → Line.Pushes A ls [v] ∧ p.Alike p'

variable {A : Value → Prop}

namespace FoldsTo

variable {d e f d' e' f' : Draft (List Line)}

theorem failure : FoldsTo A failure d := nofun

theorem lines {ls : List Line} (h : ∀ l ∈ ls, ∀ i v, l ≠ .const i v) :
    FoldsTo A (Draft.lines ls) (Draft.lines ls) := by
  intro p ms p' hd q alike
  obtain ⟨rfl, rfl⟩ := lines_eq_some.1 hd
  exact ⟨_, q, rfl, alike, .refl h⟩

theorem join (hd : FoldsTo A d d') (he : FoldsTo A e e') : FoldsTo A (d ++ e) (d' ++ e') := by
  intro p ls p' h q alike
  obtain ⟨ms, ns, r, hm, hn, rfl⟩ := join_eq_some.1 h
  obtain ⟨ms', r', hm', alike', fm⟩ := hd p ms r hm q alike
  obtain ⟨ns', q', hn', alike'', fn⟩ := he r ns p' hn r' alike'
  exact ⟨ms' ++ ns', q', join_eq_some.2 ⟨ms', ns', r', hm', hn', rfl⟩, alike'', fm.append fn⟩

theorem bind_fresh {g g' : Marker → Draft (List Line)} (h : ∀ m, FoldsTo A (g m) (g' m)) :
    FoldsTo A (freshMarker >>= g) (freshMarker >>= g') := by
  intro p ls p' hd q alike
  obtain ⟨m, r, hm, hg⟩ := bind_eq_some.1 hd
  cases hm
  obtain ⟨ms, q', hq, alike', folds⟩ :=
    h _ _ _ _ hg { q with made := q.made + 1 } ⟨alike.names, by simp [alike.made]⟩
  refine ⟨ms, q', bind_eq_some.2 ⟨_, _, rfl, ?_⟩, alike', folds⟩
  rw [alike.made] at hq
  exact hq

theorem bind_addName {n : Name} {g g' : Nat → Draft (List Line)} (h : ∀ i, FoldsTo A (g i) (g' i)) :
    FoldsTo A (addName n >>= g) (addName n >>= g') := by
  intro p ls p' hd q alike
  obtain ⟨i, r, hi, hg⟩ := bind_eq_some.1 hd
  obtain ⟨r', hi', alike'⟩ : ∃ r', addName n q = some (i, r') ∧ r.Alike r' := by
    unfold addName at hi ⊢
    rw [← alike.names]
    split at hi
    · cases hi
    · cases hi
      exact ⟨q, rfl, alike⟩
    · cases hi
      exact ⟨_, rfl, rfl, alike.made⟩
  obtain ⟨ms, q', hq, alike'', folds⟩ := h i _ _ _ hg r' alike'
  exact ⟨ms, q', bind_eq_some.2 ⟨i, r', hi', hq⟩, alike'', folds⟩

theorem useName (use : NameUse) (n : Name) :
    FoldsTo A (Draft.useName use n) (Draft.useName use n) :=
  bind_addName fun _ => lines (by simp)

theorem counted (op : Opcode) (isPlain : op.isPlain = true) (n? : Option Nat) :
    FoldsTo A (Draft.counted op isPlain n?) (Draft.counted op isPlain n?) := by
  cases n? with
  | none => exact failure
  | some n => exact lines (by simp)

theorem update (n? : Option Name) (hd : FoldsTo A d d') (he : FoldsTo A e e') :
    FoldsTo A (Draft.update n? d e) (Draft.update n? d' e') := by
  cases n? with
  | none => exact failure
  | some n =>
    exact bind_addName fun _ => (((lines (by simp)).join hd).join he).join (lines (by simp))

theorem conditional (hd : FoldsTo A d d') (he : FoldsTo A e e') (hf : FoldsTo A f f') :
    FoldsTo A (Draft.conditional d e f) (Draft.conditional d' e' f') := by
  refine bind_fresh fun otherwise => bind_fresh fun done => ?_
  exact (((((hd.join (lines (by simp))).join he).join (lines (by simp))).join hf).join
    (lines (by simp)))

theorem whileLoop (hd : FoldsTo A d d') (he : FoldsTo A e e') :
    FoldsTo A (Draft.whileLoop d e) (Draft.whileLoop d' e') := by
  refine bind_fresh fun again => bind_fresh fun done => ?_
  exact ((((lines (by simp)).join hd).join (lines (by simp))).join he).join (lines (by simp))

theorem forLoop (hd : FoldsTo A d d') (he : FoldsTo A e e') (hf : FoldsTo A f f') :
    FoldsTo A (Draft.forLoop d e f) (Draft.forLoop d' e' f') := by
  refine bind_fresh fun again => bind_fresh fun done => ?_
  exact (((hd.join (lines (by simp))).join he).join hf).join (lines (by simp))

theorem concat {ds es : List (Draft (List Line))} (h : List.Forall₂ (FoldsTo A) ds es) :
    FoldsTo A (Draft.concat ds) (Draft.concat es) := by
  induction h with
  | nil => exact lines (by simp)
  | cons hd _ ih => exact hd.join ih

theorem targets {ds es : List (Draft (List Line))} (h : List.Forall₂ (FoldsTo A) ds es) :
    FoldsTo A (Draft.targets ds) (Draft.targets es) := by
  induction h with
  | nil => exact lines (by simp)
  | cons hd hrest ih =>
    cases hrest with
    | nil => exact hd
    | cons _ _ => exact ((lines (by simp)).join hd).join ih

theorem entries {ks vs ks' vs' : List (Draft (List Line))} (hk : List.Forall₂ (FoldsTo A) ks ks')
    (hv : List.Forall₂ (FoldsTo A) vs vs') :
    FoldsTo A (Draft.entries ks vs) (Draft.entries ks' vs') := by
  induction hk generalizing vs vs' with
  | nil => exact lines (by simp)
  | cons hk _ ih =>
    cases hv with
    | nil => exact failure
    | cons hv hrest => exact (hv.join hk).join (ih hrest)

end FoldsTo

/-- The value itself in place of code that pushes it. -/
theorem Computes.foldsTo {d : Draft (List Line)} {v : Value} (h : Computes A d v) :
    FoldsTo A d (Tree.const v).draft := by
  intro p ls p' hd q alike
  obtain ⟨pushes, alike'⟩ := h p ls p' hd
  have hkey := Value.checkKey_eq_ok.2 (pushes.isKey v (by simp))
  obtain ⟨i, q', hi, hq'⟩ : ∃ i q', addConst v q = some (i, q') ∧ q.Alike q' := by
    unfold addConst
    rw [hkey]
    cases q.consts.toList.findIdx? fun w => Value.sameConstant w v with
    | some i => exact ⟨i, q, rfl, .refl q⟩
    | none => exact ⟨_, _, rfl, rfl, rfl⟩
  refine ⟨[.const i v], q', bind_eq_some.2 ⟨i, q', hi, rfl⟩, ?_, ?_⟩
  · exact ⟨alike'.names.symm.trans (alike.trans hq').names,
      alike'.made.symm.trans (alike.trans hq').made⟩
  · simpa using Line.Folds.nil.fold i pushes

end Draft

/-! ### Trees -/

namespace Tree

mutual
/-- The parts of a tree that folding can make a constant of: operations, tuples and constants. -/
def foldable : Tree → List Tree
  | .constant value => [.constant value]
  | .tuple elts ctx => .tuple elts ctx :: foldable elts
  | .binOp left op right => .binOp left op right :: foldable left ++ foldable op ++ foldable right
  | .list items => foldableIn items
  | .module body | .interactive body => foldable body
  | .expr value | .index value => foldable value
  | .assign targets value => foldable targets ++ foldable value
  | .augAssign target op value => foldable target ++ foldable op ++ foldable value
  | .delete targets => foldable targets
  | .ifStmt test body orelse | .ifExp test body orelse =>
    foldable test ++ foldable body ++ foldable orelse
  | .whileLoop test body _ => foldable test ++ foldable body
  | .forLoop target iter body _ => foldable target ++ foldable iter ++ foldable body
  | .listDisplay elts _ | .setDisplay elts => foldable elts
  | .dictDisplay keys values => foldable keys ++ foldable values
  | .unaryOp op operand => foldable op ++ foldable operand
  | .subscript value slice _ => foldable value ++ foldable slice
  | .call func args _ => foldable func ++ foldable args
  | _ => []
def foldableIn : List Tree → List Tree
  | [] => []
  | t :: ts => foldable t ++ foldableIn ts
end

/-- The constants that folding makes satisfy a predicate. -/
def FoldsInto (A : Value → Prop) (t : Tree) : Prop :=
  ∀ s ∈ t.foldable, ∀ v, s.foldNode = .ok (.const v) → A v

/-- Folding makes no constant with objects that are told apart by more than their value. -/
def FoldsAnonymously (t : Tree) : Prop :=
  ∀ s ∈ t.foldable, ∀ v, s.foldNode = .ok (.const v) → v.Anonymous

/-- A tree and what becomes of it: the listing is folded, constants are the values of what they
stand for, operators are themselves, and what has a name keeps it. -/
structure FoldsTo (A : Value → Prop) (t t' : Tree) : Prop where
  draft : Draft.FoldsTo A t.draft t'.draft
  const : ∀ v, t'.core = .const v → Draft.Computes A t.draft v
  operator : ∀ op, t'.core = .binaryOperator op → t = .binaryOperator op
  identifier : ∀ n, t.identifier? = some n → t'.identifier? = some n
  item : ∀ items, t' ≠ .list items

variable {A : Value → Prop}

/-- Neither a constant nor an operator nor a list, and nothing added to it. -/
def isCompound : Tree → Bool
  | .constant _ | .binaryOperator _ | .list _ | .extended _ _ _ => false
  | _ => true

theorem core_of_isCompound {t : Tree} (h : t.isCompound = true) : t.core = t := by
  cases t <;> first | rfl | cases h

theorem FoldsTo.of_compound {t t' : Tree} (h : Draft.FoldsTo A t.draft t'.draft)
    (hid : t.identifier? = none) (hkind : t'.isCompound = true) : t.FoldsTo A t' where
  draft := h
  const := by
    rw [core_of_isCompound hkind]
    rintro v rfl
    cases hkind
  operator := by
    rw [core_of_isCompound hkind]
    rintro op rfl
    cases hkind
  identifier := fun n hn => by simp [hid] at hn
  item := by
    rintro items rfl
    cases hkind

/-- What becomes a constant. -/
theorem FoldsTo.of_computes {t : Tree} {v : Value} (h : Draft.Computes A t.draft v)
    (hid : t.identifier? = none) : t.FoldsTo A (.const v) where
  draft := h.foldsTo
  const := by
    rintro _ ⟨⟩
    exact h
  operator := nofun
  identifier := fun n hn => by simp [hid] at hn
  item := nofun

/-! #### Lists -/

section
variable {ts ts' : List Tree}

theorem FoldsInto.of_mem {t : Tree} (h : (Tree.list ts).FoldsInto A) (ht : t ∈ ts) :
    t.FoldsInto A := by
  induction ts with
  | nil => cases ht
  | cons s ts ih =>
    simp only [FoldsInto, foldable, foldableIn, List.forall_mem_append] at h ih
    rcases List.mem_cons.1 ht with rfl | ht
    · exact h.1
    · exact ih h.2 ht

/-- Items are folded one by one. -/
theorem forall₂_foldItems {R : Tree → Tree → Prop} (hord : ∀ t ∈ ts, t.Ordinary)
    (h : foldItems ts = .ok ts') (hR : ∀ t ∈ ts, ∀ t', t.foldNode = .ok t' → R t t') :
    List.Forall₂ R ts ts' := by
  induction ts generalizing ts' with
  | nil =>
    cases h
    exact .nil
  | cons t ts ih =>
    rw [List.forall_mem_cons] at hord hR
    rw [foldItems] at h
    · simp only [bind_eq_ok, pure_eq_ok] at h
      obtain ⟨t', ht', us, hus, rfl⟩ := h
      exact .cons (hR.1 t' ht') (ih hord.2 hus hR.2)
    · exact hord.1.ne_list

theorem forall₂_foldsTo (hord : ∀ t ∈ ts, t.Ordinary)
    (ih : ∀ t ∈ ts, ∀ t', t.foldNode = .ok t' → t.FoldsInto A → t.FoldsTo A t')
    (hA : (Tree.list ts).FoldsInto A) (h : foldItems ts = .ok ts') :
    List.Forall₂ (FoldsTo A) ts ts' :=
  forall₂_foldItems hord h fun t ht t' hfold => ih t ht t' hfold (hA.of_mem ht)

theorem draftEach_foldsTo (h : List.Forall₂ (FoldsTo A) ts ts') :
    List.Forall₂ (Draft.FoldsTo A) (draftEach ts) (draftEach ts') := by
  induction h with
  | nil => exact .nil
  | cons h _ ih => exact .cons h.draft ih

theorem concat_foldsTo (h : List.Forall₂ (FoldsTo A) ts ts') (op : Opcode)
    (isPlain : op.isPlain = true) :
    Draft.FoldsTo A (Draft.concat (draftEach ts) ++ Draft.counted op isPlain (some ts.length))
      (Draft.concat (draftEach ts') ++ Draft.counted op isPlain (some ts'.length)) := by
  rw [h.length_eq]
  exact (Draft.FoldsTo.concat (draftEach_foldsTo h)).join (.counted op isPlain _)

theorem draftItems_cons {t : Tree} (h : ∀ items, t ≠ .list items) (ts : List Tree) :
    draftItems (t :: ts) = t.draft ++ draftItems ts := by
  rw [draftItems]
  exact h

theorem draftItems_foldsTo (hord : ∀ t ∈ ts, t.Ordinary) (h : List.Forall₂ (FoldsTo A) ts ts') :
    Draft.FoldsTo A (draftItems ts) (draftItems ts') := by
  induction h with
  | nil => exact .lines (by simp)
  | cons h _ ih =>
    rw [List.forall_mem_cons] at hord
    rw [draftItems_cons hord.1.ne_list, draftItems_cons h.item]
    exact h.draft.join (ih hord.2)

/-- Deleting what has a name. -/
theorem draftDelete_foldsTo (h : List.Forall₂ (FoldsTo A) ts ts') :
    List.Forall₂ (Draft.FoldsTo A) (ts.map draftDelete) (ts'.map draftDelete) := by
  induction h with
  | nil => exact .nil
  | @cons t t' _ _ h _ ih =>
    refine .cons ?_ ih
    unfold draftDelete
    cases hid : t.identifier? with
    | none => exact .failure
    | some n =>
      rw [h.identifier n hid]
      exact .useName _ _

theorem constantValue_eq_ok {x : Option Value} {v : Value} :
    constantValue x = .ok v ↔ x = some v := by
  cases x <;> simp [constantValue]

/-- The code of items that become constants pushes their values. -/
theorem concat_pushes (h : List.Forall₂ (FoldsTo A) ts ts') {vs : List Value}
    (hvs : constantItems ts' = .ok (some vs)) {p p' : Pool} {ls : List Line}
    (hd : Draft.concat (draftEach ts) p = some (ls, p')) :
    Line.Pushes A ls vs.reverse ∧ p.Alike p' ∧ vs.length = ts.length := by
  induction h generalizing vs p ls with
  | nil =>
    cases hvs
    obtain ⟨rfl, rfl⟩ := Draft.lines_eq_some.1 hd
    exact ⟨.nil, .refl _, rfl⟩
  | @cons t t' ts ts' h _ ih =>
    obtain ⟨ms, ns, r, hm, hn, rfl⟩ := Draft.join_eq_some.1 hd
    rw [constantItems] at hvs
    split at hvs
    · next x hcore =>
      simp only [bind_eq_ok, pure_eq_ok] at hvs
      obtain ⟨v, hv, rest, hrest, hcons⟩ := hvs
      obtain ⟨ws, rfl, rfl⟩ := Option.map_eq_some_iff.1 hcons
      obtain rfl := constantValue_eq_ok.1 hv
      obtain ⟨pushes, alike⟩ := h.const v hcore p ms r hm
      obtain ⟨pushes', alike', hlength⟩ := ih hrest hn
      refine ⟨?_, alike.trans alike', by simp [hlength]⟩
      rw [List.reverse_cons]
      exact pushes.append pushes'
    · cases hvs

end

/-! #### Operations, tuples and constants -/

theorem foldBinOp_const (o : BinaryOp) (a b : Value) :
    foldBinOp (.const a) (.binaryOperator o) (.const b) = (o.apply a b).map Tree.const := by
  cases h : o.apply a b <;>
    simp [foldBinOp, Tree.const, Tree.core, constantValue, h, Except.map, bind, Except.bind, pure,
      Except.pure]

theorem foldBinOp_cases {left op right t' : Tree} (h : foldBinOp left op right = .ok t') :
    t' = .binOp left op right ∨ ∃ o a b c, left.core = .const a ∧ right.core = .const b ∧
      op.core = .binaryOperator o ∧ o.apply a b = .ok c ∧ t' = .const c := by
  unfold foldBinOp at h
  split at h
  · cases h
  · next hleft =>
    split at h
    · cases h
    · next hright =>
      split at h
      · cases h
      · next hop =>
        simp only [bind_eq_ok, pure_eq_ok] at h
        obtain ⟨a, ha, b, hb, c, hc, rfl⟩ := h
        rw [constantValue_eq_ok] at ha hb
        subst ha hb
        exact .inr ⟨_, a, b, c, hleft, hright, hop, hc, rfl⟩
      · cases h
        exact .inl rfl
    · cases h
      exact .inl rfl
  · cases h
    exact .inl rfl

theorem FoldsTo.binOp {left op right left' op' right' t' : Tree} (hleft : left.FoldsTo A left')
    (hop : op.FoldsTo A op') (hright : right.FoldsTo A right')
    (h : foldBinOp left' op' right' = .ok t')
    (hA : ∀ v, t' = .const v → A v) : (Tree.binOp left op right).FoldsTo A t' := by
  obtain rfl | ⟨o, a, b, c, ha, hb, ho, hc, rfl⟩ := foldBinOp_cases h
  · exact .of_compound ((hleft.draft.join hright.draft).join hop.draft) rfl rfl
  · refine .of_computes (fun p ls p' hd => ?_) rfl
    obtain rfl := hop.operator o ho
    obtain ⟨_, ns, r, hboth, hn, rfl⟩ := Draft.join_eq_some.1 hd
    obtain ⟨xs, ys, r', hx, hy, rfl⟩ := Draft.join_eq_some.1 hboth
    obtain ⟨rfl, rfl⟩ := Draft.lines_eq_some.1 hn
    obtain ⟨pushes, alike⟩ := hleft.const a ha p xs r' hx
    obtain ⟨pushes', alike'⟩ := hright.const b hb r' ys _ hy
    exact ⟨(pushes.append pushes').binary hc (hA c rfl), alike.trans alike'⟩

theorem foldTuple_cases {elts : List Tree} {ctx t' : Tree}
    (h : foldTuple (.list elts) ctx = .ok t') :
    t' = .tuple (.list elts) ctx ∨ ∃ vs, constantItems elts = .ok (some vs) ∧
      t' = .const (.tuple vs) := by
  simp only [foldTuple, bind_eq_ok] at h
  obtain ⟨items, hitems, h⟩ := h
  split at h <;> cases h
  · exact .inr ⟨_, hitems, rfl⟩
  · exact .inl rfl

theorem FoldsTo.tuple {elts elts' : List Tree} {ctx ctx' t' : Tree}
    (helts : List.Forall₂ (FoldsTo A) elts elts') (h : foldTuple (.list elts') ctx' = .ok t') :
    (Tree.tuple (.list elts) ctx).FoldsTo A t' := by
  obtain rfl | ⟨vs, hvs, rfl⟩ := foldTuple_cases h
  · exact .of_compound (concat_foldsTo helts .buildTuple rfl) rfl rfl
  · refine .of_computes (fun p ls p' hd => ?_) rfl
    obtain ⟨xs, ns, r, hx, hn, rfl⟩ := Draft.join_eq_some.1 hd
    obtain ⟨rfl, rfl⟩ := Draft.lines_eq_some.1 hn
    obtain ⟨pushes, alike, hlength⟩ := concat_pushes helts hvs hx
    rw [← List.append_nil vs.reverse] at pushes
    rw [← hlength]
    exact ⟨pushes.tuple, alike⟩

theorem computes_constant {v : Value} (hA : A v) :
    Draft.Computes A (Tree.constant (some v)).draft v := by
  intro p ls p' hd
  obtain ⟨i, r, hi, hl⟩ := Draft.bind_eq_some.1 hd
  obtain ⟨rfl, rfl⟩ := Draft.lines_eq_some.1 hl
  unfold Draft.addConst at hi
  split at hi
  · cases hi
  · next hkey _ =>
    cases hi
    exact ⟨Line.Pushes.nil.const i (Value.checkKey_eq_ok.1 hkey) hA, .refl _⟩
  · next hkey _ =>
    cases hi
    exact ⟨Line.Pushes.nil.const _ (Value.checkKey_eq_ok.1 hkey) hA, rfl, rfl⟩

/-! #### All trees that are read -/

theorem name_foldsTo (id : Value) {ctx ctx' : Tree} (h : ctx.foldNode = .ok ctx') :
    Draft.FoldsTo A (Tree.name (.leaf id) ctx).draft (Tree.name (.leaf id) ctx').draft := by
  cases ctx with
  | context c =>
    cases h
    cases c with
    | load => exact .useName _ _
    | store => exact .useName _ _
    | del => exact .failure
  | _ => exact .failure

theorem FoldsTo.name (id : Value) {ctx ctx' : Tree} (h : ctx.foldNode = .ok ctx') :
    (Tree.name (.leaf id) ctx).FoldsTo A (.name (.leaf id) ctx') where
  draft := name_foldsTo id h
  const := nofun
  operator := nofun
  identifier := fun _ hn => hn
  item := nofun

theorem FoldsTo.binaryOperator (op : BinaryOp) :
    (Tree.binaryOperator op).FoldsTo A (.binaryOperator op) where
  draft := .lines (by simp)
  const := nofun
  operator := fun _ h => h
  identifier := fun _ hn => hn
  item := nofun

theorem dictDisplay_foldsTo {ks ks' vs vs' : List Tree} (keys : List.Forall₂ (FoldsTo A) ks ks')
    (values : List.Forall₂ (FoldsTo A) vs vs') :
    Draft.FoldsTo A (Tree.dictDisplay (.list ks) (.list vs)).draft
      (Tree.dictDisplay (.list ks') (.list vs')).draft := by
  rw [draft, draft, count?, count?, keys.length_eq]
  refine .join ?_ (.counted _ _ _)
  split
  · exact .lines (by simp)
  · exact .entries (draftEach_foldsTo keys) (draftEach_foldsTo values)

/-- Nothing stays nothing. -/
theorem foldNode_falsy {t t' : Tree} (hc : (t.isPresent && !t.truthy) = true)
    (h : t.foldNode = .ok t') : t' = t := by
  cases t with
  | missing => cases hc
  | leaf v =>
    cases h
    rfl
  | list items =>
    obtain rfl : items = [] := by simpa [isPresent, truthy] using hc
    cases h
    rfl
  | _ => simp [isPresent, truthy] at hc

theorem Ordinary.foldsTo {t : Tree} (h : t.Ordinary) :
    ∀ t', t.foldNode = .ok t' → t.FoldsInto A → t.FoldsTo A t' := by
  induction h with
  | leaf v =>
    rintro t' h -
    cases h
    exact .of_compound .failure rfl rfl
  | module hbody ih =>
    intro t' h hA
    simp only [foldNode, bind_eq_ok, pure_eq_ok] at h
    obtain ⟨_, ⟨body', hfold, rfl⟩, rfl⟩ := h
    have items := forall₂_foldsTo hbody ih hA hfold
    exact .of_compound (.concat (draftEach_foldsTo items)) rfl rfl
  | interactive hbody ih =>
    intro t' h hA
    simp only [foldNode, bind_eq_ok, pure_eq_ok] at h
    obtain ⟨_, ⟨body', hfold, rfl⟩, rfl⟩ := h
    have items := forall₂_foldsTo hbody ih hA hfold
    exact .of_compound (.concat (draftEach_foldsTo items)) rfl rfl
  | expr _ ih =>
    intro t' h hA
    simp only [foldNode, bind_eq_ok, pure_eq_ok] at h
    obtain ⟨value', hvalue, rfl⟩ := h
    exact .of_compound ((ih _ hvalue hA).draft.join (.lines (by simp))) rfl rfl
  | assign htargets _ iht ihv =>
    intro t' h hA
    simp only [foldNode, bind_eq_ok, pure_eq_ok] at h
    obtain ⟨_, ⟨targets', htargets', rfl⟩, value', hvalue', rfl⟩ := h
    simp only [FoldsInto, foldable, List.forall_mem_append] at hA
    have items := forall₂_foldsTo htargets iht hA.1 htargets'
    have hvalue := (ihv _ hvalue' hA.2).draft
    refine .of_compound ?_ rfl rfl
    cases items with
    | nil => exact .failure
    | cons h hrest => exact hvalue.join (.targets (draftEach_foldsTo (.cons h hrest)))
  | augAssign _ _ _ iht iho ihv =>
    intro t' h hA
    simp only [foldNode, bind_eq_ok, pure_eq_ok] at h
    obtain ⟨target', htarget', op', hop', value', hvalue', rfl⟩ := h
    simp only [FoldsInto, foldable, List.forall_mem_append] at hA
    have htarget := iht _ htarget' hA.1.1
    have hupdate : ∀ n?, _ := fun n? =>
      Draft.FoldsTo.update n? (ihv _ hvalue' hA.2).draft (iho _ hop' hA.1.2).draft
    refine .of_compound ?_ rfl rfl
    rw [draft, draft]
    cases hid : Tree.identifier? _ with
    | none => exact .failure
    | some n =>
      rw [htarget.identifier n hid]
      exact hupdate (some n)
  | delete htargets ih =>
    intro t' h hA
    simp only [foldNode, bind_eq_ok, pure_eq_ok] at h
    obtain ⟨_, ⟨targets', htargets', rfl⟩, rfl⟩ := h
    have items := forall₂_foldsTo htargets ih hA htargets'
    exact .of_compound (.concat (draftDelete_foldsTo items)) rfl rfl
  | pass =>
    rintro t' h -
    cases h
    exact .of_compound (.lines (by simp)) rfl rfl
  | ifStmt _ hbody horelse iht ihb iho =>
    intro t' h hA
    simp only [foldNode, bind_eq_ok, pure_eq_ok] at h
    obtain ⟨test', htest', _, ⟨body', hbody', rfl⟩, _, ⟨orelse', horelse', rfl⟩, rfl⟩ := h
    simp only [FoldsInto, foldable, List.forall_mem_append] at hA
    have items := forall₂_foldsTo hbody ihb hA.1.2 hbody'
    have items' := forall₂_foldsTo horelse iho hA.2 horelse'
    exact .of_compound (.conditional (iht _ htest' hA.1.1).draft
      (draftItems_foldsTo hbody items) (draftItems_foldsTo horelse items')) rfl rfl
  | ifExp _ _ _ iht ihb iho =>
    intro t' h hA
    simp only [foldNode, bind_eq_ok, pure_eq_ok] at h
    obtain ⟨test', htest', body', hbody', orelse', horelse', rfl⟩ := h
    simp only [FoldsInto, foldable, List.forall_mem_append] at hA
    exact .of_compound (.conditional (iht _ htest' hA.1.1).draft
      (ihb _ hbody' hA.1.2).draft (iho _ horelse' hA.2).draft) rfl rfl
  | whileLoop orelse _ hbody iht ihb =>
    intro t' h hA
    simp only [foldNode, bind_eq_ok, pure_eq_ok] at h
    obtain ⟨test', htest', _, ⟨body', hbody', rfl⟩, orelse', -, rfl⟩ := h
    simp only [FoldsInto, foldable, List.forall_mem_append] at hA
    have items := forall₂_foldsTo hbody ihb hA.2 hbody'
    exact .of_compound (.whileLoop (iht _ htest' hA.1).draft (draftItems_foldsTo hbody items))
      rfl rfl
  | forLoop orelse _ _ hbody iht ihi ihb =>
    intro t' h hA
    simp only [foldNode, bind_eq_ok, pure_eq_ok] at h
    obtain ⟨target', htarget', iter', hiter', _, ⟨body', hbody', rfl⟩, orelse', horelse', rfl⟩ := h
    simp only [FoldsInto, foldable, List.forall_mem_append] at hA
    have items := forall₂_foldsTo hbody ihb hA.2 hbody'
    have loop := Draft.FoldsTo.forLoop (ihi _ hiter' hA.1.2).draft
      (iht _ htarget' hA.1.1).draft (draftItems_foldsTo hbody items)
    refine .of_compound ?_ rfl rfl
    by_cases hc : (orelse.isPresent && !orelse.truthy) = true
    · obtain rfl := foldNode_falsy hc horelse'
      simp only [draft, if_pos hc]
      exact loop
    · rw [draft, if_neg hc]
      exact .failure
  | name id ctx =>
    intro t' h hA
    simp only [foldNode, bind_eq_ok, pure_eq_ok] at h
    obtain ⟨_, ⟨⟩, ctx', hctx', rfl⟩ := h
    exact .name id hctx'
  | constant v =>
    intro t' h hA
    have hself := hA (.constant (some v)) (by simp [foldable]) v rfl
    cases h
    exact .of_computes (computes_constant hself) rfl
  | tuple ctx helts ih =>
    intro t' h hA
    simp only [foldNode, bind_eq_ok, pure_eq_ok] at h
    obtain ⟨_, ⟨elts', helts', rfl⟩, ctx', -, h⟩ := h
    simp only [FoldsInto, foldable, List.forall_mem_cons] at hA
    exact .tuple (forall₂_foldsTo helts ih hA.2 helts') h
  | listDisplay ctx helts ih =>
    intro t' h hA
    simp only [foldNode, bind_eq_ok, pure_eq_ok] at h
    obtain ⟨_, ⟨elts', helts', rfl⟩, ctx', -, rfl⟩ := h
    have items := forall₂_foldsTo helts ih hA helts'
    exact .of_compound (concat_foldsTo items .buildList rfl) rfl rfl
  | setDisplay helts ih =>
    intro t' h hA
    simp only [foldNode, bind_eq_ok, pure_eq_ok] at h
    obtain ⟨_, ⟨elts', helts', rfl⟩, rfl⟩ := h
    have items := forall₂_foldsTo helts ih hA helts'
    exact .of_compound (concat_foldsTo items .buildSet rfl) rfl rfl
  | dictDisplay hkeys hvalues ihk ihv =>
    intro t' h hA
    simp only [foldNode, bind_eq_ok, pure_eq_ok] at h
    obtain ⟨_, ⟨keys', hkeys', rfl⟩, _, ⟨values', hvalues', rfl⟩, rfl⟩ := h
    simp only [FoldsInto, foldable, List.forall_mem_append] at hA
    have keys := forall₂_foldsTo hkeys ihk hA.1 hkeys'
    have values := forall₂_foldsTo hvalues ihv hA.2 hvalues'
    exact .of_compound (dictDisplay_foldsTo keys values) rfl rfl
  | @binOp left op right _ _ _ ihl iho ihr =>
    intro t' h hA
    have hself := hA (.binOp left op right) (by simp [foldable])
    rw [h] at hself
    simp only [foldNode, bind_eq_ok] at h
    obtain ⟨left', hleft', op', hop', right', hright', h⟩ := h
    simp only [FoldsInto, foldable, List.forall_mem_append, List.forall_mem_cons] at hA
    refine .binOp (ihl _ hleft' hA.1.1.2) (iho _ hop' hA.1.2) (ihr _ hright' hA.2) h ?_
    rintro v rfl
    exact hself v rfl
  | unaryOp _ _ iho ih =>
    intro t' h hA
    simp only [foldNode, bind_eq_ok, pure_eq_ok] at h
    obtain ⟨op', hop', operand', hoperand', rfl⟩ := h
    simp only [FoldsInto, foldable, List.forall_mem_append] at hA
    exact .of_compound ((ih _ hoperand' hA.2).draft.join (iho _ hop' hA.1).draft) rfl rfl
  | subscript ctx _ _ ihv ihs =>
    intro t' h hA
    simp only [foldNode, bind_eq_ok, pure_eq_ok] at h
    obtain ⟨value', hvalue', slice', hslice', ctx', -, rfl⟩ := h
    simp only [FoldsInto, foldable, List.forall_mem_append] at hA
    exact .of_compound ((ihv _ hvalue' hA.1).draft.join (ihs _ hslice' hA.2).draft) rfl rfl
  | index _ ih =>
    intro t' h hA
    simp only [foldNode, bind_eq_ok, pure_eq_ok] at h
    obtain ⟨value', hvalue', rfl⟩ := h
    exact .of_compound ((ih _ hvalue' hA).draft.join (.lines (by simp))) rfl rfl
  | call keywords _ hargs ihf iha =>
    intro t' h hA
    simp only [foldNode, bind_eq_ok, pure_eq_ok] at h
    obtain ⟨func', hfunc', _, ⟨args', hargs', rfl⟩, keywords', -, rfl⟩ := h
    simp only [FoldsInto, foldable, List.forall_mem_append] at hA
    have items := forall₂_foldsTo hargs iha hA.2 hargs'
    refine .of_compound ?_ rfl rfl
    simp only [draft, count?, items.length_eq]
    exact ((ihf _ hfunc' hA.1).draft.join (draftItems_foldsTo hargs items)).join
      (.counted _ _ _)
  | binaryOperator op =>
    rintro t' h -
    cases h
    exact .binaryOperator op
  | unaryOperator op =>
    rintro t' h -
    cases h
    exact .of_compound (.lines (by simp)) rfl rfl
  | other hcls hfields =>
    rintro t' h -
    simp only [foldNode, bind_eq_ok, pure_eq_ok] at h
    obtain ⟨fields', -, rfl⟩ := h
    refine .of_compound ?_ (by simp [identifier?, identifier, hfields, Except.toOption]) rfl
    rw [draft, if_neg (by simpa using hcls)]
    exact .failure

end Tree
end Stackwise
