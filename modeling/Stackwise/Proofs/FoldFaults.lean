import Stackwise.Proofs.FoldedRun
import Stackwise.Proofs.Session
import Stackwise.Proofs.Whole

/-!
# Faults of folding

Folding computes operations on constants wherever they stand in a tree, also where the program would
never come to them. `Tree.constant?` is the value of an expression that is made of constants only,
and `Tree.ConstantFault` says that an operation on such expressions fails somewhere in a tree. A
tree that is read is folded without a fault exactly if no such operation is in it
(`Tree.fold_cases`). For program texts, `Machine.runText_constantFault` says what this means: such
a fault comes before anything runs, and there are no others that folding moves.
-/
namespace Stackwise

namespace Tree

/-! ### Constant expressions -/

mutual
/-- The value of an expression that is made of constants: an operation on constants that does not
fail, or a tuple of constants. -/
def constant? : Tree → Option Value
  | .constant value => value
  | .binOp left (.binaryOperator op) right => do
    let a ← constant? left
    let b ← constant? right
    (op.apply a b).toOption
  | .tuple (.list elts) _ => (constants? elts).map .tuple
  | _ => none
/-- The values of several expressions. -/
def constants? : List Tree → Option (List Value)
  | [] => some []
  | t :: ts => do
    let v ← constant? t
    return v :: (← constants? ts)
end

theorem constant?_binOp (left : Tree) (op : BinaryOp) (right : Tree) :
    constant? (.binOp left (.binaryOperator op) right) =
      (constant? left).bind fun a => (constant? right).bind fun b => (op.apply a b).toOption := rfl

theorem constant?_tuple (elts : List Tree) (ctx : Tree) :
    constant? (.tuple (.list elts) ctx) = (constants? elts).map .tuple := rfl

theorem constants?_cons (t : Tree) (ts : List Tree) :
    constants? (t :: ts) = (constant? t).bind fun v => (constants? ts).map (v :: ·) := by
  rw [constants?]
  cases constant? t <;> cases constants? ts <;> rfl

/-- What folding goes on to from a tree: the fields of a node or the items of a list. It leaves out
a list among the items and what is sealed. -/
def inner : Tree → List Tree
  | .list items => items.filter fun t => !t.isList
  | .sealedIndex _ => []
  | .extended _ note node => [node, note]
  | t => t.allFields.map (·.2)

/-- A tree stands in another one, at any depth. -/
def Within : Tree → Tree → Prop := Relation.ReflTransGen fun s t => s ∈ t.inner

/-- An operation on constants fails, somewhere in a tree. -/
def ConstantFault (t : Tree) (f : Fault) : Prop :=
  ∃ left op right a b, Within (.binOp left (.binaryOperator op) right) t ∧
    left.constant? = some a ∧ right.constant? = some b ∧ op.apply a b = .error f

theorem sizeOf_inner {s t : Tree} (h : s ∈ t.inner) : sizeOf s < sizeOf t := by
  cases t with
  | list items =>
    have hlt := List.sizeOf_lt_of_mem (List.mem_of_mem_filter h)
    simp only [list.sizeOf_spec]
    omega
  | other cls fields =>
    obtain ⟨⟨f, u⟩, hf, rfl⟩ := List.mem_map.1 h
    have hlt : sizeOf (f, u) < sizeOf fields := List.sizeOf_lt_of_mem hf
    simp only [other.sizeOf_spec, Prod.mk.sizeOf_spec] at hlt ⊢
    omega
  | _ => simp [inner, allFields] at h <;> grind

/-- Nothing stands in itself. -/
theorem inner_wellFounded : WellFounded fun s t : Tree => s ∈ t.inner :=
  Subrelation.wf sizeOf_inner (measure sizeOf).wf

theorem Whole.inner {t : Tree} (h : t.Whole) : ∀ s ∈ t.inner, s.Whole := by
  cases t with
  | list items =>
    intro s hs
    rw [Whole, Grammar.wholeItems_iff, Grammar.allWhole_list] at h
    exact Grammar.allWhole_tree.1 (h s (List.mem_of_mem_filter hs))
  | other cls fields =>
    rw [Whole, Grammar.wholeFields_iff, Grammar.allWhole_list] at h
    refine List.forall_mem_map.2 fun f hf => ?_
    exact Grammar.allWhole_tree.1 (Grammar.allWhole_prod.1 (h f hf)).2
  | _ => simp_all [Whole, Tree.inner, allFields]

/-! ### What folding goes through -/

section
variable {ts ts' : List Tree} {fs fs' : List (String × Tree)} {f : Fault}

theorem foldItems_cons {t : Tree} (ht : t.isList = false) (ts : List Tree) :
    foldItems (t :: ts) = do
      let t ← t.foldNode
      return t :: (← foldItems ts) := by
  rw [foldItems]
  rintro items rfl
  cases ht

theorem inner_list_cons {t : Tree} (ht : t.isList = false) (ts : List Tree) :
    (list (t :: ts)).inner = t :: (list ts).inner := by
  simp [inner, ht]

theorem foldItems_ok (h : foldItems ts = .ok ts') :
    ∀ t ∈ (list ts).inner, ∃ t', t.foldNode = .ok t' := by
  induction ts generalizing ts' with
  | nil => simp [inner]
  | cons t ts ih =>
    cases ht : t.isList with
    | true =>
      cases t <;> cases ht
      simp only [foldItems, bind_eq_ok] at h
      obtain ⟨us, hus, -⟩ := h
      simpa [inner, isList] using ih hus
    | false =>
      simp only [foldItems_cons ht, bind_eq_ok] at h
      obtain ⟨t', ht', us, hus, -⟩ := h
      rw [inner_list_cons ht]
      exact List.forall_mem_cons.2 ⟨⟨t', ht'⟩, ih hus⟩

theorem foldItems_error (h : foldItems ts = .error f) :
    ∃ t ∈ (list ts).inner, t.foldNode = .error f := by
  induction ts with
  | nil => cases h
  | cons t ts ih =>
    cases ht : t.isList with
    | true =>
      cases t <;> cases ht
      simp only [foldItems, bind_eq_error] at h
      obtain h | ⟨us, -, h⟩ := h
      · simpa [inner, isList] using ih h
      · cases h
    | false =>
      simp only [foldItems_cons ht, bind_eq_error] at h
      rw [inner_list_cons ht]
      obtain h | ⟨t', -, h | ⟨us, -, h⟩⟩ := h
      · exact ⟨t, List.mem_cons_self, h⟩
      · obtain ⟨s, hs, hf⟩ := ih h
        exact ⟨s, List.mem_cons_of_mem t hs, hf⟩
      · cases h

theorem foldFields_ok (h : foldFields fs = .ok fs') : ∀ e ∈ fs, ∃ t', e.2.foldNode = .ok t' := by
  induction fs generalizing fs' with
  | nil => simp
  | cons e fs ih =>
    simp only [foldFields, bind_eq_ok] at h
    obtain ⟨t', ht', us, hus, -⟩ := h
    exact List.forall_mem_cons.2 ⟨⟨t', ht'⟩, ih hus⟩

theorem foldFields_error (h : foldFields fs = .error f) : ∃ e ∈ fs, e.2.foldNode = .error f := by
  induction fs with
  | nil => cases h
  | cons e fs ih =>
    simp only [foldFields, bind_eq_error] at h
    obtain h | ⟨t', -, h | ⟨us, -, h⟩⟩ := h
    · exact ⟨e, List.mem_cons_self, h⟩
    · obtain ⟨s, hs, hf⟩ := ih h
      exact ⟨s, List.mem_cons_of_mem e hs, hf⟩
    · cases h

end

/-- Where a tree is folded, everything in it is. -/
theorem foldNode_inner {t t' : Tree} (h : t.foldNode = .ok t') :
    ∀ s ∈ t.inner, ∃ s', s.foldNode = .ok s' := by
  cases t with
  | list items =>
    simp only [foldNode, bind_eq_ok] at h
    obtain ⟨items', hitems, -⟩ := h
    exact foldItems_ok hitems
  | other cls fields =>
    simp only [foldNode, bind_eq_ok] at h
    obtain ⟨fields', hfields, -⟩ := h
    exact List.forall_mem_map.2 (foldFields_ok hfields)
  | _ =>
    simp only [foldNode, bind_eq_ok] at h
    simp [inner, allFields] <;> grind

theorem Within.foldNode {s t : Tree} (hs : s.Within t) {t' : Tree} (h : t.foldNode = .ok t') :
    ∃ s', s.foldNode = .ok s' := by
  induction hs generalizing t' with
  | refl => exact ⟨t', h⟩
  | tail _ hin ih =>
    obtain ⟨u', hu'⟩ := foldNode_inner h _ hin
    exact ih hu'

theorem Whole.within {s t : Tree} (ht : t.Whole) (hs : s.Within t) : s.Whole := by
  induction hs with
  | refl => exact ht
  | tail _ hin ih => exact ih (ht.inner _ hin)

/-! ### What becomes of constants -/

/-- Neither missing nor a constant, and nothing added to it. -/
def isPlain : Tree → Bool
  | .missing | .constant _ | .extended _ _ _ => false
  | _ => true

/-- Constant expressions become their values, and nothing else becomes a constant or an operator. -/
def Becomes (t t' : Tree) : Prop :=
  match t.constant? with
  | some v => t' = .const v
  | none => t'.isPlain = true ∧ ∀ op, t' = .binaryOperator op ↔ t = .binaryOperator op

section
variable {t t' left left' op op' right right' : Tree}

theorem Becomes.const (h : t.Becomes t') {v : Value} (hv : t.constant? = some v) :
    t' = .const v := by
  simpa [Becomes, hv] using h

theorem Becomes.plain (h : t.Becomes t') (ht : t.constant? = none) : t'.isPlain = true := by
  have hplain := h
  simp only [Becomes, ht] at hplain
  exact hplain.1

theorem Becomes.ne_missing (h : t.Becomes t') : t' ≠ .missing := by
  rintro rfl
  cases ht : t.constant? with
  | some v => cases h.const ht
  | none => cases h.plain ht

theorem Becomes.ne_extended (h : t.Becomes t') (id note node : Tree) :
    t' ≠ .extended id note node := by
  rintro rfl
  cases ht : t.constant? with
  | some v => cases h.const ht
  | none => cases h.plain ht

theorem Becomes.operator (h : t.Becomes t') (o : BinaryOp) :
    t' = .binaryOperator o ↔ t = .binaryOperator o := by
  unfold Becomes at h
  split at h
  · next v hv =>
    subst h
    constructor
    · nofun
    · rintro rfl
      cases hv
  · exact h.2 o

theorem constant?_binOp_eq_none (op : Tree) (h : left.constant? = none ∨ right.constant? = none) :
    constant? (.binOp left op right) = none := by
  cases op with
  | binaryOperator o => obtain h | h := h <;> simp [constant?_binOp, h]
  | _ => rfl

/-- An operation is carried out if its operands are constants, and stays as it is if not. -/
theorem foldBinOp_becomes (hleft : left.Becomes left') (hop : op.Becomes op')
    (hright : right.Becomes right') :
    (∃ o a b, op = .binaryOperator o ∧ left.constant? = some a ∧ right.constant? = some b ∧
      foldBinOp left' op' right' = (o.apply a b).map Tree.const) ∨
    constant? (.binOp left op right) = none ∧
      foldBinOp left' op' right' = .ok (.binOp left' op' right') := by
  cases hl : left.constant? with
  | none =>
    refine .inr ⟨constant?_binOp_eq_none op (.inl hl), ?_⟩
    have hplain := hleft.plain hl
    cases left' <;> first | rfl | cases hplain
  | some a =>
    obtain rfl := hleft.const hl
    cases hr : right.constant? with
    | none =>
      refine .inr ⟨constant?_binOp_eq_none op (.inr hr), ?_⟩
      have hplain := hright.plain hr
      cases right' <;> first | rfl | cases hplain
    | some b =>
      obtain rfl := hright.const hr
      have hmissing := hop.ne_missing
      have hoperator := hop.operator
      cases op' with
      | missing => exact absurd rfl hmissing
      | extended id note node => exact absurd rfl (hop.ne_extended id note node)
      | binaryOperator o =>
        exact .inl ⟨o, a, b, (hoperator o).1 rfl, rfl, rfl, foldBinOp_const o a b⟩
      | _ =>
        refine .inr ⟨?_, rfl⟩
        cases op with
        | binaryOperator o => cases (hoperator o).2 rfl
        | _ => rfl

/-- The items of a tuple are its values, if all of them are constants. -/
theorem constantItems_foldItems {ts ts' : List Tree} (h : foldItems ts = .ok ts')
    (hitems : ∀ t ∈ (list ts).inner, ∀ t', t.foldNode = .ok t' → t.Becomes t') :
    constantItems ts' = .ok (constants? ts) := by
  induction ts generalizing ts' with
  | nil =>
    cases h
    rfl
  | cons t ts ih =>
    cases ht : t.isList with
    | true =>
      cases t <;> cases ht
      simp only [foldItems, bind_eq_ok, pure_eq_ok] at h
      obtain ⟨us, -, rfl⟩ := h
      rfl
    | false =>
      simp only [foldItems_cons ht, bind_eq_ok, pure_eq_ok] at h
      obtain ⟨t', ht', us, hus, rfl⟩ := h
      rw [inner_list_cons ht, List.forall_mem_cons] at hitems
      have hbecomes := hitems.1 t' ht'
      cases hv : t.constant? with
      | none =>
        have hplain := hbecomes.plain hv
        rw [constants?_cons, hv]
        cases t' <;> first | rfl | cases hplain
      | some v =>
        obtain rfl := hbecomes.const hv
        rw [Tree.const, constantItems, ih hus hitems.2, constants?_cons, hv]
        cases constants? ts <;> rfl

/-- An operation that is carried out, or stays as it is, becomes what it should. -/
theorem Becomes.binOp (hleft : left.Becomes left') (hop : op.Becomes op')
    (hright : right.Becomes right') (h : foldBinOp left' op' right' = .ok t') :
    Becomes (.binOp left op right) t' := by
  obtain ⟨o, a, b, rfl, ha, hb, heq⟩ | ⟨hnone, heq⟩ := foldBinOp_becomes hleft hop hright
  · rw [heq] at h
    cases hc : o.apply a b with
    | error f => simp [hc, Except.map] at h
    | ok c =>
      rw [hc] at h
      cases h
      simp [Becomes, constant?_binOp, ha, hb, hc, Except.toOption]
  · rw [heq] at h
    cases h
    simp [Becomes, hnone, isPlain]

/-- If an operation is not folded, it is one on constants that fails. -/
theorem Becomes.binOp_error (hleft : left.Becomes left') (hop : op.Becomes op')
    (hright : right.Becomes right') {f : Fault} (h : foldBinOp left' op' right' = .error f) :
    ∃ o a b, op = .binaryOperator o ∧ left.constant? = some a ∧ right.constant? = some b ∧
      o.apply a b = .error f := by
  obtain ⟨o, a, b, hbinary, ha, hb, heq⟩ | ⟨-, heq⟩ := foldBinOp_becomes hleft hop hright
  · rw [heq] at h
    cases hc : o.apply a b with
    | error e =>
      rw [hc] at h
      cases h
      exact ⟨o, a, b, hbinary, ha, hb, hc⟩
    | ok c => simp [hc, Except.map] at h
  · rw [heq] at h
    cases h

/-- A tuple of constants becomes a constant, any other one a tuple. -/
theorem Whole.foldTuple_eq {elts elts' ctx : Tree} (ht : (Tree.tuple elts ctx).Whole)
    (h : elts.foldNode = .ok elts')
    (hitems : ∀ s ∈ elts.inner, ∀ s', s.foldNode = .ok s' → s.Becomes s') (ctx' : Tree) :
    foldTuple elts' ctx' =
      .ok ((constant? (.tuple elts ctx)).elim (.tuple elts' ctx') Tree.const) := by
  obtain ⟨hlist, -⟩ : elts.isList = true ∧ _ := by simpa only [Whole] using ht
  cases elts with
  | list items =>
    simp only [foldNode, bind_eq_ok, pure_eq_ok] at h
    obtain ⟨items', hitems', rfl⟩ := h
    have hconstants := constantItems_foldItems hitems' hitems
    cases hvs : constants? items <;>
      simp [foldTuple, constant?_tuple, hconstants, hvs, bind, Except.bind, pure, Except.pure]
  | _ => cases hlist

end

/-- What becomes of a tree that is folded. -/
theorem Whole.becomes {t : Tree} : t.Whole → ∀ t', t.foldNode = .ok t' → t.Becomes t' := by
  induction t using inner_wellFounded.transGen.induction with
  | h t ih =>
    intro ht t' h
    have parts : ∀ s ∈ t.inner, ∀ s', s.foldNode = .ok s' → s.Becomes s' :=
      fun s hs => ih s (.single hs) (ht.inner s hs)
    cases t with
    | missing => simp [Whole] at ht
    | sealedIndex value => simp [Whole] at ht
    | extended id note node => simp [Whole] at ht
    | constant value =>
      cases value with
      | none => simp [Whole] at ht
      | some v =>
        cases h
        rfl
    | binOp left op right =>
      simp only [foldNode, bind_eq_ok] at h
      obtain ⟨left', hleft', op', hop', right', hright', h⟩ := h
      simp only [Tree.inner, allFields, List.map_cons, List.map_nil, List.forall_mem_cons] at parts
      obtain ⟨hleft, hop, hright, -⟩ := parts
      exact (hleft left' hleft').binOp (hop op' hop') (hright right' hright') h
    | tuple elts ctx =>
      simp only [foldNode, bind_eq_ok] at h
      obtain ⟨elts', helts', ctx', -, h⟩ := h
      have helts : elts ∈ (tuple elts ctx).inner := by simp [Tree.inner, allFields]
      -- The items are two steps below the tuple, so the induction is over all that is below.
      have hitems : ∀ s ∈ elts.inner, ∀ s', s.foldNode = .ok s' → s.Becomes s' :=
        fun s hs => ih s (.tail (.single hs) helts) ((ht.inner elts helts).inner s hs)
      rw [ht.foldTuple_eq helts' hitems] at h
      cases h
      cases hc : constant? (tuple elts ctx) <;> simp [Becomes, hc, isPlain]
    | _ =>
      simp only [foldNode, bind_eq_ok, pure_eq_ok] at h
      simp only [Becomes, constant?]
      grind [isPlain]

/-! ### Faults -/

theorem ConstantFault.of_inner {s t : Tree} {f : Fault} (hs : s ∈ t.inner)
    (h : s.ConstantFault f) : t.ConstantFault f := by
  obtain ⟨left, op, right, a, b, hin, hoperation⟩ := h
  exact ⟨left, op, right, a, b, hin.tail hs, hoperation⟩

/-- A fault comes from below, or from an operation on constants. -/
theorem Whole.foldNode_error_cases {t : Tree} (ht : t.Whole) {f : Fault}
    (h : t.foldNode = .error f) :
    (∃ s ∈ t.inner, s.foldNode = .error f) ∨
      ∃ left op right a b, t = .binOp left (.binaryOperator op) right ∧
        left.constant? = some a ∧ right.constant? = some b ∧ op.apply a b = .error f := by
  cases t with
  | missing => simp [Whole] at ht
  | sealedIndex value => simp [Whole] at ht
  | extended id note node => simp [Whole] at ht
  | constant value =>
    cases value with
    | none => simp [Whole] at ht
    | some v => cases h
  | list items =>
    simp only [foldNode, bind_eq_error] at h
    obtain h | ⟨items', -, h⟩ := h
    · exact .inl (foldItems_error h)
    · cases h
  | other cls fields =>
    simp only [foldNode, bind_eq_error] at h
    obtain h | ⟨fields', -, h⟩ := h
    · obtain ⟨e, he, hf⟩ := foldFields_error h
      exact .inl ⟨e.2, List.mem_map_of_mem he, hf⟩
    · cases h
  | tuple elts ctx =>
    simp only [foldNode, bind_eq_error] at h
    obtain h | ⟨elts', helts', h | ⟨ctx', hctx', h⟩⟩ := h
    · exact .inl ⟨elts, by simp [Tree.inner, allFields], h⟩
    · exact .inl ⟨ctx, by simp [Tree.inner, allFields], h⟩
    · have helts := ht.inner elts (by simp [Tree.inner, allFields])
      rw [ht.foldTuple_eq helts' (fun s hs => (helts.inner s hs).becomes)] at h
      cases h
  | binOp left op right =>
    simp only [foldNode, bind_eq_error] at h
    obtain h | ⟨left', hleft', h | ⟨op', hop', h | ⟨right', hright', h⟩⟩⟩ := h
    · exact .inl ⟨left, by simp [Tree.inner, allFields], h⟩
    · exact .inl ⟨op, by simp [Tree.inner, allFields], h⟩
    · exact .inl ⟨right, by simp [Tree.inner, allFields], h⟩
    · obtain ⟨hleft, hop, hright⟩ : left.Whole ∧ op.Whole ∧ right.Whole := by
        simpa only [Whole] using ht
      obtain ⟨o, a, b, rfl, hoperation⟩ := (hleft.becomes left' hleft').binOp_error
        (hop.becomes op' hop') (hright.becomes right' hright') h
      exact .inr ⟨left, o, right, a, b, rfl, hoperation⟩
  | _ =>
    simp only [foldNode, bind_eq_error] at h
    simp only [Tree.inner, allFields, List.map_cons, List.map_nil, List.mem_cons]
    grind [pure_ne_error]

/-- If folding fails, an operation on constants does. -/
theorem Whole.constantFault {t : Tree} {f : Fault} :
    t.Whole → t.foldNode = .error f → t.ConstantFault f := by
  induction t using inner_wellFounded.induction with
  | h t ih =>
    intro ht h
    obtain ⟨s, hs, hf⟩ | ⟨left, op, right, a, b, rfl, hoperation⟩ := ht.foldNode_error_cases h
    · exact (ih s hs (ht.inner s hs) hf).of_inner hs
    · exact ⟨left, op, right, a, b, .refl, hoperation⟩

/-- If an operation on constants fails, folding does. -/
theorem ConstantFault.foldNode_ne_ok {t : Tree} {f : Fault} (h : t.ConstantFault f) (ht : t.Whole)
    (t' : Tree) : t.foldNode ≠ .ok t' := by
  intro hok
  obtain ⟨left, op, right, a, b, hin, ha, hb, hc⟩ := h
  obtain ⟨s', hs'⟩ := hin.foldNode hok
  obtain ⟨hleft, -, hright⟩ : left.Whole ∧ _ ∧ right.Whole := by
    simpa only [Whole] using ht.within hin
  simp only [foldNode, bind_eq_ok] at hs'
  obtain ⟨left', hleft', _, ⟨⟩, right', hright', hs'⟩ := hs'
  obtain rfl := (hleft.becomes left' hleft').const ha
  obtain rfl := (hright.becomes right' hright').const hb
  rw [foldBinOp_const, hc] at hs'
  cases hs'

theorem read_program {text : String} {t : Tree} (h : read .program text = .ok t) :
    ∃ body, t = .module body := by
  obtain ⟨-, body, -, -, -, rfl⟩ | ⟨-, -, -, hmode, -⟩ | ⟨-, -, -, hmode, -⟩ := read_cases h
  · exact ⟨_, rfl⟩
  all_goals cases hmode

/-- A program that is read is folded, or an operation on constants in it fails with the fault that
folding gives. -/
theorem fold_cases {text : String} {t : Tree} (hread : read .program text = .ok t) :
    (∃ f, t.fold = .error f ∧ t.ConstantFault f) ∨
      ∃ t', t.fold = .ok t' ∧ ∀ f, ¬ t.ConstantFault f := by
  have hwhole := read_whole hread
  obtain ⟨body, rfl⟩ := read_program hread
  cases hfold : foldNode (.module body) with
  | error f => exact .inl ⟨f, hfold, hwhole.constantFault hfold⟩
  | ok t' => exact .inr ⟨t', hfold, fun f hf => hf.foldNode_ne_ok hwhole t' hfold⟩

end Tree

/-! ### Programs -/

namespace Machine

/-- Folding moves the faults of operations on constants to before the run, and no others. Take a
program that is read and that compiles without folding. If an operation on constants fails anywhere
in it, then running the text gives the fault of such an operation and leaves every machine as it
was, whether or not the operation would have been reached and whatever would have been printed and
set before it. If none fails, the text is folded, and where folding keeps what a program does, the
two programs end in the same way: with the same fault if there is one, the same output and the same
variables. -/
theorem runText_constantFault {text : String} {t : Tree} {code : Code}
    (hread : Tree.read .program text = .ok t) (hcode : t.compile = .ok code) :
    ((∃ f, t.ConstantFault f) → ∃ f, t.ConstantFault f ∧ t.fold = .error f ∧
      ∀ m : Machine, m.runText text = (.error f, m)) ∧
    ((∀ f, ¬ t.ConstantFault f) → ∃ t', t.fold = .ok t' ∧
      (t.Coherent → t'.Coherent → t.FoldsAnonymously →
        ∃ code', (∀ m : Machine, m.runText text = m.runCode code') ∧
          ∀ (m : Machine) (r : Except Fault Unit) (m' : Machine),
            (m.Halts code r m' → ∃ pc, m.Halts code' r (m'.at pc)) ∧
            (m.Halts code' r m' → ∃ pc, m.Halts code r (m'.at pc)))) := by
  have hcode' : Code.ofText text = t.fold >>= Tree.compile := by
    rw [Code.ofText, hread]
    rfl
  obtain ⟨f, hfold, hf⟩ | ⟨t', hfold, hnone⟩ := Tree.fold_cases hread
  · refine ⟨fun _ => ⟨f, hf, hfold, fun m => ?_⟩, fun hnone => absurd hf (hnone f)⟩
    rw [runText, hcode', hfold]
    rfl
  · refine ⟨fun hsome => absurd hsome (not_exists.2 hnone), fun _ => ⟨t', hfold, ?_⟩⟩
    intro hcoherent hcoherent' hanon
    obtain ⟨code', hcompile, hruns⟩ :=
      (Tree.read_ordinary hread).fold_runs hfold hcode hcoherent hcoherent' hanon
    refine ⟨code', fun m => ?_, hruns⟩
    rw [runText, hcode', hfold]
    exact congrArg m.runResult hcompile

/-- A division by zero that is never reached. -/
def deadDivision : String := "x = 1\nif 0:\n    1 / 0"

/-- Whether folding ends with a division by zero. -/
def foldsToZeroDivision (t : Tree) : Bool :=
  match t.fold with
  | .error (.zeroDivision _) => true
  | _ => false

theorem runText_constantFault_deadDivision :
    ∃ t code m' d, Tree.read .program deadDivision = .ok t ∧ t.compile = .ok code ∧
      ({} : Machine).Halts code (.ok ()) m' ∧ m'.globals.length = 1 ∧
        t.ConstantFault (.zeroDivision d) ∧
          ({} : Machine).runText deadDivision = (.error (.zeroDivision d), {}) := by
  obtain ⟨t, hread, code, hcode, hrun, hglobals, hfold⟩ :
      ∃ t, Tree.read .program deadDivision = .ok t ∧ ∃ code, t.compile = .ok code ∧
        ((({} : Machine).perform (Exec.runWithin 100 code)).1.toBool = true ∧
          (({} : Machine).perform (Exec.runWithin 100 code)).2.globals.length = 1 ∧
            foldsToZeroDivision t = true) := by
    decide +kernel
  obtain ⟨d, hd⟩ : ∃ d, t.fold = .error (.zeroDivision d) := by
    unfold foldsToZeroDivision at hfold
    split at hfold
    · next d hd => exact ⟨d, hd⟩
    · cases hfold
  have hfault : ∃ f, t.ConstantFault f := by
    obtain ⟨f, -, hf⟩ | ⟨t', hok, -⟩ := Tree.fold_cases hread
    · exact ⟨f, hf⟩
    · cases hd.symm.trans hok
  obtain ⟨f, hf, herror, hruns⟩ := (runText_constantFault hread hcode).1 hfault
  cases hd.symm.trans herror
  exact ⟨t, code, _, d, hread, hcode, halts_of_toBool hrun, hglobals, hf, hruns {}⟩

end Machine
end Stackwise
