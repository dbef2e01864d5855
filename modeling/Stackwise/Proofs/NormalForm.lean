import Stackwise.Proofs.FoldFaults

/-!
# Folded trees

Folding goes through a tree once, from the leaves upward, and that is enough: in the result there is
no operation on constants and no tuple of constants wherever folding looks, so that folding it once
more changes nothing (`Tree.fold_normal_fixed`). The first part rests on `Within.origin`: whatever
stands in a folded tree was folded itself.

Trees can be malformed in every way that classes and fields allow (`Tree.Proper.ofFields`), and
those that are read from texts are among them (`Tree.Whole.proper`).
-/
namespace Stackwise.Tree

/-! ### Normal forms -/

/-- A constant, whatever is added to it. -/
def isConstant : Tree → Bool
  | .constant _ => true
  | .extended _ _ node => node.isConstant
  | _ => false

/-- An operator of two operands, whatever is added to it. -/
def isBinaryOperator : Tree → Bool
  | .binaryOperator _ => true
  | .extended _ _ node => node.isBinaryOperator
  | _ => false

/-- What folding replaces by a constant: an operation on constants, or a tuple of constants. A plain
value in the place of items may have some itself, but no constant is among them. -/
def isRedex : Tree → Bool
  | .binOp left op right => left.isConstant && op.isBinaryOperator && right.isConstant
  | .tuple (.list items) _ => items.all isConstant
  | .tuple (.leaf v) _ => (v.each?.map List.isEmpty).getD false
  | _ => false

/-! ### Extended nodes -/

def isExtended : Tree → Bool
  | .extended _ _ _ => true
  | _ => false

/-- What is extended is a node. -/
def extendsWell : Tree → Bool
  | .extended _ _ node => node.isNode
  | _ => true

/-- A tree in which only nodes are extended. -/
def Proper (t : Tree) : Prop := ∀ s : Tree, s.Within t → s.extendsWell = true

theorem Proper.within {s t : Tree} (h : t.Proper) (hs : s.Within t) : s.Proper :=
  fun u hu => h u (hu.trans hs)

theorem Proper.inner {t : Tree} (h : t.Proper) {s : Tree} (hs : s ∈ t.inner) : s.Proper :=
  h.within (.single hs)

theorem proper_iff {t : Tree} :
    t.Proper ↔ t.extendsWell = true ∧ ∀ s ∈ t.inner, s.Proper := by
  constructor
  · exact fun h => ⟨h t .refl, fun s hs => h.inner hs⟩
  · rintro ⟨ht, hinner⟩ s hs
    cases hs with
    | refl => exact ht
    | tail hs hin => exact hinner _ hin s hs

theorem proper_extended {id note node : Tree} :
    (extended id note node).Proper ↔ node.isNode = true ∧ node.Proper ∧ note.Proper := by
  rw [proper_iff]
  simp [extendsWell, inner]

/-! ### Folding twice -/

theorem foldItems_fixed {ts ts' : List Tree} (h : foldItems ts = .ok ts')
    (hitems : ∀ t ∈ (list ts).inner, ∀ t', t.foldNode = .ok t' → t'.foldNode = .ok t') :
    foldItems ts' = .ok ts' := by
  induction ts generalizing ts' with
  | nil =>
    cases h
    rfl
  | cons t ts ih =>
    cases ht : t.isList with
    | true =>
      cases t <;> cases ht
      simp only [foldItems, bind_eq_ok, pure_eq_ok] at h
      obtain ⟨us, hus, rfl⟩ := h
      have hrest := ih hus (by simpa [inner, isList] using hitems)
      simp [foldItems, hrest]
    | false =>
      simp only [foldItems_cons ht, bind_eq_ok, pure_eq_ok] at h
      obtain ⟨t', ht', us, hus, rfl⟩ := h
      rw [inner_list_cons ht, List.forall_mem_cons] at hitems
      have hrest := ih hus hitems.2
      cases hlist : t'.isList with
      | true =>
        cases t' <;> cases hlist
        simp [foldItems, hrest]
      | false => simp [foldItems_cons hlist, hitems.1 t' ht', hrest, ok_bind]

theorem foldFields_fixed {fs fs' : List (String × Tree)} (h : foldFields fs = .ok fs')
    (hfields : ∀ e ∈ fs, ∀ t', e.2.foldNode = .ok t' → t'.foldNode = .ok t') :
    foldFields fs' = .ok fs' := by
  induction fs generalizing fs' with
  | nil =>
    cases h
    rfl
  | cons e fs ih =>
    simp only [foldFields, bind_eq_ok, pure_eq_ok] at h
    obtain ⟨t', ht', us, hus, rfl⟩ := h
    rw [List.forall_mem_cons] at hfields
    simp [foldFields, hfields.1 t' ht', ih hus hfields.2, ok_bind]

theorem foldTuple_eq_ok {elts ctx t' : Tree} (h : foldTuple elts ctx = .ok t') :
    (∃ vs, t' = .const (.tuple vs)) ∨ t' = .tuple elts ctx ∧
      ((∃ ts, elts = .list ts ∧ constantItems ts = .ok none) ∨
        ∃ v ws, elts = .leaf v ∧ v.each? = some ws ∧ ws.isEmpty = false) := by
  unfold foldTuple at h
  split at h
  · cases h
  · next ts =>
    simp only [bind_eq_ok] at h
    obtain ⟨items, hitems, h⟩ := h
    split at h <;> cases h
    · exact .inl ⟨_, rfl⟩
    · exact .inr ⟨rfl, .inl ⟨ts, rfl, hitems⟩⟩
  · next v =>
    cases hv : v.each? with
    | none =>
      rw [hv] at h
      cases h
    | some ws =>
      cases hws : ws.isEmpty <;> rw [hv] at h <;> dsimp only at h <;> rw [hws] at h <;> cases h
      · exact .inr ⟨rfl, .inr ⟨v, ws, rfl, hv, hws⟩⟩
      · exact .inl ⟨_, rfl⟩
  · cases h

/-- What is folded stays as it is when it is folded again. -/
theorem foldNode_fixed {t t' : Tree} (h : t.foldNode = .ok t') : t'.foldNode = .ok t' := by
  induction t using inner_wellFounded.induction generalizing t' with
  | h t ih =>
    cases t with
    | list items =>
      simp only [foldNode, bind_eq_ok, pure_eq_ok] at h
      obtain ⟨items', hitems, rfl⟩ := h
      simp [foldNode, foldItems_fixed hitems fun s hs s' => ih s hs]
    | other cls fields =>
      simp only [foldNode, bind_eq_ok, pure_eq_ok] at h
      obtain ⟨fields', hfields, rfl⟩ := h
      have hfixed := foldFields_fixed hfields fun e he s' => ih e.2 (List.mem_map_of_mem he)
      simp [foldNode, hfixed]
    | constant value =>
      simp only [foldNode, bind_eq_ok, pure_eq_ok] at h
      obtain ⟨v, -, rfl⟩ := h
      rfl
    | binOp left op right =>
      simp only [foldNode, bind_eq_ok] at h
      obtain ⟨left', hleft, op', hop, right', hright, h⟩ := h
      simp only [inner, allFields, List.map_cons, List.map_nil, List.forall_mem_cons] at ih
      obtain rfl | ⟨o, a, b, c, -, -, -, -, rfl⟩ := foldBinOp_cases h
      · simp [foldNode, ih.1 hleft, ih.2.1 hop, ih.2.2.1 hright, h, ok_bind]
      · rfl
    | tuple elts ctx =>
      simp only [foldNode, bind_eq_ok] at h
      obtain ⟨elts', helts, ctx', hctx, h⟩ := h
      simp only [inner, allFields, List.map_cons, List.map_nil, List.forall_mem_cons] at ih
      obtain ⟨vs, rfl⟩ | ⟨rfl, -⟩ := foldTuple_eq_ok h
      · rfl
      · simp [foldNode, ih.1 helts, ih.2.1 hctx, h, ok_bind]
    | extended id note node =>
      simp only [foldNode, bind_eq_ok, pure_eq_ok] at h
      obtain ⟨folded, hnode, note', hnote, rfl⟩ := h
      have hfolded : folded.foldNode = .ok folded := ih node (by simp [inner]) hnode
      have hfixed : note'.foldNode = .ok note' := ih note (by simp [inner]) hnote
      split
      · unfold extend
        split
        · next hadded =>
          simp only [foldNode, hfolded, hfixed, ok_bind, extend, hadded, beq_self_eq_true, if_true,
            pure_eq_ok]
        · exact hfolded
      · exact hfolded
    | _ =>
      simp only [foldNode, bind_eq_ok, pure_eq_ok] at h
      simp only [inner, allFields, List.map_cons, List.map_nil, List.forall_mem_cons] at ih
      grind [foldNode, ok_bind, pure_eq_ok]

/-! ### Where folded trees come from -/

theorem foldItems_origin {ts ts' : List Tree} (h : foldItems ts = .ok ts') {s' : Tree}
    (hs : s' ∈ (list ts').inner) : ∃ s ∈ (list ts).inner, s.foldNode = .ok s' := by
  induction ts generalizing ts' with
  | nil =>
    cases h
    simp [inner] at hs
  | cons t ts ih =>
    cases ht : t.isList with
    | true =>
      cases t <;> cases ht
      simp only [foldItems, bind_eq_ok, pure_eq_ok] at h
      obtain ⟨us, hus, rfl⟩ := h
      simpa [inner, isList] using ih hus (by simpa [inner, isList] using hs)
    | false =>
      simp only [foldItems_cons ht, bind_eq_ok, pure_eq_ok] at h
      obtain ⟨t', ht', us, hus, rfl⟩ := h
      rw [inner_list_cons ht]
      have hs' : s' = t' ∨ s' ∈ (list us).inner := by grind [inner]
      obtain rfl | hs' := hs'
      · exact ⟨t, List.mem_cons_self, ht'⟩
      · obtain ⟨s, hs, hfold⟩ := ih hus hs'
        exact ⟨s, List.mem_cons_of_mem t hs, hfold⟩

theorem foldFields_origin {fs fs' : List (String × Tree)} (h : foldFields fs = .ok fs')
    {s' : Tree} (hs : s' ∈ fs'.map (·.2)) : ∃ s ∈ fs.map (·.2), s.foldNode = .ok s' := by
  induction fs generalizing fs' with
  | nil =>
    cases h
    cases hs
  | cons e fs ih =>
    simp only [foldFields, bind_eq_ok, pure_eq_ok] at h
    obtain ⟨t', ht', us, hus, rfl⟩ := h
    obtain rfl | hs := List.mem_cons.1 hs
    · exact ⟨e.2, List.mem_cons_self, ht'⟩
    · obtain ⟨s, hs, hfold⟩ := ih hus hs
      exact ⟨s, List.mem_cons_of_mem _ hs, hfold⟩

/-- What is directly in a folded node was folded itself. -/
theorem foldNode_origin {t t' : Tree} (h : t.foldNode = .ok t') (ht : t.isExtended = false)
    {s' : Tree} (hs : s' ∈ t'.inner) : ∃ s ∈ t.inner, s.foldNode = .ok s' := by
  cases t with
  | list items =>
    simp only [foldNode, bind_eq_ok, pure_eq_ok] at h
    obtain ⟨items', hitems, rfl⟩ := h
    exact foldItems_origin hitems hs
  | other cls fields =>
    simp only [foldNode, bind_eq_ok, pure_eq_ok] at h
    obtain ⟨fields', hfields, rfl⟩ := h
    exact foldFields_origin hfields hs
  | extended id note node => cases ht
  | constant value =>
    simp only [foldNode, bind_eq_ok, pure_eq_ok] at h
    obtain ⟨v, -, rfl⟩ := h
    cases hs
  | binOp left op right =>
    simp only [foldNode, bind_eq_ok] at h
    obtain ⟨left', hleft, op', hop, right', hright, h⟩ := h
    obtain rfl | ⟨o, a, b, c, -, -, -, -, rfl⟩ := foldBinOp_cases h
    · simp only [inner, allFields] at hs ⊢
      grind
    · cases hs
  | tuple elts ctx =>
    simp only [foldNode, bind_eq_ok] at h
    obtain ⟨elts', helts, ctx', hctx, h⟩ := h
    obtain ⟨vs, rfl⟩ | ⟨rfl, -⟩ := foldTuple_eq_ok h
    · cases hs
    · simp only [inner, allFields] at hs ⊢
      grind
  | _ =>
    simp only [foldNode, bind_eq_ok, pure_eq_ok] at h
    repeat obtain ⟨_, _, h⟩ := h
    simp [inner, allFields] at hs ⊢ <;> grind

theorem foldNode_extended {id note node t' : Tree}
    (h : (extended id note node).foldNode = .ok t') :
    ∃ folded note', node.foldNode = .ok folded ∧ note.foldNode = .ok note' ∧
      (t' = folded ∨ t' = .extended id note' folded) := by
  simp only [foldNode, bind_eq_ok, pure_eq_ok] at h
  obtain ⟨folded, hnode, note', hnote, rfl⟩ := h
  refine ⟨folded, note', hnode, hnote, ?_⟩
  grind [extend]

/-- Whatever stands in a folded tree was folded itself: what is no extended node comes from such a
node. -/
theorem Within.origin {t t' s' : Tree} (h : t.foldNode = .ok t') (hs : s'.Within t')
    (hext : s'.isExtended = false) :
    ∃ s : Tree, s.Within t ∧ s.isExtended = false ∧ s.foldNode = .ok s' := by
  induction t using inner_wellFounded.induction generalizing t' with
  | h t ih =>
    have below : ∀ u ∈ t.inner, ∀ u', u.foldNode = .ok u' → s'.Within u' →
        ∃ s : Tree, s.Within t ∧ s.isExtended = false ∧ s.foldNode = .ok s' := by
      intro u hu u' hfold hs
      obtain ⟨s, hs, horigin⟩ := ih u hu hfold hs
      exact ⟨s, hs.tail hu, horigin⟩
    cases ht : t.isExtended with
    | false =>
      cases hs with
      | refl => exact ⟨t, .refl, ht, h⟩
      | tail hs hin =>
        obtain ⟨u, hu, hfold⟩ := foldNode_origin h ht hin
        exact below u hu _ hfold hs
    | true =>
      cases t <;> cases ht
      next id note node =>
      obtain ⟨folded, note', hnode, hnote, rfl | rfl⟩ := foldNode_extended h
      · exact below node (by simp [inner]) _ hnode hs
      · cases hs with
        | refl => cases hext
        | tail hs hin =>
          obtain rfl | rfl : _ = folded ∨ _ = note' := by simpa [inner] using hin
          · exact below node (by simp [inner]) _ hnode hs
          · exact below note (by simp [inner]) _ hnote hs

/-! ### Folded trees are normal -/

/-- A node that is not extended stays one, and nothing else becomes one. -/
theorem isNode_foldNode {t t' : Tree} (h : t.foldNode = .ok t') (ht : t.isExtended = false) :
    t'.isNode = t.isNode := by
  cases t with
  | extended id note node => cases ht
  | binOp left op right =>
    simp only [foldNode, bind_eq_ok] at h
    obtain ⟨left', -, op', -, right', -, h⟩ := h
    obtain rfl | ⟨o, a, b, c, -, -, -, -, rfl⟩ := foldBinOp_cases h <;> rfl
  | tuple elts ctx =>
    simp only [foldNode, bind_eq_ok] at h
    obtain ⟨elts', -, ctx', -, h⟩ := h
    obtain ⟨vs, rfl⟩ | ⟨rfl, -⟩ := foldTuple_eq_ok h <;> rfl
  | _ =>
    simp only [foldNode, bind_eq_ok, pure_eq_ok] at h
    grind [isNode, const]

theorem Proper.isNode_foldNode {t t' : Tree} (ht : t.Proper) (h : t.foldNode = .ok t') :
    t'.isNode = t.isNode := by
  induction t using inner_wellFounded.induction generalizing t' with
  | h t ih =>
    cases hext : t.isExtended with
    | false => exact Tree.isNode_foldNode h hext
    | true =>
      cases t <;> cases hext
      next id note node =>
      obtain ⟨hnode, hproper, -⟩ := proper_extended.1 ht
      obtain ⟨folded, note', hfold, -, rfl | rfl⟩ := foldNode_extended h
      · rw [ih node (by simp [Tree.inner]) hproper hfold, hnode]
        rfl
      · rfl

theorem isConstant_iff {t : Tree} : t.isConstant = true ↔ ∃ x, t.core = .constant x := by
  fun_induction core t with
  | case1 id note node ih => simpa only [isConstant] using ih
  | case2 t hext =>
    cases t with
    | extended id note node => exact absurd rfl (hext id note node)
    | _ => simp [isConstant]

theorem isBinaryOperator_iff {t : Tree} :
    t.isBinaryOperator = true ↔ ∃ o, t.core = .binaryOperator o := by
  fun_induction core t with
  | case1 id note node ih => simpa only [isBinaryOperator] using ih
  | case2 t hext =>
    cases t with
    | extended id note node => exact absurd rfl (hext id note node)
    | _ => simp [isBinaryOperator]

/-- An operation that is kept is not one on constants. -/
theorem foldBinOp_kept {left op right : Tree}
    (h : foldBinOp left op right = .ok (.binOp left op right)) :
    (binOp left op right).isRedex = false := by
  by_contra hredex
  simp only [isRedex, Bool.not_eq_false, Bool.and_eq_true] at hredex
  obtain ⟨x, hleft⟩ := isConstant_iff.1 hredex.1.1
  obtain ⟨o, hop⟩ := isBinaryOperator_iff.1 hredex.1.2
  obtain ⟨y, hright⟩ := isConstant_iff.1 hredex.2
  simp only [foldBinOp, hleft, hop, hright, bind_eq_ok, pure_eq_ok] at h
  obtain ⟨a, ha, b, hb, c, hc, h⟩ := h
  cases h

/-- Items that are no values are not all constants. -/
theorem all_isConstant_of_constantItems {ts : List Tree} (h : constantItems ts = .ok none) :
    ts.all isConstant = false := by
  induction ts with
  | nil => cases h
  | cons t ts ih =>
    rw [List.all_cons]
    cases hc : t.isConstant with
    | false => rfl
    | true =>
      obtain ⟨x, hx⟩ := isConstant_iff.1 hc
      simp only [constantItems, hx, bind_eq_ok, pure_eq_ok] at h
      obtain ⟨v, -, items, hitems, h⟩ := h
      obtain rfl := Option.map_eq_none_iff.1 h
      exact ih hitems

/-- What a node that is not extended becomes is not to be folded. -/
theorem isRedex_foldNode {t t' : Tree} (hext : t.isExtended = false) (h : t.foldNode = .ok t') :
    t'.isRedex = false := by
  cases t with
  | extended id note node => cases hext
  | binOp left op right =>
    simp only [foldNode, bind_eq_ok] at h
    obtain ⟨left', -, op', -, right', -, h⟩ := h
    obtain rfl | ⟨o, a, b, c, -, -, -, -, rfl⟩ := foldBinOp_cases h
    · exact foldBinOp_kept h
    · rfl
  | tuple elts ctx =>
    simp only [foldNode, bind_eq_ok] at h
    obtain ⟨elts', -, ctx', -, h⟩ := h
    obtain ⟨vs, rfl⟩ | ⟨rfl, ⟨ts', rfl, hitems⟩ | ⟨v, ws, rfl, hv, hws⟩⟩ := foldTuple_eq_ok h
    · rfl
    · exact all_isConstant_of_constantItems hitems
    · simp [isRedex, hv, hws]
  | _ =>
    simp only [foldNode, bind_eq_ok, pure_eq_ok] at h
    grind [isRedex, const]

/-! ### Trees made of classes and fields -/

theorem Proper.withoutId {t : Tree} (h : t.Proper) : t.withoutId.Proper := by
  cases t with
  | extended id note node =>
    cases note with
    | missing => exact (proper_extended.1 h).2.1
    | _ => exact proper_extended.2 (proper_extended.1 h)
  | _ => exact h

theorem Proper.withoutIds {t : Tree} (h : t.Proper) : t.withoutIds.Proper := by
  cases t with
  | list items =>
    refine proper_iff.2 ⟨rfl, fun s hs => ?_⟩
    simp only [Tree.withoutIds, Tree.inner, List.mem_filter, List.mem_map] at hs
    obtain ⟨⟨t, ht, rfl⟩, hlist⟩ := hs
    have hin : t ∈ (list items).inner := by
      refine List.mem_filter.2 ⟨ht, ?_⟩
      cases t <;> first | rfl | exact hlist
    exact (h.inner hin).withoutId
  | _ => exact h.withoutId

theorem proper_missing : missing.Proper := proper_iff.2 ⟨rfl, by simp [inner, allFields]⟩

theorem proper_leaf (v : Value) : (leaf v).Proper := proper_iff.2 ⟨rfl, by simp [inner, allFields]⟩

theorem isNode_ofOwnFields (cls : String) (fs : List (String × Tree)) :
    (ofOwnFields cls fs).isNode = true := by
  unfold ofOwnFields
  grind [isNode]

theorem proper_extend {id note node : Tree} (hkind : node.isNode = true) (hnode : node.Proper)
    (hnote : note.Proper) : (extend id note node).Proper := by
  unfold extend
  split
  · exact proper_extended.2 ⟨hkind, hnode, hnote⟩
  · exact hnode

theorem proper_other {cls : String} {fs : List (String × Tree)} (h : ∀ f ∈ fs, f.2.Proper) :
    (other cls fs).Proper :=
  proper_iff.2 ⟨rfl, List.forall_mem_map.2 h⟩

section
variable {cls : String} {fs : List (String × Tree)} (h : ∀ f ∈ fs, f.2.Proper)
include h

theorem proper_lookup (f : String) : ((fs.lookup f).getD .missing).Proper := by
  cases hf : fs.lookup f with
  | none => exact proper_missing
  | some t =>
    obtain ⟨pre, post, rfl, -⟩ := List.lookup_eq_some_iff.1 hf
    exact h (f, t) (by simp)

theorem Proper.ofOwnFields : (ofOwnFields cls fs).Proper := by
  unfold Tree.ofOwnFields
  extract_lets target get
  have htarget : ∀ f, (target f).Proper := proper_lookup h
  have hget : ∀ f, (get f).Proper := fun f => (htarget f).withoutIds
  have hfields : (other cls (fs.map fun f => (f.1, f.2.withoutIds))).Proper :=
    proper_other (List.forall_mem_map.2 fun f hf => (h f hf).withoutIds)
  clear_value target get
  split
  all_goals first
    | (refine proper_iff.2 ⟨rfl, ?_⟩; simp [Tree.inner, allFields, hget, htarget]; done)
    | skip
  · -- an index
    split
    · have hvalue := (h _ List.mem_cons_self).withoutIds
      exact proper_iff.2 ⟨rfl, by simpa [Tree.inner, allFields] using hvalue⟩
    · exact hfields
  · -- a tuple of slices
    have hdims : ((fs.lookup "dims").elim (list []) Tree.withoutIds).Proper := by
      cases hdims : fs.lookup "dims" with
      | none => exact proper_iff.2 ⟨rfl, by simp [Tree.inner]⟩
      | some t => simpa [hdims] using (proper_lookup h "dims").withoutIds
    have hload : (context .load).Proper := proper_iff.2 ⟨rfl, by simp [Tree.inner, allFields]⟩
    exact proper_iff.2 ⟨rfl, by simp [Tree.inner, allFields, hdims, hload]⟩
  · repeat' split
    all_goals first
      | exact hfields
      | (refine proper_iff.2 ⟨rfl, ?_⟩; simp [Tree.inner, allFields]; done)
      | skip
    refine proper_other fun f hf => ?_
    obtain ⟨x, -, hx⟩ := List.mem_filterMap.1 hf
    split at hx
    · next t ht =>
      cases hx
      simpa [ht] using (proper_lookup h x).withoutIds
    · split at hx <;> cases hx
      exact proper_leaf _

theorem proper_noteOf : (noteOf cls fs).Proper := by
  unfold noteOf
  cases hnote : (noteField? cls).bind fun f => fs.lookup f with
  | none => exact proper_missing
  | some t =>
    obtain ⟨f, -, hf⟩ := Option.bind_eq_some_iff.1 hnote
    have ht : t.Proper := by simpa [hf] using proper_lookup h f
    cases t with
    | list items =>
      dsimp only
      split
      · exact ht.withoutIds
      · exact proper_missing
    | _ =>
      dsimp only
      split
      · exact ht.withoutId
      · exact proper_missing

/-- Trees that are made of classes and fields are proper, whatever these are. -/
theorem Proper.ofFields : (ofFields cls fs).Proper :=
  proper_extend (isNode_ofOwnFields cls fs) (.ofOwnFields h) (proper_noteOf h)

end

/-- Nothing is added to the nodes of trees that are read. -/
theorem Whole.proper {t : Tree} (h : t.Whole) : t.Proper := by
  intro s hs
  have hwhole : s.Whole := h.within hs
  cases s with
  | extended id note node => simp [Whole] at hwhole
  | _ => rfl

/-- A folded tree is normal, wherever folding looks, and folding it again changes nothing. Trees
that are made of classes and fields are proper, malformed or not, and so are those that are read. -/
theorem fold_normal_fixed {t t' : Tree} (ht : t.Proper) (h : t.fold = .ok t') :
    (∀ s : Tree, s.Within t' → s.isRedex = false) ∧ t'.fold = .ok t' := by
  unfold fold at h
  split at h
  · next hnode =>
    constructor
    · intro s' hs'
      cases hext : s'.isExtended with
      | true => cases s' <;> cases hext; rfl
      | false =>
        obtain ⟨s, -, hs, hfold⟩ := Within.origin h hs' hext
        exact isRedex_foldNode hs hfold
    · rw [fold, if_pos (by rw [ht.isNode_foldNode h, hnode])]
      exact foldNode_fixed h
  · cases h

/-- A sum that becomes an operand, next to a tuple without a context, with a list in it and a sum in
the note of a constant. -/
theorem fold_normal_fixed_malformed :
    ∃ t', (expr (op .mult (op .add (num 1) (num 2))
        (.tuple (.list [.extended .missing (op .add (num 5) (num 6)) (num 3), .list [num 4]])
          .missing))).fold = .ok t' ∧
      (∀ s : Tree, s.Within t' → s.isRedex = false) ∧ t'.fold = .ok t' := by
  refine exists_ok_and (by decide +kernel) fun t' h => fold_normal_fixed ?_ h
  repeat' first
    | refine proper_iff.2 ⟨rfl, ?_⟩
    | refine List.forall_mem_cons.2 ⟨?_, ?_⟩
    | exact nofun

end Stackwise.Tree
