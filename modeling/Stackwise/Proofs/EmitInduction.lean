import Stackwise.Proofs.Emission

/-!
# Induction over the actions of a tree

What holds of the single actions on an assembler, and is kept when actions follow one another, holds
of emitting any tree, whether that succeeds or fails half way: `Tree.emit_stable`. A fact about
everything that can be done with a tree is then a fact about a few actions.
-/
namespace Stackwise

/-- A property that the single actions on an assembler have and that going on from one to the next
keeps. -/
structure Emit.Stable (P : (α : Type) → Emit α → Prop) : Prop where
  pure : ∀ {α : Type} (a : α), P α (pure a)
  throw : ∀ {α : Type} (f : Fault), P α (throw f)
  bind : ∀ {α β : Type} {e : Emit α} {g : α → Emit β}, P α e → (∀ a, P β (g a)) → P β (e >>= g)
  addName : ∀ n, P Nat (Emit.addName n)
  addConst : ∀ v, P Nat (Emit.addConst v)
  append : ∀ slots, P Unit (Emit.append slots)
  label : ∀ m, P Unit (Emit.label m)
  freshMarker : P Marker Emit.freshMarker

namespace Emit.Stable

variable {P : (α : Type) → Emit α → Prop} (h : Emit.Stable P)
include h

theorem emit (op : Opcode) (arg : Nat) : P Unit (Emit.emit op arg) := h.append _

theorem emitJump (op : Opcode) (m : Marker) : P Unit (Emit.emitJump op m) := h.append _

theorem emitNamed (opname : String) (arg : Nat) : P Unit (Emit.emitNamed opname arg) := by
  refine h.bind (h.append _) fun _ => ?_
  split
  · exact h.append _
  · exact h.throw _

theorem emitJumpNamed (opname : String) (m : Marker) : P Unit (Emit.emitJumpNamed opname m) := by
  unfold Emit.emitJumpNamed
  split
  · exact h.emitJump _ m
  · exact h.throw _

theorem ofExcept {α : Type} (r : Except Fault α) : P α (Emit.ofExcept r) := by
  cases r with
  | ok a => exact h.pure a
  | error f => exact h.throw f

/-! ### Fields -/

theorem present (cls field : String) (t : Tree) : P Unit (t.present cls field) := by
  cases t with
  | missing => exact h.throw _
  | _ => exact h.pure ()

theorem identifier (t : Tree) : P Name t.identifier := by
  fun_induction Tree.identifier t <;> first | exact h.throw _ | exact h.pure _ | assumption

theorem itemCount (t : Tree) : P Nat t.itemCount := by
  unfold Tree.itemCount
  split
  · exact h.pure _
  · split
    · exact h.pure _
    · exact h.throw _
  · exact h.throw _

theorem emitPlain (v : Value) : P Unit (emitPlain v) := by
  unfold Stackwise.emitPlain
  split
  · exact h.pure ()
  · exact h.throw _
  · exact h.throw _

theorem emitAt (v : Value) (n : Nat) : ∀ e ∈ emitAt v n, P Unit e := by
  intro e he
  obtain ⟨_, -, rfl⟩ := List.mem_map.1 he
  exact h.bind (h.ofExcept _) fun w => h.emitPlain w

theorem emitName (n : Name) (ctx : Tree) : P Unit (emitName n ctx) := by
  refine h.bind (h.addName n) fun i => ?_
  split
  · exact h.throw _
  · exact h.emit _ i
  · exact h.emit _ i
  · exact h.throw _

/-- A field that is read and used before something else. -/
theorem field {cls field : String} {t : Tree} {e : Emit Unit} (he : P Unit e) :
    P Unit (do t.present cls field; e) :=
  h.bind (h.present cls field t) fun _ => he

theorem counted (op : Opcode) (t : Tree) : P Unit (do Emit.emit op (← t.itemCount)) :=
  h.bind (h.itemCount t) fun n => h.emit op n

/-! ### Several actions -/

theorem runAll {es : List (Emit Unit)} (hes : ∀ e ∈ es, P Unit e) : P Unit (runAll es) := by
  induction es with
  | nil => exact h.pure ()
  | cons e es ih =>
    obtain ⟨he, hes⟩ := List.forall_mem_cons.1 hes
    exact h.bind he fun _ => ih hes

theorem emitTargets {es : List (Emit Unit)} (hes : ∀ e ∈ es, P Unit e) :
    P Unit (emitTargets es) := by
  fun_induction Stackwise.emitTargets es with
  | case1 => exact h.pure ()
  | case2 last => exact hes last (by simp)
  | case3 target rest _ ih =>
    obtain ⟨ht, hrest⟩ := List.forall_mem_cons.1 hes
    exact h.bind (h.emit _ _) fun _ => h.bind ht fun _ => ih hrest

theorem emitEntries {ks vs : List (Emit Unit)} (hks : ∀ e ∈ ks, P Unit e)
    (hvs : ∀ e ∈ vs, P Unit e) : P Unit (emitEntries ks vs) := by
  fun_induction Stackwise.emitEntries ks vs with
  | case1 => exact h.pure ()
  | case2 key keys value values ih =>
    obtain ⟨hk, hkeys⟩ := List.forall_mem_cons.1 hks
    obtain ⟨hv, hvalues⟩ := List.forall_mem_cons.1 hvs
    exact h.bind hv fun _ => h.bind hk fun _ => ih hkeys hvalues
  | case3 => exact h.throw _

theorem emitDelete (ts : List Tree) : P Unit (emitDelete ts) := by
  induction ts with
  | nil => exact h.pure ()
  | cons t ts ih =>
    refine h.bind (h.bind (h.identifier t) fun n => ?_) fun _ => ih
    exact h.bind (h.addName n) fun i => h.emit _ i

section
variable {d e f : Emit Unit} (hd : P Unit d) (he : P Unit e)
include hd he

theorem emitConditional (hf : P Unit f) : P Unit (emitConditional d e f) := by
  refine h.bind h.freshMarker fun otherwise => h.bind h.freshMarker fun done => ?_
  refine h.bind hd fun _ => h.bind (h.emitJump _ otherwise) fun _ => h.bind (h.emit _ _) fun _ => ?_
  refine h.bind he fun _ => h.bind (h.emitJump _ done) fun _ => ?_
  refine h.bind (h.label otherwise) fun _ => h.bind (h.emit _ _) fun _ => ?_
  exact h.bind hf fun _ => h.label done

theorem emitWhile : P Unit (emitWhile d e) := by
  refine h.bind h.freshMarker fun again => h.bind h.freshMarker fun done => ?_
  refine h.bind (h.label again) fun _ => h.bind hd fun _ => h.bind (h.emitJump _ done) fun _ => ?_
  refine h.bind (h.emit _ _) fun _ => h.bind he fun _ => h.bind (h.emitJump _ again) fun _ => ?_
  exact h.bind (h.label done) fun _ => h.emit _ _

theorem emitFor (hf : P Unit f) : P Unit (emitFor d e f) := by
  refine h.bind h.freshMarker fun again => h.bind h.freshMarker fun done => ?_
  refine h.bind hd fun _ => h.bind (h.emit _ _) fun _ => h.bind (h.label again) fun _ => ?_
  refine h.bind (h.emitJump _ done) fun _ => h.bind he fun _ => h.bind hf fun _ => ?_
  exact h.bind (h.emitJump _ again) fun _ => h.bind (h.label done) fun _ => h.emit _ _

end

/-- What is done with the actions for the items of a field. -/
theorem bind_eachOf {t : Tree} {α : Type} {k : List (Emit Unit) → Emit α}
    (ht : ∀ items, t = .list items → ∀ e ∈ Tree.emitEach items, P Unit e)
    (hk : ∀ es, (∀ e ∈ es, P Unit e) → P α (k es)) : P α (t.eachOf >>= k) := by
  -- A field that cannot be gone through fails before anything is done.
  have fails : ∀ f : Fault, t.eachOf = MonadExcept.throw f → P α (t.eachOf >>= k) := by
    intro f hf
    rw [hf]
    exact h.throw f
  cases t with
  | list items => simpa [Tree.eachOf] using hk _ (ht items rfl)
  | leaf v =>
    cases hv : v.each? with
    | none => exact fails _ (by simp only [Tree.eachOf, hv]; rfl)
    | some vs =>
      have hvs : ∀ e ∈ vs.map Stackwise.emitPlain, P Unit e := by
        intro e he
        obtain ⟨w, -, rfl⟩ := List.mem_map.1 he
        exact h.emitPlain w
      simpa [Tree.eachOf, hv] using hk _ hvs
  | _ => exact fails _ (by simp only [Tree.eachOf]; rfl)

/-- What is done with the actions for the first items of a field. -/
theorem bind_firstOf {t : Tree} {n : Nat} {α : Type} {k : List (Emit Unit) → Emit α}
    (ht : ∀ items, t = .list items → ∀ e ∈ Tree.emitEach items, P Unit e)
    (hk : ∀ es, (∀ e ∈ es, P Unit e) → P α (k es)) : P α (t.firstOf n >>= k) := by
  cases t with
  | list items => simpa [Tree.firstOf] using hk _ (ht items rfl)
  | leaf v => simpa [Tree.firstOf] using hk _ (h.emitAt v n)
  | _ => exact h.throw _

/-- A field whose items are gone through before something else. -/
theorem items {cls field : String} {t : Tree} {e : Emit Unit}
    (ht : ∀ items, t = .list items → ∀ e ∈ Tree.emitEach items, P Unit e) (he : P Unit e) :
    P Unit (do t.present cls field; Stackwise.runAll (← t.eachOf); e) :=
  h.field (h.bind_eachOf ht fun _ hes => h.bind (h.runAll hes) fun _ => he)

/-! ### One class of nodes after the other -/

theorem emit_assign {targets value : Tree} (hv : P Unit value.emit)
    (ht : ∀ items, targets = .list items → ∀ e ∈ Tree.emitEach items, P Unit e) :
    P Unit (Tree.emit (.assign targets value)) := by
  simp only [Tree.emit]
  refine h.field (h.bind hv fun _ => h.field ?_)
  split
  · exact h.throw _
  · split
    · exact h.bind_eachOf ht fun _ hes => h.emitTargets hes
    · exact h.bind (h.ofExcept _) fun _ => h.bind_eachOf ht fun _ hes => h.emitTargets hes
    · exact h.throw _

theorem emit_augAssign {target op value : Tree} (hv : P Unit value.emit) (ho : P Unit op.emit) :
    P Unit (Tree.emit (.augAssign target op value)) := by
  simp only [Tree.emit]
  refine h.field (h.bind (h.identifier target) fun n => h.bind (h.addName n) fun i => ?_)
  refine h.bind (h.emit _ i) fun _ => h.field (h.bind hv fun _ => ?_)
  exact h.field (h.bind ho fun _ => h.emit _ i)

theorem emit_delete (targets : Tree) : P Unit (Tree.emit (.delete targets)) := by
  simp only [Tree.emit]
  refine h.field ?_
  split
  · exact h.emitDelete _
  · split
    · exact h.pure ()
    · exact h.throw _
    · exact h.throw _
  · exact h.throw _

theorem emit_forLoop {target iter body orelse : Tree} (ht : P Unit target.emit)
    (hi : P Unit iter.emit) (hb : P Unit body.emit) :
    P Unit (Tree.emit (.forLoop target iter body orelse)) := by
  simp only [Tree.emit]
  refine h.field ?_
  split
  · exact h.throw _
  · exact h.emitFor (h.field hi) (h.field ht) (h.field hb)

theorem emit_dict {keys values : Tree}
    (hk : ∀ items, keys = .list items → ∀ e ∈ Tree.emitEach items, P Unit e)
    (hv : ∀ items, values = .list items → ∀ e ∈ Tree.emitEach items, P Unit e) :
    P Unit (Tree.emit (.dictDisplay keys values)) := by
  simp only [Tree.emit]
  refine h.field (h.bind (h.itemCount keys) fun n => ?_)
  split
  · refine h.field (h.bind_firstOf hv fun vs hvs => h.bind_firstOf hk fun ks hks => ?_)
    exact h.bind (h.emitEntries hks hvs) fun _ => h.emit _ n
  · exact h.emit _ n

end Emit.Stable

namespace Tree

variable {P : (α : Type) → Emit α → Prop}

mutual
/-- A stable property holds of emitting every tree. -/
theorem emit_stable (h : Emit.Stable P) : ∀ t : Tree, P Unit t.emit
  | .missing => by simpa only [emit] using h.throw _
  | .leaf v => by simpa only [emit] using h.throw _
  | .list items => by simpa only [emit] using emitItems_stable h items
  | .module body => by
    simpa only [emit] using h.field (h.bind_eachOf (items_stable h body) fun _ => h.runAll)
  | .interactive body => by
    simpa only [emit] using h.field (h.bind_eachOf (items_stable h body) fun _ => h.runAll)
  | .expr value => by
    simpa only [emit] using h.field (h.bind (emit_stable h value) fun _ => h.emit _ _)
  | .assign targets value => h.emit_assign (emit_stable h value) (items_stable h targets)
  | .augAssign _ op value => h.emit_augAssign (emit_stable h value) (emit_stable h op)
  | .delete targets => h.emit_delete targets
  | .pass => by simpa only [emit] using h.pure ()
  | .ifStmt test body orelse => by
    simpa only [emit] using h.emitConditional (h.field (emit_stable h test))
      (h.field (emit_stable h body)) (h.field (emit_stable h orelse))
  | .ifExp test body orelse => by
    simpa only [emit] using h.emitConditional (h.field (emit_stable h test))
      (h.field (emit_stable h body)) (h.field (emit_stable h orelse))
  | .whileLoop test body _ => by
    simpa only [emit] using
      h.emitWhile (h.field (emit_stable h test)) (h.field (emit_stable h body))
  | .forLoop target iter body _ =>
    h.emit_forLoop (emit_stable h target) (emit_stable h iter) (emit_stable h body)
  | .name id ctx => by simpa only [emit] using h.field (h.emitName id.toName ctx)
  | .constant none => by simpa only [emit] using h.throw _
  | .constant (some v) => by
    simpa only [emit] using h.bind (h.addConst v) fun i => h.emit _ i
  | .tuple elts _ => by
    simpa only [emit] using h.items (items_stable h elts) (h.counted _ elts)
  | .listDisplay elts _ => by
    simpa only [emit] using h.items (items_stable h elts) (h.counted _ elts)
  | .setDisplay elts => by
    simpa only [emit] using h.items (items_stable h elts) (h.counted _ elts)
  | .dictDisplay keys values => h.emit_dict (items_stable h keys) (items_stable h values)
  | .binOp left op right => by
    simpa only [emit] using h.field (h.bind (emit_stable h left) fun _ =>
      h.field (h.bind (emit_stable h right) fun _ => h.field (emit_stable h op)))
  | .unaryOp op operand => by
    simpa only [emit] using
      h.field (h.bind (emit_stable h operand) fun _ => h.field (emit_stable h op))
  | .subscript value slice _ => by
    simpa only [emit] using
      h.field (h.bind (emit_stable h value) fun _ => h.field (emit_stable h slice))
  | .index value => by
    simpa only [emit] using h.field (h.bind (emit_stable h value) fun _ => h.emit _ _)
  | .sealedIndex value => by
    simpa only [emit] using h.field (h.bind (emit_stable h value) fun _ => h.emit _ _)
  | .call func args _ => by
    simpa only [emit] using h.field (h.bind (emit_stable h func) fun _ =>
      h.field (h.bind (emit_stable h args) fun _ => h.counted _ args))
  | .binaryOperator op => by simpa only [emit] using h.emit _ _
  | .unaryOperator op => by simpa only [emit] using h.emit _ _
  | .context c => by simpa only [emit] using h.throw _
  | .extended _ _ node => by simpa only [emit] using emit_stable h node
  | .other cls fields => by
    simp only [emit]
    split
    · exact h.bind (emitIndex_stable h fields) fun _ => h.emit _ _
    · exact h.throw _
theorem emitIndex_stable (h : Emit.Stable P) : ∀ fs : List (String × Tree), P Unit (emitIndex fs)
  | [] => by simpa only [emitIndex] using h.throw _
  | (f, t) :: fs => by
    simp only [emitIndex]
    split
    · exact emit_stable h t
    · exact emitIndex_stable h fs
theorem emitItems_stable (h : Emit.Stable P) : ∀ ts : List Tree, P Unit (emitItems ts)
  | [] => by simpa only [emitItems] using h.pure ()
  | t :: ts => by
    cases t with
    | list _ => simpa only [emitItems] using h.throw _
    | _ =>
      simp only [emitItems]
      exact h.bind (emit_stable h _) fun _ => emitItems_stable h ts
theorem items_stable (h : Emit.Stable P) : ∀ (t : Tree) (items : List Tree), t = .list items →
    ∀ e ∈ emitEach items, P Unit e
  | .list _, items, rfl => emitEach_stable h items
theorem emitEach_stable (h : Emit.Stable P) : ∀ ts : List Tree, ∀ e ∈ emitEach ts, P Unit e
  | [] => by simp [emitEach]
  | t :: ts => by
    simp only [emitEach]
    exact List.forall_mem_cons.2 ⟨emit_stable h t, emitEach_stable h ts⟩
end

end Tree
end Stackwise
