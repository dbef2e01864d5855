import Stackwise.Proofs.DraftInduction

/-!
# The nodes that are visited

Not every node of a tree has a part in its code: contexts, the keywords of a call and the `else`
part of `while` have none, targets of `del` and of changes are only asked for their names, and
values of a dictionary without a key are left out. `Tree.visited` lists the nodes that have one. A
property of drafts holds of the draft of a tree if it is kept when drafts are put together as these
nodes ask for: `Draft.StableOn.draft`.
-/
namespace Stackwise

namespace Tree

mutual
/-- The nodes of a tree that are visited, the tree itself first unless it is a list. -/
def visited : Tree → List Tree
  | .list items => (visitedEach items).flatten
  | .module body => .module body :: (visitParts body).flatten
  | .interactive body => .interactive body :: (visitParts body).flatten
  | .expr value => .expr value :: visited value
  | .assign targets value =>
    .assign targets value :: (visited value ++ (visitParts targets).flatten)
  | .augAssign target op value => .augAssign target op value :: (visited value ++ visited op)
  | .ifStmt test body orelse =>
    .ifStmt test body orelse :: (visited test ++ visited body ++ visited orelse)
  | .ifExp test body orelse =>
    .ifExp test body orelse :: (visited test ++ visited body ++ visited orelse)
  | .whileLoop test body orelse => .whileLoop test body orelse :: (visited test ++ visited body)
  | .forLoop target iter body orelse =>
    .forLoop target iter body orelse :: (visited iter ++ visited target ++ visited body)
  | .tuple elts ctx => .tuple elts ctx :: (visitParts elts).flatten
  | .listDisplay elts ctx => .listDisplay elts ctx :: (visitParts elts).flatten
  | .setDisplay elts => .setDisplay elts :: (visitParts elts).flatten
  | .dictDisplay keys values =>
    .dictDisplay keys values ::
      ((visitParts keys).flatten ++ ((visitParts values).take (visitParts keys).length).flatten)
  | .binOp left op right => .binOp left op right :: (visited left ++ visited right ++ visited op)
  | .unaryOp op operand => .unaryOp op operand :: (visited operand ++ visited op)
  | .subscript value slice ctx => .subscript value slice ctx :: (visited value ++ visited slice)
  | .index value => .index value :: visited value
  | .sealedIndex value => .sealedIndex value :: visited value
  | .call func args keywords => .call func args keywords :: (visited func ++ visited args)
  | .extended _ _ node => visited node
  | .other cls fields => .other cls fields :: visitedIn fields
  | t => [t]
/-- The nodes of the index among the fields of an index node. -/
def visitedIn : List (String × Tree) → List Tree
  | [] => []
  | (f, t) :: fs => if f == "value" then visited t else visitedIn fs
/-- The nodes of each item of a field. -/
def visitParts : Tree → List (List Tree)
  | .list items => visitedEach items
  | .leaf v => (v.each?.map (List.map fun _ => [])).getD [[]]
  | _ => [[]]
/-- The nodes of each of several trees. -/
def visitedEach : List Tree → List (List Tree)
  | [] => []
  | t :: ts => visited t :: visitedEach ts
end

/-- What the code of a node itself, without those below it, does with variables. -/
def uses : Tree → List (NameUse × Name)
  | .name id (.context .load) => (nameIn id).map (.load, ·)
  | .name id (.context .store) => (nameIn id).map (.store, ·)
  | .augAssign target _ _ => target.identifier?.toList.flatMap fun n => [(.load, n), (.store, n)]
  | .delete (.list items) => (items.filterMap identifier?).map (.delete, ·)
  | _ => []

end Tree

/-! ### Induction over visited nodes -/

/-- A property of drafts that is kept when drafts are put together as nodes with `A` ask for. -/
structure Draft.StableOn (A : Tree → Prop) (P : Draft (List Line) → Prop) : Prop where
  failure : P failure
  nil : P (lines [])
  plain (op : Opcode) (arg : Nat) (isPlain : op.isPlain = true) : P (lines [.plain op arg isPlain])
  const {v : Value} : A (.constant (some v)) → P (do let i ← addConst v; lines [.const i v])
  useName {t : Tree} {use : NameUse} {n : Name} : A t → (use, n) ∈ t.uses → P (useName use n)
  join {d e : Draft (List Line)} : P d → P e → P (d ++ e)
  update {target op value : Tree} {n : Name} {d e : Draft (List Line)} :
    A (.augAssign target op value) → target.identifier? = some n → P d → P e →
      P (update (some n) d e)
  conditional {test body orelse : Tree} {d e f : Draft (List Line)} :
    A (.ifStmt test body orelse) ∨ A (.ifExp test body orelse) → P d → P e → P f →
      P (conditional d e f)
  whileLoop {test body orelse : Tree} {d e : Draft (List Line)} :
    A (.whileLoop test body orelse) → P d → P e → P (whileLoop d e)
  forLoop {target iter body orelse : Tree} {d e f : Draft (List Line)} :
    A (.forLoop target iter body orelse) → P d → P e → P f → P (forLoop d e f)

namespace Draft.StableOn

variable {A : Tree → Prop} {P : Draft (List Line) → Prop} (h : StableOn A P)
include h

theorem counted (op : Opcode) (isPlain : op.isPlain = true) (n? : Option Nat) :
    P (Draft.counted op isPlain n?) := by
  cases n? with
  | none => exact h.failure
  | some n => exact h.plain op n isPlain

theorem concat {ds : List (Draft (List Line))} (hds : ∀ d ∈ ds, P d) : P (Draft.concat ds) := by
  induction ds with
  | nil => exact h.nil
  | cons d ds ih =>
    obtain ⟨hd, hds⟩ := List.forall_mem_cons.1 hds
    exact h.join hd (ih hds)

theorem targets {ds : List (Draft (List Line))} (hds : ∀ d ∈ ds, P d) : P (Draft.targets ds) := by
  fun_induction Draft.targets ds with
  | case1 => exact h.nil
  | case2 last => exact hds last (by simp)
  | case3 d ds _ ih =>
    obtain ⟨hd, hds⟩ := List.forall_mem_cons.1 hds
    exact h.join (h.join (h.plain .dupTop 0 rfl) hd) (ih hds)

/-- Of the values as many are used as there are keys. -/
theorem entries {ks vs : List (Draft (List Line))} (hks : ∀ d ∈ ks, P d)
    (hvs : ∀ d ∈ vs.take ks.length, P d) : P (Draft.entries ks vs) := by
  fun_induction Draft.entries ks vs with
  | case1 => exact h.nil
  | case2 k ks v vs ih =>
    obtain ⟨hk, hks⟩ := List.forall_mem_cons.1 hks
    obtain ⟨hv, hvs⟩ := List.forall_mem_cons.1 hvs
    exact h.join (h.join hv hk) (ih hks hvs)
  | case3 => exact h.failure

/-! ### Nodes -/

open Stackwise.Tree

theorem name {id ctx : Tree} (ha : A (.name id ctx)) : P (Tree.name id ctx).draft := by
  by_cases hid : id = .missing
  · subst hid
    exact h.failure
  · have hname : id.toName ∈ nameIn id := by cases id <;> simp_all [nameIn]
    cases ctx with
    | context c =>
      cases c with
      | load =>
        have huse : P (Draft.useName .load id.toName) := h.useName ha (List.mem_map_of_mem hname)
        cases id <;> first | exact huse | exact absurd rfl hid
      | store =>
        have huse : P (Draft.useName .store id.toName) := h.useName ha (List.mem_map_of_mem hname)
        cases id <;> first | exact huse | exact absurd rfl hid
      | del => cases id <;> exact h.failure
    | _ => cases id <;> exact h.failure

theorem delete {targets : Tree} (ha : A (.delete targets)) : P (Tree.delete targets).draft := by
  cases targets with
  | list items =>
    refine h.concat fun d hd => ?_
    obtain ⟨t, ht, rfl⟩ := List.mem_map.1 hd
    unfold Tree.draftDelete
    split
    · next n hn =>
      have hmem : n ∈ items.filterMap identifier? := List.mem_filterMap.2 ⟨t, ht, hn⟩
      exact h.useName ha (List.mem_map_of_mem hmem)
    · exact h.failure
  | leaf v =>
    rw [draft]
    split
    · exact h.nil
    · exact h.failure
  | _ => exact h.failure

theorem update? {target op value : Tree} {d e : Draft (List Line)}
    (ha : A (.augAssign target op value)) (hd : P d) (he : P e) :
    P (Draft.update target.identifier? d e) := by
  cases hid : target.identifier? with
  | none => exact h.failure
  | some n => exact h.update ha hid hd he

theorem draftPlain (v : Value) : P (draftPlain v) := by
  unfold Tree.draftPlain
  split
  · exact h.nil
  · exact h.failure

theorem draftAt (v : Value) (n : Nat) : ∀ d ∈ draftAt v n, P d := by
  intro d hd
  obtain ⟨i, -, rfl⟩ := List.mem_map.1 hd
  cases v.index (.int i) with
  | ok w => exact h.draftPlain w
  | error f => exact h.failure

/-- What holds of the items of a list holds of the parts of a field. -/
theorem parts_of_items {t : Tree}
    (ht : ∀ items, t = .list items →
      List.Forall₂ (fun vs d => (∀ s ∈ vs, A s) → P d) (visitedEach items) (draftEach items)) :
    List.Forall₂ (fun vs d => (∀ s ∈ vs, A s) → P d) t.visitParts t.parts := by
  have fails : List.Forall₂ (fun vs d => (∀ s ∈ vs, A s) → P d) [[]] [Alternative.failure] :=
    .cons (fun _ => h.failure) .nil
  cases t with
  | list items => exact ht items rfl
  | leaf v =>
    rw [visitParts, parts]
    cases v.each? with
    | some vs =>
      rw [Option.map_some, Option.map_some, Option.getD_some, Option.getD_some,
        List.forall₂_map_left_iff, List.forall₂_map_right_iff]
      exact List.forall₂_same.2 fun v _ _ => h.draftPlain v
    | none => exact fails
  | _ => exact fails

omit h in
/-- What holds of the nodes of all items holds of those of each. -/
theorem of_flatten {vss : List (List Tree)} {ds : List (Draft (List Line))}
    (hds : List.Forall₂ (fun vs d => (∀ s ∈ vs, A s) → P d) vss ds)
    (ha : ∀ s ∈ vss.flatten, A s) : ∀ d ∈ ds, P d := by
  induction hds with
  | nil => simp
  | cons hd _ ih =>
    rw [List.flatten_cons, List.forall_mem_append] at ha
    exact List.forall_mem_cons.2 ⟨hd ha.1, ih ha.2⟩

theorem parts {t : Tree}
    (ht : ∀ items, t = .list items →
      List.Forall₂ (fun vs d => (∀ s ∈ vs, A s) → P d) (visitedEach items) (draftEach items))
    (ha : ∀ s ∈ t.visitParts.flatten, A s) : ∀ d ∈ t.parts, P d :=
  of_flatten (h.parts_of_items ht) ha

omit h in
/-- The first items are as many as the parts, or fewer. -/
theorem length_firsts {t : Tree}
    (ht : ∀ items, t = .list items →
      List.Forall₂ (fun vs d => (∀ s ∈ vs, A s) → P d) (visitedEach items) (draftEach items)) :
    (t.firsts (t.count?.getD 0)).length ≤ t.visitParts.length := by
  cases t with
  | list items => exact Nat.le_of_eq (ht items rfl).length_eq.symm
  | leaf v =>
    rw [Tree.firsts, Tree.draftAt, visitParts, count?, List.length_map, List.length_range]
    cases v.each? <;> simp
  | _ => exact Nat.le_refl 1

/-- What holds of the items of a list holds of those at the first places. -/
theorem firsts {t : Tree} {n k : Nat}
    (ht : ∀ items, t = .list items →
      List.Forall₂ (fun vs d => (∀ s ∈ vs, A s) → P d) (visitedEach items) (draftEach items))
    (ha : ∀ s ∈ (t.visitParts.take k).flatten, A s) : ∀ d ∈ (t.firsts n).take k, P d := by
  cases t with
  | list items => exact of_flatten (List.forall₂_take k (ht items rfl)) ha
  | leaf v => exact fun d hd => h.draftAt v n d (List.mem_of_mem_take hd)
  | _ =>
    intro d hd
    obtain rfl := List.mem_singleton.1 (List.mem_of_mem_take hd)
    exact h.failure

omit h in
mutual
/-- A property that is kept when drafts are put together as the visited nodes ask for holds of the
draft of a tree. -/
theorem draft (h : StableOn A P) : ∀ t : Tree, (∀ s ∈ t.visited, A s) → P t.draft
  | .missing, _ | .leaf _, _ | .context _, _ | .constant none, _ => h.failure
  | .pass, _ => h.nil
  | .constant (some v), ha => h.const (ha _ (by simp [visited]))
  | .name id ctx, ha => h.name (ha _ (by simp [visited]))
  | .delete targets, ha => h.delete (ha _ (by simp [visited]))
  | .binaryOperator _, _ | .unaryOperator _, _ => h.plain _ 0 rfl
  | .list items, ha => h.draftItems items ha
  | .module body, ha | .interactive body, ha => by
    simp only [visited, List.forall_mem_cons] at ha
    exact h.concat (h.parts (h.items body) ha.2)
  | .expr value, ha | .index value, ha | .sealedIndex value, ha => by
    simp only [visited, List.forall_mem_cons] at ha
    exact h.join (h.draft value ha.2) (h.plain _ 0 rfl)
  | .assign targets value, ha => by
    simp only [visited, List.forall_mem_cons, List.forall_mem_append] at ha
    rw [Tree.draft]
    split
    · exact h.join (h.draft value ha.2.1) (h.targets (h.parts (h.items targets) ha.2.2))
    · exact h.failure
  | .augAssign target op value, ha => by
    simp only [visited, List.forall_mem_cons, List.forall_mem_append] at ha
    exact h.update? ha.1 (h.draft value ha.2.1) (h.draft op ha.2.2)
  | .ifStmt test body orelse, ha => by
    simp only [visited, List.forall_mem_cons, List.forall_mem_append] at ha
    exact h.conditional (.inl ha.1) (h.draft test ha.2.1.1) (h.draft body ha.2.1.2)
      (h.draft orelse ha.2.2)
  | .ifExp test body orelse, ha => by
    simp only [visited, List.forall_mem_cons, List.forall_mem_append] at ha
    exact h.conditional (.inr ha.1) (h.draft test ha.2.1.1) (h.draft body ha.2.1.2)
      (h.draft orelse ha.2.2)
  | .whileLoop test body _, ha => by
    simp only [visited, List.forall_mem_cons, List.forall_mem_append] at ha
    exact h.whileLoop ha.1 (h.draft test ha.2.1) (h.draft body ha.2.2)
  | .forLoop target iter body orelse, ha => by
    simp only [visited, List.forall_mem_cons, List.forall_mem_append] at ha
    rw [Tree.draft]
    split
    · exact h.forLoop ha.1 (h.draft iter ha.2.1.1) (h.draft target ha.2.1.2) (h.draft body ha.2.2)
    · exact h.failure
  | .tuple elts _, ha | .listDisplay elts _, ha | .setDisplay elts, ha => by
    simp only [visited, List.forall_mem_cons] at ha
    exact h.join (h.concat (h.parts (h.items elts) ha.2)) (h.counted _ rfl elts.count?)
  | .dictDisplay keys values, ha => by
    simp only [visited, List.forall_mem_cons, List.forall_mem_append] at ha
    rw [Tree.draft]
    refine h.join ?_ (h.counted _ rfl keys.count?)
    split
    · exact h.nil
    · have hlength := length_firsts (h.items keys)
      refine h.entries (fun d hd => ?_) fun d hd => ?_
      · rw [← List.take_of_length_le hlength] at hd
        refine h.firsts (h.items keys) ?_ d hd
        rw [List.take_length]
        exact ha.2.1
      · exact h.firsts (h.items values) ha.2.2 d (List.take_subset_take_left _ hlength hd)
  | .binOp left op right, ha => by
    simp only [visited, List.forall_mem_cons, List.forall_mem_append] at ha
    exact h.join (h.join (h.draft left ha.2.1.1) (h.draft right ha.2.1.2)) (h.draft op ha.2.2)
  | .unaryOp op operand, ha => by
    simp only [visited, List.forall_mem_cons, List.forall_mem_append] at ha
    exact h.join (h.draft operand ha.2.1) (h.draft op ha.2.2)
  | .subscript value slice _, ha => by
    simp only [visited, List.forall_mem_cons, List.forall_mem_append] at ha
    exact h.join (h.draft value ha.2.1) (h.draft slice ha.2.2)
  | .call func args _, ha => by
    simp only [visited, List.forall_mem_cons, List.forall_mem_append] at ha
    exact h.join (h.join (h.draft func ha.2.1) (h.draft args ha.2.2)) (h.counted _ rfl args.count?)
  | .extended _ _ node, ha => h.draft node ha
  | .other cls fields, ha => by
    simp only [visited, List.forall_mem_cons] at ha
    rw [Tree.draft]
    split
    · exact h.join (h.draftIndex fields ha.2) (h.plain .index 0 rfl)
    · exact h.failure
theorem draftIndex (h : StableOn A P) : ∀ fs : List (String × Tree),
    (∀ s ∈ visitedIn fs, A s) → P (Tree.draftIndex fs)
  | [], _ => h.failure
  | (f, t) :: fs, ha => by
    rw [visitedIn] at ha
    rw [Tree.draftIndex]
    split at ha
    · next hf => exact if_pos hf ▸ h.draft t ha
    · next hf => exact if_neg hf ▸ h.draftIndex fs ha
theorem draftItems (h : StableOn A P) : ∀ ts : List Tree,
    (∀ s ∈ (visitedEach ts).flatten, A s) → P (Tree.draftItems ts)
  | [], _ => h.nil
  | t :: ts, ha => by
    rw [visitedEach, List.flatten_cons, List.forall_mem_append] at ha
    unfold Tree.draftItems
    split
    · next heq => cases heq
    · exact h.failure
    · next heq =>
      cases heq
      exact h.join (h.draft t ha.1) (h.draftItems ts ha.2)
theorem items (h : StableOn A P) : ∀ (t : Tree) (items : List Tree), t = .list items →
    List.Forall₂ (fun vs d => (∀ s ∈ vs, A s) → P d) (visitedEach items) (draftEach items)
  | .list _, items, rfl => h.draftEach items
theorem draftEach (h : StableOn A P) : ∀ ts : List Tree,
    List.Forall₂ (fun vs d => (∀ s ∈ vs, A s) → P d) (visitedEach ts) (Tree.draftEach ts)
  | [] => .nil
  | t :: ts => .cons (h.draft t) (h.draftEach ts)
end

end Draft.StableOn

/-! ### Single lines -/

/-- All lines of a draft satisfy a predicate. -/
def Draft.All (L : Line → Prop) (d : Draft (List Line)) : Prop :=
  ∀ p ls q, d p = some (ls, q) → ∀ l ∈ ls, L l

namespace Draft.All

variable {L : Line → Prop} {d e : Draft (List Line)}

theorem lines {ls : List Line} (h : ∀ l ∈ ls, L l) : All L (lines ls) := by
  intro p ms q hd
  obtain ⟨rfl, -⟩ := lines_eq_some.1 hd
  exact h

theorem join (hd : All L d) (he : All L e) : All L (d ++ e) := by
  intro p ls q h
  obtain ⟨ms, ns, r, hms, hns, rfl⟩ := join_eq_some.1 h
  exact List.forall_mem_append.2 ⟨hd p ms r hms, he r ns q hns⟩

theorem bind {α : Type} {c : Draft α} {g : α → Draft (List Line)} (h : ∀ a, All L (g a)) :
    All L (c >>= g) := by
  intro p ls q hd
  obtain ⟨a, r, -, ha⟩ := bind_eq_some.1 hd
  exact h a r ls q ha

theorem update {n : Name} (hload : ∀ i, L (.name .load i n)) (hstore : ∀ i, L (.name .store i n))
    (hd : All L d) (he : All L e) : All L (Draft.update (some n) d e) :=
  bind fun i => (((lines (by simp [hload])).join hd).join he).join (lines (by simp [hstore]))

/-- It is enough to look at the lines that use a table: what variables are used for is in the
visited nodes. -/
theorem stableOn {A : Tree → Prop} (hfree : ∀ l : Line, l.free = true → L l)
    (hconst : ∀ i v, L (.const i v))
    (hname : ∀ t use n i, A t → (use, n) ∈ t.uses → L (.name use i n)) : StableOn A (All L) := by
  have free : ∀ {ls : List Line}, (∀ l ∈ ls, l.free = true) → All L (Draft.lines ls) :=
    fun h => lines fun l hl => hfree l (h l hl)
  constructor
  case failure => nofun
  case nil => exact free (by simp)
  case plain => exact fun _ _ _ => free (by simp [Line.free])
  case const => exact fun _ => bind fun i => lines (by simp [hconst])
  case useName => exact fun ha huse => bind fun i => lines (by simp [hname _ _ _ i ha huse])
  case join => exact join
  case update =>
    intro target op value n d e ha hid
    exact update (fun i => hname _ _ _ i ha (by simp [Tree.uses, hid]))
      fun i => hname _ _ _ i ha (by simp [Tree.uses, hid])
  case conditional =>
    intro test body orelse d e f _ hd he hf
    refine bind fun otherwise => bind fun done => ?_
    exact ((((hd.join (free (by simp [Line.free]))).join he).join
      (free (by simp [Line.free]))).join hf).join (free (by simp [Line.free]))
  case whileLoop =>
    intro test body orelse d e _ hd he
    refine bind fun again => bind fun done => ?_
    exact ((((free (by simp [Line.free])).join hd).join (free (by simp [Line.free]))).join he).join
      (free (by simp [Line.free]))
  case forLoop =>
    intro target iter body orelse d e f _ hd he hf
    refine bind fun again => bind fun done => ?_
    exact (((hd.join (free (by simp [Line.free]))).join he).join hf).join
      (free (by simp [Line.free]))

end Draft.All
end Stackwise
