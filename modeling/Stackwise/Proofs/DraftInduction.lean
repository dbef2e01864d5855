import Stackwise.Proofs.Emission

/-!
# Induction over drafts

The draft of a tree is put together in a few ways: one draft after another, conditionals, loops,
changes of a variable. A property of drafts that all of these keep holds of the draft of every tree:
`Draft.Stable.draft`. The property may depend on the constants that the code loads, in order, which
`Tree.loads` reads off the tree.
-/
namespace Stackwise

/-! ### Constants and names of a tree -/

namespace Tree

mutual
/-- The values of the constants in a tree. -/
def constants : Tree → List Value
  | .missing | .leaf _ | .pass | .binaryOperator _ | .unaryOperator _ | .context _ => []
  | .list items => constantsOf items
  | .module body | .interactive body => constants body
  | .expr value | .index value | .sealedIndex value => constants value
  | .assign targets value => constants targets ++ constants value
  | .augAssign target op value => constants target ++ constants op ++ constants value
  | .delete targets => constants targets
  | .ifStmt test body orelse | .ifExp test body orelse | .whileLoop test body orelse =>
    constants test ++ constants body ++ constants orelse
  | .forLoop target iter body orelse =>
    constants target ++ constants iter ++ constants body ++ constants orelse
  | .name id ctx => constants id ++ constants ctx
  | .constant value => value.toList
  | .tuple elts ctx | .listDisplay elts ctx => constants elts ++ constants ctx
  | .setDisplay elts => constants elts
  | .dictDisplay keys values => constants keys ++ constants values
  | .binOp left op right => constants left ++ constants op ++ constants right
  | .unaryOp op operand => constants op ++ constants operand
  | .subscript value slice ctx => constants value ++ constants slice ++ constants ctx
  | .call func args keywords => constants func ++ constants args ++ constants keywords
  | .extended id note node => constants id ++ constants note ++ constants node
  | .other _ fields => constantsIn fields
/-- The values of the constants in several trees. -/
def constantsOf : List Tree → List Value
  | [] => []
  | t :: ts => constants t ++ constantsOf ts
/-- The values of the constants in named fields. -/
def constantsIn : List (String × Tree) → List Value
  | [] => []
  | (_, t) :: fs => constants t ++ constantsIn fs
end

/-- The name that a field for an identifier holds, if there is such a field. -/
def nameIn : Tree → List Name
  | .missing => []
  | id => [id.toName]

mutual
/-- The names that a tree holds in its identifiers. -/
def identifiers : Tree → List Name
  | .missing | .leaf _ | .pass | .binaryOperator _ | .unaryOperator _ | .context _ => []
  | .constant _ => []
  | .list items => identifiersOf items
  | .module body | .interactive body => identifiers body
  | .expr value | .index value | .sealedIndex value => identifiers value
  | .assign targets value => identifiers targets ++ identifiers value
  | .augAssign target op value => identifiers target ++ identifiers op ++ identifiers value
  | .delete targets => identifiers targets
  | .ifStmt test body orelse | .ifExp test body orelse | .whileLoop test body orelse =>
    identifiers test ++ identifiers body ++ identifiers orelse
  | .forLoop target iter body orelse =>
    identifiers target ++ identifiers iter ++ identifiers body ++ identifiers orelse
  | .name id _ => nameIn id
  | .tuple elts _ | .listDisplay elts _ => identifiers elts
  | .setDisplay elts => identifiers elts
  | .dictDisplay keys values => identifiers keys ++ identifiers values
  | .binOp left op right => identifiers left ++ identifiers op ++ identifiers right
  | .unaryOp op operand => identifiers op ++ identifiers operand
  | .subscript value slice _ => identifiers value ++ identifiers slice
  | .call func args keywords => identifiers func ++ identifiers args ++ identifiers keywords
  | .extended id note node => nameIn id ++ identifiers note ++ identifiers node
  | .other _ fields => (fields.lookup "id").toList.map toName ++ identifiersIn fields
/-- The names in several trees. -/
def identifiersOf : List Tree → List Name
  | [] => []
  | t :: ts => identifiers t ++ identifiersOf ts
/-- The names in fields. -/
def identifiersIn : List (String × Tree) → List Name
  | [] => []
  | (_, t) :: fs => identifiers t ++ identifiersIn fs
end

theorem identifier?_mem : ∀ {t : Tree} {n : Name}, t.identifier? = some n → n ∈ t.identifiers
  | .name id ctx, n, h => by
    cases id <;> simp_all [identifier?, identifier, identifiers, nameIn, Except.toOption]
  | .extended id note node, n, h => by
    cases id with
    | missing =>
      have hnode : node.identifier? = some n := h
      simp [identifiers, identifier?_mem hnode]
    | _ => simp_all [identifier?, identifier, identifiers, nameIn, Except.toOption]
  | .other cls fields, n, h => by
    cases hid : fields.lookup "id" <;>
      simp_all [identifier?, identifier, identifiers, Except.toOption]
  | .missing, n, h | .leaf _, n, h | .list _, n, h | .module _, n, h | .interactive _, n, h
  | .expr _, n, h | .assign _ _, n, h | .augAssign _ _ _, n, h | .delete _, n, h | .pass, n, h
  | .ifStmt _ _ _, n, h | .ifExp _ _ _, n, h | .whileLoop _ _ _, n, h | .forLoop _ _ _ _, n, h
  | .constant _, n, h | .tuple _ _, n, h | .listDisplay _ _, n, h | .setDisplay _, n, h
  | .dictDisplay _ _, n, h | .binOp _ _ _, n, h | .unaryOp _ _, n, h | .subscript _ _ _, n, h
  | .index _, n, h | .sealedIndex _, n, h | .call _ _ _, n, h | .binaryOperator _, n, h
  | .unaryOperator _, n, h | .context _, n, h => by
    simp [identifier?, identifier, Except.toOption] at h

/-- The constants of the entries of a dictionary, each value before its key. -/
def entryLoads : List (List Value) → List (List Value) → List Value
  | k :: ks, v :: vs => v ++ k ++ entryLoads ks vs
  | _, _ => []

mutual
/-- The constants that the code of a tree loads, in the order of the code. -/
def loads : Tree → List Value
  | .missing | .leaf _ | .pass | .binaryOperator _ | .unaryOperator _ | .context _ => []
  | .delete _ | .name _ _ => []
  | .list items => loadsOf items
  | .module body | .interactive body => (loadParts body).flatten
  | .expr value | .index value | .sealedIndex value => loads value
  | .assign targets value => loads value ++ (loadParts targets).flatten
  | .augAssign _ op value => loads value ++ loads op
  | .ifStmt test body orelse | .ifExp test body orelse => loads test ++ loads body ++ loads orelse
  | .whileLoop test body _ => loads test ++ loads body
  | .forLoop target iter body _ => loads iter ++ loads target ++ loads body
  | .constant value => value.toList
  | .tuple elts _ | .listDisplay elts _ | .setDisplay elts => (loadParts elts).flatten
  | .dictDisplay keys values =>
    let n := keys.count?.getD 0
    entryLoads (firstLoads keys n) (firstLoads values n)
  | .binOp left op right => loads left ++ loads right ++ loads op
  | .unaryOp op operand => loads operand ++ loads op
  | .subscript value slice _ => loads value ++ loads slice
  | .call func args _ => loads func ++ loads args
  | .extended _ _ node => loads node
  | .other _ fields => loadsIn fields
/-- The constants of the index among the fields of an index node. -/
def loadsIn : List (String × Tree) → List Value
  | [] => []
  | (f, t) :: fs => if f == "value" then loads t else loadsIn fs
/-- The constants of several trees. -/
def loadsOf : List Tree → List Value
  | [] => []
  | t :: ts => loads t ++ loadsOf ts
/-- The constants of each item of a field. -/
def loadParts : Tree → List (List Value)
  | .list items => loadsEach items
  | .leaf v => (v.each?.map (List.map fun _ => [])).getD [[]]
  | _ => [[]]
/-- The constants of each item of a field at its first places. -/
def firstLoads (t : Tree) (n : Nat) : List (List Value) :=
  match t with
  | .list items => loadsEach items
  | .leaf _ => (List.range n).map fun _ => []
  | _ => [[]]
/-- The constants of each of several trees. -/
def loadsEach : List Tree → List (List Value)
  | [] => []
  | t :: ts => loads t :: loadsEach ts
end

end Tree

/-! ### What drafts are put together from -/

/-- Whether a line stands for no entry of a table. -/
def Line.free : Line → Bool
  | .const _ _ | .name _ _ _ => false
  | _ => true

/-- A property of drafts, and of the constants that they load, that is kept when drafts are put
together. Constants and names in them satisfy a predicate each. -/
structure Draft.Stable (C : Value → Prop) (N : Name → Prop)
    (P : List Value → Draft (List Line) → Prop) : Prop where
  failure (vs : List Value) : P vs failure
  nil : P [] (lines [])
  plain (op : Opcode) (arg : Nat) (isPlain : op.isPlain = true) :
    P [] (lines [.plain op arg isPlain])
  const {v : Value} : C v → P [v] (do let i ← addConst v; lines [.const i v])
  useName (use : NameUse) {n : Name} : N n → P [] (useName use n)
  join {xs ys : List Value} {d e : Draft (List Line)} : P xs d → P ys e → P (xs ++ ys) (d ++ e)
  update {n : Name} {xs ys : List Value} {d e : Draft (List Line)} :
    N n → P xs d → P ys e → P (xs ++ ys) (update (some n) d e)
  conditional {xs ys zs : List Value} {d e f : Draft (List Line)} :
    P xs d → P ys e → P zs f → P (xs ++ ys ++ zs) (conditional d e f)
  whileLoop {xs ys : List Value} {d e : Draft (List Line)} :
    P xs d → P ys e → P (xs ++ ys) (whileLoop d e)
  forLoop {xs ys zs : List Value} {d e f : Draft (List Line)} :
    P xs d → P ys e → P zs f → P (xs ++ ys ++ zs) (forLoop d e f)

/-- A property that does not depend on the markers and the lines that use no table. -/
theorem Draft.Stable.of_free {C : Value → Prop} {N : Name → Prop}
    {P : List Value → Draft (List Line) → Prop} (failure : ∀ vs, P vs Alternative.failure)
    (lines : ∀ {ls : List Line}, (∀ l ∈ ls, l.free = true) → P [] (Draft.lines ls))
    (const : ∀ {v}, C v → P [v] (do let i ← addConst v; Draft.lines [.const i v]))
    (useName : ∀ use {n}, N n → P [] (Draft.useName use n))
    (join : ∀ {xs ys d e}, P xs d → P ys e → P (xs ++ ys) (d ++ e))
    (update : ∀ {n xs ys d e}, N n → P xs d → P ys e → P (xs ++ ys) (Draft.update (some n) d e))
    (fresh : ∀ {vs g}, (∀ m, P vs (g m)) → P vs (freshMarker >>= g)) : Stable C N P := by
  have between : ∀ {xs ys d e ls}, (∀ l ∈ ls, l.free = true) → P xs d → P ys e →
      P (xs ++ ys) (d ++ Draft.lines ls ++ e) := by
    intro xs ys d e ls hls hd he
    simpa using join (join hd (lines hls)) he
  have after : ∀ {xs d ls}, (∀ l ∈ ls, l.free = true) → P xs d → P xs (d ++ Draft.lines ls) := by
    intro xs d ls hls hd
    simpa using join hd (lines hls)
  refine ⟨failure, lines (by simp), fun _ _ _ => lines (by simp [Line.free]), const, useName, join,
    update, ?_, ?_, ?_⟩
  · intro xs ys zs d e f hd he hf
    refine fresh fun otherwise => fresh fun done => ?_
    exact after (by simp [Line.free])
      (between (by simp [Line.free]) (between (by simp [Line.free]) hd he) hf)
  · intro xs ys d e hd he
    refine fresh fun again => fresh fun done => ?_
    exact after (by simp [Line.free])
      (between (by simp [Line.free]) (join (lines (by simp [Line.free])) hd) he)
  · intro xs ys zs d e f hd he hf
    refine fresh fun again => fresh fun done => ?_
    exact after (by simp [Line.free]) (join (between (by simp [Line.free]) hd he) hf)

namespace Draft.Stable

variable {C : Value → Prop} {N : Name → Prop} {P : List Value → Draft (List Line) → Prop}
  (h : Stable C N P)
include h

theorem counted (op : Opcode) (isPlain : op.isPlain = true) (n? : Option Nat) :
    P [] (Draft.counted op isPlain n?) := by
  cases n? with
  | none => exact h.failure []
  | some n => exact h.plain op n isPlain

theorem concat {vss : List (List Value)} {ds : List (Draft (List Line))}
    (hds : List.Forall₂ P vss ds) : P vss.flatten (Draft.concat ds) := by
  induction hds with
  | nil => exact h.nil
  | cons hd _ ih => exact h.join hd ih

theorem targets {vss : List (List Value)} {ds : List (Draft (List Line))}
    (hds : List.Forall₂ P vss ds) : P vss.flatten (Draft.targets ds) := by
  induction hds with
  | nil => exact h.nil
  | cons hd hds ih =>
    cases hds with
    | nil => simpa [Draft.targets] using hd
    | cons hd' hds => exact h.join (h.join (h.plain .dupTop 0 rfl) hd) ih

theorem entries {kss vss : List (List Value)} {ks vs : List (Draft (List Line))}
    (hks : List.Forall₂ P kss ks) (hvs : List.Forall₂ P vss vs) :
    P (Tree.entryLoads kss vss) (Draft.entries ks vs) := by
  induction hks generalizing vss vs with
  | nil =>
    rw [Tree.entryLoads, Draft.entries]
    · exact h.nil
    · simp
  | cons hk _ ih =>
    cases hvs with
    | nil => exact h.failure _
    | cons hv hvs => exact h.join (h.join hv hk) (ih hvs)

theorem counted_parts {vss : List (List Value)} {ds : List (Draft (List Line))}
    (hds : List.Forall₂ P vss ds) (op : Opcode) (isPlain : op.isPlain = true) (n? : Option Nat) :
    P vss.flatten (Draft.concat ds ++ Draft.counted op isPlain n?) := by
  simpa using h.join (h.concat hds) (h.counted op isPlain n?)

/-! ### Trees -/

open Stackwise.Tree

theorem draftDelete {t : Tree} (hn : ∀ n ∈ t.identifiers, N n) : P [] t.draftDelete := by
  unfold Tree.draftDelete
  split
  · next n hid => exact h.useName .delete (hn n (identifier?_mem hid))
  · exact h.failure []

theorem delete {targets : Tree} (hn : ∀ n ∈ targets.identifiers, N n) :
    P [] (Tree.delete targets).draft := by
  cases targets with
  | list items =>
    have hitems : List.Forall₂ P (items.map fun _ => []) (items.map Tree.draftDelete) := by
      rw [identifiers] at hn
      induction items with
      | nil => exact .nil
      | cons t ts ih =>
        rw [identifiersOf, List.forall_mem_append] at hn
        exact .cons (h.draftDelete hn.1) (ih hn.2)
    simpa [draft, List.flatten_eq_nil_iff] using h.concat hitems
  | leaf v =>
    rw [draft]
    split
    · exact h.nil
    · exact h.failure []
  | _ => exact h.failure []

theorem name {id : Tree} (ctx : Tree) (hn : ∀ n ∈ nameIn id, N n) :
    P [] (Tree.name id ctx).draft := by
  by_cases hid : id = .missing
  · subst hid
    exact h.failure []
  · have hname : N id.toName := hn _ (by cases id <;> simp_all [nameIn])
    cases ctx with
    | context c =>
      cases c with
      | load => cases id <;> first | exact h.useName _ hname | exact absurd rfl hid
      | store => cases id <;> first | exact h.useName _ hname | exact absurd rfl hid
      | del => cases id <;> exact h.failure []
    | _ => cases id <;> exact h.failure []

theorem update? {target : Tree} (hn : ∀ n ∈ target.identifiers, N n) {xs ys : List Value}
    {d e : Draft (List Line)} (hd : P xs d) (he : P ys e) :
    P (xs ++ ys) (Draft.update target.identifier? d e) := by
  cases hid : target.identifier? with
  | none => exact h.failure _
  | some n => exact h.update (hn n (identifier?_mem hid)) hd he

theorem draftPlain (v : Value) : P [] (draftPlain v) := by
  unfold Tree.draftPlain
  split
  · exact h.nil
  · exact h.failure []

/-- What holds of the items of a list holds of the parts of a field. -/
theorem parts_of_items {t : Tree}
    (ht : ∀ items, t = .list items → List.Forall₂ P (loadsEach items) (draftEach items)) :
    List.Forall₂ P t.loadParts t.parts := by
  have fails : List.Forall₂ P [[]] [Alternative.failure] := .cons (h.failure []) .nil
  cases t with
  | list items => exact ht items rfl
  | leaf v =>
    rw [loadParts, parts]
    cases v.each? with
    | some vs =>
      rw [Option.map_some, Option.map_some, Option.getD_some, Option.getD_some,
        List.forall₂_map_left_iff, List.forall₂_map_right_iff]
      exact List.forall₂_same.2 fun v _ => h.draftPlain v
    | none => exact fails
  | _ => exact fails

theorem firsts_of_items {t : Tree}
    (ht : ∀ items, t = .list items → List.Forall₂ P (loadsEach items) (draftEach items)) (n : Nat) :
    List.Forall₂ P (t.firstLoads n) (t.firsts n) := by
  cases t with
  | list items => exact ht items rfl
  | leaf v =>
    rw [firstLoads, firsts, draftAt, List.forall₂_map_left_iff, List.forall₂_map_right_iff]
    refine List.forall₂_same.2 fun i _ => ?_
    cases v.index (.int i) with
    | ok w => exact h.draftPlain w
    | error f => exact h.failure []
  | _ => exact .cons (h.failure []) .nil

theorem dict {keys values : Tree}
    (hkeys : ∀ n, List.Forall₂ P (keys.firstLoads n) (keys.firsts n))
    (hvalues : ∀ n, List.Forall₂ P (values.firstLoads n) (values.firsts n)) :
    let n := keys.count?.getD 0
    P (entryLoads (keys.firstLoads n) (values.firstLoads n))
      (if keys.count? = some 0 then Draft.lines [] else
        Draft.entries (keys.firsts n) (values.firsts n)) := by
  intro n
  split
  · next hcount =>
    have hempty : keys.firstLoads n = [] := by
      cases keys with
      | list items => cases items <;> simp_all [count?, firstLoads, loadsEach]
      | leaf v => simp [n, hcount, firstLoads]
      | _ => cases hcount
    rw [hempty, entryLoads]
    · exact h.nil
    · simp
  · exact h.entries (hkeys n) (hvalues n)

omit h in
mutual
/-- A property that is kept when drafts are put together holds of the drafts of trees. -/
theorem draft (h : Stable C N P) : ∀ t : Tree, (∀ v ∈ t.constants, C v) →
    (∀ n ∈ t.identifiers, N n) → P t.loads t.draft
  | .missing, _, _ | .leaf _, _, _ | .context _, _, _ | .constant none, _, _ => h.failure _
  | .pass, _, _ => h.nil
  | .list items, hc, hn => h.draftItems items hc hn
  | .module body, hc, hn | .interactive body, hc, hn =>
    h.concat (h.parts_of_items fun items hi => h.items body items hi hc hn)
  | .expr value, hc, hn | .index value, hc, hn | .sealedIndex value, hc, hn => by
    simpa [loads, Tree.draft] using h.join (h.draft value hc hn) (h.plain _ 0 rfl)
  | .assign targets value, hc, hn => by
    simp only [constants, identifiers, List.forall_mem_append] at hc hn
    rw [Tree.draft]
    split
    · exact h.join (h.draft value hc.2 hn.2)
        (h.targets (h.parts_of_items fun items hi => h.items targets items hi hc.1 hn.1))
    · exact h.failure _
  | .augAssign target op value, hc, hn => by
    simp only [constants, identifiers, List.forall_mem_append] at hc hn
    exact h.update? hn.1.1 (h.draft value hc.2 hn.2) (h.draft op hc.1.2 hn.1.2)
  | .delete _, _, hn => h.delete hn
  | .ifStmt test body orelse, hc, hn | .ifExp test body orelse, hc, hn => by
    simp only [constants, identifiers, List.forall_mem_append] at hc hn
    exact h.conditional (h.draft test hc.1.1 hn.1.1) (h.draft body hc.1.2 hn.1.2)
      (h.draft orelse hc.2 hn.2)
  | .whileLoop test body _, hc, hn => by
    simp only [constants, identifiers, List.forall_mem_append] at hc hn
    exact h.whileLoop (h.draft test hc.1.1 hn.1.1) (h.draft body hc.1.2 hn.1.2)
  | .forLoop target iter body orelse, hc, hn => by
    simp only [constants, identifiers, List.forall_mem_append] at hc hn
    rw [Tree.draft]
    split
    · exact h.forLoop (h.draft iter hc.1.1.2 hn.1.1.2) (h.draft target hc.1.1.1 hn.1.1.1)
        (h.draft body hc.1.2 hn.1.2)
    · exact h.failure _
  | .name _ ctx, _, hn => h.name ctx hn
  | .constant (some v), hc, _ => h.const (hc v (by simp [constants]))
  | .tuple elts _, hc, hn | .listDisplay elts _, hc, hn => by
    simp only [constants, List.forall_mem_append] at hc
    exact h.counted_parts (h.parts_of_items fun items hi => h.items elts items hi hc.1 hn) _ _ _
  | .setDisplay elts, hc, hn =>
    h.counted_parts (h.parts_of_items fun items hi => h.items elts items hi hc hn) _ _ _
  | .dictDisplay keys values, hc, hn => by
    simp only [constants, identifiers, List.forall_mem_append] at hc hn
    have hkeys := h.firsts_of_items fun items hi => h.items keys items hi hc.1 hn.1
    have hvalues := h.firsts_of_items fun items hi => h.items values items hi hc.2 hn.2
    have hentries := h.join (h.dict hkeys hvalues) (h.counted .buildDict rfl keys.count?)
    rwa [List.append_nil] at hentries
  | .binOp left op right, hc, hn => by
    simp only [constants, identifiers, List.forall_mem_append] at hc hn
    exact h.join (h.join (h.draft left hc.1.1 hn.1.1) (h.draft right hc.2 hn.2))
      (h.draft op hc.1.2 hn.1.2)
  | .unaryOp op operand, hc, hn => by
    simp only [constants, identifiers, List.forall_mem_append] at hc hn
    exact h.join (h.draft operand hc.2 hn.2) (h.draft op hc.1 hn.1)
  | .subscript value slice _, hc, hn => by
    simp only [constants, identifiers, List.forall_mem_append] at hc hn
    exact h.join (h.draft value hc.1.1 hn.1) (h.draft slice hc.1.2 hn.2)
  | .call func args _, hc, hn => by
    simp only [constants, identifiers, List.forall_mem_append] at hc hn
    have hcall := h.join (h.join (h.draft func hc.1.1 hn.1.1) (h.draft args hc.1.2 hn.1.2))
      (h.counted .callFunction rfl args.count?)
    rwa [List.append_nil] at hcall
  | .binaryOperator _, _, _ | .unaryOperator _, _, _ => h.plain _ 0 rfl
  | .extended _ _ node, hc, hn => by
    simp only [constants, identifiers, List.forall_mem_append] at hc hn
    exact h.draft node hc.2 hn.2
  | .other cls fields, hc, hn => by
    simp only [identifiers, List.forall_mem_append] at hn
    rw [Tree.draft]
    split
    · simpa [loads] using h.join (h.draftIndex fields hc hn.2) (h.plain .index 0 rfl)
    · exact h.failure _
theorem draftIndex (h : Stable C N P) : ∀ fs : List (String × Tree),
    (∀ v ∈ constantsIn fs, C v) → (∀ n ∈ identifiersIn fs, N n) →
      P (loadsIn fs) (Tree.draftIndex fs)
  | [], _, _ => h.failure _
  | (f, t) :: fs, hc, hn => by
    simp only [constantsIn, identifiersIn, List.forall_mem_append] at hc hn
    rw [loadsIn, Tree.draftIndex]
    split
    · exact h.draft t hc.1 hn.1
    · exact h.draftIndex fs hc.2 hn.2
theorem draftItems (h : Stable C N P) : ∀ ts : List Tree, (∀ v ∈ constantsOf ts, C v) →
    (∀ n ∈ identifiersOf ts, N n) → P (loadsOf ts) (Tree.draftItems ts)
  | [], _, _ => h.nil
  | t :: ts, hc, hn => by
    simp only [constantsOf, identifiersOf, List.forall_mem_append] at hc hn
    unfold Tree.draftItems
    split
    · next heq => cases heq
    · exact h.failure _
    · next heq =>
      cases heq
      exact h.join (h.draft t hc.1 hn.1) (h.draftItems ts hc.2 hn.2)
theorem items (h : Stable C N P) : ∀ (t : Tree) (items : List Tree), t = .list items →
    (∀ v ∈ t.constants, C v) → (∀ n ∈ t.identifiers, N n) →
      List.Forall₂ P (loadsEach items) (draftEach items)
  | .list _, items, rfl, hc, hn => h.draftEach items hc hn
theorem draftEach (h : Stable C N P) : ∀ ts : List Tree, (∀ v ∈ constantsOf ts, C v) →
    (∀ n ∈ identifiersOf ts, N n) → List.Forall₂ P (loadsEach ts) (Tree.draftEach ts)
  | [], _, _ => .nil
  | t :: ts, hc, hn => by
    simp only [constantsOf, identifiersOf, List.forall_mem_append] at hc hn
    exact .cons (h.draft t hc.1 hn.1) (h.draftEach ts hc.2 hn.2)
end

end Draft.Stable

end Stackwise
