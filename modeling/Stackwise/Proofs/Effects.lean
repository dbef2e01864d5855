import Stackwise.Proofs.Emission

/-!
# What visiting a tree does to the tables

Visiting goes through a tree in one order and stops at the first fault, whatever was done before. So
all that can be seen of it in the tables is a list of effects (`Tree.effects`): names and constants
that are looked for, and faults. The effects up to the first fault are carried out, and that fault
is the result: `Tree.emit_enacts`, for every tree. Labels never get in the way, since the markers
of a tree are new ones.
-/
namespace Stackwise

/-- Something that an action does to the tables, or the end of it. -/
inductive Effect where
  | name (n : Name)
  | const (v : Value)
  | fault (f : Fault)

/-- The fault of a result, if it is one. -/
def faultOf? {α : Type} : Except Fault α → Option Fault
  | .ok _ => none
  | .error f => some f

@[simp] theorem faultOf?_ok {α : Type} (a : α) : faultOf? (.ok a) = none := rfl

@[simp] theorem faultOf?_error {α : Type} (f : Fault) :
    faultOf? (.error f : Except Fault α) = some f := rfl

namespace Effect

/-- The fault that ends an action here: names and constants have to be keys. -/
def fault? : Effect → Option Fault
  | .name n => faultOf? n.checkKey
  | .const v => faultOf? v.checkKey
  | .fault f => some f

/-- The effects that are carried out. -/
def done (es : List Effect) : List Effect := es.takeWhile fun e => e.fault?.isNone

/-- The fault that effects end with. -/
def end? (es : List Effect) : Option Fault := es.findSome? fault?

variable {es fs : List Effect}

theorem end?_append : end? (es ++ fs) = (end? es).or (end? fs) := List.findSome?_append

theorem end?_eq_none : end? es = none ↔ ∀ e ∈ es, e.fault? = none := List.findSome?_eq_none_iff

theorem done_append_of_none (h : end? es = none) : done (es ++ fs) = es ++ done fs := by
  rw [end?_eq_none] at h
  exact List.takeWhile_append_of_pos fun e he => by simp [h e he]

theorem done_eq_self (h : end? es = none) : done es = es := by
  simpa [done] using @done_append_of_none es [] h

theorem done_append_of_some {f : Fault} (h : end? es = some f) : done (es ++ fs) = done es := by
  induction es with
  | nil => cases h
  | cons e es ih =>
    rw [end?, List.findSome?_cons] at h
    cases he : e.fault? with
    | some g => simp [done, he]
    | none =>
      rw [he] at h
      have hrest : done (es ++ fs) = done es := ih h
      simpa [done, he] using hrest

end Effect

/-! ### Tables -/

/-- A table after an item is looked for: it is added if nothing there is the same. -/
def intern {α : Type} (same : α → α → Bool) (table : List α) (x : α) : List α :=
  if table.any (same · x) then table else table ++ [x]

/-- Looking for an item as assemblers do, by its index. -/
theorem intern_of_some {α : Type} {same : α → α → Bool} {table : List α} {x : α} {i : Nat}
    (h : table.findIdx? (same · x) = some i) : intern same table x = table := by
  have hany : table.any (same · x) = true := by
    rw [← List.findIdx?_isSome, h]
    rfl
  exact if_pos hany

theorem intern_of_none {α : Type} {same : α → α → Bool} {table : List α} {x : α}
    (h : table.findIdx? (same · x) = none) : intern same table x = table ++ [x] := by
  have hany : ¬ table.any (same · x) = true := by
    rw [← List.findIdx?_isSome, h]
    simp
  exact if_neg hany

/-- The names and constants that an assembler has. -/
structure Tables where
  names : List Name
  consts : List Value

namespace Tables

/-- The tables after an effect. -/
def enter (t : Tables) : Effect → Tables
  | .name n => { t with names := intern (· == ·) t.names n }
  | .const v => { t with consts := intern Value.sameConstant t.consts v }
  | .fault _ => t

/-- The tables after several effects. -/
def enterAll (t : Tables) (es : List Effect) : Tables := es.foldl enter t

theorem enterAll_append (t : Tables) (es fs : List Effect) :
    t.enterAll (es ++ fs) = (t.enterAll es).enterAll fs := List.foldl_append

end Tables

namespace Assembler

def tables (a : Assembler) : Tables := ⟨a.names.toList, a.consts.toList⟩

/-- Markers that are not made yet have no labels. -/
def Fresh (a : Assembler) : Prop := ∀ k, a.made ≤ k → a.labels.lookup (.fresh k) = none

/-- Markers that are made and have no labels yet. -/
def Unlabelled (ks : List Nat) (a : Assembler) : Prop :=
  ∀ k ∈ ks, k < a.made ∧ a.labels.lookup (.fresh k) = none

/-- Of the markers that were made before, only those in the list get labels. -/
structure Keeps (ks : List Nat) (a b : Assembler) : Prop where
  made : a.made ≤ b.made
  fresh : b.Fresh
  labels : ∀ k < a.made, k ∉ ks → b.labels.lookup (.fresh k) = a.labels.lookup (.fresh k)

theorem Keeps.refl {a : Assembler} (h : a.Fresh) : Keeps [] a a := ⟨Nat.le_refl _, h, by simp⟩

theorem Keeps.trans {ks ls : List Nat} {a b c : Assembler} (h : Keeps ks a b) (h' : Keeps ls b c) :
    Keeps (ks ++ ls) a c where
  made := Nat.le_trans h.made h'.made
  fresh := h'.fresh
  labels k hk hnot := by
    rw [List.mem_append, not_or] at hnot
    rw [h'.labels k (Nat.lt_of_lt_of_le hk h.made) hnot.2, h.labels k hk hnot.1]

theorem Keeps.mono {ks ls : List Nat} {a b : Assembler} (h : Keeps ks a b) (hsub : ks ⊆ ls) :
    Keeps ls a b :=
  ⟨h.made, h.fresh, fun k hk hnot => h.labels k hk fun hmem => hnot (hsub hmem)⟩

theorem Keeps.unlabelled {ks ls : List Nat} {a b : Assembler} (h : Keeps ks a b)
    (hls : a.Unlabelled ls) (hdisjoint : ks.Disjoint ls) : b.Unlabelled ls := by
  intro k hk
  obtain ⟨hlt, hnone⟩ := hls k hk
  refine ⟨Nat.lt_of_lt_of_le hlt h.made, ?_⟩
  rw [h.labels k hlt fun hmem => hdisjoint hmem hk, hnone]

end Assembler

/-! ### Actions and their effects -/

/-- An action has certain effects, where the markers in the list are to get labels. -/
def Emit.Enacts {α : Type} (ks : List Nat) (e : Emit α) (es : List Effect) : Prop :=
  ∀ a : Assembler, a.Fresh → a.Unlabelled ks →
    faultOf? (outcome e a).1 = Effect.end? es ∧
      (outcome e a).2.tables = a.tables.enterAll (Effect.done es) ∧ a.Keeps ks (outcome e a).2

namespace Emit.Enacts

variable {α β : Type} {ks ls : List Nat} {es fs : List Effect}

theorem pure (x : α) : Enacts [] (pure x : Emit α) [] := fun _ ha _ => ⟨rfl, rfl, .refl ha⟩

/-- Nothing comes after a fault. -/
theorem throw (f : Fault) (es : List Effect) : Enacts [] (throw f : Emit α) (.fault f :: es) :=
  fun _ ha _ => ⟨rfl, rfl, .refl ha⟩

theorem bind_disjoint {e : Emit α} {g : α → Emit β} (he : Enacts ks e es)
    (hg : ∀ x, Enacts ls (g x) fs) (hdisjoint : ks.Disjoint ls) :
    Enacts (ks ++ ls) (e >>= g) (es ++ fs) := by
  intro a ha hunlabelled
  obtain ⟨hresult, htables, hkeeps⟩ :=
    he a ha fun k hk => hunlabelled k (List.mem_append_left ls hk)
  rw [outcome_bind, Effect.end?_append]
  rcases hea : outcome e a with ⟨f | x, b⟩
  · rw [hea] at hresult htables hkeeps
    have hend : Effect.end? es = some f := hresult.symm
    rw [hend, Effect.done_append_of_some hend]
    exact ⟨rfl, htables, hkeeps.mono (List.subset_append_left ks ls)⟩
  · rw [hea] at hresult htables hkeeps
    have hend : Effect.end? es = none := hresult.symm
    have hrest : b.Unlabelled ls :=
      hkeeps.unlabelled (fun k hk => hunlabelled k (List.mem_append_right ks hk)) hdisjoint
    obtain ⟨hresult', htables', hkeeps'⟩ := hg x b hkeeps.fresh hrest
    rw [hend, Effect.done_append_of_none hend, Tables.enterAll_append]
    rw [Effect.done_eq_self hend] at htables
    have htables : b.tables = a.tables.enterAll es := htables
    exact ⟨hresult', htables ▸ htables', hkeeps.trans hkeeps'⟩

theorem bind {e : Emit α} {g : α → Emit β} (he : Enacts [] e es) (hg : ∀ x, Enacts ls (g x) fs) :
    Enacts ls (e >>= g) (es ++ fs) :=
  he.bind_disjoint hg (List.disjoint_nil_left ls)

/-- An action without effects after others. -/
theorem bind_nil {e : Emit α} {g : α → Emit β} (he : Enacts [] e es)
    (hg : ∀ x, Enacts ls (g x) []) : Enacts ls (e >>= g) es := by
  simpa using he.bind hg

/-- An action that only gives a result. -/
theorem bind_of_ok {e : Emit α} {g : α → Emit β} {x : α} (he : ∀ a, outcome e a = (.ok x, a))
    (hg : Enacts ls (g x) fs) : Enacts ls (e >>= g) fs := by
  intro a ha hunlabelled
  rw [outcome_bind, he, chain_ok]
  exact hg a ha hunlabelled

/-- An action that only fails. -/
theorem bind_of_error {e : Emit α} (g : α → Emit β) {f : Fault}
    (he : ∀ a, outcome e a = (.error f, a)) : Enacts [] (e >>= g) (.fault f :: fs) := by
  intro a ha _
  rw [outcome_bind, he, chain_error]
  exact ⟨rfl, rfl, .refl ha⟩

theorem append (slots : List Slot) : Enacts [] (append slots) [] :=
  fun _ ha _ => ⟨rfl, rfl, Nat.le_refl _, ha, by simp [Emit.append]⟩

theorem emit (op : Opcode) (arg : Nat) : Enacts [] (emit op arg) [] := append _

theorem emitJump (op : Opcode) (m : Marker) : Enacts [] (emitJump op m) [] := append _

/-- Looking for what has to be a key. -/
theorem entry {e : Effect} {key : Except Fault Unit} {k : Emit Nat} (hkey : e.fault? = faultOf? key)
    (hk : ∀ a, ∃ i b, outcome k a = (.ok i, b) ∧ b.tables = a.tables.enter e ∧
      b.made = a.made ∧ b.labels = a.labels) :
    Enacts [] (do ofExcept key; k) [e] := by
  intro a ha _
  cases key with
  | error f =>
    have hdone : Effect.done [e] = [] := by simp [Effect.done, hkey]
    have hend : Effect.end? [e] = some f := by simp [Effect.end?, hkey]
    rw [hdone, hend]
    exact ⟨rfl, rfl, .refl ha⟩
  | ok u =>
    have hend : Effect.end? [e] = none := by simp [Effect.end?, hkey]
    obtain ⟨i, b, hb, htables, hmade, hlabels⟩ := hk a
    have hrun : outcome (do ofExcept (.ok u); k) a = (.ok i, b) := hb
    rw [Effect.done_eq_self hend, hend, hrun]
    refine ⟨rfl, htables, Nat.le_of_eq hmade.symm, fun j hj => ?_, fun j _ _ => congrArg _ hlabels⟩
    rw [hlabels]
    exact ha j (hmade ▸ hj)

theorem addName (n : Name) : Enacts [] (addName n) [.name n] := by
  refine entry rfl fun a => ?_
  simp only [outcome_bind, outcome_get, chain_ok]
  cases hi : a.names.toList.findIdx? (· == n) with
  | some i =>
    refine ⟨i, a, rfl, ?_, rfl, rfl⟩
    simp [Assembler.tables, Tables.enter, intern_of_some hi]
  | none =>
    refine ⟨_, _, rfl, ?_, rfl, rfl⟩
    simp [Assembler.tables, Tables.enter, intern_of_none hi]

theorem addConst (v : Value) : Enacts [] (addConst v) [.const v] := by
  refine entry rfl fun a => ?_
  simp only [outcome_bind, outcome_get, chain_ok]
  cases hi : a.consts.toList.findIdx? (·.sameConstant v) with
  | some i =>
    refine ⟨i, a, rfl, ?_, rfl, rfl⟩
    simp [Assembler.tables, Tables.enter, intern_of_some hi]
  | none =>
    refine ⟨_, _, rfl, ?_, rfl, rfl⟩
    simp [Assembler.tables, Tables.enter, intern_of_none hi]

/-- A marker without a label gets one. -/
theorem label (k : Nat) : Enacts [k] (label (.fresh k)) [] := by
  intro a ha hunlabelled
  obtain ⟨hlt, hnone⟩ := hunlabelled k (List.mem_singleton_self k)
  have hother : ∀ j, j ≠ k → (a.labels ++ [(Marker.fresh k, a.code.size / 2)]).lookup (.fresh j) =
      a.labels.lookup (.fresh j) := by
    intro j hj
    have hne : (Marker.fresh j == Marker.fresh k) = false := beq_false_of_ne (by simpa)
    simp [List.lookup_append, List.lookup_cons, hne]
  have hrun : outcome (Emit.label (.fresh k)) a =
      (.ok (), { a with labels := a.labels ++ [(.fresh k, a.code.size / 2)] }) := by
    simp [Emit.label, hnone]
  rw [hrun]
  refine ⟨rfl, rfl, Nat.le_refl _, fun j hj => ?_, fun j _ hnot => hother j (by simpa using hnot)⟩
  exact (hother j (by have : a.made ≤ j := hj; omega)).trans (ha j hj)

/-- Two markers are made and used up. -/
theorem markers {g : Marker → Marker → Emit β}
    (hg : ∀ j k, j ≠ k → Enacts [j, k] (g (.fresh j) (.fresh k)) es) :
    Enacts [] (do let m ← freshMarker; let n ← freshMarker; g m n) es := by
  intro a ha _
  have hrun : outcome (do let m ← freshMarker; let n ← freshMarker; g m n) a =
      outcome (g (.fresh a.made) (.fresh (a.made + 1))) { a with made := a.made + 2 } := rfl
  have hfresh : Assembler.Fresh { a with made := a.made + 2 } :=
    fun j hj => ha j (by have : a.made + 2 ≤ j := hj; omega)
  have hunlabelled : Assembler.Unlabelled [a.made, a.made + 1] { a with made := a.made + 2 } := by
    intro j hj
    obtain rfl | rfl : j = a.made ∨ j = a.made + 1 := by simpa using hj
    · exact ⟨by change _ < _ + 2; omega, ha _ (Nat.le_refl _)⟩
    · exact ⟨by change _ < _ + 2; omega, ha _ (Nat.le_succ _)⟩
  obtain ⟨hresult, htables, hkeeps⟩ := hg a.made (a.made + 1) (by omega) _ hfresh hunlabelled
  rw [hrun]
  refine ⟨hresult, htables, ?_, hkeeps.fresh, fun j hj _ => ?_⟩
  · exact Nat.le_trans (Nat.le_add_right _ 2) hkeeps.made
  · refine hkeeps.labels j (by change _ < _ + 2; omega) ?_
    simp only [List.mem_cons, List.not_mem_nil, or_false]
    omega

section
variable {d e f : Emit Unit} {ds : List Effect} (hd : Enacts [] d ds) (he : Enacts [] e es)
include hd he

theorem emitConditional (hf : Enacts [] f fs) :
    Enacts [] (emitConditional d e f) (ds ++ (es ++ fs)) := by
  refine markers fun j k hne => hd.bind fun _ => ?_
  refine (emitJump _ _).bind fun _ => (emit _ _).bind fun _ => he.bind fun _ => ?_
  refine (emitJump _ _).bind fun _ => ?_
  refine (label j).bind_disjoint (fun _ => ?_) (by simpa using hne.symm)
  exact (emit _ _).bind fun _ => bind_nil hf fun _ => label k

theorem emitWhile : Enacts [] (emitWhile d e) (ds ++ es) := by
  refine markers fun j k hne => (label j).bind_disjoint (fun _ => ?_) (by simpa using hne.symm)
  refine hd.bind fun _ => (emitJump _ _).bind fun _ => (emit _ _).bind fun _ => bind_nil he ?_
  refine fun _ => (emitJump _ _).bind fun _ => ?_
  exact (label k).bind_disjoint (fun _ => emit _ _) (List.disjoint_nil_right _)

theorem emitFor (hf : Enacts [] f fs) : Enacts [] (emitFor d e f) (ds ++ (es ++ fs)) := by
  refine markers fun j k hne => hd.bind fun _ => (emit _ _).bind fun _ => ?_
  refine (label j).bind_disjoint (fun _ => ?_) (by simpa using hne.symm)
  refine (emitJump _ _).bind fun _ => he.bind fun _ => bind_nil hf ?_
  refine fun _ => (emitJump _ _).bind fun _ => ?_
  exact (label k).bind_disjoint (fun _ => emit _ _) (List.disjoint_nil_right _)

end

theorem runAll {as : List (Emit Unit)} {ess : List (List Effect)}
    (h : List.Forall₂ (Enacts []) as ess) : Enacts [] (runAll as) ess.flatten := by
  induction h with
  | nil => exact pure ()
  | cons ha _ ih => exact ha.bind fun _ => ih

theorem emitTargets {as : List (Emit Unit)} {ess : List (List Effect)}
    (h : List.Forall₂ (Enacts []) as ess) : Enacts [] (emitTargets as) ess.flatten := by
  induction h with
  | nil => exact pure ()
  | cons ha hs ih =>
    cases hs with
    | nil => simpa [Stackwise.emitTargets] using ha
    | cons ha' hs' => exact (emit _ _).bind fun _ => ha.bind fun _ => ih

end Emit.Enacts

/-! ### The effects of a tree -/

/-- The effects of entries of a dictionary, each value before its key. -/
def Effect.entries : List (List Effect) → List (List Effect) → List Effect
  | [], _ => []
  | k :: ks, v :: vs => v ++ (k ++ entries ks vs)
  | _ :: _, [] => [.fault (.indexRange .list)]

theorem Emit.Enacts.emitEntries {ks vs : List (Emit Unit)} {kss vss : List (List Effect)}
    (hk : List.Forall₂ (Enacts []) ks kss) (hv : List.Forall₂ (Enacts []) vs vss) :
    Enacts [] (emitEntries ks vs) (Effect.entries kss vss) := by
  induction hk generalizing vs vss with
  | nil => exact pure ()
  | cons h _ ih =>
    cases hv with
    | nil => exact throw _ []
    | cons h' hs' => exact h'.bind fun _ => h.bind fun _ => ih hs'

/-- What a plain value among the items of a field does. -/
def Effect.plain : Value → List Effect
  | .list [] => []
  | .list (v :: _) => [.fault (.noRule v.tyName)]
  | v => [.fault (.noRule v.tyName)]

theorem Emit.Enacts.emitPlain (v : Value) : Enacts [] (emitPlain v) (Effect.plain v) := by
  fun_cases Stackwise.emitPlain v with
  | case1 => exact pure ()
  | case2 w ws => exact throw _ []
  | case3 v hempty hcons =>
    rw [Effect.plain]
    · exact throw _ []
    · exact hempty
    · exact hcons

/-- The effect of a result: only a fault is one. -/
def Effect.ofResult {α : Type} (r : Except Fault α) : List Effect := (faultOf? r).toList.map .fault

/-- A result before something else. -/
theorem Emit.Enacts.ofExcept {α : Type} (r : Except Fault α) {g : α → Emit Unit}
    {es : List Effect} (h : ∀ x, r = .ok x → Enacts [] (g x) es) :
    Enacts [] (Emit.ofExcept r >>= g) (Effect.ofResult r ++ es) := by
  cases r with
  | ok x => exact h x rfl
  | error f => exact throw f es

/-- The effects of the items of a plain value at its first places. -/
def Effect.plainAt (v : Value) (n : Nat) : List (List Effect) :=
  (List.range n).map fun (i : Nat) =>
    match v.index (.int i) with
    | .ok w => Effect.plain w
    | .error f => [.fault f]

theorem Emit.Enacts.emitAt (v : Value) (n : Nat) :
    List.Forall₂ (Enacts []) (emitAt v n) (Effect.plainAt v n) := by
  rw [Stackwise.emitAt, Effect.plainAt, List.forall₂_map_left_iff, List.forall₂_map_right_iff,
    List.forall₂_same]
  intro i _
  cases v.index (.int i) with
  | ok w => exact emitPlain w
  | error f => exact throw f []

namespace Tree

/-- A field that is read has to be there. -/
def required (cls field : String) : Tree → List Effect
  | .missing => [.fault (.noField cls field)]
  | _ => []

/-- A field that is read by position has to allow it. -/
def subscripted : Tree → List Effect
  | .list _ | .leaf _ => []
  | t => [.fault (.notSubscriptable t.className)]

/-- A field whose last item is put aside has to be a sequence. -/
def sliced : Tree → List Effect
  | .list _ => []
  | .leaf v => Effect.ofResult (v.index withoutLast)
  | t => [.fault (.notSubscriptable t.className)]

/-- A field whose items are counted has to have some. -/
def countable (t : Tree) : List Effect :=
  match t.count? with
  | some _ => []
  | none => [.fault (.noLength t.className)]

/-- A node that is asked for its identifier. -/
def identified (t : Tree) : Effect :=
  match (outcome t.identifier {}).1 with
  | .ok n => .name n
  | .error f => .fault f

/-- What a context does after the name is looked for. -/
def inContext : Tree → List Effect
  | .missing => [.fault (.noField "Name" "ctx")]
  | .context .store | .context .load => []
  | t => [.fault (.strangeContext t.shown)]

mutual
/-- What visiting a tree does to the tables, in order. -/
def effects : Tree → List Effect
  | .missing => [.fault (.noRule "NoneType")]
  | .leaf v => [.fault (.noRule v.tyName)]
  | .list items => effectsOfItems items
  | .module body => required "Module" "body" body ++ (effectParts body).flatten
  | .interactive body => required "Interactive" "body" body ++ (effectParts body).flatten
  | .expr value => required "Expr" "value" value ++ effects value
  | .assign targets value =>
    required "Assign" "value" value ++ (effects value ++ (required "Assign" "targets" targets ++
      if targets.truthy then sliced targets ++ (effectParts targets).flatten
      else [.fault .noTarget]))
  | .augAssign target op value =>
    required "AugAssign" "target" target ++ (identified target ::
      (required "AugAssign" "value" value ++ (effects value ++
        (required "AugAssign" "op" op ++ effects op))))
  | .delete targets =>
    required "Delete" "targets" targets ++
      match targets with
      | .list items => items.map identified
      | .leaf v =>
        match v.each? with
        | some [] => []
        | some (w :: _) => [.fault (.noField w.tyName "id")]
        | none => [.fault (.notIterable v.tyName)]
      | t => [.fault (.notIterable t.className)]
  | .pass => []
  | .ifStmt test body orelse =>
    (required "If" "test" test ++ effects test) ++ ((required "If" "body" body ++ effects body) ++
      (required "If" "orelse" orelse ++ effects orelse))
  | .ifExp test body orelse =>
    (required "IfExp" "test" test ++ effects test) ++
      ((required "IfExp" "body" body ++ effects body) ++
        (required "IfExp" "orelse" orelse ++ effects orelse))
  | .whileLoop test body _ =>
    (required "While" "test" test ++ effects test) ++ (required "While" "body" body ++ effects body)
  | .forLoop target iter body orelse =>
    required "For" "orelse" orelse ++
      if orelse.truthy then [.fault .loopElse]
      else (required "For" "iter" iter ++ effects iter) ++
        ((required "For" "target" target ++ effects target) ++
          (required "For" "body" body ++ effects body))
  | .name id ctx => required "Name" "id" id ++ (.name id.toName :: inContext ctx)
  | .constant none => [.fault (.noField "Constant" "value")]
  | .constant (some v) => [.const v]
  | .tuple elts _ => required "Tuple" "elts" elts ++ (effectParts elts).flatten
  | .listDisplay elts _ => required "List" "elts" elts ++ (effectParts elts).flatten
  | .setDisplay elts => required "Set" "elts" elts ++ (effectParts elts).flatten
  | .dictDisplay keys values =>
    required "Dict" "keys" keys ++ (countable keys ++
      if keys.count? = some 0 then []
      else required "Dict" "values" values ++ (subscripted values ++ (subscripted keys ++
        Effect.entries (effectsAt keys (keys.count?.getD 0))
          (effectsAt values (keys.count?.getD 0)))))
  | .binOp left op right =>
    required "BinOp" "left" left ++ (effects left ++ (required "BinOp" "right" right ++
      (effects right ++ (required "BinOp" "op" op ++ effects op))))
  | .unaryOp op operand =>
    required "UnaryOp" "operand" operand ++ (effects operand ++
      (required "UnaryOp" "op" op ++ effects op))
  | .subscript value slice _ =>
    required "Subscript" "value" value ++ (effects value ++
      (required "Subscript" "slice" slice ++ effects slice))
  | .index value => required "Index" "value" value ++ effects value
  | .sealedIndex value => required "Index" "value" value ++ effects value
  | .call func args _ =>
    required "Call" "func" func ++ (effects func ++ (required "Call" "args" args ++
      (effects args ++ countable args)))
  | .binaryOperator _ => []
  | .unaryOperator _ => []
  | .context c => [.fault (.noRule c.className)]
  | .extended _ _ node => effects node
  | .other cls fields => if cls == "Index" then effectsOfIndex fields else [.fault (.noRule cls)]
/-- The effects of the index among the fields of an index node. -/
def effectsOfIndex : List (String × Tree) → List Effect
  | [] => [.fault (.noField "Index" "value")]
  | (f, t) :: fs => if f == "value" then effects t else effectsOfIndex fs
/-- The effects of the nodes of a list. -/
def effectsOfItems : List Tree → List Effect
  | [] => []
  | .list _ :: _ => [.fault (.noRule "list")]
  | t :: ts => effects t ++ effectsOfItems ts
/-- The effects of the items of a field, one after the other. -/
def effectParts : Tree → List (List Effect)
  | .list items => effectsOfEach items
  | .leaf v =>
    match v.each? with
    | some vs => vs.map Effect.plain
    | none => [[.fault (.notIterable v.tyName)]]
  | t => [[.fault (.notIterable t.className)]]
/-- The effects of the items of a field at its first places. -/
def effectsAt (t : Tree) (n : Nat) : List (List Effect) :=
  match t with
  | .list items => effectsOfEach items
  | .leaf v => Effect.plainAt v n
  | _ => []
/-- The effects of each of several trees. -/
def effectsOfEach : List Tree → List (List Effect)
  | [] => []
  | t :: ts => effects t :: effectsOfEach ts
end

/-! ### Fields -/

variable {e : Emit Unit} {es : List Effect} {cls field : String}

open Emit (Enacts)

/-- A field that is read before something else. -/
theorem field_enacts (t : Tree) (h : Enacts [] e es) :
    Enacts [] (do t.present cls field; e) (t.required cls field ++ es) := by
  cases t with
  | missing => exact .bind_of_error _ fun a => rfl
  | _ => exact .bind_of_ok (fun a => rfl) h

theorem identifier_enacts (t : Tree) {g : Name → Emit Unit}
    (h : ∀ n, Enacts [] (g n) (.name n :: es)) :
    Enacts [] (t.identifier >>= g) (t.identified :: es) := by
  unfold identified
  cases hn : (outcome t.identifier {}).1 with
  | ok n => exact .bind_of_ok (fun a => by rw [outcome_identifier, hn]) (h n)
  | error f => exact .bind_of_error g fun a => by rw [outcome_identifier, hn]

theorem emitDelete_enacts (ts : List Tree) : Enacts [] (emitDelete ts) (ts.map identified) := by
  induction ts with
  | nil => exact .pure ()
  | cons t ts ih =>
    have hone : Enacts [] _ [t.identified] :=
      identifier_enacts t fun n => (Enacts.addName n).bind_nil fun i => .emit .delName i
    exact hone.bind fun _ => ih

theorem itemCount_of_none {t : Tree} (h : t.count? = none) (a : Assembler) :
    outcome t.itemCount a = (.error (.noLength t.className), a) := by
  cases t with
  | list items => cases h
  | leaf v =>
    have hv : v.each? = none := by simpa [count?] using h
    simp [itemCount, hv, className]
  | _ => rfl

/-- The number of items of a field before something else. -/
theorem itemCount_enacts (t : Tree) {g : Nat → Emit Unit}
    (h : ∀ n, t.count? = some n → Enacts [] (g n) es) :
    Enacts [] (t.itemCount >>= g) (t.countable ++ es) := by
  unfold countable
  rcases outcome_itemCount t with ⟨n, hn, hok⟩ | ⟨hn, -⟩
  · rw [hn]
    exact .bind_of_ok hok (h n hn)
  · rw [hn]
    exact .bind_of_error g (itemCount_of_none hn)

/-- The items of a field can be gone through, and then their actions have their effects, or they
cannot, and then there is a fault in their place. -/
def PartsEnact (t : Tree) : Prop :=
  (∃ as, (∀ a, outcome t.eachOf a = (.ok as, a)) ∧ List.Forall₂ (Enacts []) as t.effectParts ∧
    t.count? = some as.length) ∨
  (∀ a, outcome t.eachOf a = (.error (.notIterable t.className), a)) ∧
    t.effectParts = [[.fault (.notIterable t.className)]] ∧ t.count? = none

theorem partsEnact_of_items {t : Tree} (h : ∀ items, t = .list items →
    List.Forall₂ (Enacts []) (emitEach items) (effectsOfEach items)) : t.PartsEnact := by
  cases t with
  | list items =>
    refine .inl ⟨emitEach items, fun a => by simp [eachOf], ?_, ?_⟩
    · simpa only [effectParts] using h items rfl
    · simp [count?, length_emitEach]
  | leaf v =>
    cases hv : v.each? with
    | some vs =>
      refine .inl ⟨vs.map emitPlain, fun a => by simp [eachOf, hv], ?_, ?_⟩
      · simp only [effectParts, hv, List.forall₂_map_left_iff, List.forall₂_map_right_iff,
          List.forall₂_same]
        exact fun w _ => .emitPlain w
      · simp [count?, hv]
    | none =>
      refine .inr ⟨fun a => ?_, ?_, by simp [count?, hv]⟩
      · simp only [eachOf, hv]
        rfl
      · simp only [effectParts, hv, className]
  | _ => exact .inr ⟨fun a => by simp only [eachOf]; rfl, by simp only [effectParts], rfl⟩

/-- The first items of a field before something else. -/
theorem firstOf_enacts {t : Tree} {n : Nat} {g : List (Emit Unit) → Emit Unit}
    (h : ∀ items, t = .list items →
      List.Forall₂ (Enacts []) (emitEach items) (effectsOfEach items))
    (hg : ∀ as, List.Forall₂ (Enacts []) as (t.effectsAt n) → Enacts [] (g as) es) :
    Enacts [] (t.firstOf n >>= g) (t.subscripted ++ es) := by
  cases t with
  | list items =>
    refine .bind_of_ok (x := emitEach items) (fun a => by simp [firstOf]) (hg _ ?_)
    simpa only [effectsAt] using h items rfl
  | leaf v =>
    refine .bind_of_ok (x := emitAt v n) (fun a => by simp [firstOf]) (hg _ ?_)
    simpa only [effectsAt] using Enacts.emitAt v n
  | _ => exact .bind_of_error _ fun a => by simp only [firstOf]; rfl

/-- Items that are gone through before something else. -/
theorem PartsEnact.runAll {t : Tree} (h : t.PartsEnact) (he : t.count? ≠ none → Enacts [] e []) :
    Enacts [] (do Stackwise.runAll (← t.eachOf); e) t.effectParts.flatten := by
  rcases h with ⟨as, hok, has, hcount⟩ | ⟨hfails, hparts, -⟩
  · exact .bind_of_ok hok ((Enacts.runAll has).bind_nil fun _ => he (by simp [hcount]))
  · rw [hparts]
    exact .bind_of_error _ hfails

/-! ### One class of nodes after the other -/

-- The equations of both functions, made once here for the lemmas about each class.
attribute [local simp] emit effects

theorem body_enacts {t : Tree} (h : t.PartsEnact) :
    Enacts [] (do t.present cls field; runAll (← t.eachOf))
      (t.required cls field ++ t.effectParts.flatten) := by
  have hrun : Enacts [] (do runAll (← t.eachOf); pure ()) t.effectParts.flatten :=
    h.runAll fun _ => .pure ()
  exact field_enacts t (by simpa using hrun)

theorem items_enact {t : Tree} (op : Opcode) (h : t.PartsEnact) :
    Enacts [] (do t.present cls field; runAll (← t.eachOf); Emit.emit op (← t.itemCount))
      (t.required cls field ++ t.effectParts.flatten) := by
  refine field_enacts t (h.runAll fun hcount => ?_)
  obtain ⟨n, hn⟩ := Option.ne_none_iff_exists'.1 hcount
  have hcountable : t.countable ++ [] = [] := by rw [countable, hn]; rfl
  exact hcountable ▸ itemCount_enacts t fun n _ => .emit op n

theorem assign_enacts {targets value : Tree} (hv : Enacts [] value.emit value.effects)
    (ht : targets.PartsEnact) :
    Enacts [] (emit (.assign targets value)) (effects (.assign targets value)) := by
  simp only [emit, effects]
  refine field_enacts value (hv.bind fun _ => field_enacts targets ?_)
  by_cases h : targets.truthy
  · simp only [h, Bool.not_true, Bool.false_eq_true, if_false, if_true]
    have htargets : Enacts [] (targets.eachOf >>= emitTargets) targets.effectParts.flatten := by
      rcases ht with ⟨as, hok, has, -⟩ | ⟨hfails, hparts, -⟩
      · exact .bind_of_ok hok (.emitTargets has)
      · rw [hparts]
        exact .bind_of_error _ hfails
    cases targets with
    | list items => exact htargets
    | leaf v => exact .ofExcept (v.index withoutLast) fun _ _ => htargets
    | _ => exact .throw _ _
  · simp only [h]
    exact .throw _ []

theorem augAssign_enacts {target op value : Tree} (hv : Enacts [] value.emit value.effects)
    (ho : Enacts [] op.emit op.effects) :
    Enacts [] (emit (.augAssign target op value)) (effects (.augAssign target op value)) := by
  simp only [emit, effects]
  refine field_enacts target (identifier_enacts target fun n => ?_)
  refine (Enacts.addName n).bind fun i => (Enacts.emit _ i).bind fun _ => ?_
  refine field_enacts value (hv.bind fun _ => field_enacts op (ho.bind_nil fun _ => ?_))
  exact .emit _ i

theorem delete_enacts (targets : Tree) :
    Enacts [] (emit (.delete targets)) (effects (.delete targets)) := by
  simp only [emit, effects]
  refine field_enacts targets ?_
  cases targets with
  | list items => exact emitDelete_enacts items
  | leaf v =>
    dsimp only
    rcases v.each? with _ | _ | ⟨w, vs⟩
    · exact .throw _ []
    · exact .pure ()
    · exact .throw _ []
  | _ => exact .throw _ []

theorem forLoop_enacts {target iter body orelse : Tree} (ht : Enacts [] target.emit target.effects)
    (hi : Enacts [] iter.emit iter.effects) (hb : Enacts [] body.emit body.effects) :
    Enacts [] (emit (.forLoop target iter body orelse))
      (effects (.forLoop target iter body orelse)) := by
  simp only [emit, effects]
  refine field_enacts orelse ?_
  by_cases h : orelse.truthy
  · simp only [h, if_true]
    exact .bind_of_error _ fun a => rfl
  · simp only [h]
    exact .emitFor (field_enacts iter hi) (field_enacts target ht) (field_enacts body hb)

theorem name_enacts (id ctx : Tree) : Enacts [] (emit (.name id ctx)) (effects (.name id ctx)) := by
  simp only [emit, effects]
  refine field_enacts id ((Enacts.addName id.toName).bind fun i => ?_)
  cases ctx with
  | missing => exact .throw _ []
  | context c =>
    cases c with
    | load => exact .emit _ i
    | store => exact .emit _ i
    | del => exact .throw _ []
  | _ => exact .throw _ []

theorem dict_enacts {keys values : Tree}
    (hk : ∀ items, keys = .list items →
      List.Forall₂ (Enacts []) (emitEach items) (effectsOfEach items))
    (hv : ∀ items, values = .list items →
      List.Forall₂ (Enacts []) (emitEach items) (effectsOfEach items)) :
    Enacts [] (emit (.dictDisplay keys values)) (effects (.dictDisplay keys values)) := by
  simp only [emit, effects]
  refine field_enacts keys (itemCount_enacts keys fun n hn => ?_)
  by_cases hzero : n = 0
  · subst hzero
    simpa [hn] using Enacts.emit .buildDict 0
  · simp only [hn, Option.some.injEq, hzero, if_false, bne_iff_ne, ne_eq, not_false_eq_true,
      if_true, Option.getD_some]
    refine field_enacts values (firstOf_enacts hv fun vs hvs => firstOf_enacts hk fun ks hks => ?_)
    exact (Enacts.emitEntries hks hvs).bind_nil fun _ => .emit _ n

mutual
/-- Visiting a tree, of whatever shape, has the effects of the tree. -/
theorem emit_enacts : ∀ t : Tree, Enacts [] t.emit t.effects
  | .missing => by simpa only [emit, effects] using .throw _ []
  | .leaf v => by simpa only [emit, effects] using .throw _ []
  | .list items => by simpa only [emit, effects] using emitItems_enact items
  | .module body => by
    simpa only [emit, effects] using body_enacts (partsEnact_of_items (emitParts_enact body))
  | .interactive body => by
    simpa only [emit, effects] using body_enacts (partsEnact_of_items (emitParts_enact body))
  | .expr value => by
    simpa only [emit, effects] using
      field_enacts value ((emit_enacts value).bind_nil fun _ => .emit _ _)
  | .assign targets value =>
    assign_enacts (emit_enacts value) (partsEnact_of_items (emitParts_enact targets))
  | .augAssign _ op value => augAssign_enacts (emit_enacts value) (emit_enacts op)
  | .delete targets => delete_enacts targets
  | .pass => by simpa only [emit, effects] using .pure ()
  | .ifStmt test body orelse => by
    simpa only [emit, effects] using Enacts.emitConditional (field_enacts test (emit_enacts test))
      (field_enacts body (emit_enacts body)) (field_enacts orelse (emit_enacts orelse))
  | .ifExp test body orelse => by
    simpa only [emit, effects] using Enacts.emitConditional (field_enacts test (emit_enacts test))
      (field_enacts body (emit_enacts body)) (field_enacts orelse (emit_enacts orelse))
  | .whileLoop test body _ => by
    simpa only [emit, effects] using Enacts.emitWhile (field_enacts test (emit_enacts test))
      (field_enacts body (emit_enacts body))
  | .forLoop target iter body _ =>
    forLoop_enacts (emit_enacts target) (emit_enacts iter) (emit_enacts body)
  | .name id ctx => name_enacts id ctx
  | .constant none => by simpa only [emit, effects] using .throw _ []
  | .constant (some v) => by
    simpa only [emit, effects] using (Enacts.addConst v).bind_nil fun i => .emit _ i
  | .tuple elts _ => by
    simpa only [emit, effects] using
      items_enact .buildTuple (partsEnact_of_items (emitParts_enact elts))
  | .listDisplay elts _ => by
    simpa only [emit, effects] using
      items_enact .buildList (partsEnact_of_items (emitParts_enact elts))
  | .setDisplay elts => by
    simpa only [emit, effects] using
      items_enact .buildSet (partsEnact_of_items (emitParts_enact elts))
  | .dictDisplay keys values => dict_enacts (emitParts_enact keys) (emitParts_enact values)
  | .binOp left op right => by
    simpa only [emit, effects] using field_enacts left ((emit_enacts left).bind fun _ =>
      field_enacts right ((emit_enacts right).bind fun _ => field_enacts op (emit_enacts op)))
  | .unaryOp op operand => by
    simpa only [emit, effects] using field_enacts operand ((emit_enacts operand).bind fun _ =>
      field_enacts op (emit_enacts op))
  | .subscript value slice _ => by
    simpa only [emit, effects] using field_enacts value ((emit_enacts value).bind fun _ =>
      field_enacts slice (emit_enacts slice))
  | .index value => by
    simpa only [emit, effects] using
      field_enacts value ((emit_enacts value).bind_nil fun _ => .emit _ _)
  | .sealedIndex value => by
    simpa only [emit, effects] using
      field_enacts value ((emit_enacts value).bind_nil fun _ => .emit _ _)
  | .call func args _ => by
    have hcount : Enacts [] (do Emit.emit .callFunction (← args.itemCount)) args.countable := by
      simpa using itemCount_enacts args fun n _ => .emit .callFunction n
    simpa only [emit, effects] using field_enacts func ((emit_enacts func).bind fun _ =>
      field_enacts args ((emit_enacts args).bind fun _ => hcount))
  | .binaryOperator op => by simpa only [emit, effects] using .emit _ _
  | .unaryOperator op => by simpa only [emit, effects] using .emit _ _
  | .context c => by simpa only [emit, effects] using .throw _ []
  | .extended _ _ node => by simpa only [emit, effects] using emit_enacts node
  | .other cls fields => by
    simp only [emit, effects]
    split
    · exact (emitIndex_enacts fields).bind_nil fun _ => .emit _ _
    · exact .throw _ []
theorem emitIndex_enacts : ∀ fs : List (String × Tree), Enacts [] (emitIndex fs) (effectsOfIndex fs)
  | [] => by simpa only [emitIndex, effectsOfIndex] using .throw _ []
  | (f, t) :: fs => by
    simp only [emitIndex, effectsOfIndex]
    split
    · exact emit_enacts t
    · exact emitIndex_enacts fs
theorem emitItems_enact : ∀ ts : List Tree, Enacts [] (emitItems ts) (effectsOfItems ts)
  | [] => by simpa only [emitItems, effectsOfItems] using .pure ()
  | t :: ts => by
    cases t with
    | list _ => simpa only [emitItems, effectsOfItems] using .throw _ []
    | _ =>
      simp only [emitItems, effectsOfItems]
      exact (emit_enacts _).bind fun _ => emitItems_enact ts
theorem emitParts_enact : ∀ (t : Tree) (items : List Tree), t = .list items →
    List.Forall₂ (Enacts []) (emitEach items) (effectsOfEach items)
  | .list _, items, rfl => emitEach_enact items
theorem emitEach_enact : ∀ ts : List Tree,
    List.Forall₂ (Enacts []) (emitEach ts) (effectsOfEach ts)
  | [] => by simp [emitEach, effectsOfEach]
  | t :: ts => by
    simp only [emitEach, effectsOfEach]
    exact .cons (emit_enacts t) (emitEach_enact ts)
end

end Tree
end Stackwise
