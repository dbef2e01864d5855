import Mathlib
import Stackwise.Proofs.EarlyBuild
import Stackwise.Proofs.Effects
import Stackwise.Proofs.Keys
import Stackwise.Proofs.Layout
import Stackwise.Proofs.Sameness

/-!
# Indices of names and constants

Requests fill the tables of an assembler: those to add a name or a constant, and those to visit a
tree, as far as they get. What they add, in order, is their log (`Request.log`), and the tables hold
it without repetitions. So an index that is given once is given again whenever the same is asked
for, whatever happens in between, and code that is built has the right entry there:
`Assembler.indices_stable`.
-/
namespace Stackwise

/-! ### Tables in which every item stands once -/

section
variable {α : Type} {same : α → α → Bool} {table bigger xs : List α} {x y : α}

theorem prefix_intern (same : α → α → Bool) (table : List α) (x : α) :
    table <+: intern same table x := by
  unfold intern
  split
  · exact List.prefix_rfl
  · exact List.prefix_append table [x]

theorem prefix_foldl_intern (same : α → α → Bool) (table xs : List α) :
    table <+: xs.foldl (intern same) table := by
  induction xs generalizing table with
  | nil => exact List.prefix_rfl
  | cons x xs ih => exact (prefix_intern same table x).trans (ih _)

theorem intern_map {β : Type} {same' : β → β → Bool} {f : β → α}
    (h : ∀ y z, same (f y) (f z) = same' y z) (ys : List β) (y : β) :
    intern same (ys.map f) (f y) = (intern same' ys y).map f := by
  unfold intern
  rw [List.any_map]
  simp only [Function.comp_def, h]
  split <;> simp

theorem loop_eq_foldl_intern (hsymm : ∀ x ∈ table ++ xs, ∀ y ∈ table ++ xs, same x y = same y x) :
    List.eraseDupsBy.loop same xs table.reverse = xs.foldl (intern same) table := by
  induction xs generalizing table with
  | nil => simp [List.eraseDupsBy.loop]
  | cons x xs ih =>
    have hany : table.reverse.any (same x) = table.any (same · x) := by
      rw [List.any_reverse, Bool.eq_iff_iff]
      simp only [List.any_eq_true]
      exact exists_congr fun y => and_congr_right fun hy =>
        Bool.eq_iff_iff.1 (hsymm x (by simp) y (by simp [hy]))
    rw [List.eraseDupsBy.loop, hany, List.foldl_cons, intern]
    cases table.any (same · x) with
    | true => exact ih (by grind)
    | false =>
      have hcons : x :: table.reverse = (table ++ [x]).reverse := by simp
      simp only [hcons]
      exact ih (by simpa using hsymm)

/-- A table that is filled item by item has each of them once, at its first place. -/
theorem eraseDupsBy_eq_foldl_intern (hsymm : ∀ x ∈ xs, ∀ y ∈ xs, same x y = same y x) :
    xs.eraseDupsBy same = xs.foldl (intern same) [] :=
  @loop_eq_foldl_intern α same [] xs (by simpa using hsymm)

theorem foldl_intern_subset (same : α → α → Bool) (table xs : List α) :
    xs.foldl (intern same) table ⊆ table ++ xs := by
  induction xs generalizing table with
  | nil => simp
  | cons x xs ih =>
    refine List.Subset.trans (ih _) ?_
    unfold intern
    split <;> grind

/-- The index of an item that is looked for: the first of the same, or the next one. -/
theorem getElem?_intern (same : α → α → Bool) (table : List α) (x : α) :
    ∃ y, (intern same table x)[table.findIdx (same · x)]? = some y ∧
      (y = x ∨ y ∈ table ∧ same y x = true) := by
  cases h : table.findIdx? (same · x) with
  | none =>
    rw [intern_of_none h, List.findIdx?_eq_none_iff_findIdx_eq.1 h]
    exact ⟨x, by simp, .inl rfl⟩
  | some i =>
    rw [intern_of_some h, (List.findIdx?_eq_some_iff_findIdx_eq.1 h).2]
    obtain ⟨hi, hsame, -⟩ := List.findIdx?_eq_some_iff_getElem.1 h
    exact ⟨table[i], List.getElem?_eq_getElem hi, .inr ⟨List.getElem_mem hi, hsame⟩⟩

theorem exists_mem_foldl_intern (same : α → α → Bool) (table : List α) (hx : x ∈ xs) :
    ∃ z ∈ xs.foldl (intern same) table, z = x ∨ same z x = true := by
  induction xs generalizing table with
  | nil => cases hx
  | cons y xs ih =>
    rcases List.mem_cons.1 hx with rfl | hx
    · obtain ⟨z, hz, hsame⟩ := getElem?_intern same table x
      refine ⟨z, ?_, hsame.imp_right And.right⟩
      exact (prefix_foldl_intern same _ xs).subset (List.mem_of_getElem? hz)
    · exact ih _ hx

/-- The index of an item stays that of all that are the same when the table grows. -/
theorem findIdx?_intern (hbigger : intern same table x <+: bigger)
    (hbefore : ∀ z ∈ table, same z y = true → same z x = true)
    (hthere : ∀ z, z = x ∨ z ∈ table ∧ same z x = true → same z y = true) :
    bigger.findIdx? (same · y) = some (table.findIdx (same · x)) := by
  obtain ⟨z, hz, hsame⟩ := getElem?_intern same table x
  obtain ⟨hlt, hget⟩ := List.getElem?_eq_some_iff.1 hz
  refine hbigger.findIdx?_eq_some (List.findIdx?_eq_some_iff_getElem.2 ⟨hlt, ?_, fun j hj => ?_⟩)
  · rw [hget]
    exact hthere z hsame
  · have hj' : j < table.length := hj.trans_le List.findIdx_le_length
    have hnot : same table[j] x = false := List.not_of_lt_findIdx hj
    rw [← (prefix_intern same table x).getElem hj']
    intro hjy
    rw [hbefore _ (List.getElem_mem hj') hjy] at hnot
    cases hnot

end

/-! ### What requests add -/

namespace Effect

/-- The texts among the names that are looked for. -/
def texts (es : List Effect) : List String :=
  es.filterMap fun
    | .name (.text s) => some s
    | _ => none

/-- The constants that are looked for. -/
def consts (es : List Effect) : List Value :=
  es.filterMap fun
    | .const v => some v
    | _ => none

theorem mem_consts {es : List Effect} {v : Value} : v ∈ consts es ↔ .const v ∈ es := by
  rw [consts, List.mem_filterMap]
  constructor
  · rintro ⟨e, he, hv⟩
    cases e with
    | const w => exact Option.some.inj hv ▸ he
    | _ => cases hv
  · exact fun h => ⟨_, h, rfl⟩

end Effect

namespace Request

/-- The effects that a request has on the tables if nothing fails. -/
def effects : Request → List Effect
  | .addName n => [.name n]
  | .addConst v => [.const v]
  | .visit t => t.effects
  | .emit _ _ | .emitJump _ _ | .label _ | .build => []

/-- What requests do to the tables, in order, as far as each of them gets. -/
def log (rs : List Request) : List Effect := rs.flatMap fun r => Effect.done r.effects

theorem log_append (rs qs : List Request) : log (rs ++ qs) = log rs ++ log qs :=
  List.flatMap_append

end Request

namespace Tables

theorem consts_enterAll (t : Tables) (es : List Effect) :
    (t.enterAll es).consts = (Effect.consts es).foldl (intern Value.sameConstant) t.consts := by
  induction es generalizing t with
  | nil => rfl
  | cons e es ih => cases e <;> exact ih _

/-- Where all names are texts, they can be told apart as texts. -/
theorem names_enterAll {t : Tables} {ss : List String} {es : List Effect}
    (ht : t.names = ss.map .text) (hes : ∀ n, .name n ∈ es → ∃ s, n = .text s) :
    (t.enterAll es).names = ((Effect.texts es).foldl (intern (· == ·)) ss).map .text := by
  induction es generalizing t ss with
  | nil => exact ht
  | cons e es ih =>
    have hrest : ∀ n, .name n ∈ es → ∃ s, n = .text s := fun n hn => hes n (by simp [hn])
    cases e with
    | const v => exact ih ht hrest
    | fault f => exact ih ht hrest
    | name n =>
      obtain ⟨s, rfl⟩ := hes n (by simp)
      have hnames : (t.enter (.name (.text s))).names = (intern (· == ·) ss s).map .text := by
        rw [enter, ht]
        exact intern_map (fun _ _ => rfl) ss s
      exact ih hnames hrest

theorem prefix_enter (t : Tables) (e : Effect) :
    t.names <+: (t.enter e).names ∧ t.consts <+: (t.enter e).consts := by
  cases e with
  | name n => exact ⟨prefix_intern _ _ _, List.prefix_rfl⟩
  | const v => exact ⟨List.prefix_rfl, prefix_intern _ _ _⟩
  | fault f => exact ⟨List.prefix_rfl, List.prefix_rfl⟩

/-- Nothing that is in a table moves. -/
theorem prefix_enterAll (t : Tables) (es : List Effect) :
    t.names <+: (t.enterAll es).names ∧ t.consts <+: (t.enterAll es).consts := by
  induction es generalizing t with
  | nil => exact ⟨List.prefix_rfl, List.prefix_rfl⟩
  | cons e es ih =>
    obtain ⟨hnames, hconsts⟩ := prefix_enter t e
    exact ⟨hnames.trans (ih _).1, hconsts.trans (ih _).2⟩

end Tables

/-! ### Requests one after the other -/

/-- An action has certain effects on the tables, and new markers stay without labels. What it
results in does not matter here. -/
def Emit.Enters {α : Type} (e : Emit α) (es : List Effect) : Prop :=
  ∀ a : Assembler, a.Fresh →
    (outcome e a).2.tables = a.tables.enterAll es ∧ (outcome e a).2.Fresh

namespace Emit.Enters

theorem of_enacts {α : Type} {e : Emit α} {es : List Effect} (h : Enacts [] e es) :
    Enters e (Effect.done es) := by
  intro a ha
  obtain ⟨-, htables, hkeeps⟩ := h a ha (by simp [Assembler.Unlabelled])
  exact ⟨htables, hkeeps.fresh⟩

theorem map {α β : Type} {e : Emit α} {es : List Effect} (f : α → β) (h : Enters e es) :
    Enters (f <$> e) es := by
  intro a ha
  have hsame : (outcome (f <$> e) a).2 = (outcome e a).2 := by
    rw [outcome_map]
    rcases outcome e a with ⟨g | x, b⟩ <;> rfl
  rw [hsame]
  exact h a ha

theorem bind_nil {α β : Type} {e : Emit α} {g : α → Emit β} (he : Enters e [])
    (hg : ∀ x, Enters (g x) []) : Enters (e >>= g) [] := by
  intro a ha
  obtain ⟨htables, hfresh⟩ := he a ha
  rw [outcome_bind]
  rcases hea : outcome e a with ⟨f | x, b⟩
  · rw [hea] at htables hfresh
    exact ⟨htables, hfresh⟩
  · rw [hea] at htables hfresh
    obtain ⟨htables', hfresh'⟩ := hg x b hfresh
    exact ⟨htables'.trans htables, hfresh'⟩

theorem pure {α : Type} (x : α) : Enters (pure x : Emit α) [] := fun _ ha => ⟨rfl, ha⟩

theorem throw {α : Type} (f : Fault) : Enters (throw f : Emit α) [] := fun _ ha => ⟨rfl, ha⟩

theorem append (slots : List Slot) : Enters (Emit.append slots) [] := fun _ ha => ⟨rfl, ha⟩

theorem ofExcept {α : Type} (x : Except Fault α) : Enters (Emit.ofExcept x) [] := by
  cases x with
  | ok a => exact pure a
  | error f => exact throw f

theorem emitNamed (opname : String) (arg : Nat) : Enters (Emit.emitNamed opname arg) [] := by
  refine bind_nil (append _) fun _ => ?_
  cases Opcode.ofName? opname with
  | some op => exact append _
  | none => exact throw _

theorem emitJumpNamed (opname : String) (m : Marker) :
    Enters (Emit.emitJumpNamed opname m) [] := by
  unfold Emit.emitJumpNamed
  cases Opcode.ofName? opname with
  | some op => exact append _
  | none => exact throw _

/-- A label that is given by name is not that of a new marker. -/
theorem label (marker : String) : Enters (Emit.label (.named marker)) [] := by
  intro a ha
  simp only [Emit.label, outcome_bind, outcome_get, chain_ok]
  cases a.labels.lookup (.named marker) with
  | some p => exact ⟨rfl, ha⟩
  | none =>
    refine ⟨rfl, fun k hk => ?_⟩
    have hne : (Marker.fresh k == Marker.named marker) = false := rfl
    have hbefore : a.labels.lookup (.fresh k) = none := ha k hk
    simp [List.lookup_append, List.lookup_cons, hbefore, hne]

theorem build : Enters Emit.build [] := by
  intro a ha
  obtain ⟨slots, hafter, -⟩ := (Assembler.Settles.refl a).build
  rw [hafter]
  exact ⟨rfl, ha⟩

theorem perform (r : Request) : Enters r.perform (Effect.done r.effects) := by
  cases r with
  | addName n => exact (of_enacts (.addName n)).map _
  | addConst v => exact (of_enacts (.addConst v)).map _
  | emit opname arg =>
    exact (ofExcept _).bind_nil fun n => (emitNamed opname n).bind_nil fun _ => pure _
  | emitJump opname marker => exact (emitJumpNamed opname _).map _
  | label marker => exact (label marker).map _
  | visit t => exact (of_enacts (Tree.emit_enacts t)).map _
  | build => exact build.map _

end Emit.Enters

namespace Assembler

/-- The assembler after requests to an empty one. -/
def after (rs : List Request) : Assembler := rs.foldl served {}

theorem after_append (rs qs : List Request) : after (rs ++ qs) = qs.foldl served (after rs) :=
  List.foldl_append

theorem served_after (rs : List Request) (r : Request) :
    (after rs).served r = after (rs ++ [r]) := (after_append rs [r]).symm

theorem foldl_served {a : Assembler} (ha : a.Fresh) (rs : List Request) :
    (rs.foldl served a).tables = a.tables.enterAll (Request.log rs) ∧
      (rs.foldl served a).Fresh := by
  induction rs generalizing a with
  | nil => exact ⟨rfl, ha⟩
  | cons r rs ih =>
    obtain ⟨htables, hfresh⟩ :
        (a.served r).tables = a.tables.enterAll (Effect.done r.effects) ∧ (a.served r).Fresh :=
      Emit.Enters.perform r a ha
    obtain ⟨hrest, hlast⟩ := ih hfresh
    refine ⟨?_, hlast⟩
    rw [List.foldl_cons, hrest, htables, ← Tables.enterAll_append]
    rfl

theorem tables_after (rs : List Request) :
    (after rs).tables = Tables.enterAll ⟨[], []⟩ (Request.log rs) ∧ (after rs).Fresh :=
  foldl_served (by simp [Fresh]) rs

/-- Requests only add to the tables. -/
theorem prefix_after (rs later : List Request) :
    (after rs).names.toList <+: (after (rs ++ later)).names.toList ∧
      (after rs).consts.toList <+: (after (rs ++ later)).consts.toList := by
  have htables := (foldl_served (tables_after rs).2 later).1
  rw [← after_append] at htables
  have hprefix := (after rs).tables.prefix_enterAll (Request.log later)
  rw [← htables] at hprefix
  exact hprefix

end Assembler

/-! ### Answers -/

/-- A request looks for an item in a table and adds it if it is new. -/
structure Request.LooksFor {α : Type} (same : α → α → Bool) (table : Assembler → List α)
    (r : Request) (x : α) : Prop where
  found : ∀ a i, (table a).findIdx? (same · x) = some i → outcome r.perform a = (.ok (.index i), a)
  new : ∀ a, (table a).findIdx? (same · x) = none →
    (outcome r.perform a).1 = .ok (.index (table a).length) ∧ table (a.served r) = table a ++ [x]

namespace Request.LooksFor

theorem addName (s : String) :
    LooksFor (· == ·) (fun a => a.names.toList) (.addName (.text s)) (.text s) where
  found a i h := by simp [perform, Emit.addName, Name.checkKey, Emit.ofExcept, h]
  new a h := by simp [perform, Emit.addName, Name.checkKey, Emit.ofExcept, Assembler.served, h]

theorem addConst {v : Value} (hv : v.IsKey) :
    LooksFor Value.sameConstant (fun a => a.consts.toList) (.addConst v) v where
  found a i h := by simp [perform, Emit.addConst, Value.checkKey_eq_ok.2 hv, Emit.ofExcept, h]
  new a h := by
    simp [perform, Emit.addConst, Value.checkKey_eq_ok.2 hv, Emit.ofExcept, Assembler.served, h]

variable {α : Type} {same : α → α → Bool} {table : Assembler → List α} {q r : Request} {x y : α}

theorem answer (h : LooksFor same table r x) (a : Assembler) :
    (outcome r.perform a).1 = .ok (.index ((table a).findIdx (same · x))) := by
  cases hi : (table a).findIdx? (same · x) with
  | some i => rw [h.found a i hi, (List.findIdx?_eq_some_iff_findIdx_eq.1 hi).2]
  | none => rw [(h.new a hi).1, List.findIdx?_eq_none_iff_findIdx_eq.1 hi]

theorem table_served (h : LooksFor same table r x) (a : Assembler) :
    table (a.served r) = intern same (table a) x := by
  cases hi : (table a).findIdx? (same · x) with
  | some i => rw [intern_of_some hi, Assembler.served, h.found a i hi]
  | none => rw [intern_of_none hi, (h.new a hi).2]

/-- Nothing changes when what is looked for is there. -/
theorem served_of_mem (h : LooksFor same table r x) {a : Assembler} {z : α} (hz : z ∈ table a)
    (hsame : same z x = true) : a.served r = a := by
  have hsome : ((table a).findIdx? (same · x)).isSome = true := by
    rw [List.findIdx?_isSome]
    exact List.any_eq_true.2 ⟨z, hz, hsame⟩
  obtain ⟨i, hi⟩ := Option.isSome_iff_exists.1 hsome
  rw [Assembler.served, h.found a i hi]

/-- The index is given again, and nothing changes, when the same is looked for later on. -/
theorem again (h : LooksFor same table r x) (hq : LooksFor same table q y) {a b : Assembler}
    (hgrows : table (a.served r) <+: table b)
    (hbefore : ∀ z ∈ table a, same z y = true → same z x = true)
    (hthere : ∀ z, z = x ∨ z ∈ table a ∧ same z x = true → same z y = true) :
    outcome q.perform b = (.ok (.index ((table a).findIdx (same · x))), b) := by
  rw [h.table_served] at hgrows
  exact hq.found b _ (findIdx?_intern hgrows hbefore hthere)

end Request.LooksFor

theorem Value.Definite.isKey {marked : Bool} {v : Value} (h : v.Definite marked) : v.IsKey := by
  induction h with
  | tuple _ ih | generic _ _ ih => exact Value.isKey_tuple.2 ih
  | _ => rfl

namespace Assembler

variable {rs : List Request}

/-- What cannot be a key is not added. -/
theorem outcome_addConst_of_unhashable (a : Assembler) {v : Value} {t : Ty}
    (h : v.unhashable? = some t) :
    outcome (Request.addConst v).perform a = (.error (.unhashable t.name), a) := by
  simp [Request.perform, Emit.addConst, Value.checkKey, h, Emit.ofExcept]

theorem names_after (hnames : ∀ n, .name n ∈ Request.log rs → ∃ s, n = .text s) :
    (after rs).names.toList = (Effect.texts (Request.log rs)).eraseDups.map .text := by
  have hsymm : ∀ x ∈ Effect.texts (Request.log rs), ∀ y ∈ Effect.texts (Request.log rs),
      (x == y) = (y == x) := fun x _ y _ => Bool.beq_comm
  rw [List.eraseDups, eraseDupsBy_eq_foldl_intern hsymm]
  exact (congrArg Tables.names (tables_after rs).1).trans (Tables.names_enterAll rfl hnames)

theorem consts_eq_foldl_intern (rs : List Request) :
    (after rs).consts.toList =
      (Effect.consts (Request.log rs)).foldl (intern Value.sameConstant) [] :=
  (congrArg Tables.consts (tables_after rs).1).trans (Tables.consts_enterAll _ _)

/-- The entries of the table of constants are among those that were added. -/
theorem definite_of_mem_consts (hconsts : ∀ v, .const v ∈ Request.log rs → v.Definite false)
    {v : Value} (hv : v ∈ (after rs).consts.toList) : v.Definite false := by
  rw [consts_eq_foldl_intern] at hv
  exact hconsts v (Effect.mem_consts.1 (foldl_intern_subset _ _ _ hv))

theorem consts_after (hconsts : ∀ v, .const v ∈ Request.log rs → v.Definite false) :
    (after rs).consts.toList =
      (Effect.consts (Request.log rs)).eraseDupsBy Value.sameConstant := by
  have hdefinite : ∀ v ∈ Effect.consts (Request.log rs), v.Definite false :=
    fun v hv => hconsts v (Effect.mem_consts.1 hv)
  rw [eraseDupsBy_eq_foldl_intern fun v hv w hw => Bool.eq_iff_iff.2
    ⟨(hdefinite v hv).sameConstant_symm (hdefinite w hw),
      (hdefinite w hw).sameConstant_symm (hdefinite v hv)⟩]
  exact consts_eq_foldl_intern rs

theorem build_tables {a : Assembler} {c : Code}
    (h : (outcome Request.build.perform a).1 = .ok (.code c)) :
    c.names = a.names ∧ c.consts = a.consts := by
  have hbuild : (outcome Emit.build a).1 = .ok c := by
    rw [Request.perform, outcome_map] at h
    rcases hb : outcome Emit.build a with ⟨f | d, b⟩ <;> rw [hb] at h <;> cases h
    rfl
  obtain ⟨bytes, -, rfl⟩ := outcome_build.1 hbuild
  exact ⟨rfl, rfl⟩

/-! ### Indices that stay -/

/-- After requests `rs`, the request `r` is for the index `i`, and it stays so. -/
structure Fixed (rs : List Request) (r : Request) (i : Nat) (again : Request → Prop)
    (entry : Code → Prop) : Prop where
  answer : (outcome r.perform (after rs)).1 = .ok (.index i)
  /-- Whatever comes in between, a request for the same gets the same index and changes nothing. -/
  again : ∀ later q, again q → outcome q.perform (after (rs ++ r :: later)) =
    (.ok (.index i), after (rs ++ r :: later))
  /-- All code that is built later on has the entry. -/
  entry : ∀ later c, (outcome Request.build.perform (after (rs ++ r :: later))).1 = .ok (.code c) →
    entry c

theorem prefix_served (rs later : List Request) (r : Request) :
    ((after rs).served r).names.toList <+: (after (rs ++ r :: later)).names.toList ∧
      ((after rs).served r).consts.toList <+: (after (rs ++ r :: later)).consts.toList := by
  have hsplit : rs ++ r :: later = (rs ++ [r]) ++ later := by simp
  rw [served_after, hsplit]
  exact prefix_after (rs ++ [r]) later

end Assembler

open Assembler (after Fixed)

theorem Request.LooksFor.fixed {α : Type} {same : α → α → Bool} {table : Assembler → List α}
    {r : Request} {x : α} (h : LooksFor same table r x) (rs : List Request)
    (again : Request → Prop) (entries : Code → Array α)
    (hgrows : ∀ later, table ((after rs).served r) <+: table (after (rs ++ r :: later)))
    (hbuild : ∀ a c, (outcome Request.build.perform a).1 = .ok (.code c) →
      (entries c).toList = table a)
    (hagain : ∀ q, again q → ∃ y, LooksFor same table q y ∧
      (∀ z ∈ table (after rs), same z y = true → same z x = true) ∧
      ∀ z, z = x ∨ z ∈ table (after rs) ∧ same z x = true → same z y = true) :
    ∃ i y, (table ((after rs).served r))[i]? = some y ∧
      (y = x ∨ y ∈ table (after rs) ∧ same y x = true) ∧
      Fixed rs r i again fun c => (entries c)[i]? = some y := by
  obtain ⟨y, hy, hsame⟩ := getElem?_intern same (table (after rs)) x
  rw [← h.table_served] at hy
  refine ⟨_, y, hy, hsame, h.answer _, fun later q hq => ?_, fun later c hc => ?_⟩
  · obtain ⟨z, hlooks, hbefore, hthere⟩ := hagain q hq
    exact h.again hlooks (hgrows later) hbefore hthere
  · rw [← Array.getElem?_toList, hbuild _ _ hc]
    obtain ⟨rest, hrest⟩ := hgrows later
    rw [← hrest]
    exact List.getElem?_append_left (List.getElem?_eq_some_iff.1 hy).1 ▸ hy

theorem Request.log_addName (s : String) : log [.addName (.text s)] = [.name (.text s)] := rfl

theorem Request.log_addConst {v : Value} (hv : v.IsKey) : log [.addConst v] = [.const v] := by
  simp [log, effects, Effect.done, Effect.fault?, Value.checkKey_eq_ok.2 hv]

namespace Assembler

variable {rs : List Request}

theorem name_fixed (hnames : ∀ n, .name n ∈ Request.log rs → ∃ s, n = .text s) (s : String) :
    ∃ i, (Effect.texts (Request.log (rs ++ [Request.addName (.text s)]))).eraseDups[i]? = some s ∧
      Fixed rs (.addName (.text s)) i (· = .addName (.text s))
        fun c => c.names[i]? = some (.text s) := by
  have hagain : ∀ q, q = .addName (.text s) →
      ∃ y, Request.LooksFor (· == ·) (fun a => a.names.toList) q y ∧
        (∀ z ∈ (after rs).names.toList, (z == y) = true → (z == .text s) = true) ∧
        ∀ z, z = .text s ∨ z ∈ (after rs).names.toList ∧ (z == .text s) = true →
          (z == y) = true := by
    rintro q rfl
    refine ⟨.text s, .addName s, fun _ _ h => h, ?_⟩
    rintro z (rfl | h)
    · exact Name.beq_text_iff.2 rfl
    · exact h.2
  obtain ⟨i, y, hy, hsame, hfixed⟩ := (Request.LooksFor.addName s).fixed rs _ Code.names
    (fun later => (prefix_served rs later _).1)
    (fun a c hc => congrArg Array.toList (build_tables hc).1) hagain
  obtain rfl : y = .text s := by
    rcases hsame with rfl | h
    · rfl
    · exact Name.beq_text_iff.1 h.2
  refine ⟨i, ?_, hfixed⟩
  have hlog : ∀ n, .name n ∈ Request.log (rs ++ [Request.addName (.text s)]) →
      ∃ s, n = .text s := by
    intro n hn
    rw [Request.log_append, Request.log_addName, List.mem_append, List.mem_singleton] at hn
    rcases hn with hn | hn
    · exact hnames n hn
    · exact ⟨s, Effect.name.inj hn⟩
  rw [served_after, names_after hlog, List.getElem?_map, Option.map_eq_some_iff] at hy
  obtain ⟨u, hu, hus⟩ := hy
  rw [hu, Name.text.inj hus]

theorem const_fixed (hconsts : ∀ v, .const v ∈ Request.log rs → v.Definite false) {v : Value}
    (hv : v.Definite false) :
    ∃ i u, ((Effect.consts (Request.log (rs ++ [Request.addConst v]))).eraseDupsBy
        Value.sameConstant)[i]? = some u ∧ (u = v ∨ Value.sameConstant u v = true) ∧
      Fixed rs (.addConst v) i
        (fun q => ∃ w, q = .addConst w ∧ w.Definite false ∧ Value.sameConstant v w = true)
        fun c => c.consts[i]? = some u := by
  have hentry : ∀ z ∈ (after rs).consts.toList, z.Definite false :=
    fun z hz => definite_of_mem_consts hconsts hz
  have hagain : ∀ q, (∃ w, q = .addConst w ∧ w.Definite false ∧ Value.sameConstant v w = true) →
      ∃ y, Request.LooksFor Value.sameConstant (fun a => a.consts.toList) q y ∧
        (∀ z ∈ (after rs).consts.toList, z.sameConstant y = true → z.sameConstant v = true) ∧
        ∀ z, z = v ∨ z ∈ (after rs).consts.toList ∧ z.sameConstant v = true →
          z.sameConstant y = true := by
    rintro q ⟨w, rfl, hw, hsame⟩
    refine ⟨w, .addConst hw.isKey, fun z hz hzw => ?_, ?_⟩
    · exact (hentry z hz).sameConstant_trans hw hv hzw (hv.sameConstant_symm hw hsame)
    · rintro z (rfl | ⟨hz, hzv⟩)
      · exact hsame
      · exact (hentry z hz).sameConstant_trans hv hw hzv hsame
  obtain ⟨i, u, hu, hsame, hfixed⟩ := (Request.LooksFor.addConst hv.isKey).fixed rs _ Code.consts
    (fun later => (prefix_served rs later _).2)
    (fun a c hc => congrArg Array.toList (build_tables hc).2) hagain
  refine ⟨i, u, ?_, hsame.imp_right And.right, hfixed⟩
  have hlog : ∀ w, .const w ∈ Request.log (rs ++ [Request.addConst v]) → w.Definite false := by
    intro w hw
    rw [Request.log_append, Request.log_addConst hv.isKey, List.mem_append,
      List.mem_singleton] at hw
    rcases hw with hw | hw
    · exact hconsts w hw
    · exact Effect.const.inj hw ▸ hv
  rw [← consts_after hlog, ← served_after]
  exact hu

/-- A name that was added before is not added again. -/
theorem served_addName (hnames : ∀ n, .name n ∈ Request.log rs → ∃ s, n = .text s) {s : String}
    (hs : s ∈ Effect.texts (Request.log rs)) :
    (after rs).served (.addName (.text s)) = after rs := by
  have hmem : .text s ∈ (after rs).names.toList := by
    rw [names_after hnames]
    exact List.mem_map_of_mem (List.mem_eraseDups.2 hs)
  exact (Request.LooksFor.addName s).served_of_mem hmem (Name.beq_text_iff.2 rfl)

/-- A constant that is the same as one that was added before is not added again. -/
theorem served_addConst (hconsts : ∀ v, .const v ∈ Request.log rs → v.Definite false)
    {v w : Value} (hv : v.Definite false) (hw : w ∈ Effect.consts (Request.log rs))
    (hsame : Value.sameConstant w v = true) :
    (after rs).served (.addConst v) = after rs := by
  have hdefinite : w.Definite false := hconsts w (Effect.mem_consts.1 hw)
  obtain ⟨u, hu, huw⟩ : ∃ u ∈ (after rs).consts.toList, u = w ∨ Value.sameConstant u w = true := by
    rw [consts_eq_foldl_intern]
    exact exists_mem_foldl_intern _ _ hw
  refine (Request.LooksFor.addConst hv.isKey).served_of_mem hu ?_
  rcases huw with rfl | huw
  · exact hsame
  · exact (definite_of_mem_consts hconsts hu).sameConstant_trans hdefinite hv huw hsame

/-- After any requests, whether they failed or not, the tables hold the names and the constants that
were added, each once and in the order in which they first came; so the next name or constant gets
its place among them as an index. It gets it again whenever it is added once more, which changes
nothing, and it stands there in all code that is built later on. What cannot be a key changes
nothing either. -/
theorem indices_stable (rs : List Request)
    (hnames : ∀ n, .name n ∈ Request.log rs → ∃ s, n = .text s)
    (hconsts : ∀ v, .const v ∈ Request.log rs → v.Definite false) :
    (after rs).names.toList = (Effect.texts (Request.log rs)).eraseDups.map .text ∧
    (after rs).consts.toList =
      (Effect.consts (Request.log rs)).eraseDupsBy Value.sameConstant ∧
    (∀ s,
      (s ∈ Effect.texts (Request.log rs) → (after rs).served (.addName (.text s)) = after rs) ∧
      ∃ i, (Effect.texts (Request.log (rs ++ [.addName (.text s)]))).eraseDups[i]? = some s ∧
        Fixed rs (.addName (.text s)) i (· = .addName (.text s))
          fun c => c.names[i]? = some (.text s)) ∧
    (∀ v, v.Definite false →
      (v.Definite true → Value.sameConstant v v = true) ∧
      ((∃ w ∈ Effect.consts (Request.log rs), Value.sameConstant w v = true) →
        (after rs).served (.addConst v) = after rs) ∧
      ∃ i u, ((Effect.consts (Request.log (rs ++ [.addConst v]))).eraseDupsBy
          Value.sameConstant)[i]? = some u ∧
        u.ty = v.ty ∧ (u = v ∨ Value.same u v = true) ∧
        Fixed rs (.addConst v) i
          (fun q => ∃ w, q = .addConst w ∧ w.Definite false ∧ Value.sameConstant v w = true)
          fun c => c.consts[i]? = some u) ∧
    ∀ v t, v.unhashable? = some t →
      outcome (Request.addConst v).perform (after rs) =
        (.error (.unhashable t.name), after rs) := by
  refine ⟨names_after hnames, consts_after hconsts, fun s => ?_, fun v hv => ?_, fun v t h => ?_⟩
  · exact ⟨served_addName hnames, name_fixed hnames s⟩
  · refine ⟨Value.Definite.sameConstant_self, ?_, ?_⟩
    · rintro ⟨w, hw, hsame⟩
      exact served_addConst hconsts hv hw hsame
    · obtain ⟨i, u, hu, hsame, hfixed⟩ := const_fixed hconsts hv
      refine ⟨i, u, hu, ?_, ?_, hfixed⟩
      · rcases hsame with rfl | hsame
        · rfl
        · exact (Value.sameConstant_iff.1 hsame).1
      · exact hsame.imp_right fun h => (Value.sameConstant_iff.1 h).2
  · exact outcome_addConst_of_unhashable (after rs) h

/-- Constants that are equal or nearly so, one that cannot be added, and a visit that fails after it
has found a name. -/
def mixed : List Request :=
  [.addConst (.int 1), .addConst (.bool true), .addConst (.list []), .addConst (.tuple [.int 1]),
    .visit (.binOp (.name (.leaf (.str "x")) (.context .load)) (.binaryOperator .add)
      (.other "Lambda" [])), .build]

theorem indices_stable_mixed :
    Request.log mixed =
      [.const (.int 1), .const (.bool true), .const (.tuple [.int 1]), .name (.text "x")] ∧
    (after mixed).served (.addName (.text "x")) = after mixed ∧
    ∃ i u, u.ty = .tuple ∧ Fixed mixed (.addConst (.tuple [.bool true])) i
      (fun q => ∃ w, q = .addConst w ∧ w.Definite false ∧
        Value.sameConstant (.tuple [.bool true]) w = true)
      fun c => c.consts[i]? = some u := by
  have hlog : Request.log mixed =
      [.const (.int 1), .const (.bool true), .const (.tuple [.int 1]), .name (.text "x")] := rfl
  obtain ⟨-, -, hname, hconst, -⟩ := indices_stable mixed
    (by
      intro n hn
      rw [hlog] at hn
      exact ⟨"x", by simpa using hn⟩)
    (by
      intro v hv
      rw [hlog] at hv
      simp only [List.mem_cons, Effect.const.injEq, List.not_mem_nil, or_false, reduceCtorEq] at hv
      rcases hv with rfl | rfl | rfl
      · exact .int 1
      · exact .bool true
      · exact .tuple (by simpa using .int 1))
  obtain ⟨-, -, i, u, -, hty, -, hfixed⟩ :=
    hconst (.tuple [.bool true]) (.tuple (by simpa using .bool true))
  exact ⟨hlog, (hname "x").1 (by simp [hlog, Effect.texts]), i, u, hty, hfixed⟩

end Assembler
end Stackwise
