import Stackwise.Proofs.Calls
import Stackwise.Proofs.Composition
import Stackwise.Proofs.Insertion

/-!
# Displays of sets and dictionaries

The items of a display are computed in the order of the text, and each is put above those before it.
The instruction at the end takes them from the top, so it inserts them backwards: a set keeps the
last of the same members, and a dictionary has its keys in the order of their last places, with the
form of the last and the value of the first. This is `Tree.displays_insert_backwards`, which also
says when it makes no difference.
-/
namespace Stackwise

open Exec

/-- A run of a program comes to the end of the code in some state. -/
def Code.Reaches (code : Code) (m s : Machine) : Prop :=
  ∃ loaded high, Visits code m loaded high s ∧ s.pc = code.size

theorem Code.reaches_iff {code loaded : Code} {m m₀ s : Machine}
    (hload : outcome (load code) m = (.ok loaded, m₀)) :
    code.Reaches m s ↔
      ∃ high, Relation.ReflTransGen (Turn loaded) (0, m₀.at 0) (high, s) ∧ s.pc = code.size := by
  simp only [Reaches, Visits, hload, Prod.mk.injEq, Except.ok.injEq]
  grind

/-! ### Programs with one more instruction -/

namespace Code.Begins

variable {c d : Code} (h : c.Begins d) (hc : c.WellFormed)
include h hc

/-- Inside the beginning the loop of the whole program takes the turns of the beginning. -/
theorem turn_back {s s' : Nat × Machine} (hs : c.Inside s.1 s.2) (hlt : s.2.pc < c.size)
    (ht : Turn d s s') : Turn c s s' := by
  obtain ⟨op, b, hdecode, hin⟩ := hc.inTable hs hlt
  have hwhole := h.decode? hdecode
  cases ht with
  | extend hd =>
    cases hwhole.symm.trans hd
    exact .extend hdecode
  | execute hd hop hrun =>
    cases hwhole.symm.trans hd
    rw [← h.execute_eq hin] at hrun
    exact .execute hdecode hop hrun

/-- A run of the whole program that leaves the beginning comes to the end of it first. -/
theorem turns_through {s s' : Nat × Machine} (hs : c.Inside s.1 s.2)
    (ht : Relation.ReflTransGen (Turn d) s s') (hlt : c.size < s'.2.pc) :
    ∃ u, Relation.ReflTransGen (Turn c) s u ∧ u.2.pc = c.size ∧
      Relation.ReflTransGen (Turn d) u s' := by
  induction ht using Relation.ReflTransGen.head_induction_on with
  | refl => exact absurd hs.1 (by omega)
  | head ht hrest ih =>
    rename_i s s₁
    by_cases hend : s.2.pc = c.size
    · exact ⟨s, .refl, hend, .head ht hrest⟩
    · have hpc : s.2.pc < c.size := Nat.lt_of_le_of_ne hs.1 hend
      have ht' := h.turn_back hc hs hpc ht
      obtain ⟨u, hu, hpc, hrest⟩ := ih (hc.turn ht' hs)
      exact ⟨u, .head ht' hu, hpc, hrest⟩

end Code.Begins

theorem Exec.execute_pc_of_isPlain {code : Code} {op : Opcode} {n : Nat} {m m' : Machine}
    (hplain : op.isPlain) (h : outcome (execute code op n) m = (.ok (), m')) : m'.pc = m.pc := by
  rcases execute_pc h with hpc | ⟨⟨kind, rfl⟩, -⟩
  · exact hpc
  · cases kind <;> cases hplain

/-- Loading marks the constants, whatever else a program has. -/
theorem Exec.load_congr {c d : Code} (h : c.consts = d.consts) {consts : Array Value}
    {m m' : Machine} (hload : outcome (load c) m = (.ok { c with consts }, m')) :
    outcome (load d) m = (.ok { d with consts }, m') := by
  simp only [load, h, outcome_bind, chain_eq_ok, outcome_pure, Prod.mk.injEq,
    Except.ok.injEq] at hload
  obtain ⟨ws, m₁, hmark, hcode, rfl⟩ := hload
  cases hcode
  simp [load, hmark]

namespace Code.Lists

variable {code : Code} {ls : List Line} {p : Pool} {op : Opcode} {n : Nat} {hplain : op.isPlain}
  (h : code.Lists (ls ++ [Line.plain op n hplain]) p)
include h

theorem with_consts (consts : Array Value) :
    Code.Lists { code with consts } (ls ++ [Line.plain op n hplain]) { p with consts } :=
  ⟨h.names, rfl, h.encodes, h.labels⟩

/-- From the end of the lines before it, the loop executes the last instruction and ends. -/
theorem runFrom_last (fuel : Nat) {u : Machine} (hu : u.pc = Line.totalWidth ls) :
    outcome (runFrom code (fuel + 1 + (Line.plain op n hplain).width) 0) u =
      chain (outcome (execute code op n) (u.at code.size)) fun _ s => (.ok (), s) := by
  have hsize : code.size = Line.totalWidth ls + (Line.plain op n hplain).width := by
    rw [h.size_eq, Line.totalWidth_append]
    rfl
  have hstep := h.runFrom_operation (l := .plain op n hplain) rfl rfl (fuel + 1) u
  rw [← hu, Machine.at_self, hu, ← hsize] at hstep
  rw [hstep]
  rcases hrun : outcome (execute code op n) (u.at code.size) with ⟨f | _, s⟩
  · rfl
  · rw [chain_ok, chain_ok, runFrom_end]
    rw [execute_pc_of_isPlain hplain hrun, h.fetch?_eq_none, ← h.size_eq]
    exact Nat.le_refl _

/-- The loop comes to the end of the code if it comes to that of the beginning, and if the last
instruction returns there. -/
theorem turns_last {c : Code} (hbegins : c.Begins code) (hc : c.WellFormed)
    (hsize : c.size = Line.totalWidth ls) {start s : Machine} (hstart : c.Inside 0 start) :
    (∃ high, Relation.ReflTransGen (Turn code) (0, start) (high, s) ∧ s.pc = code.size) ↔
      ∃ u, (∃ high, Relation.ReflTransGen (Turn c) (0, start) (high, u) ∧ u.pc = c.size) ∧
        outcome (execute code op n) (u.at code.size) = (.ok (), s) := by
  have hpos : 0 < (Line.plain op n hplain).width := Line.width_pos_of_operation rfl
  have hlt : c.size < code.size := by
    rw [h.size_eq, hsize, Line.totalWidth_append]
    simp only [Line.totalWidth_cons]
    omega
  have hend : ∀ v : Machine, v.pc = code.size → code.fetch? v.pc = none := fun v hv => by
    rw [hv, h.fetch?_eq_none, ← h.size_eq]
  have hzero : ∀ high u, Relation.ReflTransGen (Turn c) (0, start) (high, u) → u.pc = c.size →
      high = 0 := by
    intro high u hturns hpc
    rw [show high = _ from (hc.turns hturns hstart).2, hpc, hc.pending_size]
  constructor
  · rintro ⟨high, hturns, hpc⟩
    obtain ⟨⟨hu, u⟩, hfirst, hupc, hrest⟩ :=
      hbegins.turns_through hc hstart hturns (hpc.symm ▸ hlt)
    obtain rfl := hzero hu u hfirst hupc
    refine ⟨u, ⟨0, hfirst, hupc⟩, ?_⟩
    obtain ⟨k, hk⟩ := runFrom_turns hrest
    have hrun := h.runFrom_last k (hupc.trans hsize)
    rw [show k + 1 + (Line.plain op n hplain).width =
      (Line.plain op n hplain).width + 1 + k by omega, hk, runFrom_end (hend s hpc)] at hrun
    obtain ⟨_, s', hexecute, hs'⟩ := chain_eq_ok.1 hrun.symm
    cases hs'
    exact hexecute
  · rintro ⟨u, ⟨high, hfirst, hupc⟩, hexecute⟩
    obtain rfl := hzero high u hfirst hupc
    have hrun := h.runFrom_last 0 (hupc.trans hsize)
    rw [hexecute, chain_ok] at hrun
    obtain ⟨⟨high, v⟩, hrest, hends⟩ :=
      runFrom_ends code (0 + 1 + (Line.plain op n hplain).width) 0 u
    rw [hrun] at hends
    cases hends with
    | finished hfetch =>
      have hturns := (hbegins.turns hc hstart hfirst).trans hrest
      exact ⟨high, hturns, execute_pc_of_isPlain hplain hexecute⟩

end Code.Lists

/-- If a tree is compiled to the code of some items and one more operation, the items compile, and a
run comes to the end if it does so for the items and the operation then returns. -/
theorem Tree.reaches_operation {t : Tree} {items : List Tree} {op : Opcode} {n : Nat}
    {hplain : op.isPlain} {code : Code}
    (hdraft : t.draft = (program items).draft ++ Draft.lines [.plain op n hplain])
    (h : t.compile = .ok code) :
    ∃ code₀, (program items).compile = .ok code₀ ∧ ∀ m s, code.Reaches m s ↔
      ∃ u, code₀.Reaches m u ∧ outcome (execute code op n) (u.at code.size) = (.ok (), s) := by
  obtain ⟨ls', p, hd, hls⟩ := compile_eq_ok.1 h
  rw [hdraft, Draft.join_eq_some] at hd
  obtain ⟨ls, _, _, hd₀, hlast, rfl⟩ := hd
  obtain ⟨rfl, rfl⟩ := Draft.lines_eq_some.1 hlast
  obtain ⟨bs, cs, hbytes, hencodes⟩ := hls.encodes.left (draft_matched hd₀).closed
  have hnodup := hls.labels
  rw [Line.labels_append, List.nodup_append] at hnodup
  have hls₀ : Code.Lists ⟨p.names, p.consts, bs.toArray⟩ ls p :=
    ⟨rfl, rfl, by simpa using hencodes, hnodup.1⟩
  have hcode₀ := compile_eq_ok.2 ⟨ls, p, hd₀, hls₀⟩
  refine ⟨_, hcode₀, fun m s => ?_⟩
  -- The loops go through the two programs with the same marks on their constants.
  obtain ⟨consts, w, hload, hsize⟩ := load_returns code m
  have hload₀ := load_congr (d := ⟨p.names, p.consts, bs.toArray⟩) hls.consts hload
  have hwf : Code.WellFormed ⟨p.names, consts, bs.toArray⟩ :=
    (wellFormed_code hcode₀).with_consts (hls.consts ▸ hsize)
  have hbegins : Code.Begins ⟨p.names, consts, bs.toArray⟩ { code with consts } :=
    ⟨hls.names ▸ List.prefix_rfl, List.prefix_rfl, ⟨cs, by simp [hbytes]⟩⟩
  have hexecute : execute { code with consts } op n = execute code op n := by
    cases op <;> first | rfl | cases hplain
  have hstart : Code.Inside ⟨p.names, consts, bs.toArray⟩ 0 (Machine.at { m with world := w } 0) :=
    ⟨Nat.zero_le _, rfl⟩
  have hturns := (hls.with_consts consts).turns_last (s := s) hbegins hwf hls₀.size_eq hstart
  rw [hexecute] at hturns
  simp only [Code.reaches_iff hload, Code.reaches_iff hload₀]
  exact hturns

/-! ### The values of the items -/

theorem Eval.insertAll_eq_ok {xs vs r : List Value} :
    insertAll xs vs = .ok r ↔ (∀ v ∈ vs, v.IsKey) ∧ vs.foldl Value.addMember xs = r := by
  induction vs generalizing xs with
  | nil => simp [insertAll]
  | cons v vs ih =>
    rw [insertAll, bind_eq_ok, List.forall_mem_cons, List.foldl_cons, and_assoc, ← ih,
      ← Value.checkKey_eq_ok]
    constructor
    · rintro ⟨_, h⟩
      exact h
    · exact fun h => ⟨(), h⟩

theorem Eval.insertEntries_eq_ok {es ds r : List (Value × Value)} :
    insertEntries es ds = .ok r ↔
      (∀ d ∈ ds, d.1.IsKey) ∧ ds.foldl (fun es d => Value.insertKey es d.1 d.2) es = r := by
  induction ds generalizing es with
  | nil => simp [insertEntries]
  | cons d ds ih =>
    rw [insertEntries, bind_eq_ok, List.forall_mem_cons, List.foldl_cons, and_assoc, ← ih,
      ← Value.checkKey_eq_ok]
    constructor
    · rintro ⟨_, h⟩
      exact h
    · exact fun h => ⟨(), h⟩

/-- An operation that collects values from the stack into one value returns if they can be
collected. -/
theorem Exec.collect_eq_ok {α : Type} {y : Exec α} {r : Except Fault α} {mk : α → Value}
    {m s : Machine} {S T : List Value} (hy : outcome y m = (r, m.withEnv (T ++ S) m.env))
    (hT : ∀ a, r = .ok a → T = []) :
    outcome (y >>= fun a => push (mk a)) m = (.ok (), s) ↔
      ∃ a, r = .ok a ∧ s = { m with stack := mk a :: S } := by
  rw [outcome_bind, hy]
  cases r with
  | error f => simp
  | ok a =>
    rw [chain_ok, hT a rfl]
    simp [push, eq_comm]
    rfl

section
variable (code : Code) {m s : Machine} {S : List Value}

theorem Exec.execute_buildSet {vs : List Value} (hm : m.stack = vs ++ S) :
    outcome (execute code .buildSet vs.length) m = (.ok (), s) ↔
      (∀ v ∈ vs, v.IsKey) ∧ s = { m with stack := .set (Value.distinct vs) :: S } := by
  obtain ⟨T, hpop, hT⟩ := outcome_popMembers [] hm
  rw [execute, collect_eq_ok hpop hT]
  simp [Eval.insertAll_eq_ok, and_assoc, Value.distinct]

theorem Exec.execute_buildDict {ds : List (Value × Value)} (hm : m.stack = stacked ds ++ S) :
    outcome (execute code .buildDict ds.length) m = (.ok (), s) ↔
      (∀ d ∈ ds, d.1.IsKey) ∧ s = { m with stack := .dict (Value.inserted ds) :: S } := by
  obtain ⟨T, hpop, hT⟩ := outcome_popEntries [] hm
  rw [execute, collect_eq_ok hpop hT]
  simp [Eval.insertEntries_eq_ok, and_assoc, Value.inserted]

end

/-- An even number of values are keys above values. -/
theorem exists_stacked {vs : List Value} {n : Nat} (h : vs.length = 2 * n) :
    ∃ ds, ds.length = n ∧ vs = stacked ds := by
  induction n generalizing vs with
  | zero => exact ⟨[], rfl, List.length_eq_zero_iff.1 h⟩
  | succ n ih =>
    match vs, h with
    | k :: v :: vs, h =>
      have hlength : vs.length = 2 * n := by
        simp only [List.length_cons] at h
        omega
      obtain ⟨ds, hds, rfl⟩ := ih hlength
      exact ⟨(k, v) :: ds, by simp [hds], rfl⟩

theorem length_stacked (ds : List (Value × Value)) : (stacked ds).length = 2 * ds.length := by
  induction ds with
  | nil => rfl
  | cons d ds ih =>
    simp only [stacked, List.length_cons, ih]
    omega

namespace Tree

/-- The items of a dictionary in the order in which they are computed. -/
def entryItems (es : List (Tree × Tree)) : List Tree := es.flatMap fun e => [e.2, e.1]

theorem length_entryItems (es : List (Tree × Tree)) : (entryItems es).length = 2 * es.length := by
  simp [entryItems, List.length_flatMap]
  omega

theorem draft_setOf (es : List Tree) :
    (setOf es).draft = (program es).draft ++ Draft.lines [.plain .buildSet es.length rfl] := rfl

theorem entries_draft (es : List (Tree × Tree)) :
    Draft.entries (draftEach (es.map (·.1))) (draftEach (es.map (·.2))) =
      Draft.concat (draftEach (entryItems es)) := by
  induction es with
  | nil => rfl
  | cons e es ih =>
    simp [entryItems, draftEach, Draft.entries, Draft.concat, ih, Draft.join_assoc]

theorem draft_dictOf (es : List (Tree × Tree)) :
    (dictOf es).draft =
      (program (entryItems es)).draft ++ Draft.lines [.plain .buildDict es.length rfl] := by
  cases es with
  | nil => rfl
  | cons e es =>
    have hne : ¬(Tree.list ((e :: es).map (·.1))).count? = some 0 := by simp [count?]
    rw [dictOf, draft, if_neg hne]
    rw [firsts, firsts, entries_draft]
    simp [count?, Draft.counted, program, draft, parts]

/-- The same for expressions, which leave their values on the stack. -/
theorem reaches_items {t : Tree} {items : List Tree} {op : Opcode} {n : Nat}
    {hplain : op.isPlain} {code : Code}
    (hdraft : t.draft = (program items).draft ++ Draft.lines [.plain op n hplain])
    (hfits : ∀ e ∈ items, e.Fits true (.expression .load)) (h : t.compile = .ok code) :
    ∃ code₀, (program items).compile = .ok code₀ ∧ ∀ m s, code.Reaches m s ↔
      ∃ (u : Machine) (vs : List Value), code₀.Reaches m u ∧ vs.length = items.length ∧
        u.stack = vs ++ m.stack ∧
        outcome (execute code op n) (u.at code.size) = (.ok (), s) := by
  obtain ⟨code₀, hcode₀, hreaches⟩ := reaches_operation hdraft h
  refine ⟨code₀, hcode₀, fun m s => (hreaches m s).trans (exists_congr fun u => ?_)⟩
  constructor
  · rintro ⟨⟨loaded, high, hv, hpc⟩, hrun⟩
    have heffect : Draft.Effect 0 items.length (program items).draft :=
      concat_effect fun e he => (hfits e he).hasEffect
    obtain ⟨vs, hlength, hstack⟩ := visits_effect heffect hcode₀ hv hpc
    exact ⟨vs, ⟨loaded, high, hv, hpc⟩, hlength, hstack, hrun⟩
  · rintro ⟨vs, hu, -, -, hrun⟩
    exact ⟨hu, hrun⟩

/-- The members of a set display are inserted from the last to the first. -/
theorem reaches_setOf {es : List Tree} {code : Code}
    (hfits : ∀ e ∈ es, e.Fits true (.expression .load)) (h : (setOf es).compile = .ok code) :
    ∃ code₀, (program es).compile = .ok code₀ ∧ ∀ m s, code.Reaches m s ↔
      ∃ (u : Machine) (vs : List Value), code₀.Reaches m u ∧ vs.length = es.length ∧
        u.stack = vs.reverse ++ m.stack ∧ (∀ v ∈ vs, v.IsKey) ∧
        s = { u with stack := .set (Value.distinct vs.reverse) :: m.stack, pc := code.size } := by
  obtain ⟨code₀, hcode₀, hreaches⟩ := reaches_items (draft_setOf es) hfits h
  refine ⟨code₀, hcode₀, fun m s => (hreaches m s).trans (exists_congr fun u => ?_)⟩
  have build : ∀ vs : List Value, u.stack = vs ++ m.stack → _ := fun vs hstack =>
    execute_buildSet (m := u.at code.size) (s := s) code hstack
  constructor
  · rintro ⟨vs, hu, hlength, hstack, hrun⟩
    rw [← hlength, build vs hstack] at hrun
    exact ⟨vs.reverse, hu, by simpa, by simpa, by simpa using hrun.1, by simpa using hrun.2⟩
  · rintro ⟨vs, hu, hlength, hstack, hkeys, hs⟩
    rw [← hlength, ← List.length_reverse, build vs.reverse hstack]
    exact ⟨vs.reverse, hu, rfl, hstack, by simpa, hs⟩

/-- The entries of a dictionary display are inserted from the last to the first. -/
theorem reaches_dictOf {es : List (Tree × Tree)} {code : Code}
    (hfits : ∀ e ∈ entryItems es, e.Fits true (.expression .load))
    (h : (dictOf es).compile = .ok code) :
    ∃ code₀, (program (entryItems es)).compile = .ok code₀ ∧ ∀ m s, code.Reaches m s ↔
      ∃ (u : Machine) (ds : List (Value × Value)), code₀.Reaches m u ∧ ds.length = es.length ∧
        u.stack = stacked ds.reverse ++ m.stack ∧ (∀ d ∈ ds, d.1.IsKey) ∧
        s = { u with stack := .dict (Value.inserted ds.reverse) :: m.stack, pc := code.size } := by
  obtain ⟨code₀, hcode₀, hreaches⟩ := reaches_items (draft_dictOf es) hfits h
  refine ⟨code₀, hcode₀, fun m s => (hreaches m s).trans (exists_congr fun u => ?_)⟩
  have build : ∀ ds, u.stack = stacked ds ++ m.stack → _ := fun ds hstack =>
    execute_buildDict (m := u.at code.size) (s := s) code hstack
  constructor
  · rintro ⟨vs, hu, hlength, hstack, hrun⟩
    obtain ⟨ds, hds, rfl⟩ := exists_stacked (hlength.trans (length_entryItems es))
    rw [← hds, build ds hstack] at hrun
    exact ⟨ds.reverse, hu, by simpa, by simpa, by simpa using hrun.1, by simpa using hrun.2⟩
  · rintro ⟨ds, hu, hlength, hstack, hkeys, hs⟩
    have hvs : (stacked ds.reverse).length = (entryItems es).length := by
      rw [length_stacked, length_entryItems, List.length_reverse, hlength]
    refine ⟨stacked ds.reverse, hu, hvs, hstack, ?_⟩
    rw [← hlength, ← List.length_reverse, build ds.reverse hstack]
    exact ⟨by simpa using hkeys, hs⟩

/-- Displays on any machine. A display of expressions is run to its end if they are and their keys
can be keys; then one value lies where theirs were. It is made of them from the last to the first.
So the keys of a dictionary stand in the order of their last places and in the form they have there,
with the values of their first places, and of the same members a set keeps the last. A dictionary is
the one that the order of the text gives if its keys have this order too, and equal first and last
values; a set is if the first and the last of the same members are one. This goes for values on
which sameness is an equivalence, and on all that hold no floats it is. -/
theorem displays_insert_backwards (m : Machine) :
    (∀ (es : List (Tree × Tree)) (code : Code),
      (∀ e ∈ entryItems es, e.Fits true (.expression .load)) → (dictOf es).compile = .ok code →
      ∃ code₀, (program (entryItems es)).compile = .ok code₀ ∧ ∀ s, code.Reaches m s ↔
        ∃ (u : Machine) (ds : List (Value × Value)), code₀.Reaches m u ∧ ds.length = es.length ∧
          u.stack = stacked ds.reverse ++ m.stack ∧ (∀ d ∈ ds, d.1.IsKey) ∧
          s = { u with stack := .dict (Value.inserted ds.reverse) :: m.stack, pc := code.size }) ∧
    (∀ (es : List Tree) (code : Code),
      (∀ e ∈ es, e.Fits true (.expression .load)) → (setOf es).compile = .ok code →
      ∃ code₀, (program es).compile = .ok code₀ ∧ ∀ s, code.Reaches m s ↔
        ∃ (u : Machine) (vs : List Value), code₀.Reaches m u ∧ vs.length = es.length ∧
          u.stack = vs.reverse ++ m.stack ∧ (∀ v ∈ vs, v.IsKey) ∧
          s = { u with stack := .set (Value.distinct vs.reverse) :: m.stack, pc := code.size }) ∧
    (∀ ds : List (Value × Value), Value.EquivalentOn (ds.map (·.1)) →
      (Value.inserted ds.reverse).map (·.1) = Value.distinct (ds.map (·.1)).reverse ∧
      (∀ k ∈ ds.map (·.1), Value.lookupKey k (Value.inserted ds.reverse) = Value.lookupKey k ds) ∧
      (Value.inserted ds.reverse = Value.inserted ds ↔
        Value.distinct (ds.map (·.1)).reverse = Value.distinct (ds.map (·.1)) ∧
          ∀ k ∈ ds.map (·.1), Value.lookupKey k ds = Value.lookupKey k ds.reverse)) ∧
    (∀ vs : List Value, Value.EquivalentOn vs →
      (∀ x, x ∈ Value.distinct vs.reverse ↔ vs.reverse.find? (Value.same · x) = some x) ∧
      ((∀ x, x ∈ Value.distinct vs.reverse ↔ x ∈ Value.distinct vs) ↔
        ∀ x ∈ vs, vs.reverse.find? (Value.same · x) = vs.find? (Value.same · x))) ∧
    ∀ vs : List Value, (∀ v ∈ vs, v.IsExact) → Value.EquivalentOn vs := by
  refine ⟨fun es code hfits h => ?_, fun es code hfits h => ?_, fun ds hds => ⟨?_, ?_, ?_⟩,
    fun vs hvs => ⟨fun x => ?_, ?_⟩, fun vs => Value.IsExact.equivalentOn⟩
  · obtain ⟨code₀, hcode₀, hreaches⟩ := reaches_dictOf hfits h
    exact ⟨code₀, hcode₀, hreaches m⟩
  · obtain ⟨code₀, hcode₀, hreaches⟩ := reaches_setOf hfits h
    exact ⟨code₀, hcode₀, hreaches m⟩
  · rw [Value.map_fst_inserted, List.map_reverse]
  · intro k hk
    have hk' : Value.EquivalentOn (k :: ds.reverse.map (·.1)) := hds.mono (by grind)
    rw [Value.lookupKey_inserted hk', List.reverse_reverse]
  · exact Value.inserted_reverse hds
  · exact Value.mem_distinct (hvs.mono (by grind))
  · exact Value.mem_distinct_reverse hvs

/-- A dictionary with two keys that are the same. -/
def relabelled : List (Tree × Tree) :=
  [(.num 1, .const (.str "a")), (.const (.bool true), .const (.str "b")),
    (.num 2, .const (.str "c"))]

theorem relabelled_fits : ∀ e ∈ entryItems relabelled, e.Fits true (.expression .load) := by
  simp only [entryItems, relabelled, List.flatMap_cons, List.flatMap_nil, List.append_nil,
    List.cons_append, List.nil_append, List.forall_mem_cons]
  exact ⟨.constant _, .constant _, .constant _, .constant _, .constant _, .constant _,
    List.forall_mem_nil _⟩

theorem displays_insert_backwards_relabelled :
    (∀ e ∈ entryItems relabelled, e.Fits true (.expression .load)) ∧
    ∃ code s, (dictOf relabelled).compile = .ok code ∧
      code.Reaches {} s ∧ s.stack = [.dict [(.int 2, .str "c"), (.bool true, .str "a")]] ∧
      Value.inserted [(.int 1, .str "a"), (.bool true, .str "b"), (.int 2, .str "c")] =
        [(.int 1, .str "b"), (.int 2, .str "c")] := by
  let ds : List (Value × Value) :=
    [(.int 1, .str "a"), (.bool true, .str "b"), (.int 2, .str "c")]
  obtain ⟨code, hcode, code₀, hcode₀, loaded, hload, hrun, hstack⟩ :
      ∃ code, (dictOf relabelled).compile = .ok code ∧
        ∃ code₀, (program (entryItems relabelled)).compile = .ok code₀ ∧
          ∃ loaded, (outcome (load code₀) {}).1 = .ok loaded ∧
            (outcome (runFrom loaded 9 0) ((outcome (load code₀) {}).2.at 0)).1.toBool ∧
            List.Forall₂ (fun v w => IsLiteral v ∧ IsLiteral w ∧ v.sameConstant w = true)
              (outcome (runFrom loaded 9 0) ((outcome (load code₀) {}).2.at 0)).2.stack
              (stacked ds.reverse) := by
    decide +kernel
  rcases hend : outcome (runFrom loaded 9 0) ((outcome (load code₀) {}).2.at 0) with ⟨f | _, u⟩
  · rw [hend] at hrun
    cases hrun
  rw [hend] at hstack
  have hvalues : u.stack = stacked ds.reverse := by
    refine List.forall₂_eq_eq_eq ▸ hstack.imp fun v w h => ?_
    exact h.1.eq_of_sameConstant h.2.1 h.2.2
  obtain ⟨high, hv, hpc⟩ := (wellFormed_code hcode₀).visits_returned (Prod.ext hload rfl) hend
  obtain ⟨code₁, hcode₁, hreaches⟩ :=
    (displays_insert_backwards {}).1 relabelled code relabelled_fits hcode
  obtain rfl : code₀ = code₁ := Except.ok.inj (hcode₀.symm.trans hcode₁)
  have hkeys : ∀ d ∈ ds, d.1.IsKey := by simp [ds, Value.IsKey, Value.unhashable?]
  have hstart : u.stack = stacked ds.reverse ++ (default : Machine).stack :=
    hvalues.trans (List.append_nil _).symm
  refine ⟨relabelled_fits, code, _, hcode,
    (hreaches _).2 ⟨u, ds, ⟨loaded, high, hv, hpc⟩, rfl, hstart, hkeys, rfl⟩, ?_, ?_⟩
  · simp [ds, Value.inserted, Value.insertKey, Value.same, Value.number?, Number.same]
  · simp [Value.inserted, Value.insertKey, Value.same, Value.number?, Number.same]

end Tree

end Stackwise
