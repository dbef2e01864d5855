import Stackwise.Proofs.Composition
import Stackwise.Proofs.ExecInduction
import Stackwise.Proofs.Visited

/-!
# Variables that a program leaves alone

A program changes the variables that it names as targets and no others, whether it ends or fails
half way: `Tree.run_spares_others`. The names in the listing of a tree come from its visited nodes,
an instruction changes the variable in its place of the table only, and a run never reads an operand
without its prefixes, so that it never comes to another place of the table.
-/
namespace Stackwise

/-- The names of the variables that a tree sets, changes or deletes. -/
def Tree.targets (t : Tree) : List Name :=
  (t.visited.flatMap Tree.uses).filterMap fun u => if u.1 = .load then none else some u.2

/-- The variables whose names are none of those given, in their order. -/
def Machine.others (m : Machine) (names : List Name) : List (Name × Value) :=
  m.globals.filter fun g => !names.any (g.1 == ·)

theorem Name.IsText.eq_of_beq {k n : Name} (hn : n.IsText) (h : (k == n) = true) : k = n := by
  obtain ⟨s, rfl⟩ := hn
  exact Name.beq_text_iff.1 h

theorem Name.IsText.beq_self {n : Name} (hn : n.IsText) : (n == n) = true := by
  obtain ⟨s, rfl⟩ := hn
  exact Name.beq_text_iff.2 rfl

/-- A variable whose name is none of those given is one of the others. -/
theorem Machine.lookup_eq_others {m : Machine} {names : List Name} {n : Name}
    (htext : ∀ k ∈ names, k.IsText) (hn : n ∉ names) :
    m.globals.lookup n = (m.others names).lookup n := by
  unfold Machine.others
  induction m.globals with
  | nil => rfl
  | cons g gs ih =>
    obtain ⟨name, v⟩ := g
    cases hname : names.any (name == ·) with
    | false => simp [hname, List.lookup_cons, ih]
    | true =>
      obtain ⟨k, hk, hsame⟩ := List.any_eq_true.1 hname
      have hne : (n == name) = false := by
        rw [(htext k hk).eq_of_beq hsame, Bool.eq_false_iff]
        exact fun he => hn ((htext k hk).eq_of_beq he ▸ hk)
      simp [hname, List.lookup_cons, hne, ih]

/-! ### Changing one variable -/

section
variable {names : List Name} {k : Name} (hk : k ∈ names) (gs : List (Name × Value))
include hk

/-- The variable that is changed is none of the others. -/
theorem not_other {g : Name × Value} (hg : (g.1 == k) = true) :
    (!names.any (g.1 == ·)) = false := by
  rw [Bool.not_eq_false_eq_eq_true, List.any_eq_true]
  exact ⟨k, hk, hg⟩

theorem filter_setGlobal (htext : k.IsText) (v : Value) :
    ((setGlobal gs k v).filter fun g => !names.any (g.1 == ·)) =
      gs.filter fun g => !names.any (g.1 == ·) := by
  unfold setGlobal
  split
  · have hname : ((fun g => !names.any (g.1 == ·)) ∘ fun g => if g.1 == k then (g.1, v) else g) =
        fun g : Name × Value => !names.any (g.1 == ·) := by
      funext g
      dsimp only [Function.comp]
      split <;> rfl
    rw [List.filter_map, hname]
    refine (List.map_congr_left fun g hg => ?_).trans (List.map_id _)
    have hother := (List.mem_filter.1 hg).2
    refine if_neg fun hgk => ?_
    rw [not_other hk hgk] at hother
    cases hother
  · have hnew : (!names.any (k == ·)) = false := not_other hk (g := (k, v)) htext.beq_self
    simp [List.filter_append, hnew]

theorem filter_dropGlobal :
    ((dropGlobal gs k).filter fun g => !names.any (g.1 == ·)) =
      gs.filter fun g => !names.any (g.1 == ·) := by
  rw [dropGlobal, List.filter_filter]
  refine List.filter_congr fun g _ => ?_
  cases hg : g.1 == k with
  | true => simp [not_other hk hg]
  | false => simp [bne, hg]

end

/-! ### Operations that spare other variables -/

/-- An operation leaves all variables alone but those with the names given, also when it fails. -/
def Exec.Spares (names : List Name) {α : Type} (e : Exec α) : Prop :=
  ∀ m, (outcome e m).2.others names = m.others names

namespace Exec.Spares

variable {names : List Name}

theorem of_globals {α : Type} {e : Exec α} (h : ∀ m, (outcome e m).2.globals = m.globals) :
    Spares names e := fun m => by rw [Machine.others, h m, Machine.others]

theorem bind {α β : Type} {e : Exec α} {g : α → Exec β} (he : Spares names e)
    (hg : ∀ a, Spares names (g a)) : Spares names (e >>= g) := by
  intro m
  have hm := he m
  rw [outcome_bind]
  rcases hout : outcome e m with ⟨f | a, m'⟩ <;> rw [hout] at hm
  · exact hm
  · exact (hg a m').trans hm

theorem stable (names : List Name) : Exec.Stable fun _ => Spares names where
  pure _ := of_globals fun _ => rfl
  throw _ := of_globals fun _ => rfl
  bind := bind
  act _ := of_globals fun _ => rfl
  push _ := of_globals fun _ => rfl
  pop := of_globals fun m => by cases hs : m.stack <;> simp [Exec.pop, hs]
  top := of_globals fun m => by cases hs : m.stack <;> simp [Exec.top, hs]
  popArguments _ := of_globals fun _ => rfl
  jump _ := of_globals fun _ => rfl
  lookup n := of_globals fun m => by
    cases hn : n.checkKey with
    | error f => simp [Exec.lookup, Exec.ofExcept, hn]
    | ok u =>
      simp only [Exec.lookup, Exec.ofExcept, hn, outcome_bind, outcome_pure, chain_ok, outcome_get]
      cases m.globals.lookup n with
      | some v => rfl
      | none =>
        cases predefined? n with
        | some v => rfl
        | none => cases n.repr <;> rfl

theorem store {n : Name} (hn : n ∈ names) (htext : n.IsText) (v : Value) :
    Spares names (store n v) :=
  ((stable names).chained.ofExcept _).bind fun _ _ => filter_setGlobal hn _ htext v

theorem delete {n : Name} (hn : n ∈ names) : Spares names (delete n) := by
  refine ((stable names).chained.ofExcept _).bind fun _ m => ?_
  simp only [outcome_bind, outcome_get, chain_ok]
  cases m.globals.lookup n with
  | some v => exact filter_dropGlobal hn _
  | none => rfl

end Exec.Spares

/-! ### Code that changes certain variables -/

/-- The instructions that change a variable have its name among those given. -/
def Code.Changes (c : Code) (names : List Name) : Prop :=
  ∀ s use b n, c.decode? s = some (NameUse.opcode use, b) → use ≠ .load →
    c.names[c.pending s * 256 + b]? = some n → n ∈ names

namespace Code.Changes

variable {c : Code} {names : List Name} (h : c.Changes names) (htext : ∀ n ∈ names, n.IsText)
include h

theorem with_consts (consts : Array Value) : Changes { c with consts } names := by
  intro s use b n hd huse hn
  rw [pending_with_consts] at hn
  exact h s use b n hd huse hn

include htext

/-- An instruction with all its prefixes changes one of them or none. -/
theorem execute {s b : Nat} {op : Opcode} (hd : c.decode? s = some (op, b)) :
    Exec.Spares names (Exec.execute c op (c.pending s * 256 + b)) := by
  refine (Exec.Spares.stable names).execute ?_ ?_
  · rintro rfl n v hn
    have hmem := h s .store b n hd nofun hn
    exact .store hmem (htext n hmem) v
  · rintro rfl n hn
    exact .delete (h s .delete b n hd nofun hn)

/-- Every turn of the loop spares the other variables. -/
theorem turn {s s' : Nat × Machine} (ht : Exec.Turn c s s') (hs : c.Inside s.1 s.2) :
    s'.2.others names = s.2.others names := by
  cases ht with
  | extend hd => rfl
  | @execute high b m m' op hd hop hrun =>
    obtain rfl : high = c.pending m.pc := hs.2
    have hspares := h.execute htext hd (m.at (m.pc + 1))
    rw [hrun] at hspares
    exact hspares

theorem turns (hwf : c.WellFormed) {s s' : Nat × Machine}
    (ht : Relation.ReflTransGen (Exec.Turn c) s s') (hs : c.Inside s.1 s.2) :
    s'.2.others names = s.2.others names := by
  induction ht with
  | refl => rfl
  | tail hturns ht ih => exact (h.turn htext ht (hwf.turns hturns hs)).trans ih

/-- A whole run spares them, however it ends. -/
theorem runWithin (hwf : c.WellFormed) (m : Machine) (fuel : Nat) :
    (m.perform (Exec.runWithin fuel c)).2.others names = m.others names := by
  obtain ⟨loaded, high, s, hv, hends⟩ := hwf.runWithin_ends m fuel
  obtain ⟨consts, w, hsize, rfl, hturns⟩ := hv.turns
  have hloaded := hwf.with_consts hsize
  have hchanges := h.with_consts consts
  have hstart : Code.Inside { c with consts } 0 (Machine.at { m with world := w } 0) :=
    ⟨Nat.zero_le _, rfl⟩
  have hinside := hloaded.turns hturns hstart
  have hvisited : s.others names = m.others names := hchanges.turns htext hloaded hturns hstart
  obtain ⟨-, hrun⟩ | hrun | ⟨op, b, f, m', hd, -, hfail, hrun⟩ := hends
  · rw [hrun, hvisited]
  · rw [hrun, hvisited]
  · have hhigh : high = Code.pending { c with consts } s.pc := hinside.2
    have hspares := hchanges.execute htext hd (s.at (s.pc + 1))
    rw [← hhigh, hfail] at hspares
    rw [hrun]
    exact hspares.trans hvisited

end Code.Changes

theorem Line.eq_name_of_operation {l : Line} {use : NameUse} {i : Nat}
    (h : l.operation? = some (use.opcode, i)) : ∃ n, l = .name use i n := by
  cases l with
  | const j v => cases use <;> cases h
  | name use' j n => cases use <;> cases use' <;> cases h <;> exact ⟨n, rfl⟩
  | plain op arg hop => cases use <;> cases h <;> cases hop
  | jump kind m => cases h
  | label m => cases h

namespace Tree

theorem mem_targets {t s : Tree} {use : NameUse} {n : Name} (hs : s ∈ t.visited)
    (huse : (use, n) ∈ s.uses) (hload : use ≠ .load) : n ∈ t.targets :=
  List.mem_filterMap.2 ⟨(use, n), List.mem_flatMap.2 ⟨s, hs, huse⟩, if_neg hload⟩

/-- What a listing of the tree changes is among its targets. -/
theorem draft_targets {t : Tree} {ls : List Line} {p q : Pool} (h : t.draft p = some (ls, q))
    {use : NameUse} {i : Nat} {n : Name} (hline : .name use i n ∈ ls) (huse : use ≠ .load) :
    n ∈ t.targets := by
  have hlines : Draft.All (fun l => ∀ use i n, l = .name use i n → use ≠ .load → n ∈ t.targets)
      t.draft := by
    refine (Draft.All.stableOn (A := (· ∈ t.visited)) ?_ ?_ ?_).draft t fun s hs => hs
    · rintro _ hfree use i n rfl
      cases hfree
    · rintro i v _ _ _ ⟨⟩
    · rintro s use n i hs huse _ _ _ ⟨⟩ hload
      exact mem_targets hs huse hload
  exact hlines p ls q h _ hline use i n rfl huse

theorem compile_changes {t : Tree} {code : Code} (htext : ∀ n ∈ t.targets, n.IsText)
    (h : t.compile = .ok code) : code.Changes t.targets := by
  obtain ⟨ls, p, hd, hls⟩ := compile_eq_ok.1 h
  have grows := t.draft_keeps (P := fun _ => True) (by simp) {} ls p hd
  intro s use b n hop huse hn
  obtain ⟨hext, -⟩ | ⟨l, hl, hline⟩ | ⟨kind, m, -, hjump, -⟩ := hls.instruction_at hop
  · cases use <;> cases hext
  · obtain ⟨n', rfl⟩ := Line.eq_name_of_operation hline
    obtain ⟨k, hk, hsame⟩ := grows.known _ hl
    have hmem := draft_targets hd hl huse
    -- The table has the name of the line itself, since it is a text.
    have hkn : k = n' := hsame.elim id (htext n' hmem).eq_of_beq
    rw [hls.names, hk] at hn
    cases hn
    exact hkn ▸ hmem
  · cases use <;> cases kind <;> cases hjump

/-- A program changes the variables that it names as targets and no others. However a run of it ends
and whatever it starts from, every other variable has the value that it had, or none if it had none,
and the other variables are in the same order. -/
theorem run_spares_others {t : Tree} {code : Code} (htext : ∀ n ∈ t.targets, n.IsText)
    (h : t.compile = .ok code) (m : Machine) (fuel : Nat) :
    let m' := (m.perform (Exec.runWithin fuel code)).2
    m'.others t.targets = m.others t.targets ∧
      ∀ n, n ∉ t.targets → m'.globals.lookup n = m.globals.lookup n := by
  have hothers := (compile_changes htext h).runWithin htext (wellFormed_code h) m fuel
  refine ⟨hothers, fun n hn => ?_⟩
  rw [Machine.lookup_eq_others htext hn, hothers, ← Machine.lookup_eq_others htext hn]

/-- A program that sets a variable, deletes another and then fails in changing the first. -/
def failingProgram : Tree :=
  .program [.set "x" (.num 1), .delete (.list [.name (.ofText "y") (.context .del)]),
    .update "x" .floorDiv (.var "zero")]

theorem run_spares_others_failing :
    let m : Machine :=
      { globals := [(.text "zero", .int 0), (.text "y", .int 5), (.text "z", .int 7)] }
    ∃ code, failingProgram.compile = .ok code ∧ (∀ n ∈ failingProgram.targets, n.IsText) ∧
      Name.text "z" ∉ failingProgram.targets ∧
      (m.perform (Exec.runWithin 100 code)).1.toBool = false ∧
      (m.perform (Exec.runWithin 100 code)).2.others failingProgram.targets =
        [(.text "zero", .int 0), (.text "z", .int 7)] ∧
      (m.perform (Exec.runWithin 100 code)).2.globals.lookup (.text "z") = some (.int 7) := by
  intro m
  have htargets : failingProgram.targets = [.text "x", .text "y", .text "x"] := rfl
  have htext : ∀ n ∈ failingProgram.targets, n.IsText := by
    rw [htargets]
    decide
  obtain ⟨code, hcode, hfails⟩ : ∃ code, failingProgram.compile = .ok code ∧
      (m.perform (Exec.runWithin 100 code)).1.toBool = false := by
    decide +kernel
  have hz : Name.text "z" ∉ failingProgram.targets := by simp [htargets]
  obtain ⟨hothers, hlookup⟩ := run_spares_others htext hcode m 100
  exact ⟨code, hcode, htext, hz, hfails, hothers, hlookup _ hz⟩

end Tree
end Stackwise
