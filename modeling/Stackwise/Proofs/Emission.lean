import Mathlib.Data.List.Forall2
import Stackwise.Proofs.Listing

/-!
# Emitting is drafting

`Follows e d` says that an action `e` on an assembler succeeds exactly when the draft `d` does, and
then appends the lines of the draft. It is kept by every way in which actions are put together, and
so it holds of `Tree.emit` and `Tree.draft` for trees of any shape: `Tree.emit_follows`.
-/
namespace Stackwise

/-! ### Drafts one after the other -/

namespace Draft

theorem lines_eq_some {ls ms : List Line} {p q : Pool} :
    lines ls p = some (ms, q) ↔ ms = ls ∧ q = p := by
  change some (ls, p) = some (ms, q) ↔ _
  simp [eq_comm]

theorem bind_eq_some {α β : Type} {d : Draft α} {g : α → Draft β} {p q : Pool} {y : β} :
    (d >>= g) p = some (y, q) ↔ ∃ x r, d p = some (x, r) ∧ g x r = some (y, q) := by
  change (d p).bind (fun x => g x.1 x.2) = _ ↔ _
  simp [Option.bind_eq_some_iff]

theorem join_eq_some {d e : Draft (List Line)} {p q : Pool} {ls : List Line} :
    (d ++ e) p = some (ls, q) ↔
      ∃ ms ns r, d p = some (ms, r) ∧ e r = some (ns, q) ∧ ls = ms ++ ns := by
  change (d >>= fun ms => e >>= fun ns => pure (ms ++ ns)) p = _ ↔ _
  simp only [bind_eq_some]
  constructor
  · rintro ⟨ms, r, hd, ns, s, he, h⟩
    obtain ⟨rfl, rfl⟩ := lines_eq_some.1 h
    exact ⟨ms, ns, r, hd, he, rfl⟩
  · rintro ⟨ms, ns, r, hd, he, rfl⟩
    exact ⟨ms, r, hd, ns, q, he, rfl⟩

@[simp] theorem failure_eq_none {α : Type} (p : Pool) : (failure : Draft α) p = none := rfl

theorem join_assoc (d e f : Draft (List Line)) : d ++ e ++ f = d ++ (e ++ f) := by
  change Draft.join (Draft.join d e) f = Draft.join d (Draft.join e f)
  simp only [Draft.join, bind_assoc, pure_bind, List.append_assoc]

theorem nil_join (d : Draft (List Line)) : lines [] ++ d = d := by
  change Draft.join (lines []) d = d
  simp [Draft.join, lines]

theorem lines_join_lines (ls ms : List Line) (d : Draft (List Line)) :
    lines (ls ++ ms) ++ d = lines ls ++ (lines ms ++ d) := by
  rw [← join_assoc]
  rfl

/-- A name has a place in the table, or gets the next one. -/
theorem addName_eq_some {n : Name} {p q : Pool} {i : Nat} :
    addName n p = some (i, q) ↔ n.checkKey = .ok () ∧
      (p.names.toList.findIdx? (· == n) = some i ∧ q = p ∨
        p.names.toList.findIdx? (· == n) = none ∧ i = p.names.size ∧
          q = { p with names := p.names.push n }) := by
  unfold addName
  cases n.checkKey <;> cases p.names.toList.findIdx? (· == n) <;> simp [eq_comm]

/-- A constant has a place in the table, or gets the next one. -/
theorem addConst_eq_some {v : Value} {p q : Pool} {i : Nat} :
    addConst v p = some (i, q) ↔ v.checkKey = .ok () ∧
      (p.consts.toList.findIdx? (fun w => Value.sameConstant w v) = some i ∧ q = p ∨
        p.consts.toList.findIdx? (fun w => Value.sameConstant w v) = none ∧
          i = p.consts.size ∧ q = { p with consts := p.consts.push v }) := by
  unfold addConst
  cases v.checkKey <;>
    cases p.consts.toList.findIdx? (fun w => Value.sameConstant w v) <;> simp [eq_comm]

/-- Two markers that nobody has used. -/
theorem bind_fresh_eq_some {g : Marker → Marker → Draft (List Line)} {p q : Pool}
    {ls : List Line} :
    (freshMarker >>= fun m => freshMarker >>= fun n => g m n) p = some (ls, q) ↔
      g (.fresh p.made) (.fresh (p.made + 1)) { p with made := p.made + 2 } = some (ls, q) :=
  Iff.rfl

section
variable {d e f : Draft (List Line)} {p q : Pool} {ls : List Line}

theorem conditional_eq_some :
    conditional d e f p = some (ls, q) ↔ ∃ ds es fs p₁ p₂,
      d { p with made := p.made + 2 } = some (ds, p₁) ∧ e p₁ = some (es, p₂) ∧
      f p₂ = some (fs, q) ∧
      ls = ds ++ Line.jump .ifFalse (.fresh p.made) :: Line.plain .popTop 0 rfl :: (es ++
        Line.jump .always (.fresh (p.made + 1)) :: Line.label (.fresh p.made) ::
          Line.plain .popTop 0 rfl :: (fs ++ [Line.label (.fresh (p.made + 1))])) := by
  rw [conditional, bind_fresh_eq_some]
  simp only [join_assoc, join_eq_some, lines_eq_some]
  constructor
  · rintro ⟨ds, _, p₁, hd, ⟨_, _, _, ⟨rfl, rfl⟩, ⟨es, _, p₂, he, ⟨_, _, _, ⟨rfl, rfl⟩,
      ⟨fs, _, _, hf, ⟨rfl, rfl⟩, rfl⟩, rfl⟩, rfl⟩, rfl⟩, rfl⟩
    exact ⟨ds, es, fs, _, _, hd, he, hf, by simp⟩
  · rintro ⟨ds, es, fs, p₁, p₂, hd, he, hf, rfl⟩
    exact ⟨ds, _, p₁, hd, ⟨_, _, _, ⟨rfl, rfl⟩, ⟨es, _, p₂, he, ⟨_, _, _, ⟨rfl, rfl⟩,
      ⟨fs, _, _, hf, ⟨rfl, rfl⟩, rfl⟩, rfl⟩, rfl⟩, rfl⟩, by simp⟩

theorem whileLoop_eq_some :
    whileLoop d e p = some (ls, q) ↔ ∃ ds es p₁,
      d { p with made := p.made + 2 } = some (ds, p₁) ∧ e p₁ = some (es, q) ∧
      ls = Line.label (.fresh p.made) :: (ds ++ Line.jump .ifFalse (.fresh (p.made + 1)) ::
        Line.plain .popTop 0 rfl :: (es ++ [Line.jump .always (.fresh p.made),
          Line.label (.fresh (p.made + 1)), Line.plain .popTop 0 rfl])) := by
  rw [whileLoop, bind_fresh_eq_some]
  simp only [join_assoc, join_eq_some, lines_eq_some]
  constructor
  · rintro ⟨_, _, _, ⟨rfl, rfl⟩, ⟨ds, _, p₁, hd, ⟨_, _, _, ⟨rfl, rfl⟩,
      ⟨es, _, _, he, ⟨rfl, rfl⟩, rfl⟩, rfl⟩, rfl⟩, rfl⟩
    exact ⟨ds, es, _, hd, he, by simp⟩
  · rintro ⟨ds, es, p₁, hd, he, rfl⟩
    exact ⟨_, _, _, ⟨rfl, rfl⟩, ⟨ds, _, p₁, hd, ⟨_, _, _, ⟨rfl, rfl⟩,
      ⟨es, _, _, he, ⟨rfl, rfl⟩, rfl⟩, rfl⟩, rfl⟩, by simp⟩

theorem forLoop_eq_some :
    forLoop d e f p = some (ls, q) ↔ ∃ ds es fs p₁ p₂,
      d { p with made := p.made + 2 } = some (ds, p₁) ∧ e p₁ = some (es, p₂) ∧
      f p₂ = some (fs, q) ∧
      ls = ds ++ Line.plain .getIter 0 rfl :: Line.label (.fresh p.made) ::
        Line.jump .atEnd (.fresh (p.made + 1)) :: (es ++ (fs ++
          [Line.jump .always (.fresh p.made), Line.label (.fresh (p.made + 1)),
            Line.plain .popTop 0 rfl])) := by
  rw [forLoop, bind_fresh_eq_some]
  simp only [join_assoc, join_eq_some, lines_eq_some]
  constructor
  · rintro ⟨ds, _, p₁, hd, ⟨_, _, _, ⟨rfl, rfl⟩, ⟨es, _, p₂, he,
      ⟨fs, _, _, hf, ⟨rfl, rfl⟩, rfl⟩, rfl⟩, rfl⟩, rfl⟩
    exact ⟨ds, es, fs, _, _, hd, he, hf, by simp⟩
  · rintro ⟨ds, es, fs, p₁, p₂, hd, he, hf, rfl⟩
    exact ⟨ds, _, p₁, hd, ⟨_, _, _, ⟨rfl, rfl⟩, ⟨es, _, p₂, he,
      ⟨fs, _, _, hf, ⟨rfl, rfl⟩, rfl⟩, rfl⟩, rfl⟩, by simp⟩

theorem update_eq_some {n : Name} :
    update (some n) d e p = some (ls, q) ↔ ∃ i r ds es p₁, addName n p = some (i, r) ∧
      d r = some (ds, p₁) ∧ e p₁ = some (es, q) ∧
      ls = Line.name .load i n :: (ds ++ (es ++ [Line.name .store i n])) := by
  simp only [update, bind_eq_some, join_assoc, join_eq_some, lines_eq_some]
  constructor
  · rintro ⟨i, r, hi, _, _, _, ⟨rfl, rfl⟩, ⟨ds, _, p₁, hd, hrest, rfl⟩, rfl⟩
    obtain ⟨es, _, _, he, ⟨rfl, rfl⟩, rfl⟩ := hrest
    exact ⟨i, _, ds, es, p₁, hi, hd, he, by simp⟩
  · rintro ⟨i, r, ds, es, p₁, hi, hd, he, rfl⟩
    exact ⟨i, r, hi, _, _, _, ⟨rfl, rfl⟩, ⟨ds, _, p₁, hd, ⟨es, _, _, he, ⟨rfl, rfl⟩, rfl⟩, rfl⟩,
      by simp⟩

end

/-- A draft that never succeeds. -/
def Fails {α : Type} (d : Draft α) : Prop := ∀ p, d p = none

theorem Fails.join_left {d : Draft (List Line)} (h : Fails d) (e : Draft (List Line)) :
    Fails (d ++ e) := by
  intro p
  cases hp : (d ++ e) p with
  | none => rfl
  | some r =>
    obtain ⟨ms, ns, s, hd, -⟩ := join_eq_some.1 hp
    rw [h p] at hd
    cases hd

theorem Fails.join_right (d : Draft (List Line)) {e : Draft (List Line)} (h : Fails e) :
    Fails (d ++ e) := by
  intro p
  cases hp : (d ++ e) p with
  | none => rfl
  | some r =>
    obtain ⟨ms, ns, s, -, he, -⟩ := join_eq_some.1 hp
    rw [h s] at he
    cases he

end Draft

/-! ### Appending lines to an assembler -/

namespace Assembler

/-- The part of an assembler that drafts work on. -/
def pool (a : Assembler) : Pool := ⟨a.names, a.consts, a.made⟩

/-- Append lines, and leave a given pool. -/
def extend (a : Assembler) (ls : List Line) (p : Pool) : Assembler where
  names := p.names
  consts := p.consts
  code := a.code ++ (Line.allSlots ls).toArray
  labels := a.labels ++ Line.labelsFrom (a.code.size / 2) ls
  made := p.made

/-- The lines define markers that have no label yet, each once. -/
def Accepts (a : Assembler) (ls : List Line) : Prop :=
  (Line.labels ls).Nodup ∧ ∀ m ∈ Line.labels ls, a.labels.lookup m = none

@[simp] theorem pool_extend (a : Assembler) (ls : List Line) (p : Pool) :
    (a.extend ls p).pool = p := rfl

@[simp] theorem extend_nil (a : Assembler) : a.extend [] a.pool = a := by
  simp [extend, pool, Line.allSlots, Line.labelsFrom]

theorem extend_extend (a : Assembler) (ls ms : List Line) (p q : Pool) :
    (a.extend ls p).extend ms q = a.extend (ls ++ ms) q := by
  have hsize : (a.code ++ (Line.allSlots ls).toArray).size / 2 =
      a.code.size / 2 + Line.totalWidth ls := by
    simp only [Array.size_append, List.size_toArray, Line.length_allSlots]
    omega
  simp only [extend, hsize]
  simp [Line.labelsFrom_append]

@[simp] theorem accepts_nil (a : Assembler) : a.Accepts [] := by simp [Accepts, Line.labels]

theorem lookup_append_eq_none {xs ys : List (Marker × Nat)} {m : Marker} :
    (xs ++ ys).lookup m = none ↔ xs.lookup m = none ∧ m ∉ ys.map (·.1) := by
  simp [List.lookup_eq_none_iff]
  grind

theorem accepts_append (a : Assembler) (ls ms : List Line) (p : Pool) :
    a.Accepts (ls ++ ms) ↔ a.Accepts ls ∧ (a.extend ls p).Accepts ms := by
  simp only [Accepts, Line.labels_append, List.nodup_append, extend, lookup_append_eq_none,
    Line.map_fst_labelsFrom, List.mem_append]
  grind

end Assembler

/-! ### Actions that follow drafts -/

/-- An action that only works on the pool returns what a draft returns. -/
def Looks {α : Type} (e : Emit α) (d : Draft α) : Prop :=
  ∀ a x a', outcome e a = (.ok x, a') ↔ ∃ p, d a.pool = some (x, p) ∧ a' = a.extend [] p

/-- An action succeeds exactly when a draft does and the assembler accepts its lines, and then it
appends them. -/
def Follows (e : Emit Unit) (d : Draft (List Line)) : Prop :=
  ∀ a a', outcome e a = (.ok (), a') ↔
    ∃ ls p, d a.pool = some (ls, p) ∧ a.Accepts ls ∧ a' = a.extend ls p

namespace Follows

variable {e e' : Emit Unit} {d d' : Draft (List Line)}

theorem fails (he : ∀ a, ∃ f a', outcome e a = (.error f, a')) (hd : d.Fails) : Follows e d := by
  intro a a'
  obtain ⟨f, b, hf⟩ := he a
  simp [hf, hd a.pool]

theorem throw (f : Fault) : Follows (throw f) failure :=
  fails (fun a => ⟨f, a, rfl⟩) fun _ => rfl

theorem pure : Follows (pure ()) (Draft.lines []) := by
  intro a a'
  simp only [outcome_pure, Draft.lines_eq_some]
  constructor
  · intro h
    cases h
    exact ⟨[], a.pool, ⟨rfl, rfl⟩, a.accepts_nil, by simp⟩
  · rintro ⟨ls, p, ⟨rfl, rfl⟩, -, rfl⟩
    simp

theorem join (h : Follows e d) (h' : Follows e' d') : Follows (do e; e') (d ++ d') := by
  intro a a'
  rw [outcome_bind, chain_eq_ok]
  constructor
  · rintro ⟨⟨⟩, b, he, he'⟩
    obtain ⟨ls, p, hd, hl, rfl⟩ := (h a b).1 he
    obtain ⟨ms, q, hd', hm, rfl⟩ := (h' _ a').1 he'
    exact ⟨ls ++ ms, q, Draft.join_eq_some.2 ⟨ls, ms, p, hd, hd', rfl⟩,
      (a.accepts_append ls ms p).2 ⟨hl, hm⟩, a.extend_extend ls ms p q⟩
  · rintro ⟨ns, q, hj, hn, rfl⟩
    obtain ⟨ls, ms, p, hd, hd', rfl⟩ := Draft.join_eq_some.1 hj
    obtain ⟨hl, hm⟩ := (a.accepts_append ls ms p).1 hn
    exact ⟨(), a.extend ls p, (h _ _).2 ⟨ls, p, hd, hl, rfl⟩,
      (h' _ _).2 ⟨ms, q, hd', hm, (a.extend_extend ls ms p q).symm⟩⟩

theorem bind {α : Type} {e : Emit α} {d : Draft α} {f : α → Emit Unit}
    {g : α → Draft (List Line)} (h : Looks e d) (hf : ∀ x, Follows (f x) (g x)) :
    Follows (e >>= f) (d >>= g) := by
  intro a a'
  have ext : ∀ p ls q, (a.extend [] p).extend ls q = a.extend ls q := by
    intro p ls q
    simp [Assembler.extend_extend]
  have acc : ∀ p ls, (a.extend [] p).Accepts ls ↔ a.Accepts ls := by
    intro p ls
    simpa using (a.accepts_append [] ls p).symm
  simp only [outcome_bind, chain_eq_ok, Draft.bind_eq_some, h a, hf _ _ _]
  constructor
  · rintro ⟨x, b, ⟨p, hd, rfl⟩, ls, q, hg, hl, rfl⟩
    exact ⟨ls, q, ⟨x, p, hd, hg⟩, (acc p ls).1 hl, ext p ls q⟩
  · rintro ⟨ls, q, ⟨x, p, hd, hg⟩, hl, rfl⟩
    exact ⟨x, a.extend [] p, ⟨p, hd, rfl⟩, ls, q, hg, (acc p ls).2 hl, (ext p ls q).symm⟩

theorem of_fails (h : Follows e d) (hd : d.Fails) (hd' : d'.Fails) : Follows e d' := by
  intro a a'
  simp [h a a', hd a.pool, hd' a.pool]

/-- The first of several lines that need nothing. -/
theorem join_lines {l : Line} {ls : List Line} (h : Follows e (Draft.lines [l]))
    (h' : Follows e' (Draft.lines ls ++ d)) : Follows (do e; e') (Draft.lines (l :: ls) ++ d) :=
  Draft.lines_join_lines [l] ls d ▸ h.join h'

theorem cons_lines {l : Line} {ls : List Line} (h : Follows e (Draft.lines [l]))
    (h' : Follows e' (Draft.lines ls)) : Follows (do e; e') (Draft.lines (l :: ls)) := h.join h'

/-- Appending the code of a line that defines no marker. -/
theorem append (l : Line) (h : Line.labels [l] = []) :
    Follows (Emit.append l.slots) (Draft.lines [l]) := by
  intro a a'
  have hext : a.extend [l] a.pool = { a with code := a.code ++ l.slots.toArray } := by
    cases l <;> simp_all [Assembler.extend, Assembler.pool, Line.labels, Line.labelsFrom,
      Line.allSlots]
  have hacc : a.Accepts [l] := by simp [Assembler.Accepts, h]
  simp only [Emit.append, outcome_modify, Draft.lines_eq_some]
  constructor
  · intro he
    cases he
    exact ⟨[l], a.pool, ⟨rfl, rfl⟩, hacc, hext.symm⟩
  · rintro ⟨ls, p, ⟨rfl, rfl⟩, -, rfl⟩
    rw [hext]

theorem plain (op : Opcode) (arg : Nat) (h : op.isPlain = true) :
    Follows (Emit.emit op arg) (Draft.lines [.plain op arg h]) := append (.plain op arg h) rfl

theorem name (use : NameUse) (i : Nat) (n : Name) :
    Follows (Emit.emit use.opcode i) (Draft.lines [.name use i n]) := append (.name use i n) rfl

theorem const (i : Nat) (v : Value) :
    Follows (Emit.emit .loadConst i) (Draft.lines [.const i v]) := append (.const i v) rfl

theorem jump (kind : JumpKind) (m : Marker) :
    Follows (Emit.emitJump kind.opcode m) (Draft.lines [.jump kind m]) := append (.jump kind m) rfl

theorem label (m : Marker) : Follows (Emit.label m) (Draft.lines [.label m]) := by
  intro a a'
  have hext : a.extend [.label m] a.pool =
      { a with labels := a.labels ++ [(m, a.code.size / 2)] } := by
    simp [Assembler.extend, Assembler.pool, Line.labelsFrom, Line.allSlots, Line.slots]
  simp only [Emit.label, outcome_bind, outcome_get, chain_ok, Draft.lines_eq_some]
  constructor
  · intro he
    cases hm : a.labels.lookup m with
    | some i => simp [hm] at he
    | none =>
      simp only [hm, outcome_set, Prod.mk.injEq, true_and] at he
      refine ⟨[.label m], a.pool, ⟨rfl, rfl⟩, ?_, by rw [hext, he]⟩
      simpa [Assembler.Accepts, Line.labels] using hm
  · rintro ⟨ls, p, ⟨rfl, rfl⟩, ⟨-, hl⟩, rfl⟩
    rw [hl m (by simp [Line.labels]), hext]
    rfl

end Follows

/-! ### Tables and markers -/

theorem extend_pool (a : Assembler) (p : Pool) :
    a.extend [] p = { a with names := p.names, consts := p.consts, made := p.made } := by
  simp [Assembler.extend, Line.labelsFrom, Line.allSlots]

/-- Two ways to give a result that agree wherever they give one. -/
theorem looks_of_eq {α : Type} {e : Emit α} {d : Draft α}
    (h : ∀ a, (∃ f b, outcome e a = (.error f, b) ∧ d a.pool = none) ∨
      ∃ x p, outcome e a = (.ok x, a.extend [] p) ∧ d a.pool = some (x, p)) : Looks e d := by
  intro a x a'
  rcases h a with ⟨f, b, he, hd⟩ | ⟨y, p, he, hd⟩
  · simp [he, hd]
  · simp only [he, hd, Prod.mk.injEq, Except.ok.injEq, Option.some.injEq]
    constructor
    · rintro ⟨rfl, rfl⟩
      exact ⟨p, ⟨rfl, rfl⟩, rfl⟩
    · rintro ⟨q, ⟨rfl, rfl⟩, rfl⟩
      exact ⟨rfl, rfl⟩

theorem looks_addName (n : Name) : Looks (Emit.addName n) (Draft.addName n) := by
  apply looks_of_eq
  intro a
  rcases hk : n.checkKey with f | ⟨⟩
  · exact .inl ⟨f, a, by simp [Emit.addName, Emit.ofExcept, hk], by simp [Draft.addName, hk]⟩
  · right
    cases hi : a.names.toList.findIdx? (· == n) with
    | some i =>
      exact ⟨i, a.pool, by simp [Emit.addName, Emit.ofExcept, hk, hi],
        by simp [Draft.addName, hk, Assembler.pool, hi]⟩
    | none =>
      exact ⟨a.names.size, { a.pool with names := a.names.push n },
        by simp [Emit.addName, Emit.ofExcept, hk, hi, extend_pool, Assembler.pool],
        by simp [Draft.addName, hk, Assembler.pool, hi]⟩

theorem looks_addConst (v : Value) : Looks (Emit.addConst v) (Draft.addConst v) := by
  apply looks_of_eq
  intro a
  rcases hk : v.checkKey with f | ⟨⟩
  · exact .inl ⟨f, a, by simp [Emit.addConst, Emit.ofExcept, hk], by simp [Draft.addConst, hk]⟩
  · right
    cases hi : a.consts.toList.findIdx? (fun w => Value.sameConstant w v) with
    | some i =>
      exact ⟨i, a.pool, by simp [Emit.addConst, Emit.ofExcept, hk, hi],
        by simp [Draft.addConst, hk, Assembler.pool, hi]⟩
    | none =>
      exact ⟨a.consts.size, { a.pool with consts := a.consts.push v },
        by simp [Emit.addConst, Emit.ofExcept, hk, hi, extend_pool, Assembler.pool],
        by simp [Draft.addConst, hk, Assembler.pool, hi]⟩

theorem looks_freshMarker : Looks Emit.freshMarker Draft.freshMarker := by
  apply looks_of_eq
  intro a
  refine .inr ⟨.fresh a.made, { a.pool with made := a.made + 1 }, ?_, rfl⟩
  simp [Emit.freshMarker, extend_pool, Assembler.pool]

/-! ### Fields -/

theorem outcome_present {cls field : String} {t : Tree} (h : t ≠ .missing) (a : Assembler) :
    outcome (t.present cls field) a = (.ok (), a) := by
  cases t <;> first | rfl | exact absurd rfl h

/-- A field that is read has to be there; a draft fails anyway where it is not. -/
theorem Follows.present {e : Emit Unit} {d : Draft (List Line)} {cls field : String} {t : Tree}
    (h : Follows e d) (hm : t = .missing → d.Fails) :
    Follows (do t.present cls field; e) d := by
  by_cases ht : t = .missing
  · subst ht
    exact Follows.fails (fun a => ⟨_, a, rfl⟩) (hm rfl)
  · intro a a'
    rw [outcome_bind, outcome_present ht, chain_ok]
    exact h a a'

theorem outcome_identifier (t : Tree) (a : Assembler) :
    outcome t.identifier a = ((outcome t.identifier {}).1, a) := by
  fun_induction Tree.identifier t <;> first | rfl | assumption

theorem identifier_cases (t : Tree) :
    (∃ n, t.identifier? = some n ∧ ∀ a, outcome t.identifier a = (.ok n, a)) ∨
      t.identifier? = none ∧ ∀ a, ∃ f, outcome t.identifier a = (.error f, a) := by
  cases h : (outcome t.identifier {}).1 with
  | ok n => exact .inl ⟨n, by simp [Tree.identifier?, h, Except.toOption],
      fun a => by rw [outcome_identifier, h]⟩
  | error f => exact .inr ⟨by simp [Tree.identifier?, h, Except.toOption],
      fun a => ⟨f, by rw [outcome_identifier, h]⟩⟩

theorem outcome_itemCount (t : Tree) :
    (∃ n, t.count? = some n ∧ ∀ a, outcome t.itemCount a = (.ok n, a)) ∨
      t.count? = none ∧ ∀ a, ∃ f, outcome t.itemCount a = (.error f, a) := by
  cases t with
  | list items => exact .inl ⟨_, rfl, fun _ => rfl⟩
  | leaf v =>
    cases hv : v.each? with
    | some vs => exact .inl ⟨vs.length, by simp [Tree.count?, hv], by simp [Tree.itemCount, hv]⟩
    | none => exact .inr ⟨by simp [Tree.count?, hv], by simp [Tree.itemCount, hv]⟩
  | _ => exact .inr ⟨rfl, fun a => ⟨_, rfl⟩⟩

theorem Follows.counted (op : Opcode) (h : op.isPlain = true) (t : Tree) :
    Follows (do Emit.emit op (← t.itemCount)) (Draft.counted op h t.count?) := by
  rcases outcome_itemCount t with ⟨n, hn, ho⟩ | ⟨hn, ho⟩
  · intro a a'
    rw [outcome_bind, ho, chain_ok, hn]
    exact Follows.plain op n h a a'
  · rw [hn]
    refine Follows.fails (fun a => ?_) fun _ => rfl
    obtain ⟨f, hf⟩ := ho a
    exact ⟨f, a, by rw [outcome_bind, hf, chain_error]⟩

/-! ### Several actions -/

theorem Follows.runAll {es : List (Emit Unit)} {ds : List (Draft (List Line))}
    (h : List.Forall₂ Follows es ds) : Follows (runAll es) (Draft.concat ds) := by
  induction h with
  | nil => exact Follows.pure
  | cons he _ ih => exact he.join ih

theorem Follows.emitTargets {es : List (Emit Unit)} {ds : List (Draft (List Line))}
    (h : List.Forall₂ Follows es ds) : Follows (emitTargets es) (Draft.targets ds) := by
  induction h with
  | nil => exact Follows.pure
  | cons he hs ih =>
    cases hs with
    | nil => exact he
    | cons he' hs' =>
      rw [Draft.targets, Draft.join_assoc]
      · exact (Follows.plain .dupTop 0 rfl).join (he.join ih)
      · simp

theorem Follows.emitEntries {ks vs : List (Emit Unit)} {ds es : List (Draft (List Line))}
    (hk : List.Forall₂ Follows ks ds) (hv : List.Forall₂ Follows vs es) :
    Follows (emitEntries ks vs) (Draft.entries ds es) := by
  induction hk generalizing vs es with
  | nil => exact Follows.pure
  | cons h hs ih =>
    cases hv with
    | nil => exact Follows.throw _
    | cons h' hs' =>
      rw [Draft.entries, Draft.join_assoc]
      exact h'.join (h.join (ih hs'))

theorem Follows.emitConditional {t b e : Emit Unit} {dt db de : Draft (List Line)}
    (ht : Follows t dt) (hb : Follows b db) (he : Follows e de) :
    Follows (emitConditional t b e) (Draft.conditional dt db de) := by
  refine .bind looks_freshMarker fun otherwise => .bind looks_freshMarker fun done => ?_
  simp only [Draft.join_assoc]
  exact ht.join (.join_lines (.jump .ifFalse otherwise) <| .join (.plain .popTop 0 rfl) <|
    hb.join <| .join_lines (.jump .always done) <| .join_lines (.label otherwise) <|
    .join (.plain .popTop 0 rfl) <| he.join (.label done))

theorem Follows.emitWhile {t b : Emit Unit} {dt db : Draft (List Line)}
    (ht : Follows t dt) (hb : Follows b db) :
    Follows (emitWhile t b) (Draft.whileLoop dt db) := by
  refine .bind looks_freshMarker fun again => .bind looks_freshMarker fun done => ?_
  simp only [Draft.join_assoc]
  exact .join (.label again) <| ht.join <| .join_lines (.jump .ifFalse done) <|
    .join (.plain .popTop 0 rfl) <| hb.join <| .cons_lines (.jump .always again) <|
    .cons_lines (.label done) (.plain .popTop 0 rfl)

theorem Follows.emitFor {i t b : Emit Unit} {di dt db : Draft (List Line)}
    (hi : Follows i di) (ht : Follows t dt) (hb : Follows b db) :
    Follows (emitFor i t b) (Draft.forLoop di dt db) := by
  refine .bind looks_freshMarker fun again => .bind looks_freshMarker fun done => ?_
  simp only [Draft.join_assoc]
  exact hi.join <| .join_lines (.plain .getIter 0 rfl) <| .join_lines (.label again) <|
    .join (.jump .atEnd done) <| ht.join <| hb.join <| .cons_lines (.jump .always again) <|
    .cons_lines (.label done) (.plain .popTop 0 rfl)

theorem Follows.useName (use : NameUse) (n : Name) :
    Follows (do Emit.emit use.opcode (← Emit.addName n)) (Draft.useName use n) :=
  .bind (looks_addName n) fun i => .name use i n

theorem Follows.delete (t : Tree) :
    Follows (do
      let i ← Emit.addName (← t.identifier)
      Emit.emit .delName i) t.draftDelete := by
  rcases identifier_cases t with ⟨n, hn, ho⟩ | ⟨hn, ho⟩
  · intro a a'
    rw [outcome_bind, ho, chain_ok, Tree.draftDelete, hn]
    exact Follows.useName .delete n a a'
  · refine Follows.fails (fun a => ?_) fun _ => by simp [Tree.draftDelete, hn]
    obtain ⟨f, hf⟩ := ho a
    exact ⟨f, a, by rw [outcome_bind, hf, chain_error]⟩

theorem Follows.emitDelete (ts : List Tree) :
    Follows (emitDelete ts) (Draft.concat (ts.map Tree.draftDelete)) := by
  induction ts with
  | nil => exact Follows.pure
  | cons t ts ih => exact (Follows.delete t).join ih

theorem Follows.emitName (id ctx : Tree) :
    Follows (do id.present "Name" "id"; emitName id.toName ctx) (Tree.draft (.name id ctx)) := by
  by_cases hid : id = .missing
  · subst hid
    exact .fails (fun a => ⟨_, a, rfl⟩) fun _ => by simp [Tree.draft]
  · refine .present ?_ (absurd · hid)
    -- A name that is no key fails first, and any other context fails after it.
    have strange : ∀ e : Nat → Emit Unit, (∀ i a, ∃ f, outcome (e i) a = (.error f, a)) →
        ∀ a, ∃ f b, outcome (Emit.addName id.toName >>= e) a = (.error f, b) := by
      intro e he a
      rw [outcome_bind]
      rcases outcome (Emit.addName id.toName) a with ⟨f | i, b⟩
      · exact ⟨f, b, rfl⟩
      · obtain ⟨f, hf⟩ := he i b
        exact ⟨f, b, by rw [chain_ok, hf]⟩
    cases ctx with
    | context c =>
      cases c with
      | load =>
        have hd : Tree.draft (.name id (.context .load)) = Draft.useName .load id.toName := by
          simp [Tree.draft]
        exact hd ▸ Follows.useName .load id.toName
      | store =>
        have hd : Tree.draft (.name id (.context .store)) = Draft.useName .store id.toName := by
          simp [Tree.draft]
        exact hd ▸ Follows.useName .store id.toName
      | del => exact .fails (strange _ fun i a => ⟨_, rfl⟩) fun _ => by simp [Tree.draft]
    | _ => exact .fails (strange _ fun i a => ⟨_, rfl⟩) fun _ => by simp [Tree.draft]

namespace Tree

/-- The items of a field can be had, and then their actions follow their drafts, or they cannot, and
then there is a draft that fails in their place. -/
def Supplies (e : Emit (List (Emit Unit))) (ds : List (Draft (List Line))) : Prop :=
  (∃ es, (∀ a, outcome e a = (.ok es, a)) ∧ List.Forall₂ Follows es ds) ∨
  (∀ a, ∃ f, outcome e a = (.error f, a)) ∧ ds = [failure]

/-- What is done with the items of a field follows what is done with their drafts. -/
theorem Supplies.bind {e : Emit (List (Emit Unit))} {ds : List (Draft (List Line))}
    (h : Supplies e ds) (k : List (Emit Unit) → Emit Unit)
    (l : List (Draft (List Line)) → Draft (List Line))
    (hk : ∀ es ds, List.Forall₂ Follows es ds → Follows (k es) (l ds)) (hl : (l [failure]).Fails) :
    Follows (e >>= k) (l ds) := by
  rcases h with ⟨es, ho, hf⟩ | ⟨ho, rfl⟩
  · intro a a'
    rw [outcome_bind, ho, chain_ok]
    exact hk _ _ hf a a'
  · refine .fails (fun a => ?_) hl
    obtain ⟨f, hf⟩ := ho a
    exact ⟨f, a, by rw [outcome_bind, hf, chain_error]⟩

/-- The items of a field that is gone through. -/
abbrev PartsFollow (t : Tree) : Prop := Supplies t.eachOf t.parts

/-- The items of a field at its first places. -/
abbrev FirstsFollow (t : Tree) (n : Nat) : Prop := Supplies (t.firstOf n) (t.firsts n)

theorem draft_missing_fails {t : Tree} (h : t = .missing) : t.draft.Fails := by
  subst h
  intro p
  simp [draft]

theorem concat_failure_fails : (Draft.concat [failure]).Fails := .join_left (fun _ => rfl) _

variable {cls field : String}

/-- A field that is read and emitted. -/
theorem field_follows {t : Tree} (h : Follows t.emit t.draft) :
    Follows (do t.present cls field; t.emit) t.draft := h.present draft_missing_fails

/-- A field that is read and emitted before something else. -/
theorem field_follows_join {t : Tree} {e : Emit Unit} {d : Draft (List Line)}
    (h : Follows t.emit t.draft) (h' : Follows e d) :
    Follows (do t.present cls field; t.emit; e) (t.draft ++ d) :=
  (h.join h').present fun ht => (draft_missing_fails ht).join_left d

/-- A field whose items are gone through before something else. -/
theorem items_follow_join {t : Tree} {e : Emit Unit} {d : Draft (List Line)}
    (h : t.PartsFollow) (h' : Follows e d) :
    Follows (do t.present cls field; runAll (← t.eachOf); e) (Draft.concat t.parts ++ d) := by
  have hparts : Follows (do runAll (← t.eachOf); e) (Draft.concat t.parts ++ d) :=
    h.bind (fun es => do runAll es; e) (fun ds => Draft.concat ds ++ d)
      (fun _ _ hf => (Follows.runAll hf).join h') (concat_failure_fails.join_left d)
  refine hparts.present fun ht => ?_
  subst ht
  simpa [parts] using concat_failure_fails.join_left d

theorem emitPlain_follows (v : Value) : Follows (emitPlain v) (draftPlain v) := by
  unfold emitPlain draftPlain
  split
  · exact .pure
  · exact .throw _
  · next h _ =>
    split
    · exact absurd rfl h
    · exact .throw _

theorem emitAt_follows (v : Value) (n : Nat) :
    List.Forall₂ Follows (emitAt v n) (draftAt v n) := by
  rw [emitAt, draftAt, List.forall₂_map_left_iff, List.forall₂_map_right_iff, List.forall₂_same]
  intro i _
  cases v.index (.int i) with
  | ok w => exact emitPlain_follows w
  | error f => exact .throw f

theorem length_emitEach (ts : List Tree) : (emitEach ts).length = ts.length := by
  induction ts with
  | nil => rfl
  | cons t ts ih => simp [emitEach, ih]

theorem partsFollow_of_items {t : Tree} (h : ∀ items, t = .list items →
    List.Forall₂ Follows (emitEach items) (draftEach items)) : t.PartsFollow := by
  cases t with
  | list items =>
    exact .inl ⟨emitEach items, fun a => by simp [eachOf], by simpa only [parts] using h items rfl⟩
  | leaf v =>
    cases hv : v.each? with
    | some vs =>
      refine .inl ⟨vs.map emitPlain, fun a => by simp [eachOf, hv], ?_⟩
      simp only [parts, hv, Option.map_some, Option.getD_some, List.forall₂_map_left_iff,
        List.forall₂_map_right_iff, List.forall₂_same]
      exact fun v _ => emitPlain_follows v
    | none => exact .inr ⟨fun a => ⟨_, by simp only [eachOf, hv]; rfl⟩, by simp [parts, hv]⟩
  | _ => exact .inr ⟨fun a => ⟨_, by simp only [eachOf]; rfl⟩, by simp only [parts]⟩

theorem firstsFollow_of_items {t : Tree} (h : ∀ items, t = .list items →
    List.Forall₂ Follows (emitEach items) (draftEach items)) (n : Nat) : t.FirstsFollow n := by
  cases t with
  | list items =>
    refine .inl ⟨emitEach items, fun a => by simp [firstOf], ?_⟩
    simpa only [firsts] using h items rfl
  | leaf v =>
    refine .inl ⟨emitAt v n, fun a => by simp [firstOf], ?_⟩
    simpa only [firsts] using emitAt_follows v n
  | _ => exact .inr ⟨fun a => ⟨_, by simp only [firstOf]; rfl⟩, by simp only [firsts]⟩

/-! ### One class of nodes after the other -/

-- The equations of both functions, made once here for the lemmas about each class.
attribute [local simp] emit draft

theorem body_follows {t : Tree} (h : t.PartsFollow) :
    Follows (do t.present cls field; runAll (← t.eachOf)) (Draft.concat t.parts) := by
  refine (h.bind _ _ (fun _ _ => .runAll) concat_failure_fails).present fun ht => ?_
  subst ht
  simpa [parts] using concat_failure_fails

theorem module_follows {body : Tree} (h : body.PartsFollow) :
    Follows (emit (.module body)) (draft (.module body)) := by
  simp only [emit, draft]
  exact body_follows h

theorem interactive_follows {body : Tree} (h : body.PartsFollow) :
    Follows (emit (.interactive body)) (draft (.interactive body)) := by
  simp only [emit, draft]
  exact body_follows h

theorem expr_follows {value : Tree} (h : Follows value.emit value.draft) :
    Follows (emit (.expr value)) (draft (.expr value)) := by
  simp only [emit, draft]
  exact field_follows_join h (.plain .printExpr 0 rfl)

theorem targets_follow {targets : Tree} {d : Draft (List Line)} (h : targets.PartsFollow)
    (hd : d = if targets.sliceable then Draft.targets targets.parts else failure) :
    Follows (do
      targets.present cls field
      match targets with
      | .list _ => emitTargets (← targets.eachOf)
      | .leaf v => do
        let _ ← Emit.ofExcept (v.index withoutLast)
        emitTargets (← targets.eachOf)
      | t => throw (.notSubscriptable t.className)) d := by
  subst hd
  have each := h.bind _ _ (fun _ _ => .emitTargets) fun _ => rfl
  cases targets with
  | list items => exact each
  | leaf v =>
    cases hv : v.index withoutLast with
    | ok w => simpa [sliceable, hv, Except.toBool, present, Emit.ofExcept] using each
    | error f => simpa [sliceable, hv, Except.toBool, present, Emit.ofExcept] using .throw f
  | _ => exact .fails (fun a => ⟨_, a, rfl⟩) fun _ => by simp [parts, Draft.targets, sliceable]

theorem assign_follows {targets value : Tree} (hv : Follows value.emit value.draft)
    (ht : targets.PartsFollow) :
    Follows (emit (.assign targets value)) (draft (.assign targets value)) := by
  simp only [emit, draft]
  have fails : (value.draft ++ failure).Fails := .join_right _ fun _ => rfl
  cases h : targets.truthy with
  | true =>
    cases hs : targets.sliceable with
    | true => exact field_follows_join hv (targets_follow ht (by rw [hs, if_pos rfl]))
    | false =>
      refine Follows.of_fails (d := value.draft ++ failure) ?_ fails fun _ => rfl
      exact field_follows_join hv (targets_follow ht (by rw [hs]; rfl))
  | false =>
    have none : Follows (do targets.present "Assign" "targets"; throw .noTarget) failure :=
      (Follows.throw _).present fun _ _ => rfl
    refine Follows.of_fails (d := value.draft ++ failure) ?_ fails fun _ => rfl
    exact field_follows_join hv none

theorem augAssign_follows {target op value : Tree} (hv : Follows value.emit value.draft)
    (ho : Follows op.emit op.draft) :
    Follows (emit (.augAssign target op value)) (draft (.augAssign target op value)) := by
  simp only [emit, draft]
  refine Follows.present ?_ fun ht => ht ▸ fun _ => rfl
  rcases identifier_cases target with ⟨n, hn, hi⟩ | ⟨hn, hi⟩
  · intro a a'
    rw [outcome_bind, hi, chain_ok, hn]
    refine Follows.bind (looks_addName n) (fun i => ?_) a a'
    simp only [Draft.join_assoc]
    exact (Follows.name .load i n).join
      (field_follows_join hv (field_follows_join ho (.name .store i n)))
  · rw [hn]
    refine Follows.fails (fun a => ?_) fun _ => rfl
    obtain ⟨f, hf⟩ := hi a
    exact ⟨f, a, by rw [outcome_bind, hf, chain_error]⟩

theorem delete_follows (targets : Tree) :
    Follows (emit (.delete targets)) (draft (.delete targets)) := by
  simp only [emit]
  cases targets with
  | list items =>
    simp only [draft]
    exact Follows.emitDelete items
  | leaf v =>
    rcases hv : v.each? with _ | _ | ⟨w, vs⟩
    · simpa [draft, count?, hv, present] using .throw _
    · simpa [draft, count?, hv, present] using .pure
    · simpa [draft, count?, hv, present] using .throw _
  | _ => exact .fails (fun a => ⟨_, a, rfl⟩) fun _ => by simp [draft]

theorem conditional_follows {test body orelse : Tree} {cls' field' cls'' field'' : String}
    (ht : Follows test.emit test.draft) (hb : Follows body.emit body.draft)
    (he : Follows orelse.emit orelse.draft) :
    Follows (emitConditional (do test.present cls field; test.emit)
      (do body.present cls' field'; body.emit) (do orelse.present cls'' field''; orelse.emit))
      (Draft.conditional test.draft body.draft orelse.draft) :=
  .emitConditional (field_follows ht) (field_follows hb) (field_follows he)

theorem forLoop_follows {target iter body orelse : Tree} (ht : Follows target.emit target.draft)
    (hi : Follows iter.emit iter.draft) (hb : Follows body.emit body.draft) :
    Follows (emit (.forLoop target iter body orelse))
      (draft (.forLoop target iter body orelse)) := by
  simp only [emit, draft]
  by_cases hm : orelse = .missing
  · subst hm
    exact .fails (fun a => ⟨_, a, rfl⟩) fun _ => rfl
  · refine Follows.present ?_ (absurd · hm)
    have hp : orelse.isPresent = true := by
      cases orelse <;> first | rfl | exact absurd rfl hm
    by_cases h : orelse.truthy
    · simp only [h, if_true]
      exact .fails (fun a => ⟨_, a, rfl⟩) fun _ => by simp
    · simp only [h, hp]
      exact .emitFor (field_follows hi) (field_follows ht) (field_follows hb)

theorem firsts_ne_nil {t : Tree} {n : Nat} (h : t.count? = some n) (hn : n ≠ 0) :
    t.firsts n ≠ [] := by
  cases t with
  | list items =>
    cases items with
    | nil => exact absurd (Option.some.inj h).symm hn
    | cons t ts => simp [firsts, draftEach]
  | leaf v => simpa [firsts, draftAt] using hn
  | _ => cases h

/-- A field that has items has them at its first places too. -/
theorem FirstsFollow.of_count {t : Tree} {n k : Nat} (h : t.FirstsFollow n)
    (hk : t.count? = some k) :
    ∃ es, (∀ a, outcome (t.firstOf n) a = (.ok es, a)) ∧ List.Forall₂ Follows es (t.firsts n) := by
  rcases h with h | ⟨ho, -⟩
  · exact h
  · obtain ⟨f, hf⟩ := ho {}
    cases t with
    | list items => simp [firstOf] at hf
    | leaf v => simp [firstOf] at hf
    | _ => cases hk

/-- The entries of a dictionary that has some. -/
theorem entries_follow {keys values : Tree} {n : Nat} {e : Emit Unit} {d : Draft (List Line)}
    (hn : keys.count? = some n) (h0 : n ≠ 0) (hk : keys.FirstsFollow n)
    (hv : values.FirstsFollow n) (he : Follows e d) :
    Follows (do
      values.present cls field
      let vs ← values.firstOf n
      emitEntries (← keys.firstOf n) vs
      e) (Draft.entries (keys.firsts n) (values.firsts n) ++ d) := by
  have fails : (Draft.entries (keys.firsts n) [failure] ++ d).Fails := by
    obtain ⟨k, ks, hks⟩ := List.exists_cons_of_ne_nil (firsts_ne_nil hn h0)
    rw [hks, Draft.entries]
    exact .join_left (.join_left (.join_left (fun _ => rfl) _) _) _
  refine Follows.present
    (hv.bind _ (Draft.entries _ · ++ d) (fun vs es hf => ?_) fails) fun ht => ?_
  · obtain ⟨ks, ho, hks⟩ := hk.of_count hn
    intro a a'
    rw [outcome_bind, ho, chain_ok]
    exact (Follows.emitEntries hks hf).join he a a'
  · subst ht
    simpa [firsts] using fails

theorem dict_follows {keys values : Tree} (hk : ∀ n, keys.FirstsFollow n)
    (hv : ∀ n, values.FirstsFollow n) :
    Follows (emit (.dictDisplay keys values)) (draft (.dictDisplay keys values)) := by
  simp only [emit, draft]
  refine Follows.present ?_ fun h => by
    subst h
    exact .join_right _ fun _ => rfl
  rcases outcome_itemCount keys with ⟨n, hn, ho⟩ | ⟨hn, ho⟩
  · intro a a'
    rw [outcome_bind, ho, chain_ok, hn]
    cases n with
    | zero => exact Follows.plain .buildDict 0 rfl a a'
    | succ n =>
      exact entries_follow hn n.succ_ne_zero (hk _) (hv _) (.plain .buildDict (n + 1) rfl) a a'
  · rw [hn]
    refine .fails (fun a => ?_) (.join_right _ fun _ => rfl)
    obtain ⟨f, hf⟩ := ho a
    exact ⟨f, a, by rw [outcome_bind, hf, chain_error]⟩

theorem binOp_follows {left op right : Tree} (hl : Follows left.emit left.draft)
    (ho : Follows op.emit op.draft) (hr : Follows right.emit right.draft) :
    Follows (emit (.binOp left op right)) (draft (.binOp left op right)) := by
  simp only [emit, draft, Draft.join_assoc]
  exact field_follows_join hl (field_follows_join hr (field_follows ho))

theorem call_follows {func args keywords : Tree} (hf : Follows func.emit func.draft)
    (ha : Follows args.emit args.draft) :
    Follows (emit (.call func args keywords)) (draft (.call func args keywords)) := by
  simp only [emit, draft, Draft.join_assoc]
  exact field_follows_join hf (field_follows_join ha (.counted .callFunction rfl args))

mutual
/-- Emitting a tree is drafting it and appending its lines. -/
theorem emit_follows : ∀ t : Tree, Follows t.emit t.draft
  | .missing => by simpa only [emit, draft] using .throw _
  | .leaf v => by simpa only [emit, draft] using .throw _
  | .list items => by simpa only [emit, draft] using emitItems_follows items
  | .module body => module_follows (partsFollow_of_items (items_follow body))
  | .interactive body => interactive_follows (partsFollow_of_items (items_follow body))
  | .expr value => expr_follows (emit_follows value)
  | .assign targets value =>
    assign_follows (emit_follows value) (partsFollow_of_items (items_follow targets))
  | .augAssign _ op value => augAssign_follows (emit_follows value) (emit_follows op)
  | .delete targets => delete_follows targets
  | .pass => by simpa only [emit, draft] using .pure
  | .ifStmt test body orelse => by
    simpa only [emit, draft] using
      conditional_follows (emit_follows test) (emit_follows body) (emit_follows orelse)
  | .ifExp test body orelse => by
    simpa only [emit, draft] using
      conditional_follows (emit_follows test) (emit_follows body) (emit_follows orelse)
  | .whileLoop test body _ => by
    simpa only [emit, draft] using
      .emitWhile (field_follows (emit_follows test)) (field_follows (emit_follows body))
  | .forLoop target iter body _ =>
    forLoop_follows (emit_follows target) (emit_follows iter) (emit_follows body)
  | .name id ctx => by simpa only [emit] using Follows.emitName id ctx
  | .constant none => by simpa only [emit, draft] using .throw _
  | .constant (some v) => by
    simpa only [emit, draft] using .bind (looks_addConst v) fun i => .const i v
  | .tuple elts _ => by
    simpa only [emit, draft] using
      items_follow_join (partsFollow_of_items (items_follow elts)) (.counted .buildTuple rfl elts)
  | .listDisplay elts _ => by
    simpa only [emit, draft] using
      items_follow_join (partsFollow_of_items (items_follow elts)) (.counted .buildList rfl elts)
  | .setDisplay elts => by
    simpa only [emit, draft] using
      items_follow_join (partsFollow_of_items (items_follow elts)) (.counted .buildSet rfl elts)
  | .dictDisplay keys values =>
    dict_follows (firstsFollow_of_items (items_follow keys))
      (firstsFollow_of_items (items_follow values))
  | .binOp left op right => binOp_follows (emit_follows left) (emit_follows op) (emit_follows right)
  | .unaryOp op operand => by
    simpa only [emit, draft] using
      field_follows_join (emit_follows operand) (field_follows (emit_follows op))
  | .subscript value slice _ => by
    simpa only [emit, draft] using
      field_follows_join (emit_follows value) (field_follows (emit_follows slice))
  | .index value => by
    simpa only [emit, draft] using field_follows_join (emit_follows value) (.plain .index 0 rfl)
  | .sealedIndex value => by
    simpa only [emit, draft] using field_follows_join (emit_follows value) (.plain .index 0 rfl)
  | .call func args _ => call_follows (emit_follows func) (emit_follows args)
  | .binaryOperator op => by simpa only [emit, draft] using .plain (.binary op) 0 rfl
  | .unaryOperator op => by simpa only [emit, draft] using .plain (.unary op) 0 rfl
  | .context c => by simpa only [emit, draft] using .throw _
  | .extended _ _ node => by simpa only [emit, draft] using emit_follows node
  | .other cls fields => by
    simp only [emit, draft]
    split
    · exact (emitIndex_follows fields).join (.plain .index 0 rfl)
    · exact .throw _
theorem emitIndex_follows : ∀ fs : List (String × Tree), Follows (emitIndex fs) (draftIndex fs)
  | [] => by simpa only [emitIndex, draftIndex] using .throw _
  | (f, t) :: fs => by
    simp only [emitIndex, draftIndex]
    split
    · exact emit_follows t
    · exact emitIndex_follows fs
theorem emitItems_follows : ∀ ts : List Tree, Follows (emitItems ts) (draftItems ts)
  | [] => by simpa only [emitItems, draftItems] using .pure
  | t :: ts => by
    cases t with
    | list _ => simpa only [emitItems, draftItems] using .throw _
    | _ =>
      simp only [emitItems, draftItems]
      exact (emit_follows _).join (emitItems_follows ts)
theorem items_follow : ∀ (t : Tree) (items : List Tree), t = .list items →
    List.Forall₂ Follows (emitEach items) (draftEach items)
  | .list _, items, rfl => emitEach_follows items
theorem emitEach_follows : ∀ ts : List Tree, List.Forall₂ Follows (emitEach ts) (draftEach ts)
  | [] => by simp [emitEach, draftEach]
  | t :: ts => by
    simp only [emitEach, draftEach]
    exact .cons (emit_follows t) (emitEach_follows ts)
end

end Tree
end Stackwise
