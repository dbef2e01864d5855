import Stackwise.Proofs.DraftInduction
import Stackwise.Proofs.Layout

/-!
# Tables

Drafting only ever appends to the tables, so a line that stands for a table entry when it is drafted
does so in the finished code. `Tree.draft_keeps` says this of trees of any shape, and that the
constants in the table are constants of the tree.
-/
namespace Stackwise

/-! ### Growing tables -/

/-- The tables of one pool are the beginnings of those of another. -/
structure Pool.Below (p q : Pool) : Prop where
  names : p.names.toList <+: q.names.toList
  consts : p.consts.toList <+: q.consts.toList

theorem Pool.Below.refl (p : Pool) : p.Below p := ⟨List.prefix_rfl, List.prefix_rfl⟩

theorem Pool.Below.trans {p q r : Pool} (h : p.Below q) (h' : q.Below r) : p.Below r :=
  ⟨h.names.trans h'.names, h.consts.trans h'.consts⟩

/-- The entry a line stands for is in the tables, or one that is the same. -/
def Line.Known (p : Pool) : Line → Prop
  | .const i v => ∃ w, p.consts[i]? = some w ∧ (w = v ∨ Value.sameConstant w v = true)
  | .name _ i n => ∃ k, p.names[i]? = some k ∧ (k = n ∨ (k == n) = true)
  | _ => True

theorem getElem?_of_prefix {α : Type} {xs ys : Array α} (h : xs.toList <+: ys.toList) {i : Nat}
    {x : α} (hx : xs[i]? = some x) : ys[i]? = some x := by
  obtain ⟨zs, hz⟩ := h
  rw [← Array.getElem?_toList] at hx ⊢
  obtain ⟨hi, -⟩ := List.getElem?_eq_some_iff.1 hx
  rw [← hz, List.getElem?_append_left hi, hx]

theorem Line.Known.mono {l : Line} {p q : Pool} (h : l.Known p) (hpq : p.Below q) : l.Known q := by
  cases l with
  | const i v =>
    obtain ⟨w, hw, same⟩ := h
    exact ⟨w, getElem?_of_prefix hpq.consts hw, same⟩
  | name use i n =>
    obtain ⟨k, hk, same⟩ := h
    exact ⟨k, getElem?_of_prefix hpq.names hk, same⟩
  | _ => exact h

/-- Constants are numbered in order: with a table of `n` entries before the lines and of `n'` after
them, a constant has at most the number of those before it. -/
def Line.Numbered : Nat → List Line → Nat → Prop
  | n, [], n' => n' ≤ n
  | n, .const i _ :: ls, n' => i ≤ n ∧ Numbered (n + 1) ls n'
  | n, _ :: ls, n' => Numbered n ls n'

theorem Line.Numbered.mono {n k n' : Nat} {ls : List Line} (h : Numbered n ls n') (hle : n ≤ k) :
    Numbered k ls n' := by
  induction ls generalizing n k with
  | nil => exact Nat.le_trans h hle
  | cons l ls ih =>
    cases l with
    | const i v => exact ⟨Nat.le_trans h.1 hle, ih h.2 (by omega)⟩
    | _ => exact ih (n := n) h hle

theorem Line.Numbered.append {n k n' : Nat} {ls ms : List Line} (h : Numbered n ls k)
    (h' : Numbered k ms n') : Numbered n (ls ++ ms) n' := by
  induction ls generalizing n with
  | nil => exact h'.mono h
  | cons l ls ih =>
    cases l with
    | const i v => exact ⟨h.1, ih h.2⟩
    | _ => exact ih (n := n) h

/-- Constants that are in the table already. -/
theorem Line.Numbered.of_known {p : Pool} {ls : List Line} (h : ∀ l ∈ ls, l.Known p) :
    Numbered p.consts.size ls p.consts.size := by
  suffices ∀ n, p.consts.size ≤ n → Numbered n ls p.consts.size from this _ (Nat.le_refl _)
  induction ls with
  | nil => exact fun n hn => hn
  | cons l ls ih =>
    intro n hn
    rw [List.forall_mem_cons] at h
    cases l with
    | const i v =>
      obtain ⟨w, hw, -⟩ := h.1
      obtain ⟨hi, -⟩ := Array.getElem?_eq_some_iff.1 hw
      exact ⟨by omega, ih h.2 _ (by omega)⟩
    | _ => exact ih h.2 n hn

/-- Lines come with a pool that is drafted from another one: the tables grow by constants that are
loaded and satisfy a predicate, every line is known, and constants are numbered in order. -/
structure Pool.Grows (P : Value → Prop) (p : Pool) (ls : List Line) (q : Pool) : Prop where
  below : p.Below q
  known : ∀ l ∈ ls, l.Known q
  loaded : ∀ w ∈ q.consts.toList, w ∈ p.consts.toList ∨ ∃ i, Line.const i w ∈ ls
  const : ∀ i v, Line.const i v ∈ ls → P v
  numbered : Line.Numbered p.consts.size ls q.consts.size

namespace Pool.Grows

variable {P : Value → Prop} {p q r : Pool} {ls ms : List Line}

theorem append (h : Grows P p ls q) (h' : Grows P q ms r) : Grows P p (ls ++ ms) r where
  below := h.below.trans h'.below
  known := by
    intro l hl
    rcases List.mem_append.1 hl with hl | hl
    · exact (h.known l hl).mono h'.below
    · exact h'.known l hl
  loaded := by
    intro w hw
    rcases h'.loaded w hw with hw | ⟨i, hi⟩
    · rcases h.loaded w hw with hw | ⟨i, hi⟩
      · exact .inl hw
      · exact .inr ⟨i, List.mem_append_left _ hi⟩
    · exact .inr ⟨i, List.mem_append_right _ hi⟩
  const := by
    intro i v hv
    rcases List.mem_append.1 hv with hv | hv
    · exact h.const i v hv
    · exact h'.const i v hv
  numbered := h.numbered.append h'.numbered

/-- The entries of a table that was empty. -/
theorem entry (h : Grows P {} ls q) {w : Value} (hw : w ∈ q.consts.toList) : P w := by
  obtain hw | ⟨i, hi⟩ := h.loaded w hw
  · cases hw
  · exact h.const i w hi

/-- Where constants that are told apart by nothing are equal, a constant is in the table itself. -/
theorem const_eq (h : Grows P {} ls q)
    (hP : ∀ v w, P v → P w → Value.sameConstant v w = true → v = w) {i : Nat} {v : Value}
    (hl : Line.const i v ∈ ls) : q.consts[i]? = some v := by
  obtain ⟨w, hw, same⟩ := h.known _ hl
  have hentry : w ∈ q.consts.toList := by
    rw [← Array.getElem?_toList] at hw
    exact List.mem_of_getElem? hw
  obtain rfl : w = v := by
    rcases same with rfl | same
    · rfl
    · exact hP w v (h.entry hentry) (h.const i v hl) same
  exact hw

/-- Lines that are known already. -/
theorem of_known (hk : ∀ l ∈ ls, l.Known p) (hc : ∀ i v, Line.const i v ∈ ls → P v) :
    Grows P p ls p :=
  ⟨.refl p, hk, fun _ => .inl, hc, .of_known hk⟩

end Pool.Grows

/-! ### Drafts that keep the tables -/

/-- A draft that keeps the entries of the tables and adds constants that satisfy a predicate. -/
def Draft.Keeps (P : Value → Prop) (d : Draft (List Line)) : Prop :=
  ∀ p ls q, d p = some (ls, q) → Pool.Grows P p ls q

namespace Draft.Keeps

variable {P : Value → Prop} {d e : Draft (List Line)}

theorem failure : Keeps P failure := by
  intro p ls q h
  cases h

theorem join (hd : Keeps P d) (he : Keeps P e) : Keeps P (d ++ e) := by
  intro p ls q h
  obtain ⟨ms, ns, r, hm, hn, rfl⟩ := join_eq_some.1 h
  exact (hd p ms r hm).append (he r ns q hn)

theorem lines {ls : List Line} (h : ∀ l ∈ ls, l.free = true) : Keeps P (Draft.lines ls) := by
  intro p ms q hl
  obtain ⟨rfl, rfl⟩ := lines_eq_some.1 hl
  refine .of_known (fun l hl => ?_) (fun i v hv => ?_)
  · cases l with
    | const i v => cases h _ hl
    | name use i n => cases h _ hl
    | _ => trivial
  · cases h _ hv

theorem bind_fresh {g : Marker → Draft (List Line)} (h : ∀ m, Keeps P (g m)) :
    Keeps P (freshMarker >>= g) := by
  intro p ls q hl
  obtain ⟨m, r, hm, hg⟩ := bind_eq_some.1 hl
  cases hm
  have grows := h _ _ _ _ hg
  exact ⟨⟨grows.below.names, grows.below.consts⟩, grows.known, grows.loaded, grows.const,
    grows.numbered⟩

/-! Names and constants go into the tables. -/

theorem addName {n : Name} {p q : Pool} {i : Nat} (h : Draft.addName n p = some (i, q)) :
    Pool.Grows P p [] q ∧ ∀ use, (Line.name use i n).Known q := by
  obtain ⟨-, ⟨hi, rfl⟩ | ⟨-, rfl, rfl⟩⟩ := addName_eq_some.1 h
  · obtain ⟨hlt, same, -⟩ := List.findIdx?_eq_some_iff_getElem.1 hi
    exact ⟨.of_known (by simp) (by simp), fun use => ⟨q.names[i], by simp, .inr same⟩⟩
  · exact ⟨⟨⟨by simp, by simp⟩, by simp, fun _ => .inl, by simp, Nat.le_refl _⟩,
      fun use => ⟨n, by simp, .inl rfl⟩⟩

theorem addConst {v : Value} {p q : Pool} {i : Nat} (h : Draft.addConst v p = some (i, q))
    (hv : P v) : Pool.Grows P p [.const i v] q := by
  obtain ⟨-, ⟨hi, rfl⟩ | ⟨-, rfl, rfl⟩⟩ := addConst_eq_some.1 h
  · obtain ⟨hlt, same, -⟩ := List.findIdx?_eq_some_iff_getElem.1 hi
    refine .of_known ?_ (by simp [hv])
    simpa [Line.Known] using ⟨q.consts[i], by simp, .inr same⟩
  · refine ⟨⟨by simp, by simp⟩, by simp [Line.Known], fun w hw => ?_, by simp [hv],
      by simp [Line.Numbered]⟩
    rcases (by simpa using hw : w ∈ p.consts ∨ w = v) with hw | rfl
    · exact .inl (by simpa using hw)
    · exact .inr ⟨_, List.mem_singleton_self _⟩

theorem const {v : Value} (hv : P v) :
    Keeps P (do let i ← Draft.addConst v; Draft.lines [.const i v]) := by
  intro p ls q h
  obtain ⟨i, r, hi, hl⟩ := bind_eq_some.1 h
  obtain ⟨rfl, rfl⟩ := lines_eq_some.1 hl
  exact addConst hi hv

theorem useName (use : NameUse) (n : Name) : Keeps P (Draft.useName use n) := by
  intro p ls q h
  obtain ⟨i, r, hi, hl⟩ := bind_eq_some.1 h
  obtain ⟨rfl, rfl⟩ := lines_eq_some.1 hl
  obtain ⟨grows, known⟩ := addName (P := P) hi
  have named : Pool.Grows P q [.name use i n] q := .of_known (by simp [known use]) (by simp)
  exact grows.append named

theorem update (n : Name) (hd : Keeps P d) (he : Keeps P e) :
    Keeps P (Draft.update (some n) d e) := by
  intro p ls q h
  obtain ⟨i, r, ds, es, p₁, hi, hds, hes, rfl⟩ := update_eq_some.1 h
  obtain ⟨grows, known⟩ := addName (P := P) hi
  have named : ∀ use r', r.Below r' → Pool.Grows P r' [.name use i n] r' := by
    intro use r' below
    exact .of_known (by simp [(known use).mono below]) (by simp)
  have grows₁ := hd _ _ _ hds
  have grows₂ := he _ _ _ hes
  have store := named .store _ (grows₁.below.trans grows₂.below)
  exact grows.append ((named .load r (.refl _)).append (grows₁.append (grows₂.append store)))

theorem stable (P : Value → Prop) : Stable P (fun _ => True) fun _ d => Keeps P d :=
  .of_free (fun _ => failure) lines const (fun use _ _ => useName use _) join
    (fun _ => update _) bind_fresh

end Draft.Keeps

/-- The lines of a tree are known to the tables, and all constants come from the tree. -/
theorem Tree.draft_keeps {P : Value → Prop} (t : Tree) (h : ∀ v ∈ t.constants, P v) :
    Draft.Keeps P t.draft :=
  (Draft.Keeps.stable P).draft t h fun _ _ => trivial

end Stackwise
