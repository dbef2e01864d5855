import Mathlib.Data.List.Nodup
import Stackwise.Proofs.ListingRun

/-!
# Relocation

The same statements can be drafted from different pools: alone, or after others. Places in the
tables differ then, in either direction, and markers are numbered from another start, but line by
line the two listings say the same: `Line.Moved`. Lines only jump to labels among themselves
(`Line.Closed`), so that they can be moved at all. Drafted from an empty pool, a line uses an entry
of a table that is no further than the line itself (`Line.Early`), so as long as places fit into a
byte its operand does; no label is further than in a listing that was moved: `Line.Moved.label_le`.
-/
namespace Stackwise

/-! ### Jumps among lines -/

/-- Lines only jump to labels among themselves. -/
def Line.Closed (ls : List Line) : Prop := ∀ kind m, .jump kind m ∈ ls → m ∈ Line.labels ls

/-- Lines jump to labels among themselves, and to all of them. -/
def Line.Matched (ls : List Line) : Prop :=
  ∀ m, m ∈ Line.labels ls ↔ ∃ kind, Line.jump kind m ∈ ls

theorem Line.Matched.closed {ls : List Line} (h : Matched ls) : Closed ls :=
  fun kind m hm => (h m).2 ⟨kind, hm⟩

theorem Line.Matched.append {ls ms : List Line} (h : Matched ls) (h' : Matched ms) :
    Matched (ls ++ ms) := by
  intro m
  simp only [labels_append, List.mem_append, h m, h' m, exists_or]

theorem Line.matched_of_ordinary {ls : List Line} (h : ∀ l ∈ ls, l.operation?.isSome = true) :
    Matched ls := by
  intro m
  constructor
  · intro hm
    obtain ⟨l, hl, hlabel⟩ := List.mem_filterMap.1 hm
    cases l with
    | label k => cases h _ hl
    | _ => cases hlabel
  · rintro ⟨kind, hm⟩
    cases h _ hm

/-- Drafts of lines that jump to all labels among themselves. -/
theorem Draft.matched_stable : Stable (fun _ => True) (fun _ => True) fun _ d =>
    ∀ p ls q, d p = some (ls, q) → Line.Matched ls where
  failure vs p ls q h := by cases h
  nil p ls q h := by
    obtain ⟨rfl, rfl⟩ := lines_eq_some.1 h
    exact Line.matched_of_ordinary (by simp)
  plain op arg isPlain p ls q h := by
    obtain ⟨rfl, rfl⟩ := lines_eq_some.1 h
    exact Line.matched_of_ordinary (by simp [Line.operation?])
  const _ p ls q h := by
    obtain ⟨i, r, hi, hl⟩ := bind_eq_some.1 h
    obtain ⟨rfl, rfl⟩ := lines_eq_some.1 hl
    exact Line.matched_of_ordinary (by simp [Line.operation?])
  useName use n _ p ls q h := by
    obtain ⟨i, r, hi, hl⟩ := bind_eq_some.1 h
    obtain ⟨rfl, rfl⟩ := lines_eq_some.1 hl
    exact Line.matched_of_ordinary (by simp [Line.operation?])
  join hd he p ls q h := by
    obtain ⟨ms, ns, r, hm, hn, rfl⟩ := join_eq_some.1 h
    exact (hd _ _ _ hm).append (he _ _ _ hn)
  update _ hd he p ls q h := by
    obtain ⟨i, r, ds, es, p₁, hi, hds, hes, rfl⟩ := update_eq_some.1 h
    have named : ∀ use n, Line.Matched [.name use i n] := fun use n =>
      Line.matched_of_ordinary (by simp [Line.operation?])
    exact (named _ _).append ((hd _ _ _ hds).append ((he _ _ _ hes).append (named _ _)))
  conditional hd he hf p ls q h := by
    obtain ⟨ds, es, fs, p₁, p₂, hds, hes, hfs, rfl⟩ := conditional_eq_some.1 h
    have hmatched := (hd _ _ _ hds).append ((he _ _ _ hes).append (hf _ _ _ hfs))
    intro m
    have := hmatched m
    simp [Line.labels] at this ⊢
    grind
  whileLoop hd he p ls q h := by
    obtain ⟨ds, es, p₁, hds, hes, rfl⟩ := whileLoop_eq_some.1 h
    have hmatched := (hd _ _ _ hds).append (he _ _ _ hes)
    intro m
    have := hmatched m
    simp [Line.labels] at this ⊢
    grind
  forLoop hd he hf p ls q h := by
    obtain ⟨ds, es, fs, p₁, p₂, hds, hes, hfs, rfl⟩ := forLoop_eq_some.1 h
    have hmatched := (hd _ _ _ hds).append ((he _ _ _ hes).append (hf _ _ _ hfs))
    intro m
    have := hmatched m
    simp [Line.labels] at this ⊢
    grind

/-- The lines of a tree jump to labels among themselves, and to all of them. -/
theorem Tree.draft_matched {t : Tree} {p q : Pool} {ls : List Line}
    (h : t.draft p = some (ls, q)) : Line.Matched ls :=
  Draft.matched_stable.draft t (fun _ _ => trivial) (fun _ _ => trivial) p ls q h

/-! ### Entries and places -/

/-- The size of the greater table. -/
def Pool.size (p : Pool) : Nat := max p.names.size p.consts.size

/-- With tables of at most `n` entries before the lines, and of `n'` after them, a line uses an
entry that is no further than the number of instructions before it. -/
def Line.Early : Nat → List Line → Nat → Prop
  | n, [], n' => n' ≤ n
  | n, .label _ :: ls, n' => Early n ls n'
  | n, .const i _ :: ls, n' | n, .name _ i _ :: ls, n' => i ≤ n ∧ Early (n + 1) ls n'
  | n, .plain _ _ _ :: ls, n' | n, .jump _ _ :: ls, n' => Early (n + 1) ls n'

namespace Line.Early

variable {n k n' : Nat} {ls ms : List Line}

theorem mono (h : Early n ls n') (hle : n ≤ k) : Early k ls n' := by
  induction ls generalizing n k with
  | nil => exact Nat.le_trans h hle
  | cons l ls ih =>
    cases l with
    | const i v => exact ⟨Nat.le_trans h.1 hle, ih h.2 (by omega)⟩
    | name use i v => exact ⟨Nat.le_trans h.1 hle, ih h.2 (by omega)⟩
    | label m => exact ih (n := n) h hle
    | _ => exact ih (n := n + 1) h (by omega)

theorem append (h : Early n ls k) (h' : Early k ms n') : Early n (ls ++ ms) n' := by
  induction ls generalizing n with
  | nil => exact h'.mono h
  | cons l ls ih =>
    cases l with
    | const i v => exact ⟨h.1, ih h.2⟩
    | name use i v => exact ⟨h.1, ih h.2⟩
    | label m => exact ih (n := n) h
    | _ => exact ih (n := n + 1) h

theorem of_free (h : ∀ l ∈ ls, l.free = true) : Early n ls n := by
  induction ls generalizing n with
  | nil => exact Nat.le_refl n
  | cons l ls ih =>
    rw [List.forall_mem_cons] at h
    have hlater : Early (n + 1) ls (n + 1) := ih h.2
    cases l with
    | const i v => cases h.1
    | name use i v => cases h.1
    | label m => exact ih h.2
    | _ => exact (ih (n := n) h.2).mono (Nat.le_succ n)

end Line.Early

/-- A draft keeps the tables, and its lines use entries that are no further than they are. -/
def Draft.UsesEarly (d : Draft (List Line)) : Prop :=
  ∀ p ls q, d p = some (ls, q) → p.size ≤ q.size ∧ Line.Early p.size ls q.size

namespace Draft

theorem addName_size {n : Name} {p q : Pool} {i : Nat} (h : addName n p = some (i, q)) :
    i ≤ p.size ∧ i < q.size ∧ p.size ≤ q.size ∧ q.size ≤ p.size + 1 := by
  obtain ⟨-, ⟨hi, rfl⟩ | ⟨-, rfl, rfl⟩⟩ := addName_eq_some.1 h
  · obtain ⟨hlt, -⟩ := List.findIdx?_eq_some_iff_getElem.1 hi
    rw [Array.length_toList] at hlt
    simp only [Pool.size]
    omega
  · simp only [Pool.size, Array.size_push]
    omega

theorem addConst_size {v : Value} {p q : Pool} {i : Nat} (h : addConst v p = some (i, q)) :
    i ≤ p.size ∧ p.size ≤ q.size ∧ q.size ≤ p.size + 1 := by
  obtain ⟨-, ⟨hi, rfl⟩ | ⟨-, rfl, rfl⟩⟩ := addConst_eq_some.1 h
  · obtain ⟨hlt, -⟩ := List.findIdx?_eq_some_iff_getElem.1 hi
    rw [Array.length_toList] at hlt
    simp only [Pool.size]
    omega
  · simp only [Pool.size, Array.size_push]
    omega

namespace UsesEarly

variable {d e : Draft (List Line)}

theorem join (hd : UsesEarly d) (he : UsesEarly e) : UsesEarly (d ++ e) := by
  intro p ls q h
  obtain ⟨ms, ns, r, hm, hn, rfl⟩ := join_eq_some.1 h
  obtain ⟨hle, hms⟩ := hd _ _ _ hm
  obtain ⟨hle', hns⟩ := he _ _ _ hn
  exact ⟨by omega, hms.append hns⟩

theorem lines {ls : List Line} (h : ∀ l ∈ ls, l.free = true) : UsesEarly (lines ls) := by
  intro p ms q hl
  obtain ⟨rfl, rfl⟩ := lines_eq_some.1 hl
  exact ⟨Nat.le_refl _, .of_free h⟩

theorem const (v : Value) : UsesEarly (do let i ← addConst v; Draft.lines [.const i v]) := by
  intro p ls q h
  obtain ⟨i, r, hi, hl⟩ := bind_eq_some.1 h
  obtain ⟨rfl, rfl⟩ := lines_eq_some.1 hl
  obtain ⟨hle, hsize, hsize'⟩ := addConst_size hi
  exact ⟨hsize, hle, hsize'⟩

theorem useName (use : NameUse) (n : Name) : UsesEarly (Draft.useName use n) := by
  intro p ls q h
  obtain ⟨i, r, hi, hl⟩ := bind_eq_some.1 h
  obtain ⟨rfl, rfl⟩ := lines_eq_some.1 hl
  obtain ⟨hle, -, hsize, hsize'⟩ := addName_size hi
  exact ⟨hsize, hle, hsize'⟩

theorem update (n : Name) (hd : UsesEarly d) (he : UsesEarly e) :
    UsesEarly (Draft.update (some n) d e) := by
  intro p ls q h
  obtain ⟨i, r, ds, es, p₁, hi, hds, hes, rfl⟩ := update_eq_some.1 h
  obtain ⟨hle, hlt, hsize, hsize'⟩ := addName_size hi
  obtain ⟨hr, hds⟩ := hd _ _ _ hds
  obtain ⟨hp₁, hes⟩ := he _ _ _ hes
  have hstore : Line.Early q.size [.name .store i n] q.size := ⟨by omega, Nat.le_succ _⟩
  refine ⟨by omega, hle, ?_⟩
  exact (hds.append (hes.append hstore)).mono hsize'

theorem bind_fresh {g : Marker → Draft (List Line)} (h : ∀ m, UsesEarly (g m)) :
    UsesEarly (freshMarker >>= g) := by
  intro p ls q hl
  obtain ⟨m, r, hm, hg⟩ := bind_eq_some.1 hl
  cases hm
  exact h _ { p with made := p.made + 1 } _ _ hg

theorem stable : Stable (fun _ => True) (fun _ => True) fun _ d => UsesEarly d :=
  .of_free (fun _ _ _ _ h => by cases h) lines (fun _ => const _) (fun use _ _ => useName use _)
    join (fun _ => update _) bind_fresh

end UsesEarly

end Draft

/-! ### Lines from another pool -/

/-- Markers that are numbered from another start. -/
def Marker.shift (k : Nat) : Marker → Marker
  | .named s => .named s
  | .fresh n => .fresh (k + n)

theorem Marker.shift_injective (k : Nat) : Function.Injective (shift k) := by
  intro m n h
  cases m <;> cases n <;> simp_all [shift]

/-- A line and the same line drafted from another pool. -/
inductive Line.Moved (k : Nat) : Line → Line → Prop
  | const (i j : Nat) (v : Value) : Moved k (.const i v) (.const j v)
  | name (use : NameUse) (i j : Nat) (n : Name) : Moved k (.name use i n) (.name use j n)
  | plain (op : Opcode) (arg : Nat) (isPlain : op.isPlain = true) :
    Moved k (.plain op arg isPlain) (.plain op arg isPlain)
  | jump (kind : JumpKind) (m : Marker) : Moved k (.jump kind m) (.jump kind (m.shift k))
  | label (m : Marker) : Moved k (.label m) (.label (m.shift k))

/-- Where the second draft succeeds on a pool, the first does on one with fewer markers, with lines
that say the same. -/
def Draft.Relocates (k : Nat) (d d' : Draft (List Line)) : Prop :=
  ∀ p p' ls' q', p'.made = k + p.made → d' p' = some (ls', q') →
    ∃ ls q, d p = some (ls, q) ∧ q'.made = k + q.made ∧ List.Forall₂ (Line.Moved k) ls ls'

namespace Draft

theorem addName_relocates {n : Name} {p p' q' : Pool} {i' : Nat}
    (h : addName n p' = some (i', q')) :
    q'.made = p'.made ∧ ∃ i q, addName n p = some (i, q) ∧ q.made = p.made := by
  obtain ⟨hkey, hplace⟩ := addName_eq_some.1 h
  refine ⟨by grind, ?_⟩
  cases hi : p.names.toList.findIdx? (· == n) with
  | some i => exact ⟨i, p, addName_eq_some.2 ⟨hkey, .inl ⟨hi, rfl⟩⟩, rfl⟩
  | none => exact ⟨_, _, addName_eq_some.2 ⟨hkey, .inr ⟨hi, rfl, rfl⟩⟩, rfl⟩

theorem addConst_relocates {v : Value} {p p' q' : Pool} {i' : Nat}
    (h : addConst v p' = some (i', q')) :
    q'.made = p'.made ∧ ∃ i q, addConst v p = some (i, q) ∧ q.made = p.made := by
  obtain ⟨hkey, hplace⟩ := addConst_eq_some.1 h
  refine ⟨by grind, ?_⟩
  cases hi : p.consts.toList.findIdx? (fun w => Value.sameConstant w v) with
  | some i => exact ⟨i, p, addConst_eq_some.2 ⟨hkey, .inl ⟨hi, rfl⟩⟩, rfl⟩
  | none => exact ⟨_, _, addConst_eq_some.2 ⟨hkey, .inr ⟨hi, rfl, rfl⟩⟩, rfl⟩

namespace Relocates

variable {k : Nat} {d d' e e' f : Draft (List Line)}

theorem join (hd : Relocates k d d') (he : Relocates k e e') :
    Relocates k (d ++ e) (d' ++ e') := by
  intro p p' ls' q' hmade h
  obtain ⟨ms', ns', r', hm', hn', rfl⟩ := join_eq_some.1 h
  obtain ⟨ms, r, hm, hr, hms⟩ := hd p p' _ _ hmade hm'
  obtain ⟨ns, q, hn, hq, hns⟩ := he r r' _ _ hr hn'
  exact ⟨ms ++ ns, q, join_eq_some.2 ⟨ms, ns, r, hm, hn, rfl⟩, hq, List.rel_append hms hns⟩

theorem lines {ls ls' : List Line} (h : List.Forall₂ (Line.Moved k) ls ls') :
    Relocates k (lines ls) (Draft.lines ls') := by
  intro p p' ms' q' hmade hl
  obtain ⟨rfl, rfl⟩ := lines_eq_some.1 hl
  exact ⟨ls, p, rfl, hmade, h⟩

theorem bind_fresh {g g' : Marker → Draft (List Line)}
    (h : ∀ m, Relocates k (g m) (g' (m.shift k))) :
    Relocates k (freshMarker >>= g) (freshMarker >>= g') := by
  intro p p' ls' q' hmade hl
  obtain ⟨m', r', hm', hg'⟩ := bind_eq_some.1 hl
  cases hm'
  have hmarker : Marker.fresh p'.made = (Marker.fresh p.made).shift k := by
    rw [Marker.shift, hmade]
  rw [hmarker] at hg'
  obtain ⟨ls, q, hg, hq, hls⟩ := h _ { p with made := p.made + 1 } _ _ _ (by simp; omega) hg'
  exact ⟨ls, q, bind_eq_some.2 ⟨_, _, rfl, hg⟩, hq, hls⟩

theorem const (v : Value) : Relocates k (do let i ← addConst v; Draft.lines [.const i v])
    (do let i ← addConst v; Draft.lines [.const i v]) := by
  intro p p' ls' q' hmade h
  obtain ⟨i', r', hi', hl'⟩ := bind_eq_some.1 h
  obtain ⟨rfl, rfl⟩ := lines_eq_some.1 hl'
  obtain ⟨hq', i, q, hi, hq⟩ := addConst_relocates (p := p) hi'
  exact ⟨_, q, bind_eq_some.2 ⟨i, q, hi, rfl⟩, by omega, .cons (.const i i' v) .nil⟩

theorem useName (use : NameUse) (n : Name) :
    Relocates k (Draft.useName use n) (Draft.useName use n) := by
  intro p p' ls' q' hmade h
  obtain ⟨i', r', hi', hl'⟩ := bind_eq_some.1 h
  obtain ⟨rfl, rfl⟩ := lines_eq_some.1 hl'
  obtain ⟨hq', i, q, hi, hq⟩ := addName_relocates (p := p) hi'
  exact ⟨_, q, bind_eq_some.2 ⟨i, q, hi, rfl⟩, by omega, .cons (.name use i i' n) .nil⟩

theorem update (n : Name) (hd : Relocates k d d) (he : Relocates k e e) :
    Relocates k (Draft.update (some n) d e) (Draft.update (some n) d e) := by
  intro p p' ls' q' hmade h
  obtain ⟨i', r', ds', es', p₁', hi', hds', hes', rfl⟩ := update_eq_some.1 h
  obtain ⟨hr', i, r, hi, hr⟩ := addName_relocates (p := p) hi'
  obtain ⟨ds, p₁, hds, hp₁, hdmoved⟩ := hd r r' _ _ (by omega) hds'
  obtain ⟨es, q, hes, hq, hemoved⟩ := he p₁ p₁' _ _ hp₁ hes'
  refine ⟨_, q, update_eq_some.2 ⟨i, r, ds, es, p₁, hi, hds, hes, rfl⟩, hq, ?_⟩
  refine .cons (.name .load i i' n) (List.rel_append hdmoved (List.rel_append hemoved ?_))
  exact .cons (.name .store i i' n) .nil

theorem conditional (hd : Relocates k d d) (he : Relocates k e e) (hf : Relocates k f f) :
    Relocates k (Draft.conditional d e f) (Draft.conditional d e f) := by
  refine bind_fresh fun otherwise => bind_fresh fun done => ?_
  refine (((((hd.join ?_).join he).join ?_).join hf).join ?_)
  · exact lines (.cons (.jump _ _) (.cons (.plain _ _ _) .nil))
  · exact lines (.cons (.jump _ _) (.cons (.label _) (.cons (.plain _ _ _) .nil)))
  · exact lines (.cons (.label _) .nil)

theorem whileLoop (hd : Relocates k d d) (he : Relocates k e e) :
    Relocates k (Draft.whileLoop d e) (Draft.whileLoop d e) := by
  refine bind_fresh fun again => bind_fresh fun done => ?_
  refine ((((join ?_ hd).join ?_).join he).join ?_)
  · exact lines (.cons (.label _) .nil)
  · exact lines (.cons (.jump _ _) (.cons (.plain _ _ _) .nil))
  · exact lines (.cons (.jump _ _) (.cons (.label _) (.cons (.plain _ _ _) .nil)))

theorem forLoop (hd : Relocates k d d) (he : Relocates k e e) (hf : Relocates k f f) :
    Relocates k (Draft.forLoop d e f) (Draft.forLoop d e f) := by
  refine bind_fresh fun again => bind_fresh fun done => ?_
  refine ((((hd.join ?_).join he).join hf).join ?_)
  · exact lines (.cons (.plain _ _ _) (.cons (.label _) (.cons (.jump _ _) .nil)))
  · exact lines (.cons (.jump _ _) (.cons (.label _) (.cons (.plain _ _ _) .nil)))

theorem stable (k : Nat) :
    Stable (fun _ => True) (fun _ => True) fun _ d => Relocates k d d where
  failure _ _ _ _ _ _ h := by cases h
  nil := lines .nil
  plain _ _ _ := lines (.cons (.plain _ _ _) .nil)
  const _ := const _
  useName use _ _ := useName use _
  join := join
  update _ := update _
  conditional := conditional
  whileLoop := whileLoop
  forLoop := forLoop

end Relocates

end Draft

/-! ### Names -/

/-- The names in the lines of a draft satisfy a predicate. -/
def Draft.Names (N : Name → Prop) (d : Draft (List Line)) : Prop :=
  ∀ p ls q, d p = some (ls, q) → ∀ use i n, .name use i n ∈ ls → N n

namespace Draft.Names

variable {N : Name → Prop} {d e : Draft (List Line)}

theorem join (hd : Names N d) (he : Names N e) : Names N (d ++ e) := by
  intro p ls q h use i n hn
  obtain ⟨ms, ns, r, hms, hns, rfl⟩ := join_eq_some.1 h
  rcases List.mem_append.1 hn with hn | hn
  · exact hd _ _ _ hms use i n hn
  · exact he _ _ _ hns use i n hn

theorem bind {α : Type} {c : Draft α} {g : α → Draft (List Line)} (h : ∀ a, Names N (g a)) :
    Names N (c >>= g) := by
  intro p ls q hl
  obtain ⟨a, r, -, hg⟩ := bind_eq_some.1 hl
  exact h a _ _ _ hg

theorem lines {ls : List Line} (h : ∀ use i n, .name use i n ∈ ls → N n) : Names N (lines ls) := by
  intro p ms q hl
  obtain ⟨rfl, rfl⟩ := lines_eq_some.1 hl
  exact h

theorem free {ls : List Line} (h : ∀ l ∈ ls, l.free = true) : Names N (Draft.lines ls) :=
  lines fun _ _ _ hn => by cases h _ hn

theorem update {n : Name} (hn : N n) (hd : Names N d) (he : Names N e) :
    Names N (Draft.update (some n) d e) := by
  have named : ∀ use i, Names N (Draft.lines [.name use i n]) := fun use i =>
    lines (by simp_all)
  exact bind fun i => (((named _ _).join hd).join he).join (named _ _)

theorem stable (N : Name → Prop) : Stable (fun _ => True) N fun _ d => Names N d :=
  .of_free (fun _ _ _ _ h => by cases h) free (fun _ => bind fun _ => lines (by simp))
    (fun _ _ hn => bind fun _ => lines (by simp_all)) join update bind

end Draft.Names

/-! ### Labels of lines that were moved -/

namespace Line

variable {k : Nat} {ls ls' : List Line} (h : List.Forall₂ (Moved k) ls ls')
include h

theorem Moved.labels_eq : labels ls' = (labels ls).map (Marker.shift k) := by
  induction h with
  | nil => rfl
  | cons hl _ ih => cases hl <;> simpa [labels] using ih

theorem Moved.nodup_labels (hn : (labels ls').Nodup) : (labels ls).Nodup := by
  rw [labels_eq h] at hn
  exact List.Nodup.of_map _ hn

theorem Moved.mem_of_jump {kind : JumpKind} {m : Marker} (hm : .jump kind m ∈ ls) :
    .jump kind (m.shift k) ∈ ls' := by
  induction h with
  | nil => cases hm
  | cons hl _ ih =>
    rcases List.mem_cons.1 hm with rfl | hm
    · cases hl
      exact List.mem_cons_self
    · exact List.mem_cons_of_mem _ (ih hm)

/-- A jump goes to the same point of both listings. -/
theorem Moved.after (m : Marker) :
    List.Forall₂ (Moved k) (after m ls) (Line.after (m.shift k) ls') := by
  induction h with
  | nil => exact .nil
  | cons hl h ih =>
    cases hl with
    | label t =>
      by_cases ht : t = m
      · simpa [Line.after, ht] using h
      · have hshift : t.shift k ≠ m.shift k := fun he => ht (Marker.shift_injective k he)
        simpa [Line.after, ht, hshift] using ih
    | _ => exact ih

/-- A label whose place fits into a byte comes no later where the lines are drafted first. An entry
of a table then fits into a byte as well, and any other operand is the same in both. -/
theorem Moved.label_le {start start' n' count c : Nat} {m : Marker} (hn : n' < 256)
    (hm : (labelsFrom start' ls').lookup (m.shift k) = some n') (hstart : start ≤ start')
    (hcount : count ≤ start) (hearly : Early count ls c) :
    ∃ n ≤ n', (labelsFrom start ls).lookup m = some n := by
  induction h generalizing start start' count with
  | nil => cases hm
  | @cons l l' ls ls' hl _ ih =>
    obtain ⟨pre, post, hpre, -, hplace⟩ := lookup_labelsFrom hm
    have wide : ∀ {l : Line} {op arg}, l.operation? = some (op, arg) → 1 ≤ l.width := by
      intro l op arg hop
      rw [width_of_operation hop]
      omega
    have narrow : ∀ {l : Line} {op arg}, l.operation? = some (op, arg) → arg ≤ count →
        l.width = 1 := by
      intro l op arg hop harg
      rw [width_of_operation hop, splitOperand_of_lt (by omega)]
      rfl
    cases hl with
    | label t =>
      simp only [labelsFrom, List.lookup_cons] at hm ⊢
      by_cases ht : m = t
      · subst ht
        have hat : start' = n' := by simpa using hm
        exact ⟨start, by omega, by simp⟩
      · have hshift : m.shift k ≠ t.shift k := fun he => ht (Marker.shift_injective k he)
        rw [beq_false_of_ne hshift] at hm
        rw [beq_false_of_ne ht]
        exact ih hm hstart hcount hearly
    | const i j v =>
      have hone := narrow (l := .const i v) rfl hearly.1
      have hwide := wide (l := .const j v) rfl
      exact ih hm (by omega) (by omega) hearly.2
    | name use i j n =>
      have hone := narrow (l := .name use i n) rfl hearly.1
      have hwide := wide (l := .name use j n) rfl
      exact ih hm (by omega) (by omega) hearly.2
    | plain op arg hop =>
      have hwide := wide (l := .plain op arg hop) rfl
      exact ih hm (by omega) (by omega) hearly
    | jump kind t =>
      have hone := width_jump kind t
      have hone' := width_jump kind (t.shift k)
      exact ih hm (by omega) (by omega) hearly

end Line

end Stackwise
