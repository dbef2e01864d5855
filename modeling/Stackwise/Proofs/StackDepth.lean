import Stackwise.Proofs.Shape
import Stackwise.Proofs.WellFormed

/-!
# The depth of the stack

Every instruction takes a number of values off the stack and gives a number back, so the depth of
the stack can be told from the code. `Code.HasDepths` says that this works out: there is one depth
for each place, whichever way it is reached, there are always enough values to take, and none is
left at the end. `Code.Tracks` leaves the ends open.

It is proved of listings first, with a depth noted before each line: `Line.Flows` follows the lines
from one to the next, and `Line.Lands` says that a jump finds its label at the depth it has. An
expression adds one value and a statement none (`Tree.Fits.hasEffect`), provided that whatever is
assigned to is a name: another target is listed like an expression, and does not take the value.
-/
namespace Stackwise

/-! ### What instructions take and give -/

/-- The number of values that an instruction takes from the stack, or looks at. -/
def Opcode.takes : Opcode → Nat → Nat
  | .loadConst, _ | .loadName, _ | .delName, _ | .extendedArg, _ | .jump, _ => 0
  | .printExpr, _ | .dupTop, _ | .popTop, _ | .storeName, _ | .unary _, _ | .getIter, _ => 1
  | .jumpIfFalse, _ | .forIter, _ => 1
  | .binary _, _ | .index, _ => 2
  | .buildList, n | .buildTuple, n | .buildSet, n => n
  | .buildDict, n => 2 * n
  | .callFunction, n => n + 1

/-- The number of values that it leaves in their place if it does not jump. -/
def Opcode.gives : Opcode → Nat
  | .printExpr | .popTop | .storeName | .delName | .extendedArg | .jump => 0
  | .dupTop | .forIter => 2
  | _ => 1

/-- Each place of the code has a depth of the stack: nothing is there at first and at the end,
instructions find what they take, the next instruction has the depth that is left, and a jump that
is taken leaves the depth as it is. -/
structure Code.HasDepths (c : Code) (depth : Nat → Nat) : Prop where
  first : depth 0 = 0
  last : depth c.size = 0
  takes : ∀ s op b, c.decode? s = some (op, b) → op.takes (c.pending s * 256 + b) ≤ depth s
  next : ∀ s op b, c.decode? s = some (op, b) → op ≠ .jump →
    depth (s + 1) = depth s - op.takes (c.pending s * 256 + b) + op.gives
  jump : ∀ s kind b, c.decode? s = some (JumpKind.opcode kind, b) →
    depth (c.pending s * 256 + b) = depth s

/-- The same, whatever the depths are at both ends. -/
structure Code.Tracks (c : Code) (depth : Nat → Nat) : Prop where
  takes : ∀ s op b, c.decode? s = some (op, b) → op.takes (c.pending s * 256 + b) ≤ depth s
  next : ∀ s op b, c.decode? s = some (op, b) → op ≠ .jump →
    depth (s + 1) = depth s - op.takes (c.pending s * 256 + b) + op.gives
  jump : ∀ s kind b, c.decode? s = some (JumpKind.opcode kind, b) →
    depth (c.pending s * 256 + b) = depth s

theorem Code.HasDepths.tracks {c : Code} {depth : Nat → Nat} (h : c.HasDepths depth) :
    c.Tracks depth := ⟨h.takes, h.next, h.jump⟩

/-! ### Lines with depths -/

namespace Line

def takes : Line → Nat
  | .const i _ => Opcode.loadConst.takes i
  | .name use i _ => use.opcode.takes i
  | .plain op arg _ => op.takes arg
  | .jump kind _ => kind.opcode.takes 0
  | .label _ => 0

def gives : Line → Nat
  | .const _ _ => Opcode.loadConst.gives
  | .name use _ _ => use.opcode.gives
  | .plain op _ _ => op.gives
  | .jump kind _ => kind.opcode.gives
  | .label _ => 0

theorem takes_of_operation {l : Line} {op : Opcode} {arg : Nat}
    (h : l.operation? = some (op, arg)) : l.takes = op.takes arg ∧ l.gives = op.gives := by
  cases l <;> cases h <;> exact ⟨rfl, rfl⟩

/-- Lines with the depth before each of them. From line to line it is what is left; after a jump
that is always taken it is another one. -/
inductive Flows : Nat → List (Nat × Line) → Nat → Prop
  | nil (d : Nat) : Flows d [] d
  | next {d e : Nat} {l : Line} {xs : List (Nat × Line)} (hl : ∀ m, l ≠ .jump .always m)
    (htakes : l.takes ≤ d) (h : Flows (d - l.takes + l.gives) xs e) : Flows d ((d, l) :: xs) e
  | jump {d d' e : Nat} {xs : List (Nat × Line)} (m : Marker) (h : Flows d' xs e) :
    Flows d ((d, .jump .always m) :: xs) e

/-- A jump finds its label at the depth it has. -/
def Lands (xs : List (Nat × Line)) : Prop :=
  ∀ d kind m, (d, Line.jump kind m) ∈ xs → (d, Line.label m) ∈ xs

theorem Flows.append {d e f : Nat} {xs ys : List (Nat × Line)} (h : Flows d xs e)
    (h' : Flows e ys f) : Flows d (xs ++ ys) f := by
  induction h with
  | nil => exact h'
  | next hl htakes _ ih => exact .next hl htakes (ih h')
  | jump m _ ih => exact .jump m (ih h')

theorem Lands.append {xs ys : List (Nat × Line)} (h : Lands xs) (h' : Lands ys) :
    Lands (xs ++ ys) := by
  intro d kind m hm
  rw [List.mem_append] at hm ⊢
  exact hm.imp (h d kind m) (h' d kind m)

/-- Lines around others, among which there are labels for the jumps that they add. -/
theorem Lands.around {xs ys : List (Nat × Line)} (h : Lands xs) (hsubset : xs ⊆ ys)
    (hjumps : ∀ d kind m, (d, Line.jump kind m) ∈ ys →
      (d, Line.jump kind m) ∈ xs ∨ (d, Line.label m) ∈ ys) : Lands ys := by
  intro d kind m hm
  rcases hjumps d kind m hm with hm | hm
  · exact hsubset (h d kind m hm)
  · exact hm

/-- The lines from some point on start at the depth noted there. -/
theorem Flows.suffix {d e : Nat} {pre post : List (Nat × Line)} {x : Nat × Line}
    (h : Flows d (pre ++ x :: post) e) : Flows x.1 (x :: post) e := by
  induction pre generalizing d with
  | nil =>
    cases h with
    | next hl htakes h => exact .next hl htakes h
    | jump m h => exact .jump m h
  | cons y pre ih =>
    cases h with
    | next _ _ h => exact ih h
    | jump _ h => exact ih h

theorem Flows.label {d e : Nat} {xs : List (Nat × Line)} (m : Marker) (h : Flows d xs e) :
    Flows d ((d, .label m) :: xs) e :=
  .next nofun (Nat.zero_le d) h

theorem Flows.pop {d e : Nat} {xs : List (Nat × Line)} (h : Flows d xs e) :
    Flows (d + 1) ((d + 1, .plain .popTop 0 rfl) :: xs) e :=
  .next nofun (Nat.le_add_left 1 d) h

/-- A test stays on the stack. -/
theorem Flows.test {d e : Nat} {xs : List (Nat × Line)} (m : Marker) (h : Flows (d + 1) xs e) :
    Flows (d + 1) ((d + 1, .jump .ifFalse m) :: xs) e :=
  .next nofun (Nat.le_add_left 1 d) h

theorem Flows.iterator {d e : Nat} {xs : List (Nat × Line)} (h : Flows (d + 1) xs e) :
    Flows (d + 1) ((d + 1, .plain .getIter 0 rfl) :: xs) e :=
  .next nofun (Nat.le_add_left 1 d) h

/-- An iterator stays beneath its item. -/
theorem Flows.item {d e : Nat} {xs : List (Nat × Line)} (m : Marker) (h : Flows (d + 2) xs e) :
    Flows (d + 1) ((d + 1, .jump .atEnd m) :: xs) e :=
  .next nofun (Nat.le_add_left 1 d) h

/-! ### Depths of places -/

/-- The depth at a place in the code of lines, with a depth for the end. -/
def depthAt (e : Nat) : List (Nat × Line) → Nat → Nat
  | [], _ => e
  | (d, l) :: xs, s => if s < l.width then d else depthAt e xs (s - l.width)

theorem depthAt_append (e : Nat) (xs ys : List (Nat × Line)) (k : Nat) :
    depthAt e (xs ++ ys) (totalWidth (xs.map (·.2)) + k) = depthAt e ys k := by
  induction xs with
  | nil => simp
  | cons x xs ih =>
    obtain ⟨d, l⟩ := x
    rw [List.cons_append, depthAt, if_neg (by simp; omega), ← ih]
    congr 1
    simp only [List.map_cons, totalWidth_cons]
    omega

theorem width_pos {l : Line} (h : ∀ m, l ≠ .label m) : 0 < l.width := by
  cases hop : l.operation? with
  | some o => simp [width_of_operation hop]
  | none =>
    cases l with
    | jump kind m => simp
    | label m => exact absurd rfl (h m)
    | _ => cases hop

/-- Labels take no place, and keep the depth. -/
theorem Flows.depthAt_zero {d e : Nat} {xs : List (Nat × Line)} (h : Flows d xs e) :
    depthAt e xs 0 = d := by
  induction h with
  | nil => rfl
  | @next d e l xs _ _ _ ih =>
    cases l with
    | label m => simpa [depthAt, takes, gives] using ih
    | _ => simp [depthAt, width_pos]
  | jump m _ _ => simp [depthAt]

theorem depthAt_inside {d e k : Nat} {l : Line} (xs : List (Nat × Line)) (h : k < l.width) :
    depthAt e ((d, l) :: xs) k = d := by
  rw [depthAt, if_pos h]

/-- The depth behind a line. -/
theorem depthAt_next {d e : Nat} {l : Line} (xs : List (Nat × Line)) :
    depthAt e ((d, l) :: xs) l.width = depthAt e xs 0 := by
  rw [depthAt, if_neg (Nat.lt_irrefl _), Nat.sub_self]

end Line

namespace Code.Lists

open Line

variable {code : Code} {p : Pool} {xs : List (Nat × Line)} (h : code.Lists (xs.map (·.2)) p)
  {first last : Nat} (flows : Flows first xs last)
include h flows

omit h flows in
theorem exists_noted {pre post : List Line} {l : Line} (hls : xs.map (·.2) = pre ++ l :: post) :
    ∃ (ys : List (Nat × Line)) (d : Nat) (zs : List (Nat × Line)),
      xs = ys ++ (d, l) :: zs ∧ pre = ys.map (·.2) := by
  obtain ⟨ys, ws, rfl, rfl, hws⟩ := List.map_eq_append_iff.1 hls
  obtain ⟨⟨d, _⟩, zs, rfl, rfl, -⟩ := List.map_eq_cons_iff.1 hws
  exact ⟨ys, d, zs, rfl, rfl⟩

/-- An instruction is a prefix, which keeps the depth, or the last one of a line that is noted with
the depth of its place. -/
theorem noted_at {s b : Nat} {op : Opcode} (hd : code.decode? s = some (op, b)) :
    op = .extendedArg ∧ depthAt last xs (s + 1) = depthAt last xs s ∨
      ∃ l zs, (depthAt last xs s, l) ∈ xs ∧
        Flows (depthAt last xs s) ((depthAt last xs s, l) :: zs) last ∧
        depthAt last xs (s + 1) = depthAt last zs 0 ∧
        (l.operation? = some (op, code.pending s * 256 + b) ∨
          ∃ kind m, l = .jump kind m ∧ op = kind.opcode ∧ code.IsStart s ∧
            (labelsFrom 0 (xs.map (·.2))).lookup m = some b) := by
  obtain ⟨pre, l, post, k, hls, rfl, hline⟩ := h.line_at hd
  have hstart := h.isStart_totalWidth hls
  obtain ⟨ys, d, zs, hxs, rfl⟩ := exists_noted hls
  have hk : k < l.width := by rcases hline with ⟨-, hk⟩ | ⟨hk, -⟩ <;> omega
  have hdepth : depthAt last xs (totalWidth (ys.map (·.2)) + k) = d := by
    rw [hxs, depthAt_append, depthAt_inside zs hk]
  have hflows : Flows d ((d, l) :: zs) last := Flows.suffix (hxs ▸ flows)
  rw [hdepth]
  rcases hline with ⟨rfl, hk⟩ | ⟨hk, hline⟩
  · refine .inl ⟨rfl, ?_⟩
    rw [hxs, Nat.add_assoc, depthAt_append, depthAt_inside zs hk]
  · refine .inr ⟨l, zs, by simp [hxs], hflows, ?_, hline.imp_right ?_⟩
    · rw [hxs, Nat.add_assoc, depthAt_append, hk, depthAt_next]
    · rintro ⟨kind, m, rfl, rfl, hm⟩
      obtain rfl : k = 0 := by simpa using hk
      exact ⟨kind, m, rfl, rfl, hstart, hm⟩

/-- A label is noted with the depth of its place. -/
theorem depthAt_label {d n : Nat} {m : Marker} (hd : (d, Line.label m) ∈ xs)
    (hm : (labelsFrom 0 (xs.map (·.2))).lookup m = some n) : depthAt last xs n = d := by
  obtain ⟨pre, post, hls, hpre, rfl⟩ := lookup_labelsFrom hm
  obtain ⟨ys, d', zs, rfl, rfl⟩ := exists_noted hls
  have mem_labels : ∀ {ws : List (Nat × Line)}, (d, Line.label m) ∈ ws →
      m ∈ Line.labels (ws.map (·.2)) :=
    fun hmem => List.mem_filterMap.2 ⟨.label m, List.mem_map_of_mem hmem, rfl⟩
  -- The marker has one label only, so it is the one that was found.
  have hlabels := h.labels
  rw [List.map_append, labels_append, List.nodup_append] at hlabels
  obtain rfl : d = d' := by
    rcases List.mem_append.1 hd with hd | hd
    · exact absurd (mem_labels hd) hpre
    · rcases List.mem_cons.1 hd with heq | hd
      · exact congrArg Prod.fst heq
      · exact absurd (mem_labels hd) (List.nodup_cons.1 hlabels.2.1).1
  have hplace := depthAt_append last ys ((d, Line.label m) :: zs) 0
  rw [Nat.add_zero, flows.suffix.depthAt_zero] at hplace
  rw [Nat.zero_add, hplace]

/-- Depths of lines are depths of their code. -/
theorem tracks (lands : Lands xs) : code.Tracks (depthAt last xs) where
  takes := by
    intro s op b hd
    obtain ⟨rfl, -⟩ | ⟨l, zs, -, hflows, -, hop | ⟨kind, m, rfl, rfl, -, -⟩⟩ := h.noted_at flows hd
    · exact Nat.zero_le _
    · rw [← (takes_of_operation hop).1]
      cases hflows with
      | next _ htakes _ => exact htakes
      | jump m _ => cases hop
    · cases hflows with
      | next _ htakes _ => cases kind <;> exact htakes
      | jump m _ => exact Nat.zero_le _
  next := by
    intro s op b hd hne
    obtain ⟨rfl, hnext⟩ | ⟨l, zs, -, hflows, hnext, hline⟩ := h.noted_at flows hd
    · exact hnext
    rw [hnext]
    cases hflows with
    | next _ _ hflows =>
      rw [hflows.depthAt_zero]
      rcases hline with hop | ⟨kind, m, rfl, rfl, -, -⟩
      · obtain ⟨htakes, hgives⟩ := takes_of_operation hop
        rw [htakes, hgives]
      · cases kind <;> rfl
    | jump m _ =>
      rcases hline with hop | ⟨kind, _, hl, rfl, -, -⟩
      · cases hop
      · cases hl
        exact absurd rfl hne
  jump := by
    intro s kind b hd
    obtain ⟨hop, -⟩ | ⟨l, zs, hl, -, -, hop | ⟨kind', m, rfl, -, hs, hm⟩⟩ := h.noted_at flows hd
    · exact absurd hop (JumpKind.opcode_ne_extendedArg kind)
    · exact absurd rfl ((operation?_ordinary hop).2 kind)
    · rw [pending_of_isStart hs, Nat.zero_mul, Nat.zero_add]
      exact h.depthAt_label flows (lands _ _ _ hl) hm

omit flows in
/-- Depths of the lines of a program are depths of its code. -/
theorem hasDepths (flows : Flows 0 xs 0) (lands : Lands xs) : code.HasDepths (depthAt 0 xs) where
  first := flows.depthAt_zero
  last := by simpa [h.size_eq, depthAt] using depthAt_append 0 xs [] 0
  takes := (h.tracks flows lands).takes
  next := (h.tracks flows lands).next
  jump := (h.tracks flows lands).jump

end Code.Lists

/-! ### Effects of drafts -/

/-- A draft lists code that takes some values and gives others, whatever is beneath them. -/
def Draft.Effect (take give : Nat) (d : Draft (List Line)) : Prop :=
  ∀ (base : Nat) p ls q, d p = some (ls, q) →
    ∃ xs, ls = xs.map (·.2) ∧ Line.Flows (base + take) xs (base + give) ∧ Line.Lands xs

namespace Draft.Effect

variable {a b c : Nat} {d e f : Draft (List Line)}

theorem failure : Effect a b failure := nofun

/-- The same with more values beneath. -/
theorem above (h : Effect a b d) (k : Nat) : Effect (k + a) (k + b) d := by
  intro base p ls q hd
  simpa only [Nat.add_assoc] using h (base + k) p ls q hd

theorem nil : Effect a a (lines []) := by
  intro base p ls q h
  obtain ⟨rfl, rfl⟩ := lines_eq_some.1 h
  exact ⟨[], rfl, .nil _, nofun⟩

theorem join (hd : Effect a b d) (he : Effect b c e) : Effect a c (d ++ e) := by
  intro base p ls q h
  obtain ⟨ms, ns, r, hm, hn, rfl⟩ := join_eq_some.1 h
  obtain ⟨xs, rfl, flows, lands⟩ := hd base p ms r hm
  obtain ⟨ys, rfl, flows', lands'⟩ := he base r ns q hn
  exact ⟨xs ++ ys, by simp, flows.append flows', lands.append lands'⟩

theorem line {l : Line} (h : l.operation?.isSome = true) : Effect l.takes l.gives (lines [l]) := by
  intro base p ls q hl
  obtain ⟨rfl, rfl⟩ := lines_eq_some.1 hl
  refine ⟨[(base + l.takes, l)], rfl, .next ?_ (Nat.le_add_left _ base) ?_, ?_⟩
  · rintro m rfl
    cases h
  · rw [Nat.add_sub_cancel]
    exact .nil _
  · intro d kind m hm
    cases List.mem_singleton.1 hm
    cases h

theorem plain (op : Opcode) (arg : Nat) (isPlain : op.isPlain = true) :
    Effect (op.takes arg) op.gives (lines [.plain op arg isPlain]) :=
  line rfl

theorem const (v : Value) : Effect 0 1 (do let i ← addConst v; lines [.const i v]) := by
  intro base p ls q h
  obtain ⟨i, r, hi, hl⟩ := bind_eq_some.1 h
  exact line (l := .const i v) rfl base r ls q hl

theorem name (use : NameUse) (i : Nat) (n : Name) :
    Effect (use.opcode.takes 0) use.opcode.gives (lines [.name use i n]) := by
  cases use <;> exact line rfl

theorem useName (use : NameUse) (n : Name) :
    Effect (use.opcode.takes 0) use.opcode.gives (useName use n) := by
  intro base p ls q h
  obtain ⟨i, r, hi, hl⟩ := bind_eq_some.1 h
  exact name use i n base r ls q hl

/-- A value and an operation with it and the variable. -/
theorem update (n? : Option Name) (hd : Effect 0 1 d) (he : Effect 2 1 e) :
    Effect 0 0 (update n? d e) := by
  cases n? with
  | none => exact failure
  | some n =>
    intro base p ls q h
    obtain ⟨i, r, hi, hl⟩ := bind_eq_some.1 h
    exact (((name .load i n).join (hd.above 1)).join he).join (name .store i n) base r ls q hl

/-- Both branches leave as much. -/
theorem conditional (hd : Effect 0 1 d) (he : Effect 0 a e) (hf : Effect 0 a f) :
    Effect 0 a (conditional d e f) := by
  intro base p ls q h
  obtain ⟨ds, es, fs, p₁, p₂, hds, hes, hfs, rfl⟩ := conditional_eq_some.1 h
  obtain ⟨xs, rfl, flows, lands⟩ := hd base _ _ _ hds
  obtain ⟨ys, rfl, flows', lands'⟩ := he base _ _ _ hes
  obtain ⟨zs, rfl, flows'', lands''⟩ := hf base _ _ _ hfs
  refine ⟨_, ?_, flows.append (.test (.fresh p.made) (.pop (flows'.append
    (.jump (.fresh (p.made + 1)) (.label (.fresh p.made) (.pop (flows''.append
      (.label (.fresh (p.made + 1)) (.nil _))))))))), ?_⟩
  · simp
  · exact (lands.append (lands'.append lands'')).around (by grind) (by grind)

/-- Each turn of a loop leaves the stack as it was. -/
theorem whileLoop (hd : Effect 0 1 d) (he : Effect 0 0 e) : Effect 0 0 (whileLoop d e) := by
  intro base p ls q h
  obtain ⟨ds, es, p₁, hds, hes, rfl⟩ := whileLoop_eq_some.1 h
  obtain ⟨xs, rfl, flows, lands⟩ := hd base _ _ _ hds
  obtain ⟨ys, rfl, flows', lands'⟩ := he base _ _ _ hes
  refine ⟨_, ?_, .label (.fresh p.made) (flows.append (.test (.fresh (p.made + 1)) (.pop
    (flows'.append (.jump (.fresh p.made) (.label (.fresh (p.made + 1)) (.pop (.nil _)))))))), ?_⟩
  · simp
  · exact (lands.append lands').around (by grind) (by grind)

/-- The iterator stays on the stack while the loop goes on. -/
theorem forLoop (hd : Effect 0 1 d) (he : Effect 1 0 e) (hf : Effect 0 0 f) :
    Effect 0 0 (forLoop d e f) := by
  intro base p ls q h
  obtain ⟨ds, es, fs, p₁, p₂, hds, hes, hfs, rfl⟩ := forLoop_eq_some.1 h
  obtain ⟨xs, rfl, flows, lands⟩ := hd base _ _ _ hds
  obtain ⟨ys, rfl, flows', lands'⟩ := he (base + 1) _ _ _ hes
  obtain ⟨zs, rfl, flows'', lands''⟩ := hf (base + 1) _ _ _ hfs
  refine ⟨_, ?_, flows.append (.iterator (.label (.fresh p.made) (.item
    (.fresh (p.made + 1)) (flows'.append (flows''.append (.jump (.fresh p.made)
      (.label (.fresh (p.made + 1)) (.pop (.nil _))))))))), ?_⟩
  · simp
  · exact (lands.append (lands'.append lands'')).around (by grind) (by grind)

/-- Parts that give as much each. -/
theorem concat {ds : List (Draft (List Line))} (h : ∀ d ∈ ds, Effect 0 a d) :
    Effect 0 (ds.length * a) (concat ds) := by
  induction ds with
  | nil =>
    rw [List.length_nil, Nat.zero_mul]
    exact nil
  | cons d ds ih =>
    rw [List.forall_mem_cons] at h
    rw [List.length_cons, Nat.succ_mul, Nat.add_comm]
    exact h.1.join ((ih h.2).above a)

theorem targets {ds : List (Draft (List Line))} (hne : ds ≠ []) (h : ∀ d ∈ ds, Effect 1 0 d) :
    Effect 1 0 (targets ds) := by
  induction ds with
  | nil => exact absurd rfl hne
  | cons d ds ih =>
    rw [List.forall_mem_cons] at h
    cases ds with
    | nil => exact h.1
    | cons d' ds => exact ((plain .dupTop 0 rfl).join (h.1.above 1)).join (ih nofun h.2)

theorem entries {ks vs : List (Draft (List Line))} (hk : ∀ d ∈ ks, Effect 0 1 d)
    (hv : ∀ d ∈ vs, Effect 0 1 d) : Effect 0 (2 * ks.length) (entries ks vs) := by
  induction ks generalizing vs with
  | nil =>
    rw [Draft.entries]
    exact nil
  | cons k ks ih =>
    cases vs with
    | nil => exact failure
    | cons v vs =>
      rw [List.forall_mem_cons] at hk hv
      rw [List.length_cons, Nat.mul_succ, Nat.add_comm]
      exact (hv.1.join (hk.1.above 1)).join ((ih hk.2 hv.2).above 2)

end Draft.Effect

/-! ### Effects of trees -/

namespace Tree

/-- Whether a tree is a name. -/
def isName : Tree → Bool
  | .name _ _ => true
  | _ => false

mutual
/-- What is assigned to in the parts of a tree that have instructions, by assignments and loops. -/
def assignees : Tree → List Tree
  | .list items => assigneesIn items
  | .module body | .interactive body => assignees body
  | .assign (.list targets) _ => targets
  | .ifStmt _ body orelse => assignees body ++ assignees orelse
  | .whileLoop _ body _ => assignees body
  | .forLoop target _ body _ => target :: assignees body
  | _ => []
def assigneesIn : List Tree → List Tree
  | [] => []
  | t :: ts => assignees t ++ assigneesIn ts
end

/-- Only names are assigned to. -/
def AssignsNames (t : Tree) : Prop := ∀ s ∈ t.assignees, s.isName = true

instance (t : Tree) : Decidable t.AssignsNames :=
  inferInstanceAs (Decidable (∀ s ∈ t.assignees, s.isName = true))

theorem assignsNames_list {ts : List Tree} :
    (Tree.list ts).AssignsNames ↔ ∀ t ∈ ts, t.AssignsNames := by
  unfold AssignsNames
  rw [assignees]
  induction ts with
  | nil => simp [assigneesIn]
  | cons t ts ih => rw [assigneesIn, List.forall_mem_append, List.forall_mem_cons, ih]

theorem assignsNames_ifStmt {test body orelse : Tree} :
    (Tree.ifStmt test body orelse).AssignsNames ↔ body.AssignsNames ∧ orelse.AssignsNames :=
  List.forall_mem_append

theorem assignsNames_forLoop {target iter body orelse : Tree} :
    (Tree.forLoop target iter body orelse).AssignsNames ↔
      target.isName = true ∧ body.AssignsNames :=
  List.forall_mem_cons

/-- What the code of a tree does to the depth of the stack, by its place. Statements assign to names
only, and only names are targets here. -/
def HasEffect (t : Tree) : Role → Prop
  | .program | .statement => t.AssignsNames → Draft.Effect 0 0 t.draft
  | .expression .load => Draft.Effect 0 1 t.draft
  | .expression .store => t.isName = true → Draft.Effect 1 0 t.draft
  | .expression .del => True
  | .slice => Draft.Effect 1 1 t.draft
  | .binaryOperator => Draft.Effect 2 1 t.draft
  | .unaryOperator => Draft.Effect 1 1 t.draft

theorem HasEffect.of_failure {t : Tree} (h : t.draft = failure) (r : Role) : t.HasEffect r := by
  have effect (a b : Nat) : Draft.Effect a b t.draft := by
    rw [h]
    exact .failure
  cases r with
  | program | statement => exact fun _ => effect 0 0
  | expression c =>
    cases c with
    | load => exact effect 0 1
    | store => exact fun _ => effect 1 0
    | del => trivial
  | slice | unaryOperator => exact effect 1 1
  | binaryOperator => exact effect 2 1

/-- What is no name has an effect only where its value is used. -/
theorem HasEffect.of_value {t : Tree} {c : Context} (hname : t.isName = false)
    (h : c = .load → Draft.Effect 0 1 t.draft) : t.HasEffect (.expression c) := by
  cases c with
  | load => exact h rfl
  | store =>
    intro htrue
    rw [hname] at htrue
    exact absurd htrue Bool.false_ne_true
  | del => trivial

section
variable {ts : List Tree}

theorem values_effect (h : ∀ t ∈ ts, t.HasEffect (.expression .load)) :
    ∀ d ∈ draftEach ts, Draft.Effect 0 1 d := by
  rw [draftEach_eq_map]
  exact List.forall_mem_map.2 h

theorem concat_effect (h : ∀ t ∈ ts, t.HasEffect (.expression .load)) :
    Draft.Effect 0 ts.length (Draft.concat (draftEach ts)) := by
  simpa [draftEach_eq_map] using Draft.Effect.concat (values_effect h)

/-- A display takes its items. -/
theorem display_effect (h : ∀ t ∈ ts, t.HasEffect (.expression .load)) {op : Opcode}
    (isPlain : op.isPlain = true) (htakes : op.takes ts.length = ts.length) :
    Draft.Effect 0 op.gives
      (Draft.concat (draftEach ts) ++ Draft.counted op isPlain (some ts.length)) := by
  have build := Draft.Effect.plain op ts.length isPlain
  rw [htakes] at build
  exact (concat_effect h).join build

theorem body_effect (h : ∀ t ∈ ts, t.HasEffect .statement)
    (hnames : (Tree.list ts).AssignsNames) :
    Draft.Effect 0 0 (Draft.concat (draftEach ts)) := by
  have each : ∀ d ∈ draftEach ts, Draft.Effect 0 0 d := by
    rw [draftEach_eq_map]
    exact List.forall_mem_map.2 fun t ht => h t ht (assignsNames_list.1 hnames t ht)
  simpa using Draft.Effect.concat each

theorem block_effect (hfits : ∀ t ∈ ts, t.Fits true .statement)
    (h : ∀ t ∈ ts, t.HasEffect .statement) (hnames : (Tree.list ts).AssignsNames) :
    Draft.Effect 0 0 (Tree.list ts).draft := by
  rw [draft, draftItems_eq_concat fun t ht => (hfits t ht).ordinary.ne_list]
  exact body_effect h hnames

theorem draftDelete_effect (t : Tree) : Draft.Effect 0 0 t.draftDelete := by
  unfold draftDelete
  split
  · exact .useName .delete _
  · exact .failure

end

/-- Everything that fits its place has the effect that belongs to it. -/
theorem Fits.hasEffect {r : Role} {t : Tree} (h : t.Fits true r) : t.HasEffect r := by
  induction h with
  | leaf v => exact .of_failure rfl _
  | module _ ih => exact body_effect ih
  | interactive _ ih => exact body_effect ih
  | expr _ ih => exact fun _ => ih.join (.plain .printExpr 0 rfl)
  | @assign targets value _ _ iht ihv =>
    intro hnames
    rw [draft]
    split
    · next htruthy =>
      refine ihv.join (.targets ?_ ?_)
      · cases targets <;> simp_all [truthy, parts, draftEach]
      · rw [parts, draftEach_eq_map]
        exact List.forall_mem_map.2 fun t ht => iht t ht (hnames t ht)
    · exact .failure
  | augAssign _ _ _ _ iho ihv => exact fun _ => .update _ ihv iho
  | @delete targets _ _ =>
    intro _
    have hdeletes : ∀ d ∈ targets.map draftDelete, Draft.Effect 0 0 d :=
      List.forall_mem_map.2 fun t _ => draftDelete_effect t
    simpa [draft] using Draft.Effect.concat hdeletes
  | pass => exact fun _ => .nil
  | ifStmt _ hbody horelse iht ihb iho =>
    intro hnames
    rw [assignsNames_ifStmt] at hnames
    exact .conditional iht (block_effect hbody ihb hnames.1) (block_effect horelse iho hnames.2)
  | ifExp _ _ _ iht ihb iho => exact .conditional iht ihb iho
  | whileLoop orelse _ hbody iht ihb =>
    exact fun hnames => .whileLoop iht (block_effect hbody ihb hnames)
  | forLoop orelse _ _ hbody iht ihi ihb =>
    intro hnames
    rw [assignsNames_forLoop] at hnames
    rw [draft]
    split
    · exact .forLoop ihi (iht hnames.1) (block_effect hbody ihb hnames.2)
    · exact .failure
  | name id c =>
    cases c with
    | load => exact Draft.Effect.useName .load _
    | store => exact fun _ => Draft.Effect.useName .store _
    | del => trivial
  | constant v => exact .of_value rfl fun _ => .const v
  | tuple _ ih =>
    refine .of_value rfl ?_
    rintro rfl
    exact display_effect ih rfl rfl
  | listDisplay _ ih =>
    refine .of_value rfl ?_
    rintro rfl
    exact display_effect ih rfl rfl
  | setDisplay _ ih => exact display_effect ih rfl rfl
  | @dictDisplay keys values _ _ _ ihk ihv =>
    have entries : Draft.Effect 0 (2 * keys.length)
        (if (Tree.list keys).count? = some 0 then Draft.lines [] else
          Draft.entries (draftEach keys) (draftEach values)) := by
      split
      · next hcount =>
        obtain rfl : keys = [] := by simpa [count?] using hcount
        exact .nil
      · simpa [draftEach_eq_map] using
          Draft.Effect.entries (values_effect ihk) (values_effect ihv)
    exact entries.join (.plain .buildDict keys.length rfl)
  | binOp _ _ _ ihl iho ihr => exact (ihl.join (ihr.above 1)).join iho
  | unaryOp _ _ iho ih => exact ih.join iho
  | subscript _ _ ihv ihs => exact .of_value rfl fun _ => ihv.join ihs
  | index _ ih => exact (ih.above 1).join (.plain .index 0 rfl)
  | @call func args _ _ hargs ihf iha =>
    have arguments : Draft.Effect 1 (args.length + 1) (Tree.list args).draft := by
      rw [draft, draftItems_eq_concat fun t ht => (hargs t ht).ordinary.ne_list, Nat.add_comm]
      exact (concat_effect iha).above 1
    exact (ihf.join arguments).join (.plain .callFunction args.length rfl)
  | binaryOperator op => exact Draft.Effect.plain (.binary op) 0 rfl
  | unaryOperator op => exact Draft.Effect.plain (.unary op) 0 rfl
  | other hcls _ => exact .of_failure (by rw [draft, if_neg (by simpa using hcls)]) _

/-- The depth of the stack does not depend on the way through the code. If a program with wrapped
indices in which everything fits its place (`read_fits`, `Fits.wrapIndices`) assigns to names only
and compiles, then each place of its code has a depth: no instruction takes more than is there, the
depths agree along every way to go on, and they are zero at both ends. -/
theorem compile_hasDepths {t : Tree} {code : Code} (ht : t.Fits true .program)
    (hnames : t.AssignsNames) (hcode : t.compile = .ok code) :
    ∃ depth, code.HasDepths depth := by
  obtain ⟨ls, p, hd, hls⟩ := compile_eq_ok.1 hcode
  obtain ⟨xs, rfl, flows, lands⟩ := ht.hasEffect hnames 0 {} ls p hd
  exact ⟨_, hls.hasDepths flows lands⟩

/-- A loop in a loop, conditions, calls and displays of several items. -/
def winding : String :=
  "n = m = 3\nfor x in [n, (m, 2)[0]]:\n    while n:\n        n -= 1 if x else 2\n" ++
  "    if {x: n}:\n        max(x, n, m)"

theorem compile_hasDepths_winding :
    ∃ t code, read .program winding = .ok t ∧ t.wrapIndices.compile = .ok code ∧
      ∃ depth, code.HasDepths depth := by
  obtain ⟨t, hread, code, hcode, hnames⟩ :
      ∃ t, read .program winding = .ok t ∧ ∃ code, t.wrapIndices.compile = .ok code ∧
        t.wrapIndices.AssignsNames := by
    decide +kernel
  exact ⟨t, code, hread, hcode, compile_hasDepths (read_fits hread).wrapIndices hnames hcode⟩

end Tree

end Stackwise
