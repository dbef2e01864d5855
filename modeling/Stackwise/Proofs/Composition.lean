import Stackwise.Proofs.Correctness
import Stackwise.Proofs.Relocation
import Stackwise.Proofs.SideBySide

/-!
# One program after another

The code of some statements is the beginning of the code of these statements and others after them
(`Code.Begins`), and a run of the joint program goes through it as a run of the first program does.
The rest of the joint program is the second program, moved: the two run side by side from there on
(`Abreast.moves`). So running statements in one program is running them in two, one after the other:
`Tree.runs_append`.
-/
namespace Stackwise

open Exec

/-! ### Programs that begin alike -/

/-- A program is the beginning of another: its tables and its bytes are. -/
structure Code.Begins (c d : Code) : Prop where
  names : c.names.toList <+: d.names.toList
  consts : c.consts.toList <+: d.consts.toList
  bytes : c.bytes.toList <+: d.bytes.toList

namespace Code.Begins

variable {c d : Code} (h : c.Begins d)
include h

theorem decode? {s b : Nat} {op : Opcode} (hd : c.decode? s = some (op, b)) :
    d.decode? s = some (op, b) := by
  obtain ⟨o, byte, hf, hop, rfl⟩ := fetch?_of_decode? hd
  obtain ⟨x, hx, y, hy, hxy⟩ : ∃ x, c.bytes[2 * s]? = some x ∧
      ∃ y, c.bytes[2 * s + 1]? = some y ∧ (x, y) = (o, byte) := by
    simpa [Code.fetch?, Option.bind_eq_some_iff] using hf
  cases hxy
  have hx' := getElem?_of_prefix h.bytes hx
  have hy' := getElem?_of_prefix h.bytes hy
  simp [Code.decode?, Code.fetch?, hx', hy', hop]

/-- An operand that points into the tables means the same in both. -/
theorem execute_eq {op : Opcode} {arg : Nat} (hin : c.InTable op arg) :
    execute c op arg = execute d op arg := by
  have const : arg < c.consts.size → entryAt c.consts arg = entryAt d.consts arg := by
    intro hlt
    have hc : c.consts[arg]? = some c.consts[arg] := Array.getElem?_eq_getElem hlt
    rw [entryAt, entryAt, hc, getElem?_of_prefix h.consts hc]
  have name : ∀ use, op = NameUse.opcode use → entryAt c.names arg = entryAt d.names arg := by
    intro use hop
    have hlt := hin.2 use hop
    have hc : c.names[arg]? = some c.names[arg] := Array.getElem?_eq_getElem hlt
    rw [entryAt, entryAt, hc, getElem?_of_prefix h.names hc]
  cases op with
  | loadConst => simp only [execute, const (hin.1 rfl)]
  | loadName => simp only [execute, name .load rfl]
  | storeName => simp only [execute, name .store rfl]
  | delName => simp only [execute, name .delete rfl]
  | _ => rfl

variable (hc : c.WellFormed)
include hc

/-- Where the loop of the beginning takes a turn, the loop of the whole program does. -/
theorem turn {s s' : Nat × Machine} (hs : c.Inside s.1 s.2) (ht : Turn c s s') : Turn d s s' := by
  cases ht with
  | extend hd => exact .extend (h.decode? hd)
  | @execute high b m m' op hd hop hrun =>
    have hin := hc.entry _ _ _ hd
    rw [← show high = _ from hs.2] at hin
    rw [h.execute_eq hin] at hrun
    exact .execute (h.decode? hd) hop hrun

theorem turns {s s' : Nat × Machine} (hs : c.Inside s.1 s.2)
    (ht : Relation.ReflTransGen (Turn c) s s') : Relation.ReflTransGen (Turn d) s s' := by
  induction ht with
  | refl => exact .refl
  | tail ht hturn ih => exact ih.tail (h.turn hc (hc.turns ht hs) hturn)

/-- A run of the beginning that fails is a run of the whole program. -/
theorem runFrom_error {fuel : Nat} {m m' : Machine} {f : Fault}
    (hrun : outcome (runFrom c fuel 0) (m.at 0) = (.error f, m')) (hf : f ≠ .endless) :
    ∃ fuel', outcome (runFrom d fuel' 0) (m.at 0) = (.error f, m') := by
  obtain ⟨⟨high, s⟩, hturns, hends⟩ := runFrom_ends c fuel 0 (m.at 0)
  have hstart : c.Inside 0 (m.at 0) := ⟨Nat.zero_le _, rfl⟩
  have hinside := hc.turns hturns hstart
  obtain ⟨k, hk⟩ := runFrom_turns (h.turns hc hstart hturns)
  rw [hrun] at hends
  cases hends with
  | cut => exact absurd rfl hf
  | unknown hfetch hd =>
    obtain ⟨op, b, hd', -⟩ := hc.inTable hinside (hc.lt_size_of_fetch? hinside.1 hfetch)
    rw [hd] at hd'
    cases hd'
  | @failed _ b _ _ op _ hd hop hfail =>
    have hin := hc.entry _ _ _ hd
    rw [← show high = _ from hinside.2] at hin
    rw [h.execute_eq hin] at hfail
    refine ⟨0 + 1 + k, ?_⟩
    rw [hk, runFrom_execute (h.decode? hd) hop, hfail]
    rfl

/-- A run of the beginning that returns leads the whole program to the end of it. -/
theorem runFrom_ok {fuel : Nat} {m m' : Machine}
    (hrun : outcome (runFrom c fuel 0) (m.at 0) = (.ok (), m')) :
    m'.pc = c.size ∧
      ∃ k, ∀ n, outcome (runFrom d (n + k) 0) (m.at 0) = outcome (runFrom d n 0) m' := by
  obtain ⟨⟨high, s⟩, hturns, hends⟩ := runFrom_ends c fuel 0 (m.at 0)
  have hstart : c.Inside 0 (m.at 0) := ⟨Nat.zero_le _, rfl⟩
  have hinside := hc.turns hturns hstart
  obtain ⟨k, hk⟩ := runFrom_turns (h.turns hc hstart hturns)
  rw [hrun] at hends
  cases hends with
  | finished hfetch =>
    have hpc := hc.fetch?_eq_none hinside.1 hfetch
    have hhigh : high = 0 := by
      rw [show high = _ from hinside.2, show m'.pc = _ from hpc, hc.pending_size]
    subst hhigh
    exact ⟨hpc, k, hk⟩

end Code.Begins

/-! ### The second program, alone and moved -/

namespace Line

/-- Lines that were moved do the same, if the tables hold what they stand for. -/
theorem Moved.execute_eq {k : Nat} {l l' : Line} {code code' : Code} {op : Opcode} {arg : Nat}
    (h : Moved k l l') (hl : l.Exact code) (hl' : l'.Exact code')
    (htext : ∀ use i n, l = .name use i n → ∃ s, n = .text s)
    (hop : l.operation? = some (op, arg)) :
    ∃ arg', l'.operation? = some (op, arg') ∧ execute code op arg = execute code' op arg' := by
  cases h with
  | const i j v =>
    cases hop
    refine ⟨j, rfl, ?_⟩
    have hi : code.consts[arg]? = some v := hl
    have hj : code'.consts[j]? = some v := hl'
    simp only [execute, entryAt, hi, hj]
  | name use i j n =>
    cases hop
    obtain ⟨s, rfl⟩ := htext use _ n rfl
    refine ⟨j, rfl, ?_⟩
    have hi := hl s rfl
    have hj := hl' s rfl
    cases use <;> simp only [NameUse.opcode, execute, entryAt, hi, hj]
  | plain op arg hplain =>
    cases hop
    refine ⟨arg, rfl, ?_⟩
    cases op <;> first | rfl | cases hplain
  | jump kind m => cases hop
  | label m => cases hop

end Line

/-- The points at which a listing and the same listing after others are abreast. -/
def Abreast (k : Nat) (ls ls' xs ys : List Line) : Prop :=
  List.Forall₂ (Line.Moved k) xs ys ∧ xs <:+ ls ∧ ys <:+ ls'

section
variable {code code' : Code} {pre ls ls' : List Line} {k : Nat}
  (hmoved : List.Forall₂ (Line.Moved k) ls ls') (hclosed : Line.Closed ls')
  (hlabels : (Line.labels (pre ++ ls')).Nodup)
  (hexact : ∀ l ∈ ls, l.Exact code) (hexact' : ∀ l ∈ ls', l.Exact code')
  (htext : ∀ use i n, Line.name use i n ∈ ls → ∃ s, n = .text s)
include hmoved hclosed hlabels hexact hexact' htext

theorem Abreast.moves {xs ys : List Line} (h : Abreast k ls ls' xs ys) (m : Machine) :
    Moves (Abreast k ls ls') code ls code' (pre ++ ls') xs ys m := by
  obtain ⟨related, hs, hs'⟩ := h
  induction related with
  | nil => exact .ends .nil .nil
  | @cons l l' xs ys hl related ih =>
    have rest : Abreast k ls ls' xs ys :=
      ⟨related, (List.suffix_cons l xs).trans hs, (List.suffix_cons l' ys).trans hs'⟩
    have hmem : l ∈ ls := hs.subset List.mem_cons_self
    have hmem' : l' ∈ ls' := hs'.subset List.mem_cons_self
    cases hop : l.operation? with
    | some o =>
      obtain ⟨op, arg⟩ := o
      have hnames : ∀ use i n, l = .name use i n → ∃ s, n = .text s := by
        rintro use i n rfl
        exact htext use i n hmem
      obtain ⟨arg', hop', heq⟩ := hl.execute_eq (hexact l hmem) (hexact' l' hmem') hnames hop
      have left : Turns code ls _ (l :: xs) m _ := .operation hop
      have right : Turns code' (pre ++ ls') _ (l' :: ys) m _ := .operation hop'
      rw [← heq] at right
      generalize outcome (execute code op arg) m = result at left right
      rcases result with ⟨f | u, m'⟩
      · exact .ends left right
      · exact .goes rest left right
    | none =>
      cases hl with
      | label t => exact (ih rest.2.1 rest.2.2).label t (t.shift k)
      | jump kind t =>
        have left : Turns code ls _ (.jump kind t :: xs) m _ := .jump kind t
        have right : Turns code' (pre ++ ls') _ (.jump kind (t.shift k) :: ys) m _ :=
          .jump kind (t.shift k)
        -- the label is among the lines that were moved, so none before them has it
        have hnot : t.shift k ∉ Line.labels pre := by
          intro hpre
          rw [Line.labels_append, List.nodup_append] at hlabels
          exact hlabels.2.2 _ hpre _ (hclosed kind _ hmem') rfl
        rw [Line.after_append hnot] at right
        generalize outcome kind.taken m = result at left right
        rcases result with ⟨f | b, m'⟩
        · exact .ends left right
        · refine .goes ?_ left right
          cases b with
          | false => exact rest
          | true =>
            exact ⟨Line.Moved.after hmoved t, Line.after_suffix _ ls, Line.after_suffix _ ls'⟩
      | const i j v => cases hop
      | name use i j n => cases hop
      | plain op arg hplain => cases hop

end

/-! ### Compiling statements and others after them -/

namespace Line

theorem mem_of_mark {ls : List Line} {m : Marker} (h : .mark m ∈ allSlots ls) :
    ∃ kind, .jump kind m ∈ ls := by
  obtain ⟨l, hl, hm⟩ := List.mem_flatMap.1 h
  have ordinary : ∀ op arg, .mark m ∉ instructionSlots op arg := by
    intro op arg hmark
    obtain ⟨n, -, hn⟩ := instructionSlots_byte hmark
    cases hn
  cases l with
  | jump kind t =>
    obtain rfl : m = t := by simpa [slots] using hm
    exact ⟨kind, hl⟩
  | label t => cases hm
  | _ => exact absurd hm (ordinary _ _)

theorem exists_lookup {ls : List Line} {m : Marker} (start : Nat) (h : m ∈ labels ls) :
    ∃ n, (labelsFrom start ls).lookup m = some n := by
  rw [← Option.isSome_iff_exists, Option.isSome_iff_ne_none, ne_eq, List.lookup_eq_none_iff]
  intro hnone
  rw [← map_fst_labelsFrom start] at h
  obtain ⟨a, ha, rfl⟩ := List.mem_map.1 h
  simpa using hnone a ha

/-- Lines after others do not change where the labels of these are. -/
theorem lookup_append_of_mem {ls ms : List Line} {m : Marker} (h : m ∈ labels ls) :
    (labelsFrom 0 (ls ++ ms)).lookup m = (labelsFrom 0 ls).lookup m := by
  obtain ⟨n, hn⟩ := exists_lookup 0 h
  rw [labelsFrom_append, List.lookup_append, hn, Option.some_or]

theorem lookup_append_of_notMem {ls ms : List Line} {m : Marker} (h : m ∉ labels ls) :
    (labelsFrom 0 (ls ++ ms)).lookup m = (labelsFrom (totalWidth ls) ms).lookup m := by
  have hnone : (labelsFrom 0 ls).lookup m = none := by
    rw [List.lookup_eq_none_iff]
    intro a ha
    have hne : m ≠ a.1 := by
      rintro rfl
      exact h (map_fst_labelsFrom 0 ls ▸ List.mem_map_of_mem ha)
    simpa using hne
  rw [labelsFrom_append, List.lookup_append, hnone, Option.none_or, Nat.zero_add]

theorem spelledBy_congr {labels labels' : List (Marker × Nat)} {xs : List Slot} {bs : List UInt8}
    (hlookup : ∀ m, .mark m ∈ xs → labels.lookup m = labels'.lookup m)
    (h : List.Forall₂ (Slot.SpelledBy labels) xs bs) :
    List.Forall₂ (Slot.SpelledBy labels') xs bs := by
  induction h with
  | nil => exact .nil
  | @cons x b xs bs hx _ ih =>
    refine .cons ?_ (ih fun m hm => hlookup m (List.mem_cons_of_mem x hm))
    cases x with
    | byte n => exact hx
    | mark m => exact (hlookup m List.mem_cons_self).symm.trans hx

/-- The bytes of lines that only jump among themselves do not depend on what comes after them. -/
theorem Encodes.left {ls ms : List Line} {bytes : List UInt8} (h : Encodes (ls ++ ms) bytes)
    (hclosed : Closed ls) : ∃ bs cs, bytes = bs ++ cs ∧ Encodes ls bs := by
  have htake := List.forall₂_take (allSlots ls).length h
  rw [allSlots_append, List.take_left] at htake
  refine ⟨_, _, (List.take_append_drop (allSlots ls).length bytes).symm, ?_⟩
  refine spelledBy_congr (fun m hm => ?_) htake
  obtain ⟨kind, hjump⟩ := mem_of_mark hm
  exact lookup_append_of_mem (hclosed kind m hjump)

/-- Lines that were moved after others have bytes on their own, if they have there. -/
theorem Moved.exists_encodes {k c : Nat} {pre ls ls' : List Line}
    (h : List.Forall₂ (Moved k) ls ls') (hclosed : Closed ls')
    (hlabels : (labels (pre ++ ls')).Nodup) (hearly : Early 0 ls c)
    (hbytes : ∃ bytes, Encodes (pre ++ ls') bytes) : ∃ bytes, Encodes ls bytes := by
  rw [Line.exists_encodes] at hbytes ⊢
  intro kind m hm
  have hjump := Moved.mem_of_jump h hm
  obtain ⟨n', hn', hlookup⟩ := hbytes kind _ (List.mem_append_right pre hjump)
  have hnot : m.shift k ∉ labels pre := by
    intro hpre
    rw [labels_append, List.nodup_append] at hlabels
    exact hlabels.2.2 _ hpre _ (hclosed kind _ hjump) rfl
  rw [lookup_append_of_notMem hnot] at hlookup
  obtain ⟨n, hle, hn⟩ :=
    Moved.label_le h hn' hlookup (Nat.zero_le _) (Nat.le_refl 0) hearly
  exact ⟨n, by omega, hn⟩

end Line

/-- A program that is made of two, one after the other. -/
structure Code.Joins (code code₁ code₂ : Code) (ls₁ ls₂ ls₂' : List Line) (p p₁ p₂ : Pool) :
    Prop where
  joint : code.Lists (ls₁ ++ ls₂') p
  first : code₁.Lists ls₁ p₁
  second : code₂.Lists ls₂ p₂
  begins : code₁.Begins code
  closed : Line.Closed ls₂'
  moved : List.Forall₂ (Line.Moved p₁.made) ls₂ ls₂'

namespace Tree

theorem draftEach_append (ts us : List Tree) :
    draftEach (ts ++ us) = draftEach ts ++ draftEach us := by
  induction ts with
  | nil => rfl
  | cons t ts ih => simp only [List.cons_append, draftEach, ih]

theorem concat_append (ds es : List (Draft (List Line))) :
    Draft.concat (ds ++ es) = Draft.concat ds ++ Draft.concat es := by
  induction ds with
  | nil => exact (Draft.nil_join _).symm
  | cons d ds ih => rw [List.cons_append, Draft.concat, Draft.concat, ih, Draft.join_assoc]

theorem draft_module_append (b₁ b₂ : List Tree) :
    (Tree.module (.list (b₁ ++ b₂))).draft =
      (Tree.module (.list b₁)).draft ++ (Tree.module (.list b₂)).draft := by
  simp only [draft, parts, draftEach_append, concat_append]

theorem constantsOf_append (ts us : List Tree) :
    constantsOf (ts ++ us) = constantsOf ts ++ constantsOf us := by
  induction ts with
  | nil => rfl
  | cons t ts ih => simp only [List.cons_append, constantsOf, ih, List.append_assoc]

theorem identifiersOf_append (ts us : List Tree) :
    identifiersOf (ts ++ us) = identifiersOf ts ++ identifiersOf us := by
  induction ts with
  | nil => rfl
  | cons t ts ih => simp only [List.cons_append, identifiersOf, ih, List.append_assoc]

/-- If statements compile together, both parts compile, and the program is made of theirs. -/
theorem compile_append {b₁ b₂ : List Tree} {code : Code}
    (h : (Tree.module (.list (b₁ ++ b₂))).compile = .ok code) :
    ∃ code₁ code₂ ls₁ ls₂ ls₂' p p₁ p₂, code.Joins code₁ code₂ ls₁ ls₂ ls₂' p p₁ p₂ ∧
      (Tree.module (.list (b₁ ++ b₂))).draft {} = some (ls₁ ++ ls₂', p) ∧
      (Tree.module (.list b₁)).draft {} = some (ls₁, p₁) ∧
      (Tree.module (.list b₂)).draft {} = some (ls₂, p₂) := by
  obtain ⟨ls, p, hd, hls⟩ := compile_eq_ok.1 h
  have hsplit := hd
  rw [draft_module_append, Draft.join_eq_some] at hsplit
  obtain ⟨ls₁, ls₂', p₁, hd₁, hd₂', rfl⟩ := hsplit
  have trivially : ∀ (t : Tree), (∀ v ∈ t.constants, True) ∧ (∀ n ∈ t.identifiers, True) :=
    fun t => ⟨fun _ _ => trivial, fun _ _ => trivial⟩
  have hclosed : ∀ {b p ls q}, (Tree.module (.list b)).draft p = some (ls, q) → Line.Closed ls :=
    fun hb => (draft_matched hb).closed
  have hkeeps : Pool.Grows (fun _ => True) p₁ ls₂' p :=
    draft_keeps _ (trivially _).1 _ _ _ hd₂'
  obtain ⟨ls₂, p₂, hd₂, -, hmoved⟩ :=
    (Draft.Relocates.stable p₁.made).draft _ (trivially _).1 (trivially _).2 {} p₁ _ _ rfl hd₂'
  obtain ⟨-, hearly⟩ :=
    Draft.UsesEarly.stable.draft _ (trivially _).1 (trivially _).2 _ _ _ hd₂
  obtain ⟨bs, cs, hbytes, hencodes⟩ := hls.encodes.left (hclosed hd₁)
  obtain ⟨bytes₂, hencodes₂⟩ := Line.Moved.exists_encodes hmoved (hclosed hd₂') hls.labels hearly
    ⟨_, hls.encodes⟩
  have hnodup := hls.labels
  rw [Line.labels_append, List.nodup_append] at hnodup
  refine ⟨⟨p₁.names, p₁.consts, bs.toArray⟩, ⟨p₂.names, p₂.consts, bytes₂.toArray⟩, ls₁, ls₂, ls₂',
    p, p₁, p₂, ?_, hd, hd₁, hd₂⟩
  refine ⟨hls, ⟨rfl, rfl, by simpa using hencodes, hnodup.1⟩,
    ⟨rfl, rfl, by simpa using hencodes₂, Line.Moved.nodup_labels hmoved hnodup.2.1⟩,
    ⟨?_, ?_, ?_⟩, hclosed hd₂', hmoved⟩
  · exact hls.names ▸ hkeeps.below.names
  · exact hls.consts ▸ hkeeps.below.consts
  · exact ⟨cs, by simp [hbytes]⟩

end Tree

/-! ### Running them -/

namespace Code.Joins

variable {code code₁ code₂ : Code} {ls₁ ls₂ ls₂' : List Line} {p p₁ p₂ : Pool}
  (h : code.Joins code₁ code₂ ls₁ ls₂ ls₂' p p₁ p₂)
  (grows : Pool.Grows Tree.IsLiteral {} (ls₁ ++ ls₂') p)
  (grows₁ : Pool.Grows Tree.IsLiteral {} ls₁ p₁)
include h grows grows₁

/-- If the first program fails, the joint program fails in the same way at the same place. -/
theorem halts_error {m m₁ : Machine} {f : Fault} (hf : f ≠ .leftOver)
    (hrun : m.Halts code₁ (.error f) m₁) : m.Halts code (.error f) m₁ := by
  obtain ⟨hend, fuel, hfuel⟩ := hrun
  rw [perform_runWithin fuel (Tree.load_program h.first grows₁ m)] at hfuel
  rcases hout : outcome (runFrom code₁ fuel 0) (m.at 0) with ⟨f' | u, m'⟩
  · rw [hout] at hfuel
    cases hfuel
    obtain ⟨fuel', hfuel'⟩ := h.begins.runFrom_error (h.first.wellFormed grows₁.known) hout
      (fun he => hend (congrArg _ he))
    refine ⟨hend, fuel', ?_⟩
    rw [perform_runWithin fuel' (Tree.load_program h.joint grows m), hfuel']
    rfl
  · rw [hout, chain_ok] at hfuel
    split at hfuel <;> cases hfuel
    exact absurd rfl hf

/-- If the first program returns, the joint program comes down to what is left of its listing. -/
theorem plays_ok {m m₁ : Machine} (hrun : m.Halts code₁ (.ok ()) m₁) :
    m.Plays code fun n => outcome (Line.run code (ls₁ ++ ls₂') n ls₂') m₁ := by
  obtain ⟨-, fuel, hfuel⟩ := hrun
  rw [perform_runWithin fuel (Tree.load_program h.first grows₁ m), chain_eq_ok] at hfuel
  obtain ⟨u, m', hout, hcheck⟩ := hfuel
  obtain rfl : m' = m₁ := congrArg (·.2) hcheck
  obtain ⟨hpc, k, hk⟩ := h.begins.runFrom_ok (h.first.wellFormed grows₁.known) hout
  refine ⟨k, fun n => ⟨(outcome (runFrom code n 0) m').2.pc, ?_⟩⟩
  have hat : m'.at (Line.totalWidth ls₁) = m' := by
    rw [← h.first.size_eq, ← hpc, Machine.at_self]
  have hline := h.joint.runFrom_eq_run n rfl m'
  rw [hat] at hline
  rw [perform_runWithin _ (Tree.load_program h.joint grows m), hk, ← eq_placed hline]

end Code.Joins

/-- A name that is a text. -/
def Name.IsText (n : Name) : Prop := ∃ s, n = .text s

instance : DecidablePred Name.IsText
  | .text s => isTrue ⟨s, rfl⟩
  | .value _ => isFalse nofun
  | .node _ => isFalse nofun

/-- Statements run in one program as in two, one after the other. If they compile together, both
parts do, and the program begins with that of the first part. If the first part returns, the joint
program ends exactly if the second part does from there, with the same result, stack, variables and
world; if it fails, the joint program fails in the same way, at the same place. -/
theorem Tree.runs_append {b₁ b₂ : List Tree} {code : Code}
    (hliteral : ∀ v ∈ (Tree.list (b₁ ++ b₂)).constants, IsLiteral v)
    (htext : ∀ n ∈ (Tree.list (b₁ ++ b₂)).identifiers, n.IsText)
    (h : (Tree.module (.list (b₁ ++ b₂))).compile = .ok code) :
    ∃ code₁ code₂, (Tree.module (.list b₁)).compile = .ok code₁ ∧
      (Tree.module (.list b₂)).compile = .ok code₂ ∧
      code₁.Begins code ∧ ∀ m : Machine,
        (∀ m₁, m.Halts code₁ (.ok ()) m₁ → ∀ r m₂,
          (m₁.Halts code₂ r m₂ → ∃ pc, m.Halts code r (m₂.at pc)) ∧
          (m.Halts code r m₂ → ∃ pc, m₁.Halts code₂ r (m₂.at pc))) ∧
        ∀ f m₁, f ≠ .leftOver → m.Halts code₁ (.error f) m₁ → m.Halts code (.error f) m₁ := by
  obtain ⟨code₁, code₂, ls₁, ls₂, ls₂', p, p₁, p₂, hjoin, hd, hd₁, hd₂⟩ := compile_append h
  obtain ⟨hliteral₁, hliteral₂⟩ : (∀ v ∈ constantsOf b₁, IsLiteral v) ∧
      ∀ v ∈ constantsOf b₂, IsLiteral v := by
    rwa [constants, constantsOf_append, List.forall_mem_append] at hliteral
  have htext₂ : ∀ n ∈ identifiersOf b₂, n.IsText := by
    rw [identifiers, identifiersOf_append, List.forall_mem_append] at htext
    exact htext.2
  have grows := draft_keeps (.module (.list (b₁ ++ b₂))) hliteral _ _ _ hd
  have grows₁ := draft_keeps (.module (.list b₁)) hliteral₁ _ _ _ hd₁
  have grows₂ := draft_keeps (.module (.list b₂)) hliteral₂ _ _ _ hd₂
  have hnames : ∀ use i n, Line.name use i n ∈ ls₂ → n.IsText :=
    (Draft.Names.stable Name.IsText).draft (.module (.list b₂)) (fun _ _ => trivial) htext₂ _ _ _
      hd₂
  have hexact := exact_of_known hjoin.joint grows
  have step := fun xs ys m (habreast : Abreast p₁.made ls₂ ls₂' xs ys) =>
    habreast.moves hjoin.moved hjoin.closed hjoin.joint.labels (exact_of_known hjoin.second grows₂)
      (fun l hl => hexact l (List.mem_append_right _ hl)) hnames m
  have start : Abreast p₁.made ls₂ ls₂' ls₂ ls₂' := ⟨hjoin.moved, List.suffix_rfl, List.suffix_rfl⟩
  refine ⟨code₁, code₂, compile_eq_ok.2 ⟨_, _, hd₁, hjoin.first⟩,
    compile_eq_ok.2 ⟨_, _, hd₂, hjoin.second⟩, hjoin.begins, fun m => ⟨?_, ?_⟩⟩
  · intro m₁ hfirst r m₂
    have hplays := hjoin.plays_ok grows grows₁ hfirst
    have hplays₂ := hjoin.second.plays (load_program hjoin.second grows₂ m₁)
    constructor
    · intro hsecond
      exact hsecond.of_plays hplays₂ hplays (Moves.exists_run step start)
    · intro hjoint
      exact hjoint.of_plays hplays hplays₂
        (Moves.exists_run (fun ys xs m habreast => (step xs ys m habreast).swap) start)
  · intro f m₁ hf hfirst
    exact hjoin.halts_error grows grows₁ hf hfirst

/-- A loop that counts down. -/
def countdownBlock : List Tree :=
  [.set "n" (.num 2), .repeatWhile (.var "n") [.update "n" .sub (.num 1)]]

/-- A condition, on a constant and a variable that have other places after the loop. -/
def choiceBlock : List Tree :=
  [.set "k" (.num 1), .branch (.var "k") [.expr (.var "k")] [.expr (.var "n")]]

theorem Tree.runs_append_countdown :
    ∃ code code₁ code₂ m₁ m₂ pc,
      (∀ v ∈ (Tree.list (countdownBlock ++ choiceBlock)).constants, IsLiteral v) ∧
      (∀ n ∈ (Tree.list (countdownBlock ++ choiceBlock)).identifiers, n.IsText) ∧
      (Tree.module (.list (countdownBlock ++ choiceBlock))).compile = .ok code ∧
      (Tree.module (.list countdownBlock)).compile = .ok code₁ ∧
      (Tree.module (.list choiceBlock)).compile = .ok code₂ ∧
      ({} : Machine).Halts code₁ (.ok ()) m₁ ∧ m₁.Halts code₂ (.ok ()) m₂ ∧
      ({} : Machine).Halts code (.ok ()) (m₂.at pc) := by
  have hliteral : ∀ v ∈ (Tree.list (countdownBlock ++ choiceBlock)).constants, IsLiteral v := by
    decide +kernel
  have htext : ∀ n ∈ (Tree.list (countdownBlock ++ choiceBlock)).identifiers, n.IsText := by
    decide +kernel
  obtain ⟨code, hcode, code₁, hcode₁, code₂, hcode₂, hrun₁, hrun₂⟩ :
      ∃ code, (Tree.module (.list (countdownBlock ++ choiceBlock))).compile = .ok code ∧
        ∃ code₁, (Tree.module (.list countdownBlock)).compile = .ok code₁ ∧
          ∃ code₂, (Tree.module (.list choiceBlock)).compile = .ok code₂ ∧
            ((({} : Machine).perform (runWithin 100 code₁)).1.toBool = true ∧
              ((({} : Machine).perform (runWithin 100 code₁)).2.perform
                (runWithin 100 code₂)).1.toBool = true) := by
    decide +kernel
  obtain ⟨code₁', code₂', hcode₁', hcode₂', -, hruns⟩ := Tree.runs_append hliteral htext hcode
  cases hcode₁.symm.trans hcode₁'
  cases hcode₂.symm.trans hcode₂'
  have halts₁ := Machine.halts_of_toBool hrun₁
  have halts₂ := Machine.halts_of_toBool hrun₂
  obtain ⟨pc, hjoint⟩ := ((hruns {}).1 _ halts₁ _ _).1 halts₂
  exact ⟨code, code₁, code₂, _, _, pc, hliteral, htext, hcode, hcode₁, hcode₂, halts₁, halts₂,
    hjoint⟩

end Stackwise
