import Stackwise.Proofs.Composition
import Stackwise.Proofs.Visited

/-!
# Building the code of a tree

Building puts the place of a label into the one byte that a jump has for it. In the code of a tree
every marker has its label and every label its jump, since `Line.Matched` holds of its lines. So a
place beyond the last byte is all that can be in the way: `Tree.build_fails_iff_far`. Code without
branches has no labels (`Tree.labels_of_straight`) and is built whatever its length.
-/
namespace Stackwise

/-! ### Code whose markers have labels -/

theorem resolveSlots_of_lookup {labels : List (Marker × Nat)} {slots : List Slot}
    (h : ∀ m, .mark m ∈ slots → ∃ n, labels.lookup m = some n) :
    (resolveSlots labels slots).2 = none := by
  induction slots with
  | nil => rfl
  | cons slot slots ih =>
    have rest := ih fun m hm => h m (List.mem_cons_of_mem slot hm)
    cases slot with
    | byte n => exact rest
    | mark m =>
      obtain ⟨n, hn⟩ := h m List.mem_cons_self
      rw [resolveSlots, hn]
      exact rest

/-- If all markers have labels, only a number that is no byte is in the way of building. -/
theorem outcome_build_of_lookup {a : Assembler}
    (h : ∀ m, .mark m ∈ a.code.toList → ∃ n, a.labels.lookup m = some n) :
    (outcome Emit.build a).1 = .error .byteRange ∨ ∃ code, (outcome Emit.build a).1 = .ok code := by
  have hstuck := resolveSlots_of_lookup h
  simp only [Emit.build, outcome_bind, outcome_get, chain_ok, outcome_set]
  cases hs : resolveSlots a.labels a.code.toList with
  | mk slots stuck =>
    obtain rfl : stuck = none := by simpa [hs] using hstuck
    cases slotBytes slots with
    | none => exact .inl rfl
    | some bytes => exact .inr ⟨_, rfl⟩

/-! ### Lines and their labels -/

namespace Line

/-- A jump among lines is an instruction of its kind with the marker for its operand. -/
theorem exists_slots_of_jump {ls : List Line} {kind : JumpKind} {m : Marker}
    (h : .jump kind m ∈ ls) :
    ∃ i : Nat, (allSlots ls)[2 * i]? = some (Slot.byte kind.opcode.toNat) ∧
      (allSlots ls)[2 * i + 1]? = some (Slot.mark m) := by
  obtain ⟨pre, post, rfl⟩ := List.append_of_mem h
  refine ⟨totalWidth pre, ?_⟩
  have hslots : allSlots (pre ++ Line.jump kind m :: post) =
      allSlots pre ++ (Slot.byte kind.opcode.toNat :: Slot.mark m :: allSlots post) :=
    allSlots_append _ _
  rw [hslots, ← length_allSlots, List.getElem?_append_right (Nat.le_refl _),
    List.getElem?_append_right (Nat.le_add_right _ _)]
  simp

theorem mem_labelsFrom_iff_lookup {start n : Nat} {ls : List Line} {m : Marker}
    (h : (labels ls).Nodup) :
    (m, n) ∈ labelsFrom start ls ↔ (labelsFrom start ls).lookup m = some n := by
  rw [← map_fst_labelsFrom start] at h
  generalize labelsFrom start ls = xs at h ⊢
  induction xs with
  | nil => simp
  | cons x xs ih =>
    obtain ⟨k, i⟩ := x
    rw [List.map_cons, List.nodup_cons] at h
    by_cases hk : m = k
    · subst hk
      have hnot : (m, n) ∉ xs := fun hmem => h.1 (List.mem_map.2 ⟨_, hmem, rfl⟩)
      simp [hnot, eq_comm]
    · simp [List.lookup_cons, beq_false_of_ne hk, hk, ih h.2]

/-- Lines with a jump to every label have bytes exactly if all places of labels are bytes. -/
theorem Matched.exists_encodes {ls : List Line} (h : Matched ls) (hlabels : (labels ls).Nodup) :
    (∃ bytes, Encodes ls bytes) ↔ ∀ l ∈ labelsFrom 0 ls, l.2 ≤ 255 := by
  rw [Line.exists_encodes]
  constructor
  · rintro hplaces ⟨m, n⟩ hmem
    obtain ⟨kind, hjump⟩ : ∃ kind, .jump kind m ∈ ls := by
      rw [← h m, ← map_fst_labelsFrom 0]
      exact List.mem_map_of_mem hmem
    obtain ⟨n', hlt, hlookup⟩ := hplaces kind m hjump
    rw [mem_labelsFrom_iff_lookup hlabels, hlookup, Option.some.injEq] at hmem
    omega
  · intro hplaces kind m hjump
    obtain ⟨n, hlookup⟩ := exists_lookup 0 (h.closed kind m hjump)
    have hle := hplaces _ ((mem_labelsFrom_iff_lookup hlabels).2 hlookup)
    exact ⟨n, Nat.lt_succ_of_le hle, hlookup⟩

end Line

/-! ### Trees without branches -/

/-- A node whose code branches. -/
def Tree.isBranching : Tree → Bool
  | .ifStmt _ _ _ | .ifExp _ _ _ | .whileLoop _ _ _ | .forLoop _ _ _ _ => true
  | _ => false

/-- Whether a line is a label. -/
def Line.isLabel : Line → Bool
  | .label _ => true
  | _ => false

theorem Line.labels_eq_nil {ls : List Line} (h : ∀ l ∈ ls, l.isLabel = false) : labels ls = [] := by
  rw [labels, List.filterMap_eq_nil_iff]
  intro l hl
  cases l with
  | label m => cases h _ hl
  | _ => rfl

/-- Only branches have labels. -/
theorem Draft.unlabelled_stableOn :
    StableOn (fun t => t.isBranching = false) (All fun l => l.isLabel = false) where
  failure := nofun
  nil := .lines (by simp)
  plain _ _ _ := .lines (by simp [Line.isLabel])
  const _ := .bind fun _ => .lines (by simp [Line.isLabel])
  useName _ _ := .bind fun _ => .lines (by simp [Line.isLabel])
  join := .join
  update _ _ := .update (fun _ => rfl) fun _ => rfl
  conditional h := by rcases h with h | h <;> cases h
  whileLoop h := by cases h
  forLoop h := by cases h

/-- A tree without branches has no labels. -/
theorem Tree.labels_of_straight {t : Tree} (h : ∀ s ∈ t.visited, s.isBranching = false) {p q : Pool}
    {ls : List Line} (hd : t.draft p = some (ls, q)) : Line.labels ls = [] :=
  Line.labels_eq_nil (Draft.unlabelled_stableOn.draft t h p ls q hd)

/-! ### Building -/

namespace Tree

section
variable {t : Tree} {p : Pool} {ls : List Line} (h : t.draft {} = some (ls, p))
include h

/-- The markers in the code of a tree have labels. -/
theorem lookup_of_mark {m : Marker} (hm : .mark m ∈ Line.allSlots ls) :
    ∃ n, (Line.labelsFrom 0 ls).lookup m = some n := by
  obtain ⟨kind, hjump⟩ := Line.mem_of_mark hm
  exact Line.exists_lookup 0 (t.draft_matched h |>.closed kind m hjump)

/-- The labels of a tree have jumps to them. -/
theorem exists_slots_of_label {m : Marker} {n : Nat} (hm : (m, n) ∈ Line.labelsFrom 0 ls) :
    ∃ (kind : JumpKind) (i : Nat), (Line.allSlots ls)[2 * i]? = some (.byte kind.opcode.toNat) ∧
      (Line.allSlots ls)[2 * i + 1]? = some (.mark m) := by
  have hlabel : m ∈ Line.labels ls := Line.map_fst_labelsFrom 0 ls ▸ List.mem_map_of_mem hm
  obtain ⟨kind, hjump⟩ := (t.draft_matched h m).1 hlabel
  exact ⟨kind, Line.exists_slots_of_jump hjump⟩

/-- The code of a tree is built exactly if all places of labels are bytes. -/
theorem outcome_build_draft (hlabels : (Line.labels ls).Nodup) :
    (∃ code, (outcome Emit.build (Assembler.extend {} ls p)).1 = .ok code) ↔
      ∀ l ∈ Line.labelsFrom 0 ls, l.2 ≤ 255 := by
  rw [← (t.draft_matched h).exists_encodes hlabels]
  simp [outcome_build, Line.Encodes, Assembler.extend]

/-- A tree whose labels all have places that are bytes compiles. -/
theorem exists_lists (hlabels : (Line.labels ls).Nodup)
    (hplaces : ∀ l ∈ Line.labelsFrom 0 ls, l.2 ≤ 255) :
    ∃ code, t.compile = .ok code ∧ code.Lists ls p := by
  obtain ⟨bytes, hbytes⟩ := ((t.draft_matched h).exists_encodes hlabels).2 hplaces
  have hlists : Code.Lists ⟨p.names, p.consts, bytes.toArray⟩ ls p :=
    ⟨rfl, rfl, by simpa using hbytes, hlabels⟩
  exact ⟨_, compile_eq_ok.2 ⟨ls, p, h, hlists⟩, hlists⟩

end

/-- Building the code of a tree: markers and labels belong together, so that it either returns or
finds a label that is too far for a byte. Without branches it returns. -/
theorem build_fails_iff_far {t : Tree} {a : Assembler} (h : outcome t.emit {} = (.ok (), a)) :
    (a.labels.map (·.1)).Nodup ∧
    (∀ m, .mark m ∈ a.code → ∃ n, a.labels.lookup m = some n) ∧
    (∀ m n, (m, n) ∈ a.labels → ∃ (kind : JumpKind) (i : Nat),
      a.code[2 * i]? = some (.byte kind.opcode.toNat) ∧ a.code[2 * i + 1]? = some (.mark m)) ∧
    (∀ f, (outcome Emit.build a).1 = .error f ↔ f = .byteRange ∧ ∃ l ∈ a.labels, 255 < l.2) ∧
    ((∃ code, (outcome Emit.build a).1 = .ok code) ↔ ∀ l ∈ a.labels, l.2 ≤ 255) ∧
    ((∀ s ∈ t.visited, s.isBranching = false) →
      ∃ code, (outcome Emit.build a).1 = .ok code) := by
  obtain ⟨ls, p, hd, ⟨hlabels, -⟩, rfl⟩ := (t.emit_follows _ _).1 h
  have hcode : (Assembler.extend {} ls p).code = (Line.allSlots ls).toArray := by
    simp [Assembler.extend]
  have hplaces : (Assembler.extend {} ls p).labels = Line.labelsFrom 0 ls := rfl
  have hmark : ∀ m, .mark m ∈ Line.allSlots ls → ∃ n, (Line.labelsFrom 0 ls).lookup m = some n :=
    fun m => t.lookup_of_mark hd
  have hbuilt := t.outcome_build_draft hd hlabels
  have hresult := outcome_build_of_lookup (a := .extend {} ls p) (by simpa [hcode, hplaces])
  rw [hplaces, hcode, hbuilt]
  refine ⟨by rwa [Line.map_fst_labelsFrom], by simpa, ?_, fun f => ?_, Iff.rfl, fun hs => ?_⟩
  · intro m n hm
    simpa using t.exists_slots_of_label hd hm
  · have hfar : (∃ l ∈ Line.labelsFrom 0 ls, 255 < l.2) ↔
        ¬ ∃ code, (outcome Emit.build (.extend {} ls p)).1 = .ok code := by
      rw [hbuilt]
      push Not
      rfl
    rw [hfar]
    rcases hresult with hr | ⟨code, hr⟩ <;> simp [hr, eq_comm]
  · simp [Line.labelsFrom_eq_nil (t.labels_of_straight hs hd)]

/-- A jump does not reach over 128 statements. -/
theorem build_fails_iff_far_skip :
    ∃ a, outcome (program [branch (num 0) (.replicate 128 (.expr (num 1))) []]).emit {} =
        (.ok (), a) ∧ (outcome Emit.build a).1 = .error .byteRange := by
  obtain ⟨_, hemit, hfar⟩ : ∃ u,
      (outcome (program [branch (num 0) (.replicate 128 (.expr (num 1))) []]).emit {}).1 = .ok u ∧
        ∃ l ∈ (outcome (program [branch (num 0) (.replicate 128 (.expr (num 1))) []]).emit
          {}).2.labels, 255 < l.2 := by
    decide +kernel
  refine ⟨_, Prod.ext hemit rfl, ?_⟩
  exact ((build_fails_iff_far (Prod.ext hemit rfl)).2.2.2.1 .byteRange).2 ⟨rfl, hfar⟩

end Tree
end Stackwise
