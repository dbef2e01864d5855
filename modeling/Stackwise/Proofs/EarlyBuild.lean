import Mathlib.Data.List.Forall2
import Stackwise.Proofs.EmitInduction

/-!
# Building early

An assembler answers requests one after the other, and one that fails does not stop the next. To
build is one of them, and it replaces markers in place, from the left, as far as it gets. Still it
makes no difference when it is asked for too soon: `Assembler.answers_of_builds_late`.

The reason is that a label is given once and stays. `Assembler.Settles a b` says that `b` is `a`
with some markers replaced by the positions that their labels have already. Every action on an
assembler gives the same result from both and keeps them so, and building is what makes `b` from
`a`.
-/
namespace Stackwise

/-! ### Requests -/

/-- What an assembler can be asked for. -/
inductive Request where
  | addName (n : Name)
  | addConst (v : Value)
  | emit (opname : String) (arg : Value)
  | emitJump (opname marker : String)
  | label (marker : String)
  /-- The instructions of a tree. -/
  | visit (t : Tree)
  | build

/-- What a request gives. -/
inductive Answer where
  | done
  | index (i : Nat)
  | code (c : Code)

namespace Request

/-- The action that a request asks for. -/
def perform : Request → Emit Answer
  | .addName n => .index <$> Emit.addName n
  | .addConst v => .index <$> Emit.addConst v
  | .emit opname arg => do
    let arg ← Emit.ofExcept (Emit.operand arg)
    Emit.emitNamed opname arg
    return .done
  | .emitJump opname marker => (fun _ => .done) <$> Emit.emitJumpNamed opname (.named marker)
  | .label marker => (fun _ => .done) <$> Emit.label (.named marker)
  | .visit t => (fun _ => .done) <$> t.emit
  | .build => .code <$> Emit.build

/-- Whether something else than building is asked for. -/
def isOther : Request → Bool
  | .build => false
  | _ => true

end Request

namespace Assembler

/-- The assembler after a request, whether it failed or not. -/
def served (a : Assembler) (r : Request) : Assembler := (outcome r.perform a).2

/-- Several requests with their answers. -/
def answers : Assembler → List Request → List (Request × Except Fault Answer)
  | _, [] => []
  | a, r :: rs => (r, (outcome r.perform a).1) :: (a.served r).answers rs

end Assembler

/-! ### Settled markers -/

/-- The second slot is the first, or the position of its marker. -/
inductive Slot.Settles (labels : List (Marker × Nat)) : Slot → Slot → Prop
  | same (s : Slot) : Settles labels s s
  | mark {m : Marker} {p : Nat} (h : labels.lookup m = some p) : Settles labels (.mark m) (.byte p)

/-- The second assembler is the first with some markers replaced by the positions of their
labels. -/
def Assembler.Settles (a b : Assembler) : Prop :=
  ∃ slots : List Slot, b = { a with code := slots.toArray } ∧
    List.Forall₂ (Slot.Settles a.labels) a.code.toList slots

section
variable {labels : List (Marker × Nat)} {x y z : Slot} {xs ys zs : List Slot}

theorem Slot.Settles.trans (h : Slot.Settles labels x y) (h' : Slot.Settles labels y z) :
    Slot.Settles labels x z := by
  cases h with
  | same => exact h'
  | mark hm =>
    cases h' with
    | same => exact .mark hm

theorem Slot.Settles.trans_all (h : List.Forall₂ (Slot.Settles labels) xs ys)
    (h' : List.Forall₂ (Slot.Settles labels) ys zs) :
    List.Forall₂ (Slot.Settles labels) xs zs := by
  induction h generalizing zs with
  | nil => exact h'
  | cons hx _ ih =>
    cases h' with
    | cons hy hys => exact .cons (hx.trans hy) (ih hys)

/-- A label that is given stays. -/
theorem Slot.Settles.append (h : Slot.Settles labels x y) (more : List (Marker × Nat)) :
    Slot.Settles (labels ++ more) x y := by
  cases h with
  | same => exact .same _
  | mark hm => exact .mark (by rw [List.lookup_append, hm, Option.some_or])

theorem Slot.Settles.rfl_all (xs : List Slot) : List.Forall₂ (Slot.Settles labels) xs xs :=
  List.forall₂_same.2 fun x _ => .same x

/-- Replacing markers settles them. -/
theorem resolveSlots_settles (labels : List (Marker × Nat)) (xs : List Slot) :
    List.Forall₂ (Slot.Settles labels) xs (resolveSlots labels xs).1 := by
  induction xs with
  | nil => exact .nil
  | cons x xs ih =>
    cases x with
    | byte n => exact .cons (.same _) ih
    | mark m =>
      cases hm : labels.lookup m with
      | some p =>
        simp only [resolveSlots, hm]
        exact .cons (.mark hm) ih
      | none =>
        simp only [resolveSlots, hm]
        exact Slot.Settles.rfl_all _

/-- What is replaced already does not matter to replacing the rest. -/
theorem resolveSlots_of_settles (h : List.Forall₂ (Slot.Settles labels) xs ys) :
    (resolveSlots labels ys).2 = (resolveSlots labels xs).2 ∧
      List.Forall₂ (Slot.Settles labels) (resolveSlots labels xs).1 (resolveSlots labels ys).1 ∧
      ((resolveSlots labels xs).2 = none →
        (resolveSlots labels ys).1 = (resolveSlots labels xs).1) := by
  induction h with
  | nil => exact ⟨rfl, .nil, fun _ => rfl⟩
  | @cons x y xs ys hx hxs ih =>
    obtain ⟨hstuck, hdone, heq⟩ := ih
    cases x with
    | byte n =>
      cases hx
      exact ⟨hstuck, .cons (.same _) hdone, fun hnone => by simp only [resolveSlots, heq hnone]⟩
    | mark m =>
      cases hm : labels.lookup m with
      | some p =>
        -- The marker is replaced now, or it was before, and by the same position.
        have hy : resolveSlots labels (y :: ys) =
            (.byte p :: (resolveSlots labels ys).1, (resolveSlots labels ys).2) := by
          cases hx with
          | same => simp only [resolveSlots, hm]
          | mark hp =>
            obtain rfl : p = _ := Option.some.inj (hm.symm.trans hp)
            rfl
        simp only [hy, resolveSlots, hm]
        exact ⟨hstuck, .cons (.same _) hdone, fun hnone => by rw [heq hnone]⟩
      | none =>
        cases hx with
        | same =>
          simp only [resolveSlots, hm]
          exact ⟨trivial, .cons (.same _) hxs, fun hnone => by cases hnone⟩
        | mark hp =>
          rw [hm] at hp
          cases hp

end

/-! ### Actions on settled assemblers -/

/-- An action gives the same result whether markers are settled before it or not. -/
def Emit.Respects {α : Type} (e : Emit α) : Prop :=
  ∀ a b : Assembler, a.Settles b →
    (outcome e b).1 = (outcome e a).1 ∧ (outcome e a).2.Settles (outcome e b).2

namespace Assembler.Settles

variable {a b : Assembler}

theorem refl (a : Assembler) : a.Settles a := ⟨a.code.toList, rfl, Slot.Settles.rfl_all _⟩

/-- An assembler that builds is settled further, and no other field of it changes. -/
theorem build (h : a.Settles b) : a.Settles (outcome Emit.build b).2 := by
  obtain ⟨slots, rfl, hslots⟩ := h
  have hafter : (outcome Emit.build { a with code := slots.toArray }).2 =
      { a with code := (resolveSlots a.labels slots).1.toArray } := by
    simp only [Emit.build, outcome_bind, outcome_get, chain_ok, outcome_set]
    split
    · rfl
    · split <;> rfl
  exact ⟨_, hafter, Slot.Settles.trans_all hslots (resolveSlots_settles _ _)⟩

end Assembler.Settles

namespace Emit.Respects

theorem pure {α : Type} (x : α) : Respects (pure x : Emit α) := fun _ _ h => ⟨rfl, h⟩

theorem throw {α : Type} (f : Fault) : Respects (throw f : Emit α) := fun _ _ h => ⟨rfl, h⟩

theorem bind {α β : Type} {e : Emit α} {g : α → Emit β} (he : Respects e)
    (hg : ∀ x, Respects (g x)) : Respects (e >>= g) := by
  intro a b h
  obtain ⟨hresult, hafter⟩ := he a b h
  rw [outcome_bind, outcome_bind]
  rcases hea : outcome e a with ⟨f | x, a'⟩ <;> rcases heb : outcome e b with ⟨f' | x', b'⟩ <;>
    rw [hea, heb] at hresult hafter <;> cases hresult
  · exact ⟨rfl, hafter⟩
  · exact hg x a' b' hafter

theorem addName (n : Name) : Respects (Emit.addName n) := by
  refine bind ?_ fun _ => ?_
  · cases n.checkKey with
    | ok u => exact pure u
    | error f => exact throw f
  rintro a _ ⟨slots, rfl, hslots⟩
  simp only [outcome_bind, outcome_get, chain_ok]
  cases a.names.toList.findIdx? (· == n) with
  | some i => exact ⟨rfl, slots, rfl, hslots⟩
  | none => exact ⟨rfl, slots, rfl, hslots⟩

theorem addConst (v : Value) : Respects (Emit.addConst v) := by
  refine bind ?_ fun _ => ?_
  · cases v.checkKey with
    | ok u => exact pure u
    | error f => exact throw f
  rintro a _ ⟨slots, rfl, hslots⟩
  simp only [outcome_bind, outcome_get, chain_ok]
  cases a.consts.toList.findIdx? (fun w => Value.sameConstant w v) with
  | some i => exact ⟨rfl, slots, rfl, hslots⟩
  | none => exact ⟨rfl, slots, rfl, hslots⟩

theorem append (slots : List Slot) : Respects (Emit.append slots) := by
  rintro a _ ⟨settled, rfl, hsettled⟩
  refine ⟨rfl, settled ++ slots, by simp [Emit.append], ?_⟩
  simpa [Emit.append] using List.rel_append hsettled (Slot.Settles.rfl_all slots)

/-- Settling moves no label, for it keeps the length of the code. -/
theorem label (m : Marker) : Respects (Emit.label m) := by
  rintro a _ ⟨slots, rfl, hslots⟩
  have hsize : slots.toArray.size = a.code.size := by
    simpa using hslots.length_eq.symm
  simp only [Emit.label, outcome_bind, outcome_get, chain_ok, hsize]
  cases a.labels.lookup m with
  | some p => exact ⟨rfl, slots, rfl, hslots⟩
  | none => exact ⟨rfl, slots, rfl, hslots.imp fun _ _ h => h.append _⟩

theorem freshMarker : Respects Emit.freshMarker := by
  rintro a _ ⟨slots, rfl, hslots⟩
  exact ⟨rfl, slots, rfl, hslots⟩

/-- Building stops at the same marker, or comes to the same bytes. -/
theorem build : Respects Emit.build := by
  rintro a _ ⟨slots, rfl, hslots⟩
  obtain ⟨hstuck, hdone, heq⟩ := resolveSlots_of_settles hslots
  simp only [Emit.build, outcome_bind, outcome_get, chain_ok, outcome_set, hstuck]
  cases hm : (resolveSlots a.labels a.code.toList).2 with
  | some m => exact ⟨rfl, _, rfl, hdone⟩
  | none =>
    rw [heq hm]
    exact ⟨rfl, .refl _⟩

theorem stable : Emit.Stable fun _ => Respects :=
  { pure, throw, bind, addName, addConst, append, label, freshMarker }

theorem map {α β : Type} {e : Emit α} (f : α → β) (he : Respects e) : Respects (f <$> e) := by
  rw [← bind_pure_comp]
  exact he.bind fun x => pure (f x)

theorem perform (r : Request) : Respects r.perform := by
  cases r with
  | addName n => exact (addName n).map _
  | addConst v => exact (addConst v).map _
  | emit opname arg =>
    exact (stable.ofExcept _).bind fun n => (stable.emitNamed opname n).bind fun _ => pure _
  | emitJump opname marker => exact (stable.emitJumpNamed opname _).map _
  | label marker => exact (label _).map _
  | visit t => exact (Tree.emit_stable stable t).map _
  | build => exact build.map _

end Emit.Respects

/-! ### Requests to settled assemblers -/

namespace Assembler

theorem served_build (a : Assembler) : a.served .build = (outcome Emit.build a).2 := by
  simp only [served, Request.perform, outcome_map]
  rcases outcome Emit.build a with ⟨f | c, b⟩ <;> rfl

/-- Without the requests to build, an assembler gives the same answers to the others, and what it
comes to is only less settled. -/
theorem Settles.answers {a b : Assembler} (h : a.Settles b) (rs : List Request) :
    (b.answers rs).filter (·.1.isOther) = a.answers (rs.filter Request.isOther) ∧
      ((rs.filter Request.isOther).foldl served a).Settles (rs.foldl served b) := by
  induction rs generalizing a b with
  | nil => exact ⟨rfl, h⟩
  | cons r rs ih =>
    obtain ⟨hresult, hafter⟩ := Emit.Respects.perform r a b h
    cases r with
    | build =>
      have hsettled : a.Settles (b.served .build) := served_build b ▸ h.build
      exact ih hsettled
    | _ =>
      obtain ⟨hanswers, hlast⟩ := ih hafter
      exact ⟨congrArg₂ List.cons (congrArg _ hresult) hanswers, hlast⟩

/-- To build too soon is harmless. Of any requests, those to build can be left out: the others are
answered in the same way, and building in the end gives the same code or the same fault. -/
theorem answers_of_builds_late (a : Assembler) (rs : List Request) :
    (a.answers rs).filter (·.1.isOther) = a.answers (rs.filter Request.isOther) ∧
      (outcome Emit.build (rs.foldl served a)).1 =
        (outcome Emit.build ((rs.filter Request.isOther).foldl served a)).1 := by
  obtain ⟨hanswers, hlast⟩ := (Settles.refl a).answers rs
  exact ⟨hanswers, (Emit.Respects.build _ _ hlast).1⟩

-- A build that fails half way does leave something behind: the first marker is replaced.
example :
    let rs : List Request := [.label "a", .emitJump "JUMP" "a", .emitJump "JUMP" "b", .build]
    (rs.foldl served {}).code =
      #[.byte Opcode.jump.toNat, .byte 0, .byte Opcode.jump.toNat, .mark (.named "b")] := by
  decide

end Assembler
end Stackwise
