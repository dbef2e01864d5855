import Stackwise.Proofs.Keys
import Stackwise.Proofs.Outcome

/-!
# Operators give their results

A run is cut off by its bound, and some operations on iterators are. Operators on values are not:
their results say more than that a bound was too small (`BinaryOp.settled_apply`,
`Value.settled_index`). The rules for `Settled` are in the simplifier, so that most functions are
dealt with by unfolding them.
-/
namespace Stackwise

section
variable {α β : Type}

/-- A result that says more than that a bound was too small. -/
def Settled (r : Except Fault α) : Prop := r ≠ .error .endless

@[simp] theorem settled_ok (a : α) : Settled (.ok a) := nofun

@[simp] theorem settled_pure (a : α) : Settled (pure a) := nofun

@[simp] theorem settled_error {f : Fault} : Settled (.error f : Except Fault α) ↔ f ≠ .endless := by
  simp [Settled]

@[simp] theorem settled_throw {f : Fault} : Settled (throw f : Except Fault α) ↔ f ≠ .endless :=
  settled_error

@[simp] theorem settled_bind {x : Except Fault α} {g : α → Except Fault β} :
    Settled (x >>= g) ↔ Settled x ∧ ∀ a, x = .ok a → Settled (g a) := by
  cases x <;> simp [bind, Except.bind]

@[simp] theorem settled_map {x : Except Fault α} {g : α → β} : Settled (x.map g) ↔ Settled x := by
  cases x <;> simp [Except.map]

@[simp] theorem settled_fmap {x : Except Fault α} {g : α → β} : Settled (g <$> x) ↔ Settled x :=
  settled_map

@[simp] theorem settled_ite {c : Prop} [Decidable c] {x y : Except Fault α} :
    Settled (if c then x else y) ↔ (c → Settled x) ∧ (¬c → Settled y) := by
  split <;> simp [*]

end

/-! ### Numbers -/

@[simp] theorem settled_intToFloat (n : Int) : Settled (intToFloat n) := by simp [intToFloat]

@[simp] theorem settled_intText (n : Int) : Settled (intText n) := by simp [intText]

@[simp] theorem settled_floatToInt (x : Binary64) : Settled (floatToInt x) := by
  cases x <;> simp [floatToInt]

theorem Pair.settled_pow (a b : Pair) : Settled (pow a b) := by
  unfold pow
  dsimp only
  split <;> simp

theorem settled_floatPow (x y : Binary64) : Settled (floatPow x y) := by
  simp only [floatPow, settled_ite]
  refine ⟨by simp, fun _ => ⟨by simp, fun _ => ⟨by simp, fun _ => ⟨fun _ => ?_, ?_⟩⟩⟩⟩
  · split <;> simp
  · simp [Pair.settled_pow]

namespace Number

theorem settled_toFloat (n : Number) : Settled n.toFloat := by
  cases n <;> simp [toFloat]

theorem settled_toPair (n : Number) : Settled n.toPair := by
  cases n <;> simp [toPair, settled_toFloat]

theorem settled_complexArith {op : BinaryOp} {a b : Number} {r : Except Fault Number}
    (h : arith.complexArith op a b = some r) : Settled r := by
  cases op with
  | div =>
    cases h
    simp only [settled_bind, settled_pure, implies_true, and_true]
    refine ⟨settled_toPair a, fun p _ => ⟨settled_toPair b, fun q _ => ?_⟩⟩
    split <;> simp
  | _ => cases h <;> simp [settled_toPair, Pair.settled_pow]

theorem settled_arith {op : BinaryOp} {a b : Number} {r : Except Fault Number}
    (h : arith op a b = some r) : Settled r := by
  cases a with
  | int m =>
    cases b with
    | int n =>
      cases op <;> cases h <;> simp [intQuotient, shiftLeft, shiftRight, settled_floatPow]
    | float y => cases op <;> cases h <;> simp [settled_toFloat, settled_floatPow]
    | complex re im => exact settled_complexArith h
  | float x =>
    cases b with
    | int n | float y => cases op <;> cases h <;> simp [settled_toFloat, settled_floatPow]
    | complex re im => exact settled_complexArith h
  | complex re im => cases b <;> exact settled_complexArith h

end Number

/-! ### Texts -/

namespace Value

theorem settled_repr_alias {t : Ty} {xs : List Value} (h : Settled (reprParameters xs)) :
    Settled (repr (.alias t xs)) := by
  rw [repr, settled_bind]
  refine ⟨h, fun parts _ => ?_⟩
  split <;> simp

mutual
theorem settled_repr (v : Value) : Settled v.repr := by
  cases v with
  | list xs => simp [repr, settled_reprAll xs]
  | tuple xs | set xs | frozenset xs =>
    rw [repr, settled_bind]
    refine ⟨settled_reprAll xs, fun parts _ => ?_⟩
    split <;> simp
  | dict es => simp [repr, settled_reprEntries es]
  | slice a b c => simp [repr, settled_repr a, settled_repr b, settled_repr c]
  | error k c xs => simp [repr, settled_reprAll xs]
  | _ =>
    first
    | simp [repr]; done
    | exact settled_repr_alias (settled_reprParameters _)
theorem settled_reprAll (xs : List Value) : Settled (reprAll xs) := by
  cases xs with
  | nil => simp [reprAll]
  | cons x xs => simp [reprAll, settled_repr x, settled_reprAll xs]
theorem settled_reprParameters (xs : List Value) : Settled (reprParameters xs) := by
  cases xs with
  | nil => simp [reprParameters]
  | cons x xs =>
    have head := settled_repr x
    have tail := settled_reprParameters xs
    simp only [reprParameters]
    split <;> simp [head, tail]
theorem settled_reprEntries (es : List (Value × Value)) : Settled (reprEntries es) := by
  cases es with
  | nil => simp [reprEntries]
  | cons e es => simp [reprEntries, settled_repr e.1, settled_repr e.2, settled_reprEntries es]
end

theorem settled_filesText (files : Option (Value × Option Value)) : Settled (filesText files) := by
  unfold filesText
  split <;> simp [settled_repr]

theorem settled_text (v : Value) : Settled v.text := by
  fun_induction text v <;> simp [*, settled_repr, settled_filesText]

/-! ### Keys and places -/

theorem settled_checkKey (v : Value) : Settled v.checkKey := by
  unfold checkKey
  split <;> simp

theorem settled_sliceBound (v : Value) : Settled (sliceBound v) := by
  unfold sliceBound
  split
  · simp
  · split <;> simp

theorem settled_sliceBounds (size : Nat) (a b c : Value) : Settled (sliceBounds size a b c) := by
  simp [sliceBounds, settled_sliceBound]

theorem settled_indexItems {α : Type} (what : Indexed) (xs : List α) (one : α → Value)
    (many : List α → Value) (key : Value) : Settled (indexItems what xs one many key) := by
  unfold indexItems
  split
  · simp [sliceItems, settled_sliceBounds]
  · split
    · simp
    · simp only [settled_ite, settled_error]
      refine ⟨by simp, fun _ => ?_⟩
      split <;> simp

theorem settled_indexRange (a b c : Int) (key : Value) : Settled (indexRange a b c key) := by
  unfold indexRange
  dsimp only
  split
  · simp [settled_sliceBounds]
  · split
    · simp
    · split <;> simp

/-- What a place or a key stands for is found, or it is not. -/
theorem settled_index (container key : Value) : Settled (container.index key) := by
  cases container with
  | dict es =>
    simp only [index, settled_bind]
    refine ⟨settled_checkKey key, fun _ _ => ?_⟩
    split <;> simp
  | type t =>
    simp only [index]
    split <;> simp
  | _ => simp [index, settled_indexItems, settled_indexRange, settled_repr]

end Value

namespace Name

theorem settled_checkKey (n : Name) : Settled n.checkKey := by
  cases n <;> simp [checkKey, Value.settled_checkKey]

theorem settled_repr (n : Name) : Settled n.repr := by
  cases n <;> simp [repr, Value.settled_repr]

end Name

/-! ### Templates -/

namespace Format

theorem settled_integerText (c : Conversion) (letter : Char) (n : Int) :
    Settled (integerText c letter n) := by
  unfold integerText
  dsimp only
  split <;> simp

theorem settled_integerOf (letter : Char) (v : Value) : Settled (integerOf letter v) := by
  unfold integerOf
  split <;> simp

theorem settled_realOf (v : Value) : Settled (realOf v) := by
  unfold realOf
  split <;> simp

theorem settled_characterText (v : Value) : Settled (characterText v) := by
  unfold characterText
  split
  · simp
  · split <;> simp

theorem settled_convert (c : Conversion) (letter : Char) (index : Nat) (v : Value) :
    Settled (convert c letter index v) := by
  unfold convert
  split <;> simp [Value.settled_text, Value.settled_repr, settled_integerText, settled_integerOf,
    settled_realOf, settled_characterText]

theorem settled_convertBytes (c : Conversion) (letter : Char) (index : Nat) (v : Value) :
    Settled (convertBytes c letter index v) := by
  unfold convertBytes
  dsimp only
  split <;> first | exact settled_convert _ _ _ _ | (split <;> simp [settled_convert])
  split <;> simp

theorem settled_next (args : Arguments) : Settled args.next := by
  unfold Arguments.next
  split <;> simp

theorem settled_starArgument (args : Arguments) (bound : Nat) (o : Overflow) :
    Settled (starArgument args bound o) := by
  simp only [starArgument, settled_bind]
  refine ⟨settled_next args, fun p _ => ?_⟩
  split <;> simp

theorem settled_readWidth (c : Conversion) (args : Arguments) (r : List Char) :
    Settled (readWidth c args r) := by
  unfold readWidth
  split <;> simp [settled_starArgument]

theorem settled_readPrecision (c : Conversion) (args : Arguments) (r : List Char) :
    Settled (readPrecision c args r) := by
  unfold readPrecision
  split <;> simp [settled_starArgument]

theorem settled_writeTemplate (bytes : Bool) (source : Option Value) (size fuel : Nat)
    (args : Arguments) (out : String) (r : List Char) :
    Settled (writeTemplate bytes source size fuel args out r) := by
  induction fuel generalizing args out r with
  | zero => simp [writeTemplate]
  | succ fuel ih =>
    unfold writeTemplate
    split
    · simp
    · simp
    · next h =>
      cases h
      exact ih _ _ _
    · next h =>
      cases h
      -- What comes after a key does not depend on whether there is one.
      extract_lets rest
      have hrest : ∀ p, Settled (rest p) := by
        intro p
        simp only [rest, settled_bind]
        refine ⟨settled_readWidth _ _ _, fun p _ => ⟨settled_readPrecision _ _ _, fun q _ => ?_⟩⟩
        split
        · simp
        · simp [settled_next, settled_convert, settled_convertBytes, ih]
      split
      · split
        · simp
        · split
          · simp
          · simp [hrest, Value.settled_index]
      · simp [hrest]
    · next h =>
      cases h
      exact ih _ _ _

theorem settled_fill (bytes : Bool) (template : List Char) (v : Value) :
    Settled (fill bytes template v) := by
  simp [fill, settled_writeTemplate]

end Format

/-! ### Operators -/

namespace Value

variable {v w : Value} {r : Except Fault Value}

theorem settled_concat? (h : v.concat? w = some r) : Settled r := by
  unfold concat? at h
  split at h <;> cases h <;> simp

theorem settled_repeat? {n : Int} (h : v.repeat? n = some r) : Settled r := by
  have count : Settled (repeatCount n) := by simp [repeatCount]
  unfold repeat? at h
  split at h <;> cases h <;> simp [count]

theorem settled_times? (h : times? v w = some r) : Settled r := by
  unfold times? at h
  split at h
  all_goals first
    | cases h
    | split at h
      · exact settled_repeat? h
      · cases h
        simp

end Value

theorem settled_numberOp? {op : BinaryOp} {x y : Value} {r : Except Fault Value}
    (h : numberOp? op x y = some r) : Settled r := by
  unfold numberOp? at h
  split at h
  · split at h
    · cases h
      simp
    · obtain ⟨r, hr, rfl⟩ := Option.map_eq_some_iff.1 h
      simpa using Number.settled_arith hr
  · obtain ⟨a, -, h⟩ := Option.bind_eq_some_iff.1 h
    obtain ⟨b, -, h⟩ := Option.bind_eq_some_iff.1 h
    obtain ⟨r, hr, h⟩ := Option.bind_eq_some_iff.1 h
    cases h
    simpa using Number.settled_arith hr

theorem settled_containerOp? {op : BinaryOp} {x y : Value} {r : Except Fault Value}
    (h : containerOp? op x y = some r) : Settled r := by
  have okay : ∀ {o : Option Value}, o.map Except.ok = some r → Settled r := by
    intro o ho
    obtain ⟨v, -, rfl⟩ := Option.map_eq_some_iff.1 ho
    simp
  unfold containerOp? at h
  split at h
  · exact Value.settled_concat? h
  · unfold repetition? at h
    split at h
    · next hr =>
      cases h
      exact Value.settled_times? hr
    · exact Value.settled_times? h
  · split at h
    · cases h
      simp [Format.percent, Format.settled_fill]
    · cases h
      simp [Format.percentBytes, Format.settled_fill]
    · cases h
  · split at h
    · cases h
      simp
    · split at h
      · cases h
        simp
      · exact okay h
  · exact okay h

/-- An operator never runs out of time. -/
theorem BinaryOp.settled_apply (op : BinaryOp) (x y : Value) : Settled (op.apply x y) := by
  unfold BinaryOp.apply
  split
  · next hr => exact settled_numberOp? hr
  · split
    · next hr => exact settled_containerOp? hr
    · split <;> simp

theorem UnaryOp.settled_apply (op : UnaryOp) (x : Value) : Settled (op.apply x) := by
  unfold UnaryOp.apply
  split
  · simp
  · split <;> simp

end Stackwise
