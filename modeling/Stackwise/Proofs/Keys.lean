import Stackwise.Arith.Apply

/-!
# Keys

Constants have to be keys, since the table of constants is kept by key. Operators on keys give keys,
so that folding never makes a constant that has no place in the table: `BinaryOp.apply_isKey`.
-/
namespace Stackwise

namespace Value

/-- A value that can be a key. -/
def IsKey (v : Value) : Prop := v.unhashable? = Option.none

theorem checkKey_eq_ok {v : Value} : v.checkKey = .ok () ↔ v.IsKey := by
  unfold checkKey IsKey
  cases v.unhashable? <;> simp

theorem unhashableAny?_eq_none {xs : List Value} :
    unhashableAny? xs = Option.none ↔ ∀ x ∈ xs, x.IsKey := by
  induction xs with
  | nil => simp [unhashableAny?]
  | cons x xs ih =>
    rw [unhashableAny?, List.forall_mem_cons, ← ih, IsKey]
    cases x.unhashable? <;> simp

@[simp] theorem isKey_tuple {xs : List Value} : (tuple xs).IsKey ↔ ∀ x ∈ xs, x.IsKey :=
  unhashableAny?_eq_none

@[simp] theorem isKey_toValue (n : Number) : n.toValue.IsKey := by
  cases n <;> exact rfl

@[simp] theorem isKey_none : Value.none.IsKey := rfl

@[simp] theorem isKey_ellipsis : Value.ellipsis.IsKey := rfl

@[simp] theorem isKey_bool (b : Bool) : (bool b).IsKey := rfl

@[simp] theorem isKey_str (s : String) : (str s).IsKey := rfl

@[simp] theorem isKey_bytes (b : List UInt8) : (bytes b).IsKey := rfl

/-! ### Sequences -/

theorem concat?_isKey {x y v : Value} (hx : x.IsKey) (hy : y.IsKey)
    (h : x.concat? y = some (.ok v)) : v.IsKey := by
  unfold concat? at h
  split at h <;> cases h
  · exact rfl
  · exact rfl
  · cases hx
  · rw [isKey_tuple] at hx hy ⊢
    exact List.forall_mem_append.2 ⟨hx, hy⟩

theorem mem_repeatItems {α : Type} {xs : List α} {n : Nat} {x : α} (h : x ∈ repeatItems xs n) :
    x ∈ xs := by
  obtain ⟨ys, hys, hx⟩ := List.mem_flatten.1 h
  rwa [List.eq_of_mem_replicate hys] at hx

theorem repeat?_isKey {x v : Value} {n : Int} (hx : x.IsKey) (h : x.repeat? n = some (.ok v)) :
    v.IsKey := by
  have size : ∀ (k : Nat) (o : Fault) (r : Nat → Value), (∀ m, (r m).IsKey) →
      (do
        let m ← repeatCount n
        if maxIndex.toNat < k * m then .error o
        else if maxItems < k * m then .error .outOfMemory
        else .ok (r m) : Except Fault Value) = .ok v → v.IsKey := by
    intro k o r hr hv
    cases hcount : repeatCount n with
    | error f => simp [hcount, bind, Except.bind] at hv
    | ok m =>
      simp only [hcount, bind, Except.bind] at hv
      split at hv
      · cases hv
      · split at hv <;> cases hv
        exact hr m
  unfold repeat? at h
  split at h
  · refine size _ _ _ (fun m => ?_) (Option.some.inj h)
    exact rfl
  · refine size _ _ _ (fun m => ?_) (Option.some.inj h)
    exact rfl
  · cases hx
  · refine size _ _ _ (fun m => ?_) (Option.some.inj h)
    rw [isKey_tuple] at hx ⊢
    exact fun y hy => hx y (mem_repeatItems hy)
  · cases h

end Value

theorem times?_isKey {s n v : Value} (hs : s.IsKey) (h : times? s n = some (.ok v)) :
    v.IsKey := by
  unfold times? at h
  split at h
  all_goals first
    | cases h
    | split at h
      · exact Value.repeat?_isKey hs h
      · cases h

theorem repetition?_isKey {x y v : Value} (hx : x.IsKey) (hy : y.IsKey)
    (h : repetition? x y = some (.ok v)) : v.IsKey := by
  unfold repetition? at h
  split at h
  · next r hr =>
    cases h
    exact times?_isKey hx hr
  · exact times?_isKey hy h

/-! ### Sets and classes -/

namespace Value

theorem setOp?_isKey {op : BinaryOp} {x y v : Value} (hx : x.IsKey)
    (h : x.setOp? op y = some v) : v.IsKey := by
  have members : ∀ {xs ys : List Value}, x.members? = some xs → (ofMembers x ys).IsKey := by
    intro xs ys hxs
    cases x <;> cases hxs
    · cases hx
    · exact rfl
  unfold setOp? at h
  obtain ⟨xs, hxs, h⟩ := Option.bind_eq_some_iff.1 h
  obtain ⟨ys, -, h⟩ := Option.bind_eq_some_iff.1 h
  split at h <;> cases h <;> exact members hxs

theorem union?_isKey {x y v : Value} (h : x.union? y = some v) : v.IsKey := by
  unfold union? at h
  split at h
  · cases h
  · obtain ⟨ts, -, h⟩ := Option.bind_eq_some_iff.1 h
    obtain ⟨us, -, h⟩ := Option.bind_eq_some_iff.1 h
    split at h <;> cases h <;> exact rfl

end Value

/-! ### Operators -/

theorem map_toValue_isKey {r : Except Fault Number} {v : Value} (h : r.map Number.toValue = .ok v) :
    v.IsKey := by
  cases r with
  | error f => cases h
  | ok n =>
    cases h
    exact Value.isKey_toValue n

theorem numberOp?_isKey {op : BinaryOp} {x y v : Value} (h : numberOp? op x y = some (.ok v)) :
    v.IsKey := by
  unfold numberOp? at h
  split at h
  · split at h
    · cases h
      exact rfl
    · obtain ⟨r, -, hr⟩ := Option.map_eq_some_iff.1 h
      exact map_toValue_isKey hr
  · obtain ⟨a, -, h⟩ := Option.bind_eq_some_iff.1 h
    obtain ⟨b, -, h⟩ := Option.bind_eq_some_iff.1 h
    obtain ⟨r, -, h⟩ := Option.bind_eq_some_iff.1 h
    exact map_toValue_isKey (Option.some.inj h)

theorem percent_isKey {s : String} {y v : Value} (h : Format.percent s y = .ok v) : v.IsKey := by
  unfold Format.percent at h
  cases hfill : Format.fill false s.toList y with
  | error f => simp [hfill, bind, Except.bind] at h
  | ok text =>
    rw [hfill] at h
    cases h
    exact rfl

theorem percentBytes_isKey {b : List UInt8} {y v : Value} (h : Format.percentBytes b y = .ok v) :
    v.IsKey := by
  unfold Format.percentBytes at h
  cases hfill : Format.fill true (b.map fun b => Char.ofNat b.toNat) y with
  | error f => simp [hfill, bind, Except.bind] at h
  | ok text =>
    rw [hfill] at h
    cases h
    exact rfl

theorem containerOp?_isKey {op : BinaryOp} {x y v : Value} (hx : x.IsKey) (hy : y.IsKey)
    (h : containerOp? op x y = some (.ok v)) : v.IsKey := by
  unfold containerOp? at h
  split at h
  · exact Value.concat?_isKey hx hy h
  · exact repetition?_isKey hx hy h
  · split at h
    · exact percent_isKey (Option.some.inj h)
    · exact percentBytes_isKey (Option.some.inj h)
    · cases h
  · split at h
    · cases hx
    · split at h
      · next hr =>
        cases h
        exact Value.setOp?_isKey hx hr
      · obtain ⟨w, hw, hv⟩ := Option.map_eq_some_iff.1 h
        cases hv
        exact Value.union?_isKey hw
  · obtain ⟨w, hw, hv⟩ := Option.map_eq_some_iff.1 h
    cases hv
    exact Value.setOp?_isKey hx hw

/-- An operator on keys gives a key. -/
theorem BinaryOp.apply_isKey {op : BinaryOp} {x y v : Value} (hx : x.IsKey) (hy : y.IsKey)
    (h : op.apply x y = .ok v) : v.IsKey := by
  unfold BinaryOp.apply at h
  split at h
  · next r hr => exact numberOp?_isKey (h ▸ hr)
  · split at h
    · next r hr => exact containerOp?_isKey hx hy (h ▸ hr)
    · split at h <;> cases h

end Stackwise
