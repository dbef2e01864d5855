import Stackwise.Proofs.Settled

/-!
# Operators see no marks

Marks tell NaNs and error objects apart, and nothing else in a program depends on them: they are not
written, and arithmetic forgets them. So values that differ in marks only, `Value.Alike`, have
results that do, whatever the operator: `BinaryOp.apply_alike`. A new object that gets its mark is
as before up to it: `Act.markObject_alike`.
-/
namespace Stackwise

/-! ### Numbers -/

namespace Binary64

/-- A number without its mark. -/
def unmarked : Binary64 → Binary64
  | .nan _ => .nan 0
  | x => x

section
variable (x y : Binary64)

@[simp] theorem unmarked_unmarked : x.unmarked.unmarked = x.unmarked := by cases x <;> rfl

@[simp] theorem isZero_unmarked : x.unmarked.isZero = x.isZero := by cases x <;> rfl

@[simp] theorem isNeg_unmarked : x.unmarked.isNeg = x.isNeg := by cases x <;> rfl

@[simp] theorem isNaN_unmarked : x.unmarked.isNaN = x.isNaN := by cases x <;> rfl

theorem unmarked_of_isNaN {x : Binary64} (h : x.isNaN = false) : x.unmarked = x := by
  cases x with
  | nan mark => cases h
  | _ => rfl

@[simp] theorem isInf_unmarked : x.unmarked.isInf = x.isInf := by cases x <;> rfl

@[simp] theorem isInteger_unmarked : x.unmarked.isInteger = x.isInteger := by cases x <;> rfl

@[simp] theorem toDyadic_unmarked : x.unmarked.toDyadic = x.toDyadic := by cases x <;> rfl

@[simp] theorem truncate_unmarked : x.unmarked.truncate = x.truncate := by simp [truncate, toRatio]

@[simp] theorem toMachine_unmarked : x.unmarked.toMachine = x.toMachine := by cases x <;> rfl

@[simp] theorem negate_unmarked : x.unmarked.negate = x.negate := by cases x <;> rfl

@[simp] theorem abs_unmarked : x.unmarked.abs = x.abs := by cases x <;> rfl

@[simp] theorem add_unmarked_left : add x.unmarked y = add x y := by cases x <;> cases y <;> rfl

@[simp] theorem add_unmarked_right : add x y.unmarked = add x y := by cases x <;> cases y <;> rfl

@[simp] theorem mul_unmarked_left : mul x.unmarked y = mul x y := by cases x <;> cases y <;> rfl

@[simp] theorem mul_unmarked_right : mul x y.unmarked = mul x y := by cases x <;> cases y <;> rfl

@[simp] theorem div_unmarked_left : div x.unmarked y = div x y := by cases x <;> cases y <;> rfl

@[simp] theorem div_unmarked_right : div x y.unmarked = div x y := by cases x <;> cases y <;> rfl

@[simp] theorem truncMod_unmarked_left : truncMod x.unmarked y = truncMod x y := by
  cases x <;> cases y <;> rfl

@[simp] theorem truncMod_unmarked_right : truncMod x y.unmarked = truncMod x y := by
  cases x <;> cases y <;> rfl

end

end Binary64

/-- A number without its marks. -/
def Number.unmarked : Number → Number
  | .int n => .int n
  | .float x => .float x.unmarked
  | .complex re im => .complex re.unmarked im.unmarked

theorem floatPow_unmarked_left (x y : Binary64) : floatPow x.unmarked y = floatPow x y := by
  cases x <;> rfl

theorem floatPow_unmarked_right (x y : Binary64) : floatPow x y.unmarked = floatPow x y := by
  cases y <;> rfl

namespace Pair

/-- A pair without its marks. -/
def unmarked (p : Pair) : Pair := (p.1.unmarked, p.2.unmarked)

theorem unmarked_unmarked (p : Pair) : p.unmarked.unmarked = p.unmarked := by simp [unmarked]

theorem mul_unmarked_left (a b : Pair) : mul a.unmarked b = mul a b := by simp [mul, unmarked]

theorem mul_unmarked_right (a b : Pair) : mul a b.unmarked = mul a b := by simp [mul, unmarked]

theorem div?_unmarked (a b : Pair) : div? a.unmarked b.unmarked = div? a b := by
  simp [div?, unmarked, Binary64.sub]

theorem powNat_unmarked (a : Pair) (n : Nat) : powNat a.unmarked n = powNat a n := by
  simp [powNat, powNat.go, mul_unmarked_left, mul_unmarked_right]

theorem powPolar_unmarked (a b : Pair) : powPolar a.unmarked b.unmarked = powPolar a b := by
  simp [powPolar, unmarked, Binary64.hypot, Binary64.pow, Binary64.atan2]

theorem pow_unmarked (a b : Pair) : pow a.unmarked b.unmarked = pow a b := by
  simp only [pow, powNat_unmarked, powPolar_unmarked]
  simp [unmarked]

end Pair

namespace Number

variable (a b : Number)

/-- An operation that sees no marks of pairs sees none of the numbers they come from. -/
theorem bind_toPair_unmarked {f : Pair → Pair → Except Fault Pair}
    (hf : ∀ p q, f p.unmarked q.unmarked = f p q) :
    (do return ofPair (← f (← a.unmarked.toPair) (← b.unmarked.toPair))) =
      (do return ofPair (← f (← a.toPair) (← b.toPair))) := by
  have left : ∀ p q, f p.unmarked q = f p q := fun p q => by
    rw [← hf, Pair.unmarked_unmarked, hf]
  have right : ∀ p q, f p q.unmarked = f p q := fun p q => by
    rw [← hf, Pair.unmarked_unmarked, hf]
  have real : ∀ x : Binary64, (x.unmarked, .zero false) = Pair.unmarked (x, .zero false) :=
    fun _ => rfl
  have complex : ∀ x y : Binary64, (x.unmarked, y.unmarked) = Pair.unmarked (x, y) :=
    fun _ _ => rfl
  cases a <;> cases b <;> simp [unmarked, toPair, toFloat, ok_bind, left, right, real, complex]

theorem complexArith_unmarked (op : BinaryOp) :
    arith.complexArith op a.unmarked b.unmarked = arith.complexArith op a b := by
  cases op with
  | add => exact congrArg some (bind_toPair_unmarked a b (by simp [Pair.unmarked]))
  | sub => exact congrArg some (bind_toPair_unmarked a b (by simp [Pair.unmarked, Binary64.sub]))
  | mult =>
    exact congrArg some (bind_toPair_unmarked a b
      (by simp [Pair.mul_unmarked_left, Pair.mul_unmarked_right]))
  | div => exact congrArg some (bind_toPair_unmarked a b (by simp [Pair.div?_unmarked]))
  | pow => exact congrArg some (bind_toPair_unmarked a b Pair.pow_unmarked)
  | _ => rfl

/-- Arithmetic sees no marks. -/
theorem arith_unmarked (op : BinaryOp) : arith op a.unmarked b.unmarked = arith op a b := by
  have complex := complexArith_unmarked a b op
  cases a with
  | int m =>
    cases b with
    | int n => rfl
    | float y =>
      cases op <;> simp [unmarked, arith, toFloat, ok_bind, Binary64.sub, Binary64.floorDiv,
        Binary64.floorMod, floatPow_unmarked_right]
    | complex re im => exact complex
  | float x =>
    cases b with
    | int n | float y =>
      cases op <;> simp [unmarked, arith, toFloat, ok_bind, Binary64.sub, Binary64.floorDiv,
        Binary64.floorMod, floatPow_unmarked_left, floatPow_unmarked_right]
    | complex re im => exact complex
  | complex re im => cases b <;> exact complex

end Number

/-! ### Values and their texts -/

namespace Value

mutual
/-- A value without its mark, and a tuple without the marks of its items. -/
def unmarked : Value → Value
  | .float x => .float x.unmarked
  | .complex re im => .complex re.unmarked im.unmarked
  | .tuple xs => .tuple (unmarkedAll xs)
  | .error _ c args => .error 0 c args
  | v => v
/-- Several values without their marks. -/
def unmarkedAll : List Value → List Value
  | [] => []
  | x :: xs => unmarked x :: unmarkedAll xs
end

theorem unmarkedAll_eq_map (xs : List Value) : unmarkedAll xs = xs.map unmarked := by
  induction xs with
  | nil => rfl
  | cons x xs ih => rw [unmarkedAll, ih, List.map_cons]

section
variable (v : Value)

@[simp] theorem tyName_unmarked : v.unmarked.tyName = v.tyName := by cases v <;> rfl

@[simp] theorem asInt?_unmarked : v.unmarked.asInt? = v.asInt? := by cases v <;> rfl

@[simp] theorem number?_unmarked : v.unmarked.number? = v.number?.map Number.unmarked := by
  cases v <;> rfl

end

mutual
@[simp] theorem unmarked_unmarked (v : Value) : v.unmarked.unmarked = v.unmarked := by
  cases v with
  | float x => simp [unmarked]
  | complex re im => simp [unmarked]
  | tuple xs => simp [unmarked, unmarkedAll_unmarkedAll xs]
  | _ => rfl
theorem unmarkedAll_unmarkedAll (xs : List Value) :
    unmarkedAll (unmarkedAll xs) = unmarkedAll xs := by
  cases xs with
  | nil => rfl
  | cons x xs => simp [unmarkedAll, unmarked_unmarked x, unmarkedAll_unmarkedAll xs]
end

mutual
/-- A value that no mark is on: it is no exception, and neither it nor an item is a NaN. -/
def markFree : Value → Bool
  | .float x => !x.isNaN
  | .complex re im => !re.isNaN && !im.isNaN
  | .tuple xs => markFreeAll xs
  | .error _ _ _ => false
  | _ => true
/-- Several values without marks. -/
def markFreeAll : List Value → Bool
  | [] => true
  | x :: xs => markFree x && markFreeAll xs
end

mutual
theorem markFree_unmarked (v : Value) : v.unmarked.markFree = v.markFree := by
  cases v with
  | float x => simp [unmarked, markFree]
  | complex re im => simp [unmarked, markFree]
  | tuple xs => rw [unmarked, markFree, markFree, markFreeAll_unmarkedAll xs]
  | _ => rfl
theorem markFreeAll_unmarkedAll (xs : List Value) :
    markFreeAll (unmarkedAll xs) = markFreeAll xs := by
  cases xs with
  | nil => rfl
  | cons x xs =>
    rw [unmarkedAll, markFreeAll, markFreeAll, markFree_unmarked x, markFreeAll_unmarkedAll xs]
end

mutual
theorem unmarked_of_markFree (v : Value) (h : v.markFree = true) : v.unmarked = v := by
  cases v with
  | float x =>
    rw [unmarked, Binary64.unmarked_of_isNaN (by simpa [markFree] using h)]
  | complex re im =>
    have hparts : re.isNaN = false ∧ im.isNaN = false := by simpa [markFree] using h
    rw [unmarked, Binary64.unmarked_of_isNaN hparts.1, Binary64.unmarked_of_isNaN hparts.2]
  | tuple xs => rw [unmarked, unmarkedAll_of_markFreeAll xs h]
  | error mark c args => cases h
  | _ => rfl
theorem unmarkedAll_of_markFreeAll (xs : List Value) (h : markFreeAll xs = true) :
    unmarkedAll xs = xs := by
  cases xs with
  | nil => rfl
  | cons x xs =>
    have hparts : x.markFree = true ∧ markFreeAll xs = true := by simpa [markFreeAll] using h
    rw [unmarkedAll, unmarked_of_markFree x hparts.1, unmarkedAll_of_markFreeAll xs hparts.2]
end

mutual
/-- Marks are not shown. -/
theorem repr_unmarked (v : Value) : v.unmarked.repr = v.repr := by
  cases v with
  | float x => cases x <;> rfl
  | complex re im => cases re <;> cases im <;> rfl
  | tuple xs => rw [unmarked, repr, repr, reprAll_unmarked xs]
  | error mark c args => rw [unmarked, repr, repr]
  | _ => rfl
theorem reprAll_unmarked (xs : List Value) : reprAll (unmarkedAll xs) = reprAll xs := by
  cases xs with
  | nil => rfl
  | cons x xs => rw [unmarkedAll, reprAll, reprAll, repr_unmarked x, reprAll_unmarked xs]
end

theorem text_unmarked (v : Value) : v.unmarked.text = v.text := by
  cases v with
  | float x => exact repr_unmarked (.float x)
  | complex re im => exact repr_unmarked (.complex re im)
  | tuple xs => exact repr_unmarked (.tuple xs)
  | error mark c args =>
    cases args with
    | nil => rfl
    | cons x rest => cases rest <;> cases c <;> rfl
  | _ => rfl

end Value

/-! ### Results that agree -/

section
variable {α β γ δ : Type}

/-- Two results agree: they are the same fault, or values that are related. -/
inductive Agree (R : α → β → Prop) : Except Fault α → Except Fault β → Prop
  | ok {a : α} {b : β} (h : R a b) : Agree R (.ok a) (.ok b)
  | error (f : Fault) : Agree R (.error f) (.error f)

namespace Agree

theorem bind {R : α → β → Prop} {S : γ → δ → Prop} {x : Except Fault α} {y : Except Fault β}
    {f : α → Except Fault γ} {g : β → Except Fault δ} (h : Agree R x y)
    (hf : ∀ a b, R a b → Agree S (f a) (g b)) : Agree S (x >>= f) (y >>= g) := by
  cases h with
  | ok h => exact hf _ _ h
  | error f => exact .error f

variable {R : α → α → Prop} {x y : Except Fault α}

theorem of_map {g : α → β} (h : g <$> x = g <$> y) : Agree (fun a b => g a = g b) x y := by
  cases x with
  | error f =>
    cases y <;> cases h
    exact .error f
  | ok a =>
    cases y with
    | error f => cases h
    | ok b => exact .ok (Except.ok.inj h)

theorem common {z : Except Fault α} (h : Agree R x y) (h' : Agree R x z)
    (hR : ∀ a b c, R a b → R a c → R b c) : Agree R y z := by
  cases h with
  | ok h =>
    cases h' with
    | ok h' => exact .ok (hR _ _ _ h h')
  | error f =>
    cases h'
    exact .error f

theorem refl (h : ∀ a, R a a) (x : Except Fault α) : Agree R x x := by
  cases x with
  | ok a => exact .ok (h a)
  | error f => exact .error f

theorem eq (h : Agree Eq x y) : x = y := by
  cases h with
  | ok h => rw [h]
  | error f => rfl

end Agree

end

/-! ### Templates -/

namespace Format

/-- Arguments without the marks of the floats in them. -/
def Arguments.unmarked : Arguments → Arguments
  | .items rest => .items (Value.unmarkedAll rest)
  | .single v used => .single v.unmarked used

/-- Arguments that differ in marks only. -/
def Arguments.Alike (a b : Arguments) : Prop := a.unmarked = b.unmarked

/-- The arguments that a value is. -/
def Arguments.ofValue : Value → Arguments
  | .tuple xs => .items xs
  | v => .single v false

theorem Arguments.Alike.ofValue (v : Value) :
    (Arguments.ofValue v.unmarked).Alike (Arguments.ofValue v) := by
  cases v with
  | tuple xs => exact congrArg Arguments.items (Value.unmarkedAll_unmarkedAll xs)
  | float x => simp [Arguments.ofValue, Arguments.Alike, Arguments.unmarked, Value.unmarked]
  | complex re im => simp [Arguments.ofValue, Arguments.Alike, Arguments.unmarked, Value.unmarked]
  | _ => rfl

theorem Arguments.next_unmarked (args : Arguments) :
    args.unmarked.next = (fun p => (p.1.unmarked, p.2.unmarked)) <$> args.next := by
  cases args with
  | items rest => cases rest <;> rfl
  | single v used => cases used <;> rfl

theorem Arguments.done_unmarked (args : Arguments) : args.unmarked.done = args.done := by
  cases args with
  | items rest => cases rest <;> rfl
  | single v used => rfl

section
variable {args args' : Arguments} (h : args.Alike args')
include h

theorem Arguments.Alike.next :
    Agree (fun p q => p.1.unmarked = q.1.unmarked ∧ p.2.Alike q.2) args.next args'.next := by
  have heq := congrArg Arguments.next h
  rw [args.next_unmarked, args'.next_unmarked] at heq
  simpa [Arguments.Alike] using Agree.of_map heq

theorem Arguments.Alike.done : args.done = args'.done := by
  rw [← args.done_unmarked, h, args'.done_unmarked]

theorem starArgument_agree (bound : Nat) (o : Overflow) :
    Agree (fun p q => p.1 = q.1 ∧ p.2.Alike q.2) (starArgument args bound o)
      (starArgument args' bound o) := by
  refine h.next.bind fun p q hpq => ?_
  have hint : p.1.asInt? = q.1.asInt? := by
    rw [← Value.asInt?_unmarked, hpq.1, Value.asInt?_unmarked]
  dsimp only
  rw [hint]
  cases q.1.asInt? with
  | none => exact .error _
  | some n =>
    dsimp only
    split
    · exact .error _
    · exact .ok ⟨rfl, hpq.2⟩

theorem readWidth_agree (c : Conversion) (r : List Char) :
    Agree (fun p q => p.1 = q.1 ∧ p.2.1.Alike q.2.1 ∧ p.2.2 = q.2.2) (readWidth c args r)
      (readWidth c args' r) := by
  unfold readWidth
  split
  · exact (starArgument_agree h _ _).bind fun p q hpq => .ok ⟨by simp [hpq.1], hpq.2, rfl⟩
  · dsimp only
    split
    · exact .error _
    · exact .ok ⟨rfl, h, rfl⟩

theorem readPrecision_agree (c : Conversion) (r : List Char) :
    Agree (fun p q => p.1 = q.1 ∧ p.2.1.Alike q.2.1 ∧ p.2.2 = q.2.2) (readPrecision c args r)
      (readPrecision c args' r) := by
  unfold readPrecision
  split
  · exact (starArgument_agree h _ _).bind fun p q hpq => .ok ⟨by simp [hpq.1], hpq.2, rfl⟩
  · dsimp only
    split
    · exact .error _
    · exact .ok ⟨rfl, h, rfl⟩
  · exact .ok ⟨rfl, h, rfl⟩

end

theorem convert_unmarked (c : Conversion) (letter : Char) (index : Nat) (v : Value) :
    convert c letter index v.unmarked = convert c letter index v := by
  have integer : integerOf letter v.unmarked = integerOf letter v := by
    cases v with
    | float x => cases x <;> rfl
    | _ => rfl
  have real : floatText c letter <$> realOf v.unmarked = floatText c letter <$> realOf v := by
    cases v with
    | float x => cases x <;> rfl
    | _ => rfl
  have character : characterText v.unmarked = characterText v := by cases v <;> rfl
  unfold convert
  simp only [Value.text_unmarked, Value.repr_unmarked, integer, character]
  split <;> first | rfl | exact real

theorem convertBytes_unmarked (c : Conversion) (letter : Char) (index : Nat) (v : Value) :
    convertBytes c letter index v.unmarked = convertBytes c letter index v := by
  unfold convertBytes
  simp only [convert_unmarked]
  cases v <;> rfl

section
variable {v w : Value} (h : v.unmarked = w.unmarked) (c : Conversion) (letter : Char) (index : Nat)
include h

theorem convert_congr : convert c letter index v = convert c letter index w := by
  rw [← convert_unmarked, h, convert_unmarked]

theorem convertBytes_congr : convertBytes c letter index v = convertBytes c letter index w := by
  rw [← convertBytes_unmarked, h, convertBytes_unmarked]

end

theorem writeTemplate_agree (bytes : Bool) (source : Option Value) (size fuel : Nat)
    {args args' : Arguments} (h : args.Alike args') (out : String) (r : List Char) :
    Agree (fun p q => p.1 = q.1 ∧ p.2.Alike q.2) (writeTemplate bytes source size fuel args out r)
      (writeTemplate bytes source size fuel args' out r) := by
  induction fuel generalizing args args' out r with
  | zero => exact .ok ⟨rfl, h⟩
  | succ fuel ih =>
    unfold writeTemplate
    split
    · cases ‹fuel + 1 = 0›
    · exact .ok ⟨rfl, h⟩
    · next heq =>
      cases heq
      exact ih h _ _
    · next heq =>
      cases heq
      -- What comes after a key depends on the arguments only, and these may come from the key.
      extract_lets rest
      have hrest : ∀ {a a'} r, Arguments.Alike a a' → Agree (fun p q => p.1 = q.1 ∧ p.2.Alike q.2)
          (rest (a, r)) (rest (a', r)) := by
        intro a a' r ha
        refine (readWidth_agree ha _ _).bind fun p q hpq => ?_
        obtain ⟨c, a, r⟩ := p
        obtain ⟨_, a', _⟩ := q
        obtain ⟨rfl, ha, rfl⟩ := hpq
        refine (readPrecision_agree ha _ _).bind fun p q hpq => ?_
        obtain ⟨c, a, r⟩ := p
        obtain ⟨_, a', _⟩ := q
        obtain ⟨rfl, ha, rfl⟩ := hpq
        dsimp only
        split
        · exact .error _
        · refine ha.next.bind fun p q hpq => ?_
          simp only [convert_congr hpq.1, convertBytes_congr hpq.1]
          split
          · exact (Agree.refl (fun _ => rfl) _).bind fun _ _ (_ : _ = _) => .error _
          · refine (Agree.refl (fun _ => rfl) _).bind fun s t (hst : s = t) => ?_
            exact hst ▸ ih hpq.2 _ _
      split
      · split
        · exact .error _
        · split
          · exact .error _
          · refine (Agree.refl (fun _ => rfl) _).bind fun v w (hvw : v = w) => ?_
            exact hvw ▸ hrest _ rfl
      · exact hrest _ h
    · next heq =>
      cases heq
      exact ih h _ _

/-- Marks are not written. -/
theorem fill_unmarked (bytes : Bool) (template : List Char) (v : Value) :
    fill bytes template v.unmarked = fill bytes template v := by
  have source : mapping? bytes v.unmarked = mapping? bytes v := by cases v <;> rfl
  refine Agree.eq ?_
  simp only [fill, source]
  refine (writeTemplate_agree bytes _ _ _ (.ofValue v) "" template).bind fun p q hpq => ?_
  rw [hpq.1, hpq.2.done]
  exact .refl (fun _ => rfl) _

end Format

/-! ### Operators -/

namespace Value

/-- Values that differ in marks only. -/
def Alike (x y : Value) : Prop := x.unmarked = y.unmarked

/-- A value without marks is alike to no other. -/
theorem Alike.eq_of_markFree {x y : Value} (h : x.Alike y) (hy : y.markFree = true) : x = y := by
  have hx : x.markFree = true := by rw [← markFree_unmarked, h, markFree_unmarked, hy]
  rw [← unmarked_of_markFree x hx, h, unmarked_of_markFree y hy]

/-- An operator has a meaning on both sides or on none, and the results agree up to marks. -/
abbrev AgreeOption : Option (Except Fault Value) → Option (Except Fault Value) → Prop :=
  Option.Rel (Agree Alike)

theorem AgreeOption.of_eq {o o' : Option (Except Fault Value)} (h : o = o') : AgreeOption o o' := by
  subst h
  cases o with
  | none => exact .none
  | some r => exact .some (.refl (R := Alike) (fun _ => rfl) r)

variable (x y : Value)

theorem concat?_agree : AgreeOption (x.unmarked.concat? y.unmarked) (x.concat? y) := by
  cases x with
  | str s | bytes b | list xs => exact .of_eq (by cases y <;> rfl)
  | tuple xs =>
    cases y with
    | tuple ys =>
      refine .some (.ok (congrArg tuple ?_))
      simp only [unmarkedAll_eq_map, ← List.map_append]
      rw [← unmarkedAll_eq_map, ← unmarkedAll_eq_map, unmarkedAll_unmarkedAll]
    | _ => exact .of_eq rfl
  | _ => exact .of_eq rfl

theorem repeatItems_map {α β : Type} (f : α → β) (xs : List α) (n : Nat) :
    repeatItems (xs.map f) n = (repeatItems xs n).map f := by
  simp [repeatItems, List.map_flatten]

theorem repeat?_agree (n : Int) : AgreeOption (x.unmarked.repeat? n) (x.repeat? n) := by
  cases x with
  | tuple xs =>
    have size : (unmarkedAll xs).length = xs.length := by simp [unmarkedAll_eq_map]
    have items (m : Nat) :
        Alike (tuple (repeatItems (unmarkedAll xs) m)) (tuple (repeatItems xs m)) := by
      refine congrArg tuple ?_
      rw [unmarkedAll_eq_map xs, repeatItems_map, ← unmarkedAll_eq_map, unmarkedAll_unmarkedAll]
    simp only [unmarked, repeat?, size]
    refine .some ((Agree.refl (fun _ => rfl) _).bind fun m m' (hm : m = m') => ?_)
    subst hm
    split
    · exact .error _
    · split
      · exact .error _
      · exact .ok (items m)
  | _ => exact .of_eq rfl

theorem times?_agree : AgreeOption (times? x.unmarked y.unmarked) (times? x y) := by
  cases x with
  | tuple xs =>
    simp only [times?, unmarked, asInt?_unmarked, tyName_unmarked]
    cases y.asInt? with
    | none => exact .of_eq rfl
    | some k => exact repeat?_agree (.tuple xs) k
  | str s | bytes b | list xs => exact .of_eq (by simp [times?, unmarked])
  | _ => exact .of_eq rfl

theorem repetition?_agree : AgreeOption (repetition? x.unmarked y.unmarked) (repetition? x y) := by
  have left := times?_agree x y
  unfold repetition?
  generalize times? x.unmarked y.unmarked = r at left
  generalize times? x y = s at left
  cases left with
  | some h => exact .some h
  | none => exact times?_agree y x

end Value

section
variable (op : BinaryOp) (x y : Value)

theorem numberOp?_unmarked : numberOp? op x.unmarked y.unmarked = numberOp? op x y := by
  have numbers : (do
      let a ← x.unmarked.number?
      let b ← y.unmarked.number?
      let r ← Number.arith op a b
      some (r.map Number.toValue)) = (do
      let a ← x.number?
      let b ← y.number?
      let r ← Number.arith op a b
      some (r.map Number.toValue)) := by
    simp only [Value.number?_unmarked, Option.bind_eq_bind, Option.bind_map, Function.comp_def,
      Number.arith_unmarked]
  cases x with
  | bool a =>
    cases y with
    | bool b => rfl
    | _ => exact numbers
  | _ => exact numbers

theorem containerOp?_agree :
    Value.AgreeOption (containerOp? op x.unmarked y.unmarked) (containerOp? op x y) := by
  cases op with
  | add => exact Value.concat?_agree x y
  | mult => exact Value.repetition?_agree x y
  | mod =>
    cases x with
    | str s =>
      refine .of_eq ?_
      simp only [containerOp?, Value.unmarked, Format.percent, Format.fill_unmarked]
    | bytes b =>
      refine .of_eq ?_
      simp only [containerOp?, Value.unmarked, Format.percentBytes, Format.fill_unmarked]
    | _ => exact .of_eq rfl
  | bitOr =>
    refine .of_eq ?_
    cases x with
    | dict es | set xs | frozenset xs | type t | union ts | none => cases y <;> rfl
    | _ => rfl
  | _ =>
    refine .of_eq ?_
    cases x with
    | set xs | frozenset xs => cases y <;> rfl
    | _ => rfl

/-- An operator on values that differ in marks gives results that differ in marks. -/
theorem BinaryOp.apply_agree :
    Agree Value.Alike (op.apply x.unmarked y.unmarked) (op.apply x y) := by
  have container := containerOp?_agree op x y
  unfold BinaryOp.apply
  rw [numberOp?_unmarked]
  generalize containerOp? op x.unmarked y.unmarked = r at container
  generalize containerOp? op x y = s at container
  cases numberOp? op x y with
  | some r => exact .refl (R := Value.Alike) (fun _ => rfl) r
  | none =>
    cases container with
    | some h => exact h
    | none =>
      simp only [Value.tyName_unmarked]
      cases op with
      | rshift =>
        cases x with
        | function f => exact .refl (R := Value.Alike) (fun _ => rfl) _
        | _ => exact .error _
      | _ => exact .error _

end

/-- Operands that differ in marks only have results that differ in marks only. -/
theorem BinaryOp.apply_alike {op : BinaryOp} {x x' y y' : Value} (hx : x.Alike x')
    (hy : y.Alike y') : Agree Value.Alike (op.apply x y) (op.apply x' y') := by
  have left := apply_agree op x y
  have right := apply_agree op x' y'
  rw [hx, hy] at left
  exact left.common right fun a b c hab hac => hab.symm.trans hac

/-- An object that gets a mark is as before up to it. -/
theorem Act.markObject_alike (v : Value) (w : World) :
    ∃ v' w', outcome (Act.markObject v) w = (.ok v', w') ∧ v'.Alike v := by
  have float : ∀ (x : Binary64) (w : World),
      ∃ x' w', outcome (Act.markFloat x) w = (.ok x', w') ∧ x'.unmarked = x.unmarked := by
    intro x w
    unfold markFloat
    split
    · exact ⟨_, _, rfl, rfl⟩
    · exact ⟨_, _, rfl, rfl⟩
  unfold markObject
  split
  · next x =>
    obtain ⟨x', w', hx, hx'⟩ := float x w
    exact ⟨.float x', w', by simp [hx], congrArg Value.float hx'⟩
  · next re im =>
    obtain ⟨re', w', hre, hre'⟩ := float re w
    obtain ⟨im', w'', him, him'⟩ := float im w'
    refine ⟨.complex re' im', w'', by simp [hre, him], ?_⟩
    simp [Value.Alike, Value.unmarked, hre', him']
  · exact ⟨_, _, rfl, rfl⟩
  · exact ⟨_, _, rfl, rfl⟩

end Stackwise
