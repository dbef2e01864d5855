import Mathlib
import Stackwise.Value.Same

/-!
# Sameness of values without undefined numbers

Values that can be keys are told apart by `Value.same`. Where no undefined number is in them, it is
symmetric and transitive (`Value.Definite.same_symm`, `Value.Definite.same_trans`), and every value
is the same as itself if the errors in it have their marks (`Value.Definite.same_self`).

Numbers of all kinds are compared by their exact values, which are fractions or infinite. Sets are
the same if they are equally large and the members of one are in the other; then it is so the other
way round too, since no two members of a set are the same (`exists_of_covers`).
-/
namespace Stackwise

/-! ### Numbers -/

namespace Binary64

/-- The exact value of a finite number, or the sign of an infinite one. -/
def exact : Binary64 → ℚ ⊕ Bool
  | .inf s => .inr s
  | x => .inl (x.toDyadic.1 / 2 ^ x.toDyadic.2)

variable {x y : Binary64}

/-- Fractions over powers of two are compared crosswise. -/
theorem dyadic_eq_iff (a b : Int) (j k : Nat) :
    a * Int.pow 2 k = b * Int.pow 2 j ↔ (a : ℚ) / 2 ^ j = b / 2 ^ k := by
  rw [div_eq_div_iff (by positivity) (by positivity)]
  exact_mod_cast Iff.rfl

theorem eq_iff (hx : x.isNaN = false) (hy : y.isNaN = false) :
    x.eq y = true ↔ x.exact = y.exact := by
  cases x with
  | nan => cases hx
  | inf s =>
    cases y with
    | nan => cases hy
    | inf t => cases s <;> cases t <;> decide
    | finite t n f => cases s <;> simp [eq, compare?, exact]
  | finite s m e =>
    cases y with
    | nan => cases hy
    | inf t => cases t <;> simp [eq, compare?, exact]
    | finite t n f =>
      simp only [eq, compare?, exact, beq_iff_eq, Option.some.injEq, Sum.inl.injEq]
      rw [compare_eq_iff_eq, dyadic_eq_iff]

theorem same_iff (hx : x.isNaN = false) (hy : y.isNaN = false) :
    x.same y = true ↔ x.exact = y.exact := by
  rw [← eq_iff hx hy]
  cases x with
  | nan => cases hx
  | _ => rfl

theorem compareInt?_iff (hx : x.isNaN = false) (n : Int) :
    (x.compareInt? n == some .eq) = true ↔ x.exact = .inl n := by
  cases x with
  | nan => cases hx
  | inf s => cases s <;> simp [compareInt?, exact]
  | finite s m e =>
    have hdyadic := dyadic_eq_iff (finite s m e).toDyadic.1 n (finite s m e).toDyadic.2 0
    simp only [compareInt?, exact, beq_iff_eq, Option.some.injEq, Sum.inl.injEq]
    rw [compare_eq_iff_eq]
    simpa using hdyadic

theorem isZero_iff (hx : x.isNaN = false) : x.isZero = true ↔ x.exact = .inl 0 := by
  cases x with
  | nan => cases hx
  | inf s => simp [isZero, exact]
  | finite s m e =>
    by_cases he : 0 ≤ e <;> cases s <;> simp [isZero, exact, toDyadic, he]

end Binary64

namespace Number

/-- Whether a number is defined. -/
def isDefined : Number → Bool
  | .int _ => true
  | .float x => !x.isNaN
  | .complex re im => !re.isNaN && !im.isNaN

/-- The exact values of the real and the imaginary part. -/
def exact : Number → (ℚ ⊕ Bool) × (ℚ ⊕ Bool)
  | .int n => (.inl n, .inl 0)
  | .float x => (x.exact, .inl 0)
  | .complex re im => (re.exact, im.exact)

/-- Numbers that are defined are the same if their exact values are. -/
theorem same_iff {a b : Number} (ha : a.isDefined = true) (hb : b.isDefined = true) :
    a.same b = true ↔ a.exact = b.exact := by
  cases a <;> cases b
  case int.int => simp [same, exact]
  all_goals
    simp only [isDefined, Bool.and_eq_true, Bool.not_eq_true'] at ha hb
    simp only [same, exact, Bool.and_eq_true, Prod.mk.injEq]
    grind [Binary64.compareInt?_iff, Binary64.eq_iff, Binary64.same_iff, Binary64.isZero_iff]

end Number

/-! ### Sets -/

/-- Two lists are equally long, every item of the first is related to one of the second, and no two
to the same one. Then every item of the second has one of the first that is related to it. -/
theorem exists_of_covers {α : Type} {R : α → α → Prop} {xs ys : List α}
    (hlength : xs.length = ys.length) (hcovers : ∀ x ∈ xs, ∃ y ∈ ys, R x y)
    (hapart : xs.Pairwise fun x x' => ∀ y ∈ ys, R x y → ¬R x' y) :
    ∀ y ∈ ys, ∃ x ∈ xs, R x y := by
  induction xs generalizing ys with
  | nil =>
    obtain rfl : ys = [] := List.length_eq_zero_iff.1 hlength.symm
    simp
  | cons x xs ih =>
    rw [List.pairwise_cons] at hapart
    obtain ⟨y, hy, hxy⟩ := hcovers x List.mem_cons_self
    obtain ⟨before, after, rfl⟩ := List.append_of_mem hy
    -- The others are related to the rest, for none of them is related to `y`.
    have hrest : ∀ z ∈ before ++ after, ∃ x' ∈ xs, R x' z := by
      refine ih (by simp at hlength ⊢; omega) (fun x' hx' => ?_) ?_
      · obtain ⟨z, hz, hxz⟩ := hcovers x' (List.mem_cons_of_mem x hx')
        have hne : z ≠ y := by
          rintro rfl
          exact hapart.1 x' hx' z hy hxy hxz
        exact ⟨z, by grind, hxz⟩
      · exact hapart.2.imp fun h z hz => h z (by grind)
    intro z hz
    by_cases hzy : z = y
    · exact ⟨x, List.mem_cons_self, hzy ▸ hxy⟩
    · obtain ⟨x', hx', hxz⟩ := hrest z (by grind)
      exact ⟨x', List.mem_cons_of_mem x hx', hxz⟩

namespace Value

theorem within_iff {xs ys : List Value} :
    within xs ys = true ↔ ∀ x ∈ xs, ∃ y ∈ ys, same x y = true := by
  induction xs with
  | nil => simp [within]
  | cons x xs ih => simp [within, ih]

/-! ### Values -/

/-- A value that can be a key, without undefined numbers, and with members that differ in every
set. Where it is `marked`, so are the errors in it; one without a mark is not even the same as
itself. -/
inductive Definite (marked : Bool) : Value → Prop
  | none : Definite marked .none
  | ellipsis : Definite marked .ellipsis
  | notImplemented : Definite marked .notImplemented
  | bool (b : Bool) : Definite marked (.bool b)
  | int (n : Int) : Definite marked (.int n)
  | float {x : Binary64} (h : x.isNaN = false) : Definite marked (.float x)
  | complex {re im : Binary64} (hre : re.isNaN = false) (him : im.isNaN = false) :
    Definite marked (.complex re im)
  | str (s : String) : Definite marked (.str s)
  | bytes (b : List UInt8) : Definite marked (.bytes b)
  | tuple {xs : List Value} (h : ∀ x ∈ xs, Definite marked x) : Definite marked (.tuple xs)
  | frozenset {xs : List Value} (h : ∀ x ∈ xs, Definite marked x)
    (hapart : xs.Pairwise fun x y => same x y = false) : Definite marked (.frozenset xs)
  | range (start stop step : Int) : Definite marked (.range start stop step)
  | type (t : Ty) : Definite marked (.type t)
  | union (ts : List Ty) : Definite marked (.union ts)
  | generic (t : Ty) {xs : List Value} (h : ∀ x ∈ xs, Definite marked x) :
    Definite marked (.alias t xs)
  | function (f : Function) : Definite marked (.function f)
  | quitter (name : String) : Definite marked (.quitter name)
  | error {mark : Nat} (c : ErrorClass) (args : List Value) (h : marked = true → mark ≠ 0) :
    Definite marked (.error mark c args)
  | iterator (ref : Nat) (kind : Ty) : Definite marked (.iterator ref kind)

/-- Values of which there is only one form. -/
def isPlain : Value → Bool
  | .none | .ellipsis | .notImplemented | .str _ | .bytes _ => true
  | .type _ | .function _ | .quitter _ => true
  | _ => false

/-- How two values can be the same, lists, sets, dictionaries and slices apart. -/
inductive Matches : Value → Value → Prop
  | plain {x : Value} (h : x.isPlain = true) : Matches x x
  | number {x y : Value} {a b : Number} (hx : x.number? = some a) (hy : y.number? = some b)
    (h : a.same b = true) : Matches x y
  | tuple {xs ys : List Value} (h : sameAll xs ys = true) : Matches (.tuple xs) (.tuple ys)
  | frozenset {xs ys : List Value} (hlength : xs.length = ys.length)
    (h : within xs ys = true) : Matches (.frozenset xs) (.frozenset ys)
  | range {a b c d e f : Int} (hlength : rangeLength a b c = rangeLength d e f)
    (h : rangeLength a b c = 0 ∨ a = d ∧ (rangeLength a b c = 1 ∨ c = f)) :
    Matches (.range a b c) (.range d e f)
  | union {ts us : List Ty} (h : ∀ t, t ∈ ts ↔ t ∈ us) : Matches (.union ts) (.union us)
  | generic (t : Ty) {xs ys : List Value} (h : sameAll xs ys = true) :
    Matches (.alias t xs) (.alias t ys)
  | error {mark : Nat} (h : mark ≠ 0) (c d : ErrorClass) (args args' : List Value) :
    Matches (.error mark c args) (.error mark d args')
  | iterator (ref : Nat) (kind kind' : Ty) : Matches (.iterator ref kind) (.iterator ref kind')

theorem Matches.of_same {marked : Bool} {x y : Value} (hx : x.Definite marked)
    (hy : y.Definite marked) (h : same x y = true) : Matches x y := by
  rw [same.eq_def] at h
  split at h
  case h_1 | h_2 | h_3 => exact .plain rfl
  case h_4 | h_5 | h_15 | h_18 | h_19 =>
    cases beq_iff_eq.1 h
    exact .plain rfl
  case h_7 => exact .tuple h
  case h_11 =>
    rw [Bool.and_eq_true, beq_iff_eq] at h
    exact .frozenset h.1 h.2
  case h_13 =>
    simp only [Bool.and_eq_true, Bool.or_eq_true, beq_iff_eq] at h
    exact .range h.1 h.2
  case h_16 => exact .union (by grind)
  case h_17 =>
    rw [Bool.and_eq_true, beq_iff_eq] at h
    obtain ⟨rfl, h⟩ := h
    exact .generic _ h
  case h_20 =>
    rw [Bool.and_eq_true, bne_iff_ne, beq_iff_eq] at h
    obtain ⟨hmark, rfl⟩ := h
    exact .error hmark _ _ _ _
  case h_21 =>
    cases beq_iff_eq.1 h
    exact .iterator _ _ _
  case h_22 =>
    split at h
    · next hx hy => exact .number hx hy h
    · cases h
  all_goals first | (cases hx; done) | cases hy

theorem Matches.same {x y : Value} (h : Matches x y) : Value.same x y = true := by
  cases h with
  | plain h => cases x <;> simp_all [isPlain, Value.same]
  | number hx hy h =>
    cases x <;> cases hx <;> cases y <;> cases hy <;> simp only [Value.same] <;> exact h
  | tuple h => simpa [Value.same] using h
  | frozenset hlength h => simp [Value.same, hlength, h]
  | range hlength h => simpa [Value.same, ← hlength] using h
  | union h => simp [Value.same, h]
  | generic t h => simpa [Value.same] using h
  | error h => simp [Value.same, h]
  | iterator => simp [Value.same]

theorem Definite.isDefined {marked : Bool} {x : Value} {a : Number} (hx : x.Definite marked)
    (ha : x.number? = some a) : a.isDefined = true := by
  cases hx <;> cases ha <;> simp_all [Number.isDefined]

section
variable {marked : Bool} {x y z : Value} {xs ys zs : List Value}

/-- The rules for a value and all values that it is compared with. -/
structure Regular (marked : Bool) (x : Value) : Prop where
  symm : ∀ y, y.Definite marked → same x y = true → same y x = true
  trans : ∀ y z, y.Definite marked → z.Definite marked →
    same x y = true → same y z = true → same x z = true

theorem sameAll_symm (hxs : ∀ x ∈ xs, Regular marked x) (hys : ∀ y ∈ ys, y.Definite marked)
    (h : sameAll xs ys = true) : sameAll ys xs = true := by
  induction xs generalizing ys with
  | nil => cases ys <;> simp_all [sameAll]
  | cons x xs ih =>
    cases ys with
    | nil => simp [sameAll] at h
    | cons y ys =>
      rw [List.forall_mem_cons] at hxs hys
      rw [sameAll, Bool.and_eq_true] at h ⊢
      exact ⟨hxs.1.symm y hys.1 h.1, ih hxs.2 hys.2 h.2⟩

theorem sameAll_trans (hxs : ∀ x ∈ xs, Regular marked x) (hys : ∀ y ∈ ys, y.Definite marked)
    (hzs : ∀ z ∈ zs, z.Definite marked) (h : sameAll xs ys = true) (h' : sameAll ys zs = true) :
    sameAll xs zs = true := by
  induction xs generalizing ys zs with
  | nil => cases ys <;> simp_all [sameAll]
  | cons x xs ih =>
    cases ys with
    | nil => simp [sameAll] at h
    | cons y ys =>
      cases zs with
      | nil => simp [sameAll] at h'
      | cons z zs =>
        rw [List.forall_mem_cons] at hxs hys hzs
        rw [sameAll, Bool.and_eq_true] at h h' ⊢
        exact ⟨hxs.1.trans y z hys.1 hzs.1 h.1 h'.1, ih hxs.2 hys.2 hzs.2 h.2 h'.2⟩

/-- The members of equally large sets can be matched in both directions. -/
theorem within_symm (hxs : ∀ x ∈ xs, Regular marked x) (hdefinite : ∀ x ∈ xs, x.Definite marked)
    (hapart : xs.Pairwise fun x y => same x y = false) (hys : ∀ y ∈ ys, y.Definite marked)
    (hlength : xs.length = ys.length) (h : within xs ys = true) : within ys xs = true := by
  rw [within_iff] at h ⊢
  have hcovers : ∀ y ∈ ys, ∃ x ∈ xs, same x y = true := by
    refine exists_of_covers hlength h (hapart.imp_of_mem fun {x x'} hx hx' hne y hy hxy hxy' => ?_)
    have hyx := (hxs x' hx').symm y (hys y hy) hxy'
    have hxx := (hxs x hx).trans y x' (hys y hy) (hdefinite x' hx') hxy hyx
    rw [hne] at hxx
    cases hxx
  intro y hy
  obtain ⟨x, hx, hxy⟩ := hcovers y hy
  exact ⟨x, hx, (hxs x hx).symm y (hys y hy) hxy⟩

theorem within_trans (hxs : ∀ x ∈ xs, Regular marked x) (hys : ∀ y ∈ ys, y.Definite marked)
    (hzs : ∀ z ∈ zs, z.Definite marked) (h : within xs ys = true) (h' : within ys zs = true) :
    within xs zs = true := by
  rw [within_iff] at h h' ⊢
  intro x hx
  obtain ⟨y, hy, hxy⟩ := h x hx
  obtain ⟨z, hz, hyz⟩ := h' y hy
  exact ⟨z, hz, (hxs x hx).trans y z (hys y hy) (hzs z hz) hxy hyz⟩

/-- The values that a value is made of and compared by. -/
def parts : Value → List Value
  | .tuple xs | .frozenset xs | .alias _ xs => xs
  | _ => []

theorem Matches.symm (h : Matches x y) (hx : x.Definite marked) (hy : y.Definite marked)
    (hparts : ∀ u ∈ x.parts, Regular marked u) : Matches y x := by
  cases h with
  | plain h => exact .plain h
  | number ha hb h =>
    rw [Number.same_iff (hx.isDefined ha) (hy.isDefined hb)] at h
    exact .number hb ha ((Number.same_iff (hy.isDefined hb) (hx.isDefined ha)).2 h.symm)
  | tuple h =>
    cases hy with
    | tuple hys => exact .tuple (sameAll_symm hparts hys h)
  | frozenset hlength h =>
    cases hx with
    | frozenset hxs hapart =>
      cases hy with
      | frozenset hys _ =>
        exact .frozenset hlength.symm (within_symm hparts hxs hapart hys hlength h)
  | range hlength h => exact .range hlength.symm (by grind)
  | union h => exact .union fun t => (h t).symm
  | generic t h =>
    cases hy with
    | generic _ hys => exact .generic t (sameAll_symm hparts hys h)
  | error hmark => exact .error hmark _ _ _ _
  | iterator => exact .iterator _ _ _

theorem Matches.exists_number {a : Number} (h : Matches x y) (ha : x.number? = some a) :
    ∃ b, y.number? = some b ∧ a.same b = true := by
  cases h with
  | plain h => cases x <;> simp_all [isPlain, number?]
  | number hx hy h => exact ⟨_, hy, Option.some.inj (ha.symm.trans hx) ▸ h⟩
  | _ => cases ha

theorem Matches.trans (h : Matches x y) (h' : Matches y z) (hx : x.Definite marked)
    (hy : y.Definite marked) (hz : z.Definite marked)
    (hparts : ∀ u ∈ x.parts, Regular marked u) : Matches x z := by
  cases h with
  | plain h => exact h'
  | number ha hb h =>
    obtain ⟨c, hc, h'⟩ := h'.exists_number hb
    rw [Number.same_iff (hx.isDefined ha) (hy.isDefined hb)] at h
    rw [Number.same_iff (hy.isDefined hb) (hz.isDefined hc)] at h'
    exact .number ha hc ((Number.same_iff (hx.isDefined ha) (hz.isDefined hc)).2 (h.trans h'))
  | tuple h =>
    cases hy with
    | tuple hys =>
    cases h' with
    | plain h' => cases h'
    | number hb => cases hb
    | tuple h' =>
      cases hz with
      | tuple hzs => exact .tuple (sameAll_trans hparts hys hzs h h')
  | frozenset hlength h =>
    cases hy with
    | frozenset hys =>
    cases h' with
    | plain h' => cases h'
    | number hb => cases hb
    | frozenset hlength' h' =>
      cases hz with
      | frozenset hzs =>
        exact .frozenset (hlength.trans hlength') (within_trans hparts hys hzs h h')
  | range hlength h =>
    cases h' with
    | plain h' => cases h'
    | number hb => cases hb
    | range hlength' h' => exact .range (hlength.trans hlength') (by grind)
  | union h =>
    cases h' with
    | plain h' => cases h'
    | number hb => cases hb
    | union h' => exact .union fun t => (h t).trans (h' t)
  | generic t h =>
    cases hy with
    | generic _ hys =>
    cases h' with
    | plain h' => cases h'
    | number hb => cases hb
    | generic _ h' =>
      cases hz with
      | generic _ hzs => exact .generic t (sameAll_trans hparts hys hzs h h')
  | error hmark =>
    cases h' with
    | plain h' => cases h'
    | number hb => cases hb
    | error => exact .error hmark _ _ _ _
  | iterator =>
    cases h' with
    | plain h' => cases h'
    | number hb => cases hb
    | iterator => exact .iterator _ _ _

theorem Regular.of_parts (hx : x.Definite marked) (hparts : ∀ u ∈ x.parts, Regular marked u) :
    Regular marked x where
  symm _ hy h := ((Matches.of_same hx hy h).symm hx hy hparts).same
  trans _ _ hy hz h h' :=
    ((Matches.of_same hx hy h).trans (Matches.of_same hy hz h') hx hy hz hparts).same

theorem Definite.regular (hx : x.Definite marked) : Regular marked x := by
  induction hx with
  | tuple h ih => exact .of_parts (.tuple h) ih
  | frozenset h hapart ih => exact .of_parts (.frozenset h hapart) ih
  | generic t h ih => exact .of_parts (.generic t h) ih
  | _ => exact .of_parts (by constructor <;> assumption) (by simp [parts])

theorem Definite.same_symm (hx : x.Definite marked) (hy : y.Definite marked)
    (h : same x y = true) : same y x = true := hx.regular.symm y hy h

theorem Definite.same_trans (hx : x.Definite marked) (hy : y.Definite marked)
    (hz : z.Definite marked) (h : same x y = true) (h' : same y z = true) : same x z = true :=
  hx.regular.trans y z hy hz h h'

theorem sameAll_self (h : ∀ x ∈ xs, same x x = true) : sameAll xs xs = true := by
  induction xs with
  | nil => simp [sameAll]
  | cons x xs ih =>
    rw [List.forall_mem_cons] at h
    rw [sameAll, h.1, ih h.2, Bool.and_self]

theorem Definite.same_self (h : x.Definite true) : same x x = true := by
  induction h with
  | tuple _ ih | generic _ _ ih => simpa [same] using sameAll_self ih
  | frozenset _ _ ih => simpa [same, within_iff] using fun x hx => ⟨x, hx, ih x hx⟩
  | float h => exact Matches.same (.number rfl rfl ((Binary64.same_iff h h).2 rfl))
  | complex hre him =>
    refine Matches.same (.number rfl rfl ?_)
    rw [Number.same_iff] <;> simp [Number.isDefined, hre, him]
  | error c args h => simp [same, h rfl]
  | bool | int => exact Matches.same (.number rfl rfl (by simp [Number.same]))
  | _ => simp [same]

/-! ### Constants -/

theorem sameConstant_iff : sameConstant x y = true ↔ x.ty = y.ty ∧ same x y = true := by
  simp [sameConstant]

theorem Definite.sameConstant_symm (hx : x.Definite marked) (hy : y.Definite marked)
    (h : sameConstant x y = true) : sameConstant y x = true := by
  rw [sameConstant_iff] at h ⊢
  exact ⟨h.1.symm, hx.same_symm hy h.2⟩

theorem Definite.sameConstant_trans (hx : x.Definite marked) (hy : y.Definite marked)
    (hz : z.Definite marked) (h : sameConstant x y = true) (h' : sameConstant y z = true) :
    sameConstant x z = true := by
  rw [sameConstant_iff] at h h' ⊢
  exact ⟨h.1.trans h'.1, hx.same_trans hy hz h.2 h'.2⟩

theorem Definite.sameConstant_self (h : x.Definite true) : sameConstant x x = true :=
  sameConstant_iff.2 ⟨rfl, h.same_self⟩

end

end Value
end Stackwise
