import Mathlib.Data.List.Find
import Mathlib.Data.List.Induction
import Stackwise.Value.Same

/-!
# Members and entries that are inserted one by one

Of the same members a set keeps the first that came (`Value.mem_distinct`), and a dictionary keeps
the first key and the last value (`Value.map_fst_inserted`, `Value.lookupKey_inserted`). So it
matters in which order they come: `Value.inserted_reverse` and `Value.mem_distinct_reverse` say when
inserting them backwards makes no difference.
-/
namespace Stackwise.Value

/-- Sameness divides the members of a list into classes. A number that is not one can differ from
itself, so this is not so for every list. -/
structure EquivalentOn (xs : List Value) : Prop where
  refl : ∀ x ∈ xs, same x x = true
  symm : ∀ x ∈ xs, ∀ y ∈ xs, same x y = true → same y x = true
  trans : ∀ x ∈ xs, ∀ y ∈ xs, ∀ z ∈ xs, same x y = true → same y z = true → same x z = true

/-- The entries of a dictionary after entries are inserted from the first to the last. -/
def inserted (es : List (Value × Value)) : List (Value × Value) :=
  es.foldl (fun d e => insertKey d e.1 e.2) []

namespace EquivalentOn

variable {xs ys : List Value}

theorem mono (h : EquivalentOn xs) (hsub : ys ⊆ xs) : EquivalentOn ys where
  refl x hx := h.refl x (hsub hx)
  symm x hx y hy := h.symm x (hsub hx) y (hsub hy)
  trans x hx y hy z hz := h.trans x (hsub hx) y (hsub hy) z (hsub hz)

/-- What is the same as one of two same values is the same as the other. -/
theorem same_congr (h : EquivalentOn xs) {x y z : Value} (hx : x ∈ xs) (hy : y ∈ xs) (hz : z ∈ xs)
    (hyz : same y z = true) : same x y = same x z := by
  rw [Bool.eq_iff_iff]
  exact ⟨fun hxy => h.trans x hx y hy z hz hxy hyz,
    fun hxz => h.trans x hx z hz y hy hxz (h.symm y hy z hz hyz)⟩

end EquivalentOn

/-! ### Values that can be divided into classes -/

/-- Nothing, truth values, integers, texts, bytes, and tuples of them. -/
inductive IsExact : Value → Prop
  | none : IsExact .none
  | bool (b : Bool) : IsExact (.bool b)
  | int (n : Int) : IsExact (.int n)
  | str (s : String) : IsExact (.str s)
  | bytes (b : List UInt8) : IsExact (.bytes b)
  | tuple {xs : List Value} (h : ∀ x ∈ xs, IsExact x) : IsExact (.tuple xs)

mutual
/-- A value with integers for the truth values in it. -/
def standard : Value → Value
  | .bool b => .int (if b then 1 else 0)
  | .tuple xs => .tuple (standardAll xs)
  | v => v
def standardAll : List Value → List Value
  | [] => []
  | x :: xs => standard x :: standardAll xs
end

theorem sameAll_iff {xs ys : List Value}
    (h : ∀ x ∈ xs, ∀ y ∈ ys, same x y = true ↔ x.standard = y.standard) :
    sameAll xs ys = true ↔ standardAll xs = standardAll ys := by
  induction xs generalizing ys with
  | nil => cases ys <;> simp [sameAll, standardAll]
  | cons x xs ih =>
    cases ys with
    | nil => simp [sameAll, standardAll]
    | cons y ys =>
      have hhead := h x (by simp) y (by simp)
      have htail : sameAll xs ys = true ↔ standardAll xs = standardAll ys :=
        ih fun x hx y hy => h x (by simp [hx]) y (by simp [hy])
      rw [sameAll, Bool.and_eq_true_iff, hhead, htail, standardAll, standardAll, List.cons.injEq]

/-- Such values are the same if they are equal up to the difference of truth values and integers. -/
theorem IsExact.same_iff {x y : Value} (hx : x.IsExact) (hy : y.IsExact) :
    same x y = true ↔ x.standard = y.standard := by
  induction hx generalizing y with
  | tuple h ih =>
    cases hy with
    | tuple h' =>
      rw [same, sameAll_iff fun x hx y hy => ih x hx (h' y hy), standard, standard, tuple.injEq]
    | _ => simp [same, standard, number?]
  | _ => cases hy <;> simp [same, standard, number?, Number.same]

theorem IsExact.equivalentOn {xs : List Value} (h : ∀ x ∈ xs, x.IsExact) : EquivalentOn xs where
  refl x hx := ((h x hx).same_iff (h x hx)).2 rfl
  symm x hx y hy := by
    rw [(h x hx).same_iff (h y hy), (h y hy).same_iff (h x hx)]
    exact Eq.symm
  trans x hx y hy z hz := by
    rw [(h x hx).same_iff (h y hy), (h y hy).same_iff (h z hz), (h x hx).same_iff (h z hz)]
    exact Eq.trans

/-! ### Sets -/

section
variable {xs : List Value}

theorem distinct_concat (xs : List Value) (x : Value) :
    distinct (xs ++ [x]) = addMember (distinct xs) x := by
  simp [distinct, List.foldl_append]

theorem distinct_subset (xs : List Value) : distinct xs ⊆ xs := by
  induction xs using List.reverseRecOn with
  | nil => exact List.Subset.refl _
  | append_singleton xs x ih =>
    rw [distinct_concat, addMember]
    split <;> grind

/-- No two members are the same. -/
theorem pairwise_distinct (xs : List Value) :
    (distinct xs).Pairwise fun x y => same x y = false := by
  induction xs using List.reverseRecOn with
  | nil => exact .nil
  | append_singleton xs x ih =>
    rw [distinct_concat, addMember]
    split
    · exact ih
    · next hnot =>
      refine List.pairwise_append.2 ⟨ih, List.pairwise_singleton _ _, ?_⟩
      simpa [memberOf] using hnot

/-- Every value that came is the same as a member. -/
theorem exists_mem_distinct (h : ∀ x ∈ xs, same x x = true) {x : Value} (hx : x ∈ xs) :
    ∃ y ∈ distinct xs, same y x = true := by
  induction xs using List.reverseRecOn with
  | nil => cases hx
  | append_singleton xs z ih =>
    rw [distinct_concat, addMember]
    rw [List.forall_mem_append] at h
    rcases List.mem_append.1 hx with hx | hx
    · obtain ⟨y, hy, hsame⟩ := ih h.1 hx
      split <;> grind
    · obtain rfl := List.mem_singleton.1 hx
      split
      · next hmember => simpa [memberOf] using hmember
      · exact ⟨x, by simp, h.2 x hx⟩

theorem memberOf_eq_true {x : Value} : x.memberOf xs = true ↔ ∃ y ∈ xs, same y x = true :=
  List.any_eq_true

/-- A value is the same as a member if it is the same as one that came. -/
theorem memberOf_distinct {x : Value} (h : EquivalentOn (xs ++ [x])) :
    x.memberOf (distinct xs) = x.memberOf xs := by
  rw [Bool.eq_iff_iff, memberOf_eq_true, memberOf_eq_true]
  constructor
  · rintro ⟨y, hy, hsame⟩
    exact ⟨y, distinct_subset xs hy, hsame⟩
  · rintro ⟨y, hy, hsame⟩
    have hrefl := (h.mono (List.subset_append_left xs [x])).refl
    obtain ⟨z, hz, hzy⟩ := exists_mem_distinct hrefl hy
    have hz' := distinct_subset xs hz
    exact ⟨z, hz, h.trans z (by simp [hz']) y (by simp [hy]) x (by simp) hzy hsame⟩

/-- A value is a member if it is the first of those that it is the same as. -/
theorem mem_distinct (h : EquivalentOn xs) {x : Value} :
    x ∈ distinct xs ↔ xs.find? (fun y => same y x) = some x := by
  induction xs using List.reverseRecOn with
  | nil => simp [distinct]
  | append_singleton xs z ih =>
    have hrest := ih (h.mono (List.subset_append_left xs [z]))
    have hz : same z z = true := h.refl z (by simp)
    rw [distinct_concat, addMember, memberOf_distinct h, List.find?_append]
    by_cases hm : z.memberOf xs = true
    · rw [if_pos hm, hrest]
      obtain ⟨y, hy, hsame⟩ := memberOf_eq_true.1 hm
      cases hf : xs.find? fun y => same y x with
      | some w => simp
      | none => grind
    · rw [if_neg hm, List.mem_append, hrest]
      rw [memberOf_eq_true] at hm
      cases hf : xs.find? fun y => same y x with
      | some w => grind
      | none => grind

/-- The first of the values that are the same as one is the same for all of them. -/
theorem find?_congr (h : EquivalentOn xs) {x y : Value} (hx : x ∈ xs) (hy : y ∈ xs)
    (hsame : same x y = true) :
    xs.find? (fun z => same z x) = xs.find? fun z => same z y :=
  List.find?_congr fun _ hz => h.same_congr hz hx hy hsame

/-- Backwards, a set has the same members if the first and the last value of each class are one. -/
theorem mem_distinct_reverse (h : EquivalentOn xs) :
    (∀ x, x ∈ distinct xs.reverse ↔ x ∈ distinct xs) ↔
      ∀ x ∈ xs, xs.reverse.find? (fun y => same y x) = xs.find? fun y => same y x := by
  have hback : EquivalentOn xs.reverse := h.mono (List.reverse_subset.2 (List.Subset.refl xs))
  simp only [mem_distinct h, mem_distinct hback]
  constructor
  · intro hiff x hx
    cases hf : xs.find? fun y => same y x with
    | none => simpa using (List.find?_eq_none.1 hf x hx) (h.refl x hx)
    | some w =>
      have hw := List.mem_of_find?_eq_some hf
      have hwx : same w x = true := by simpa using List.find?_some hf
      rw [← find?_congr h hw hx hwx, ← hiff w] at hf
      rw [← hf]
      exact (find?_congr hback (by simpa) (by simpa) hwx).symm
  · intro hfind x
    constructor <;> intro hf <;> have hx := List.mem_of_find?_eq_some hf
    · rw [← hfind x (by simpa using hx), hf]
    · rw [hfind x hx, hf]

end

/-! ### Dictionaries -/

section
variable {es : List (Value × Value)}

theorem inserted_concat (es : List (Value × Value)) (e : Value × Value) :
    inserted (es ++ [e]) = insertKey (inserted es) e.1 e.2 := by
  simp [inserted, List.foldl_append]

theorem map_fst_insertKey (es : List (Value × Value)) (k v : Value) :
    (insertKey es k v).map (·.1) = addMember (es.map (·.1)) k := by
  unfold insertKey addMember memberOf
  rw [List.any_map]
  split
  · rw [if_pos (by assumption), List.map_map]
    refine List.map_congr_left fun e _ => ?_
    simp only [Function.comp]
    split <;> rfl
  · rw [if_neg (by assumption), List.map_append]
    rfl

/-- The keys are the first ones, in the order in which they came. -/
theorem map_fst_inserted (es : List (Value × Value)) :
    (inserted es).map (·.1) = distinct (es.map (·.1)) := by
  induction es using List.reverseRecOn with
  | nil => rfl
  | append_singleton es e ih =>
    rw [inserted_concat, map_fst_insertKey, ih, List.map_append, List.map_singleton,
      distinct_concat]

theorem lookupKey_cons (k : Value) (e : Value × Value) (es : List (Value × Value)) :
    lookupKey k (e :: es) = if same e.1 k then some e.2 else lookupKey k es := by
  unfold lookupKey
  rw [List.find?_cons]
  cases same e.1 k <;> rfl

theorem lookupKey_append (k : Value) (es fs : List (Value × Value)) :
    lookupKey k (es ++ fs) = (lookupKey k es).or (lookupKey k fs) := by
  simp [lookupKey, List.find?_append, Option.map_or]

/-- A value that is set is found, and no other changes. -/
theorem lookupKey_insertKey {k k' v : Value} (h : EquivalentOn (k :: k' :: es.map (·.1))) :
    lookupKey k (insertKey es k' v) = if same k' k then some v else lookupKey k es := by
  have hk : k ∈ k :: k' :: es.map (·.1) := by simp
  have hk' : k' ∈ k :: k' :: es.map (·.1) := by simp
  have hmem : ∀ e ∈ es, e.1 ∈ k :: k' :: es.map (·.1) := fun e he => by
    simp [List.mem_map_of_mem he]
  have hfound : ∀ e, es.find? (fun e => same e.1 k) = some e → same e.1 k' = same k' k := by
    intro e hf
    have hek : same e.1 k = true := by simpa using List.find?_some hf
    have he := hmem e (List.mem_of_find?_eq_some hf)
    rw [Bool.eq_iff_iff, ← h.same_congr hk' he hk hek]
    exact ⟨h.symm _ he _ hk', h.symm _ hk' _ he⟩
  unfold insertKey
  split
  · next hany =>
    obtain ⟨e', he', hsame⟩ := List.any_eq_true.1 hany
    have hkeep : ((fun e : Value × Value => same e.1 k) ∘ fun e =>
        if same e.1 k' then (e.1, v) else e) = fun e => same e.1 k := by
      funext e
      simp only [Function.comp]
      split <;> rfl
    simp only [lookupKey, List.find?_map, hkeep]
    cases hf : es.find? fun e => same e.1 k with
    | none =>
      have hne : same e'.1 k = false := by simpa using List.find?_eq_none.1 hf e' he'
      have hkk : same k' k ≠ true := fun hkk =>
        absurd (h.trans _ (hmem e' he') _ hk' _ hk hsame hkk) (by simp [hne])
      simp [hkk]
    | some e =>
      have := hfound e hf
      grind
  · next hnone =>
    rw [lookupKey_append, lookupKey_cons]
    cases hf : es.find? fun e => same e.1 k with
    | none => simp [lookupKey, hf]
    | some e =>
      have hne : same e.1 k' ≠ true := fun hek' =>
        hnone (List.any_eq_true.2 ⟨e, List.mem_of_find?_eq_some hf, hek'⟩)
      rw [hfound e hf] at hne
      simp [lookupKey, hf, hne]

/-- The last value of a key is found. -/
theorem lookupKey_inserted {k : Value} (h : EquivalentOn (k :: es.map (·.1))) :
    lookupKey k (inserted es) = lookupKey k es.reverse := by
  induction es using List.reverseRecOn with
  | nil => rfl
  | append_singleton es e ih =>
    have hkeys : (inserted es).map (·.1) ⊆ es.map (·.1) :=
      map_fst_inserted es ▸ distinct_subset _
    rw [inserted_concat, lookupKey_insertKey (h.mono ?_), ih (h.mono ?_), List.reverse_append,
      List.reverse_singleton, List.singleton_append, lookupKey_cons]
    · grind
    · grind

/-- Entries whose keys are not the same are known by their keys and the values found. -/
theorem eq_of_lookupKey {fs : List (Value × Value)} (hkeys : es.map (·.1) = fs.map (·.1))
    (hpairwise : (es.map (·.1)).Pairwise fun x y => same x y = false)
    (hrefl : ∀ k ∈ es.map (·.1), same k k = true)
    (hlookup : ∀ k ∈ es.map (·.1), lookupKey k es = lookupKey k fs) : es = fs := by
  induction es generalizing fs with
  | nil => simpa using hkeys.symm
  | cons e es ih =>
    cases fs with
    | nil => cases hkeys
    | cons f fs =>
      obtain ⟨k, v⟩ := e
      obtain ⟨k', w⟩ := f
      obtain ⟨rfl, hrestKeys⟩ : k = k' ∧ es.map (·.1) = fs.map (·.1) := by simpa using hkeys
      rw [List.map_cons, List.pairwise_cons] at hpairwise
      rw [List.map_cons, List.forall_mem_cons] at hrefl hlookup
      obtain rfl : v = w := by simpa [lookupKey_cons, hrefl.1] using hlookup.1
      have hrest : ∀ x ∈ es.map (·.1), lookupKey x es = lookupKey x fs := by
        intro x hx
        simpa [lookupKey_cons, hpairwise.1 x hx] using hlookup.2 x hx
      rw [ih hrestKeys hpairwise.2 hrefl.2 hrest]

/-- Backwards, a dictionary is the same if its keys come in the same order and have the same first
and last values. -/
theorem inserted_reverse (h : EquivalentOn (es.map (·.1))) :
    inserted es.reverse = inserted es ↔
      distinct (es.map (·.1)).reverse = distinct (es.map (·.1)) ∧
        ∀ k ∈ es.map (·.1), lookupKey k es = lookupKey k es.reverse := by
  have hfirst : ∀ k ∈ es.map (·.1), lookupKey k (inserted es.reverse) = lookupKey k es := by
    intro k hk
    rw [lookupKey_inserted (h.mono ?_), List.reverse_reverse]
    grind
  have hlast : ∀ k ∈ es.map (·.1), lookupKey k (inserted es) = lookupKey k es.reverse :=
    fun k hk => lookupKey_inserted (h.mono (by grind))
  constructor
  · intro heq
    constructor
    · rw [← List.map_reverse, ← map_fst_inserted, ← map_fst_inserted, heq]
    · intro k hk
      rw [← hfirst k hk, ← hlast k hk, heq]
  · rintro ⟨hkeys, hvalues⟩
    have hmap : (inserted es.reverse).map (·.1) = distinct (es.map (·.1)) := by
      rw [map_fst_inserted, List.map_reverse, hkeys]
    have hsub : ∀ k ∈ (inserted es.reverse).map (·.1), k ∈ es.map (·.1) := by
      intro k hk
      rw [hmap] at hk
      exact distinct_subset _ hk
    refine eq_of_lookupKey (hmap.trans (map_fst_inserted es).symm) ?_ ?_ ?_
    · rw [hmap]
      exact pairwise_distinct _
    · exact fun k hk => h.refl k (hsub k hk)
    · intro k hk
      rw [hfirst k (hsub k hk), hlast k (hsub k hk), hvalues k (hsub k hk)]

end

end Stackwise.Value
