import Stackwise.Fold
import Stackwise.Proofs.WellFormed
import Stackwise.Syntax.Read

/-!
# The constants that code loads

A constant goes into the table unless an entry is the same: of its class, and equal. The entry of a
constant is then the first of those that are the same (`Value.entered`), which need not be the
constant itself where equal values can still differ inside, as `(1,)` and `(True,)` do. In the code
of a tree the constants stand in the order of `Tree.loads`, and what is loaded for each of them is
read off the bytes by `Code.loaded`. `Tree.compile_loaded` says what that is, and when it is the
constant itself.
-/
namespace Stackwise

/-! ### Entering constants into a table -/

namespace Value

/-- The table after a constant is looked for. -/
def enter (table : List Value) (v : Value) : List Value :=
  match table.find? (sameConstant · v) with
  | some _ => table
  | Option.none => table ++ [v]

/-- The table after several constants. -/
def enterAll (table : List Value) : List Value → List Value
  | [] => table
  | v :: vs => enterAll (enter table v) vs

/-- The entries of several constants: the first that is the same, or the constant itself. -/
def entered (table : List Value) : List Value → List Value
  | [] => []
  | v :: vs => (table.find? (sameConstant · v)).getD v :: entered (enter table v) vs

theorem enterAll_append (table vs ws : List Value) :
    enterAll table (vs ++ ws) = enterAll (enterAll table vs) ws := by
  induction vs generalizing table with
  | nil => rfl
  | cons v vs ih => exact ih (enter table v)

theorem entered_append (table vs ws : List Value) :
    entered table (vs ++ ws) = entered table vs ++ entered (enterAll table vs) ws := by
  induction vs generalizing table with
  | nil => rfl
  | cons v vs ih => rw [List.cons_append, entered, entered, ih, List.cons_append]; rfl

theorem prefix_enter (table : List Value) (v : Value) : table <+: enter table v := by
  unfold enter
  split
  · exact List.prefix_rfl
  · exact List.prefix_append table [v]

theorem prefix_enterAll (table vs : List Value) : table <+: enterAll table vs := by
  induction vs generalizing table with
  | nil => exact List.prefix_rfl
  | cons v vs ih => exact (prefix_enter table v).trans (ih (enter table v))

theorem length_entered (table vs : List Value) : (entered table vs).length = vs.length := by
  induction vs generalizing table with
  | nil => rfl
  | cons v vs ih => rw [entered, List.length_cons, List.length_cons, ih]

/-- A search does not tell a table from the entries that were found in it. -/
theorem find?_enter {table found : List Value} (h : ∀ P, table.find? P = found.find? P) (v : Value)
    (P : Value → Bool) :
    (enter table v).find? P = (found ++ [(table.find? (sameConstant · v)).getD v]).find? P := by
  rw [List.find?_append, ← h P, enter]
  cases hv : table.find? (sameConstant · v) with
  | none => rw [List.find?_append]; rfl
  | some w =>
    have hw : w ∈ table := List.mem_of_find?_eq_some hv
    cases hP : table.find? P with
    | some u => rfl
    | none =>
      have hPw : P w ≠ true := List.find?_eq_none.1 hP w hw
      simp [hPw]

theorem find?_enterAll (vs : List Value) {table found : List Value}
    (h : ∀ P, table.find? P = found.find? P) (P : Value → Bool) :
    (enterAll table vs).find? P = (found ++ entered table vs).find? P := by
  induction vs generalizing table found with
  | nil => simpa [enterAll, entered] using h P
  | cons v vs ih =>
    rw [enterAll, entered, ih (find?_enter h v)]
    simp

/-- The entry of a constant is the first of the entries before it that is the same. -/
theorem getElem?_entered (vs : List Value) {k : Nat} {v : Value} (hv : vs[k]? = some v) :
    (entered [] vs)[k]? =
      some ((((entered [] vs).take k).find? (sameConstant · v)).getD v) := by
  obtain ⟨hk, rfl⟩ := List.getElem?_eq_some_iff.1 hv
  have hsplit : vs = vs.take k ++ vs[k] :: vs.drop (k + 1) := by simp
  have hlength : (entered [] (vs.take k)).length = k := by
    rw [length_entered, List.length_take]
    omega
  have hentered : entered [] vs = entered [] (vs.take k) ++
      entered (enterAll [] (vs.take k)) (vs[k] :: vs.drop (k + 1)) := by
    rw [← entered_append, ← hsplit]
  have hfind : (enterAll [] (vs.take k)).find? (sameConstant · vs[k]) =
      (entered [] (vs.take k)).find? (sameConstant · vs[k]) :=
    find?_enterAll (vs.take k) (fun _ => rfl) _
  rw [hentered, List.take_left' hlength, List.getElem?_append_right (by omega), hlength,
    Nat.sub_self, entered, List.getElem?_cons_zero, hfind]

/-- Every constant is its own entry exactly if it is the first one that is the same. -/
theorem entered_eq_self_iff (vs : List Value) :
    entered [] vs = vs ↔ ∀ k v w, vs[k]? = some v →
      (vs.take k).find? (sameConstant · v) = some w → w = v := by
  constructor
  · intro h k v w hv hw
    have hentry := getElem?_entered vs hv
    rw [h, hv, hw] at hentry
    exact (Option.some.inj hentry).symm
  · intro h
    have hprefix : ∀ k, (entered [] vs).take k = vs.take k := by
      intro k
      induction k with
      | zero => rfl
      | succ k ih =>
        have hnext : (entered [] vs)[k]? = vs[k]? := by
          cases hv : vs[k]? with
          | none => rwa [List.getElem?_eq_none_iff, length_entered, ← List.getElem?_eq_none_iff]
          | some v =>
            rw [getElem?_entered vs hv, ih]
            cases hw : (vs.take k).find? (sameConstant · v) with
            | none => rfl
            | some w => rw [h k v w hv hw]; rfl
        rw [List.take_add_one, List.take_add_one, ih, hnext]
    have hall := hprefix vs.length
    rwa [List.take_length, List.take_of_length_le (length_entered [] vs).le] at hall

end Value

/-! ### Constants of lines -/

namespace Line

/-- What lines load, with the table of constants at hand. -/
def loadedFrom (consts : Array Value) (ls : List Line) : List Value :=
  ls.filterMap fun
    | .const i _ => consts[i]?
    | _ => none

theorem loadedFrom_append (consts : Array Value) (ls ms : List Line) :
    loadedFrom consts (ls ++ ms) = loadedFrom consts ls ++ loadedFrom consts ms :=
  List.filterMap_append

theorem loadedFrom_eq_nil (consts : Array Value) {ls : List Line}
    (h : ∀ i v, .const i v ∉ ls) : loadedFrom consts ls = [] := by
  refine List.filterMap_eq_nil_iff.2 fun l hl => ?_
  cases l with
  | const i v => exact absurd hl (h i v)
  | _ => rfl

end Line

/-- Drafting enters constants into the table one after the other, and lines load their entries, also
from a table that has grown since. -/
def Draft.Enters (vs : List Value) (d : Draft (List Line)) : Prop :=
  ∀ p ls q, d p = some (ls, q) → q.consts.toList = Value.enterAll p.consts.toList vs ∧
    ∀ r : Pool, q.consts.toList <+: r.consts.toList →
      Line.loadedFrom r.consts ls = Value.entered p.consts.toList vs

namespace Draft.Enters

variable {xs ys : List Value} {d e : Draft (List Line)}

theorem lines {ls : List Line} (h : ∀ i v, .const i v ∉ ls) : Enters [] (lines ls) := by
  intro p ms q hl
  obtain ⟨rfl, rfl⟩ := lines_eq_some.1 hl
  exact ⟨rfl, fun r _ => Line.loadedFrom_eq_nil r.consts h⟩

theorem free {ls : List Line} (h : ∀ l ∈ ls, l.free = true) : Enters [] (Draft.lines ls) :=
  lines fun _ _ hv => by cases h _ hv

theorem join (hd : Enters xs d) (he : Enters ys e) : Enters (xs ++ ys) (d ++ e) := by
  intro p ls q h
  obtain ⟨ms, ns, r, hm, hn, rfl⟩ := join_eq_some.1 h
  obtain ⟨hr, hms⟩ := hd _ _ _ hm
  obtain ⟨hq, hns⟩ := he _ _ _ hn
  refine ⟨by rw [hq, hr, Value.enterAll_append], fun s hs => ?_⟩
  have hbelow : r.consts.toList <+: s.consts.toList :=
    (Value.prefix_enterAll r.consts.toList ys).trans (hq ▸ hs)
  rw [Line.loadedFrom_append, hms s hbelow, hns s hs, hr, Value.entered_append]

/-- What does not look at the table of constants. -/
theorem bind {α : Type} {c : Draft α} {g : α → Draft (List Line)}
    (hc : ∀ p a q, c p = some (a, q) → q.consts = p.consts) (hg : ∀ a, Enters xs (g a)) :
    Enters xs (c >>= g) := by
  intro p ls q h
  obtain ⟨a, r, ha, hls⟩ := bind_eq_some.1 h
  rw [← hc p a r ha]
  exact hg a r ls q hls

theorem const (v : Value) :
    Enters [v] (do let i ← addConst v; Draft.lines [.const i v]) := by
  intro p ls q h
  obtain ⟨i, r, hi, hl⟩ := bind_eq_some.1 h
  obtain ⟨rfl, rfl⟩ := lines_eq_some.1 hl
  obtain ⟨-, ⟨hfound, rfl⟩ | ⟨hnone, rfl, rfl⟩⟩ := addConst_eq_some.1 hi
  · obtain ⟨hlt, hsame, hfirst⟩ := List.findIdx?_eq_some_iff_getElem.1 hfound
    have hfind : q.consts.toList.find? (Value.sameConstant · v) = some q.consts.toList[i] :=
      List.find?_eq_some_iff_getElem.2 ⟨hsame, i, hlt, rfl, by simpa using hfirst⟩
    refine ⟨by simp [Value.enterAll, Value.enter, hfind], fun r hr => ?_⟩
    have hentry : r.consts[i]? = some q.consts.toList[i] :=
      getElem?_of_prefix hr (by simp)
    simp [Line.loadedFrom, hentry, Value.entered, hfind]
  · have hfind : p.consts.toList.find? (Value.sameConstant · v) = none := by
      rw [List.find?_eq_none]
      rw [List.findIdx?_eq_none_iff] at hnone
      simpa using hnone
    refine ⟨by simp [Value.enterAll, Value.enter, hfind], fun r hr => ?_⟩
    have hentry : r.consts[p.consts.size]? = some v := getElem?_of_prefix hr (by simp)
    simp [Line.loadedFrom, hentry, Value.entered, hfind]

theorem addName {n : Name} (p : Pool) (i : Nat) (q : Pool) (h : addName n p = some (i, q)) :
    q.consts = p.consts := by
  obtain ⟨-, ⟨-, rfl⟩ | ⟨-, -, rfl⟩⟩ := addName_eq_some.1 h <;> rfl

theorem useName (use : NameUse) (n : Name) : Enters [] (Draft.useName use n) :=
  bind addName fun _ => lines (by simp)

theorem update (n : Name) (hd : Enters xs d) (he : Enters ys e) :
    Enters (xs ++ ys) (Draft.update (some n) d e) := by
  refine bind addName fun i => ?_
  have named : ∀ use, Enters [] (Draft.lines [.name use i n]) := fun use => lines (by simp)
  simpa using (((named .load).join hd).join he).join (named .store)

theorem stable : Stable (fun _ => True) (fun _ => True) Enters :=
  .of_free (fun _ _ _ _ h => by cases h) free (fun _ => const _) (fun use _ _ => useName use _)
    join (fun _ => update _) (bind fun _ _ _ h => by cases h; rfl)

end Draft.Enters

/-! ### Constants of code -/

namespace Code

/-- The constant that is loaded at a place, if one is. -/
def constantAt? (c : Code) (s : Nat) : Option Value :=
  match c.decode? s with
  | some (.loadConst, b) => c.consts[c.pending s * 256 + b]?
  | _ => none

theorem constantAt?_eq_none {c : Code} {s b : Nat} {op : Opcode}
    (hd : c.decode? s = some (op, b)) (hop : op ≠ .loadConst) : c.constantAt? s = none := by
  cases op with
  | loadConst => exact absurd rfl hop
  | _ => rw [constantAt?, hd]

/-- The constants that are loaded, in the order of the code. -/
def loaded (c : Code) : List Value := (List.range c.size).filterMap c.constantAt?

variable {code : Code} {ls : List Line} {p : Pool} (h : code.Lists ls p)
include h

/-- The constants that are loaded in one line. -/
theorem Lists.loaded_line {pre post : List Line} {l : Line} (hls : ls = pre ++ l :: post) :
    (List.range' (Line.totalWidth pre) l.width).filterMap code.constantAt? =
      Line.loadedFrom code.consts [l] := by
  cases hop : l.operation? with
  | some o =>
    obtain ⟨op, arg⟩ := o
    have hprefixes : (List.range' (Line.totalWidth pre) (splitOperand arg).1.length).filterMap
        code.constantAt? = [] := by
      refine List.filterMap_eq_nil_iff.2 fun s hs => ?_
      obtain ⟨k, hk, rfl⟩ := List.mem_range'.1 hs
      rw [Nat.one_mul]
      exact constantAt?_eq_none (h.decode?_prefix hls hop hk) (by decide)
    have hlast := h.decode?_operation hls hop
    have hpending := h.pending_line hls hop (Nat.le_refl _)
    rw [List.take_length] at hpending
    rw [Line.width_of_operation hop, ← List.range'_append_1, List.filterMap_append, hprefixes,
      List.nil_append, List.range'_one]
    have hother : op ≠ .loadConst → [Line.totalWidth pre + (splitOperand arg).1.length].filterMap
        code.constantAt? = [] := by
      intro hne
      simp [constantAt?_eq_none hlast hne]
    cases l with
    | const i v =>
      cases hop
      simp only [List.filterMap_cons, List.filterMap_nil, constantAt?, hlast, hpending,
        splitOperand_value, Line.loadedFrom]
    | name use i n =>
      cases hop
      exact hother (by cases use <;> decide)
    | plain op arg hplain =>
      cases hop
      exact hother fun he => by simp [he, Opcode.isPlain] at hplain
    | jump kind t => cases hop
    | label t => cases hop
  | none =>
    cases l with
    | jump kind t =>
      obtain ⟨n, hn, -⟩ := h.decode?_line hls (Line.jump_cell kind t)
      rw [Nat.add_zero] at hn
      have hne : kind.opcode ≠ .loadConst := by cases kind <;> decide
      simp [constantAt?_eq_none hn hne, Line.loadedFrom]
    | label t => simp [Line.loadedFrom]
    | _ => cases hop

theorem Lists.loaded_lines {pre post : List Line} (hls : ls = pre ++ post) :
    (List.range' (Line.totalWidth pre) (Line.totalWidth post)).filterMap code.constantAt? =
      Line.loadedFrom code.consts post := by
  induction post generalizing pre with
  | nil => rfl
  | cons l post ih =>
    have hrest := @ih (pre ++ [l]) (by simp [hls])
    rw [Line.totalWidth_cons, ← List.range'_append_1, List.filterMap_append, h.loaded_line hls]
    rw [Line.totalWidth_append, Line.totalWidth_cons, Line.totalWidth_nil, Nat.add_zero] at hrest
    rw [hrest, ← Line.loadedFrom_append, List.singleton_append]

theorem Lists.loaded_eq : code.loaded = Line.loadedFrom code.consts ls := by
  rw [loaded, List.range_eq_range', h.size_eq]
  exact h.loaded_lines (List.nil_append ls).symm

end Code

/-- The code of a tree loads a constant for each of the constants of the tree, in order: the first
constant loaded so far that is of the same class and equal, if there is one, and else the constant
itself. So all are loaded as they are exactly if no constant comes after one that is the same but
not the same value at every depth. -/
theorem Tree.compile_loaded {t : Tree} {code : Code} (h : t.compile = .ok code) :
    code.loaded.length = t.loads.length ∧
      (∀ k v, t.loads[k]? = some v → code.loaded[k]? =
        some (((code.loaded.take k).find? (Value.sameConstant · v)).getD v)) ∧
      (code.loaded = t.loads ↔ ∀ k v w, t.loads[k]? = some v →
        (t.loads.take k).find? (Value.sameConstant · v) = some w → w = v) := by
  obtain ⟨ls, p, hd, hls⟩ := compile_eq_ok.1 h
  obtain ⟨-, hloaded⟩ :=
    Draft.Enters.stable.draft t (fun _ _ => trivial) (fun _ _ => trivial) _ _ _ hd
  have heq : code.loaded = Value.entered [] t.loads := by
    rw [hls.loaded_eq, hls.consts]
    exact hloaded p List.prefix_rfl
  rw [heq]
  exact ⟨Value.length_entered [] _, fun _ _ => Value.getElem?_entered _,
    Value.entered_eq_self_iff _⟩

/-- Two tuples that are equal and of one class, with different items. -/
def equalTuples : String := "(1,)\n(True,)"

/-- Whether constants are those tuples. -/
def areEqualTuples : List Value → Bool
  | [.tuple [.int 1], .tuple [.bool true]] => true
  | _ => false

theorem Tree.compile_loaded_equalTuples :
    ∃ t t' code, read .program equalTuples = .ok t ∧ t.fold = .ok t' ∧ t'.compile = .ok code ∧
      t'.loads = [.tuple [.int 1], .tuple [.bool true]] ∧
      code.loaded[1]? = some (.tuple [.int 1]) ∧ code.loaded ≠ t'.loads := by
  obtain ⟨t, hread, t', hfold, code, hcode, hloads⟩ :
      ∃ t, read .program equalTuples = .ok t ∧ ∃ t', t.fold = .ok t' ∧
        ∃ code, t'.compile = .ok code ∧ areEqualTuples t'.loads = true := by
    decide +kernel
  have hloads : t'.loads = [.tuple [.int 1], .tuple [.bool true]] := by
    unfold areEqualTuples at hloads
    split at hloads
    · assumption
    · cases hloads
  obtain ⟨-, hloaded, -⟩ := Tree.compile_loaded hcode
  rw [hloads] at hloaded
  have hfirst : code.loaded[0]? = some (.tuple [.int 1]) := hloaded 0 (.tuple [.int 1]) rfl
  have hsecond := hloaded 1 (.tuple [.bool true]) rfl
  rw [List.take_one, List.head?_eq_getElem?, hfirst] at hsecond
  have hequal : Value.sameConstant (.tuple [.int 1]) (.tuple [.bool true]) = true := by
    decide +kernel
  have hsame : code.loaded[1]? = some (.tuple [.int 1]) := by
    simpa [hequal] using hsecond
  refine ⟨t, t', code, hread, hfold, hcode, hloads, hsame, fun heq => ?_⟩
  rw [heq, hloads] at hsame
  cases hsame

end Stackwise
