import Stackwise.Proofs.Building
import Stackwise.Proofs.Settled

/-!
# Code without loops

Both jumps of a condition lead forward, and only loops have others. So in code without loops the
machine comes to places in their order, and to none twice: each turn of its loop goes on to a
greater place (`Code.Forward.turn`). It is done after as many turns as there are places, unless one
of its instructions never comes back, and of all instructions only a call can do that.
-/
namespace Stackwise

/-! ### Jumps among lines -/

/-- A node whose code goes back. -/
def Tree.isLoop : Tree → Bool
  | .whileLoop _ _ _ | .forLoop _ _ _ _ => true
  | _ => false

namespace Line

/-- Every jump leads to a label after it, among the lines themselves or among later ones. None takes
items off an iterator. -/
def Forward (later : List Marker) : List Line → Prop
  | [] => True
  | .jump kind m :: ls => kind ≠ .atEnd ∧ m ∈ labels ls ++ later ∧ Forward later ls
  | _ :: ls => Forward later ls

theorem forward_append {later : List Marker} {ls ms : List Line} :
    Forward later (ls ++ ms) ↔ Forward (labels ms ++ later) ls ∧ Forward later ms := by
  induction ls with
  | nil => simp [Forward]
  | cons l ls ih => cases l <;> simp [Forward, ih, and_assoc]

theorem Forward.mono {later later' : List Marker} {ls : List Line} (h : Forward later ls)
    (hsub : later ⊆ later') : Forward later' ls := by
  induction ls with
  | nil => trivial
  | cons l ls ih =>
    cases l with
    | jump kind m =>
      obtain ⟨hkind, hm, hls⟩ := h
      exact ⟨hkind, List.mem_append.2 ((List.mem_append.1 hm).imp_right fun h => hsub h), ih hls⟩
    | _ => exact ih h

theorem Forward.weaken {ls : List Line} (h : Forward [] ls) (later : List Marker) :
    Forward later ls :=
  h.mono (List.nil_subset later)

end Line

/-- The lines of a draft jump forward. -/
def Draft.Forward (d : Draft (List Line)) : Prop :=
  ∀ p ls q, d p = some (ls, q) → Line.Forward [] ls

namespace Draft.Forward

variable {d e f : Draft (List Line)}

theorem lines {ls : List Line} (h : Line.Forward [] ls) : Forward (lines ls) := by
  intro p ms q hd
  obtain ⟨rfl, -⟩ := lines_eq_some.1 hd
  exact h

theorem join (hd : Forward d) (he : Forward e) : Forward (d ++ e) := by
  intro p ls q h
  obtain ⟨ms, ns, r, hms, hns, rfl⟩ := join_eq_some.1 h
  exact Line.forward_append.2 ⟨(hd p ms r hms).weaken _, he r ns q hns⟩

theorem bind {α : Type} {c : Draft α} {g : α → Draft (List Line)} (h : ∀ a, Forward (g a)) :
    Forward (c >>= g) := by
  intro p ls q hd
  obtain ⟨a, r, -, ha⟩ := bind_eq_some.1 hd
  exact h a r ls q ha

/-- The label of the other branch comes after the branch, and the label of the end after both. -/
theorem conditional (hd : Forward d) (he : Forward e) (hf : Forward f) :
    Forward (conditional d e f) := by
  intro p ls q h
  obtain ⟨ds, es, fs, p₁, p₂, hds, hes, hfs, rfl⟩ := conditional_eq_some.1 h
  have htest := (hd _ _ _ hds).weaken
  have hbody := (he _ _ _ hes).weaken
  have horelse := (hf _ _ _ hfs).weaken
  simp [Line.forward_append, Line.Forward, Line.labels, htest, hbody, horelse]

theorem update (n : Name) (hd : Forward d) (he : Forward e) :
    Forward (Draft.update (some n) d e) := by
  refine bind fun i => ?_
  have named : ∀ use, Forward (Draft.lines [.name use i n]) := fun _ => lines trivial
  exact (((named .load).join hd).join he).join (named .store)

theorem stableOn : StableOn (fun t => t.isLoop = false) Forward where
  failure := nofun
  nil := lines trivial
  plain _ _ _ := lines trivial
  const _ := bind fun _ => lines trivial
  useName _ _ := bind fun _ => lines trivial
  join := join
  update _ _ := update _
  conditional _ := conditional
  whileLoop h := by cases h
  forLoop h := by cases h

end Draft.Forward

/-! ### Jumps in code -/

/-- Every jump leads to a place after its own, and none takes items off an iterator. -/
structure Code.Forward (c : Code) : Prop where
  jump : ∀ kind s b, c.decode? s = some (JumpKind.opcode kind, b) →
    s < c.pending s * 256 + b ∧ c.pending s * 256 + b ≤ c.size
  noItems : ∀ s b, c.decode? s ≠ some (.forIter, b)

/-- A jump in the code of lines that jump forward. -/
theorem Code.Lists.jump_forward {code : Code} {ls : List Line} {p : Pool} (h : code.Lists ls p)
    (hls : Line.Forward [] ls) {kind : JumpKind} {s b : Nat}
    (hd : code.decode? s = some (kind.opcode, b)) :
    kind ≠ .atEnd ∧ s < code.pending s * 256 + b ∧ code.pending s * 256 + b ≤ code.size := by
  obtain ⟨pre, l, post, k, rfl, rfl, hline⟩ := h.line_at hd
  obtain ⟨hop, -⟩ | ⟨hk, hop | ⟨kind', m, rfl, hop, hm⟩⟩ := hline
  · exact absurd hop (JumpKind.opcode_ne_extendedArg kind)
  · exact absurd rfl ((Line.operation?_ordinary hop).2 kind)
  · obtain rfl : k = 0 := by simpa using hk
    obtain rfl : kind = kind' := by cases kind <;> cases kind' <;> first | rfl | cases hop
    obtain ⟨hkind, hlater, -⟩ := (Line.forward_append.1 hls).2
    rw [List.append_nil] at hlater
    have hnotin : m ∉ Line.labels (pre ++ [Line.jump kind m]) := by
      have hnodup := h.labels
      rw [List.append_cons, Line.labels_append, List.nodup_append] at hnodup
      exact fun hmem => hnodup.2.2 m hmem m hlater rfl
    have hstart : code.IsStart (Line.totalWidth pre) := h.isStart_totalWidth rfl
    rw [Nat.add_zero, Code.pending_of_isStart hstart, Nat.zero_mul, Nat.zero_add]
    refine ⟨hkind, ?_, (h.isStart_label hm).1⟩
    rw [List.append_cons, Line.lookup_append_of_notMem hnotin] at hm
    obtain ⟨between, _, -, -, rfl⟩ := Line.lookup_labelsFrom hm
    simp
    omega

theorem Code.Lists.forward {code : Code} {ls : List Line} {p : Pool} (h : code.Lists ls p)
    (hls : Line.Forward [] ls) : code.Forward where
  jump _ _ _ hd := (h.jump_forward hls hd).2
  noItems s b := by
    change code.decode? s ≠ some (JumpKind.opcode .atEnd, b)
    exact fun hd => (h.jump_forward hls hd).1 rfl

/-- The code of a tree without loops jumps forward. -/
theorem Tree.forward_code {t : Tree} {code : Code} (h : t.compile = .ok code)
    (hloop : ∀ s ∈ t.visited, s.isLoop = false) : code.Forward := by
  obtain ⟨ls, p, hd, hls⟩ := compile_eq_ok.1 h
  exact hls.forward (Draft.Forward.stableOn.draft t hloop {} ls p hd)

/-! ### Runs of code that jumps forward -/

/-- The loop takes no turn any more: it is at the end of the code, or at an instruction that
fails. -/
def Exec.Rests (c : Code) (s : Nat × Machine) : Prop :=
  s.2.pc = c.size ∨ ∃ op b f m', c.decode? s.2.pc = some (op, b) ∧ op ≠ .extendedArg ∧
    outcome (execute c op (s.1 * 256 + b)) (s.2.at (s.2.pc + 1)) = (.error f, m')

theorem Code.WellFormed.rests_or_turn {c : Code} (h : c.WellFormed) {s : Nat × Machine}
    (hs : c.Inside s.1 s.2) : Exec.Rests c s ∨ ∃ t, Exec.Turn c s t := by
  obtain ⟨high, m⟩ := s
  rcases Nat.lt_or_eq_of_le hs.1 with hlt | hend
  · obtain ⟨op, b, hd⟩ := h.operation m.pc hlt
    by_cases hop : op = .extendedArg
    · subst hop
      exact .inr ⟨_, .extend hd⟩
    · rcases hrun : outcome (Exec.execute c op (high * 256 + b)) (m.at (m.pc + 1)) with
        ⟨f | ⟨⟩, m'⟩
      · exact .inl (.inr ⟨op, b, f, m', hd, hop, hrun⟩)
      · exact .inr ⟨_, .execute hd hop hrun⟩
  · exact .inl (.inl hend)

namespace Code.Forward

variable {c : Code} (h : c.Forward)
include h

theorem with_consts (consts : Array Value) : Forward { c with consts } where
  jump kind s b hd := by
    rw [pending_with_consts]
    exact h.jump kind s b hd
  noItems := h.noItems

/-- Every turn of the loop goes on to a greater place. -/
theorem turn {s s' : Nat × Machine} (ht : Exec.Turn c s s') (hs : c.Inside s.1 s.2) :
    s.2.pc < s'.2.pc := by
  cases ht with
  | extend hd => exact Nat.lt_succ_self _
  | @execute high b m m' op hd hop hrun =>
    obtain rfl : high = c.pending m.pc := hs.2
    rcases Exec.execute_pc hrun with hpc | ⟨⟨kind, rfl⟩, hpc⟩
    · exact hpc ▸ Nat.lt_succ_self m.pc
    · exact hpc ▸ (h.jump kind m.pc b hd).1

/-- The loop never comes back to a place. -/
theorem turns (hc : c.WellFormed) {s s' : Nat × Machine}
    (ht : Relation.TransGen (Exec.Turn c) s s') (hs : c.Inside s.1 s.2) : s.2.pc < s'.2.pc := by
  induction ht with
  | single ht => exact h.turn ht hs
  | tail hts ht ih => exact ih.trans (h.turn ht (hc.turns hts.to_reflTransGen hs))

/-- After no more turns than there are places left, the loop is at rest. -/
theorem comes_to_rest (hc : c.WellFormed) (s : Nat × Machine) (hs : c.Inside s.1 s.2) :
    ∃ s' k, Relation.ReflTransGen (Exec.Turn c) s s' ∧ Exec.Rests c s' ∧ k ≤ c.size - s.2.pc ∧
      ∀ n, outcome (Exec.runFrom c (n + k) s.1) s.2 = outcome (Exec.runFrom c n s'.1) s'.2 := by
  induction hn : c.size - s.2.pc using Nat.strong_induction_on generalizing s with
  | _ n ih =>
    subst hn
    rcases hc.rests_or_turn hs with hrests | ⟨t, ht⟩
    · exact ⟨s, 0, .refl, hrests, Nat.zero_le _, fun _ => rfl⟩
    · have hlt := h.turn ht hs
      have hinside := hc.turn ht hs
      have hless : c.size - t.2.pc < c.size - s.2.pc := by have := hinside.1; omega
      obtain ⟨s', k, hturns, hrests, hk, hrun⟩ := ih _ hless t hinside rfl
      refine ⟨s', k + 1, .head ht hturns, hrests, by omega, fun n => ?_⟩
      rw [← Nat.add_assoc, ht.runFrom, hrun]

end Code.Forward

/-! ### Instructions come back -/

namespace Exec

/-- An operation that comes back, with a result or a fault. -/
def Settles {α : Type} (e : Exec α) : Prop := ∀ m, Settled (outcome e m).1

namespace Settles

variable {α β : Type} {e : Exec α}

theorem pure (a : α) : Settles (pure a) := fun _ => settled_ok a

theorem throw {f : Fault} (h : f ≠ .endless) : Settles (throw f : Exec α) :=
  fun _ => settled_error.2 h

theorem bind {g : α → Exec β} (he : Settles e) (hg : ∀ a, Settles (g a)) : Settles (e >>= g) := by
  intro m
  rw [outcome_bind]
  rcases hm : outcome e m with ⟨f | a, m'⟩
  · have hf := he m
    rw [hm] at hf
    exact settled_error.2 (settled_error.1 hf)
  · exact hg a m'

theorem map (g : α → β) (he : Settles e) : Settles (g <$> e) := by
  rw [← bind_pure_comp]
  exact he.bind fun a => pure (g a)

theorem ofExcept {r : Except Fault α} (h : Settled r) : Settles (ofExcept r) := by
  cases r with
  | ok a => exact pure a
  | error f => exact throw (settled_error.1 h)

theorem act {a : Act α} (h : a.Returns fun _ => True) : Settles (act a) := by
  intro m
  obtain ⟨x, w, hx, -⟩ := h m.world
  simp [hx]

theorem push (v : Value) : Settles (push v) := fun _ => settled_ok ()

theorem jump (target : Nat) : Settles (jump target) := fun _ => settled_ok ()

theorem pop : Settles pop := by
  intro m
  rcases h : m.stack with _ | ⟨v, rest⟩ <;> simp [Exec.pop, h]

theorem top : Settles top := by
  intro m
  rcases h : m.stack with _ | ⟨v, rest⟩ <;> simp [Exec.top, h]

theorem popMany (n : Nat) : Settles (popMany n) := by
  induction n with
  | zero => exact pure []
  | succ n ih => exact pop.bind fun v => ih.map (v :: ·)

theorem popMembers (n : Nat) (xs : List Value) : Settles (popMembers n xs) := by
  induction n generalizing xs with
  | zero => exact pure xs
  | succ n ih => exact pop.bind fun v => (ofExcept v.settled_checkKey).bind fun _ => ih _

theorem popEntries (n : Nat) (es : List (Value × Value)) : Settles (popEntries n es) := by
  induction n generalizing es with
  | zero => exact pure es
  | succ n ih =>
    exact pop.bind fun k => pop.bind fun v => (ofExcept k.settled_checkKey).bind fun _ => ih _

theorem entryAt {table : Array α} (i : Nat) : Settles (entryAt table i) := by
  unfold Exec.entryAt
  split
  · exact pure _
  · exact throw (by split <;> nofun)

theorem lookup (name : Name) : Settles (lookup name) := by
  refine (ofExcept name.settled_checkKey).bind fun _ m => ?_
  simp only [outcome_bind, outcome_get, chain_ok]
  cases m.globals.lookup name with
  | some v => exact settled_ok v
  | none =>
    dsimp only
    cases predefined? name with
    | some v => exact settled_ok v
    | none =>
      exact ((ofExcept name.settled_repr).bind fun s => throw (f := .undefinedName s) nofun) m

theorem store (name : Name) (v : Value) : Settles (store name v) :=
  (ofExcept name.settled_checkKey).bind fun _ _ => settled_ok ()

theorem delete (name : Name) : Settles (delete name) := by
  refine (ofExcept name.settled_checkKey).bind fun _ m => ?_
  simp only [outcome_bind, outcome_get, chain_ok]
  cases m.globals.lookup name with
  | some v => exact settled_ok ()
  | none => cases name <;> exact settled_error.2 nofun

theorem display (v : Value) : Settles (display v) := by
  unfold Exec.display
  split
  · exact pure ()
  · exact (ofExcept (Value.settled_repr _)).bind fun s => act fun w => ⟨(), _, rfl, trivial⟩

theorem toIterator (v : Value) : Settles (Exec.act v.toIterator) := by
  intro m
  rw [outcome_act]
  simp only [Value.toIterator, outcome_bind]
  unfold Value.iterate
  split
  · exact settled_ok _
  · exact settled_ok _
  · split
    · exact settled_ok _
    · exact settled_error.2 (by simp)

/-- An instruction comes back unless it is a call or takes an item off an iterator. -/
theorem execute (code : Code) {op : Opcode} (arg : Nat) (hcall : op ≠ .callFunction)
    (hitem : op ≠ .forIter) : Settles (execute code op arg) := by
  cases op with
  | callFunction => exact absurd rfl hcall
  | forIter => exact absurd rfl hitem
  | jump => exact jump arg
  | jumpIfFalse =>
    refine top.bind fun v => ?_
    split
    · exact jump arg
    · exact pure ()
  | loadConst => exact (entryAt _).bind push
  | printExpr => exact pop.bind display
  | dupTop => exact top.bind push
  | popTop => exact pop.bind fun _ => pure ()
  | loadName => exact (entryAt _).bind fun n => (lookup n).bind push
  | storeName => exact (entryAt _).bind fun n => pop.bind fun v => store n v
  | delName => exact (entryAt _).bind delete
  | buildList => exact (popMany _).bind fun vs => push _
  | buildTuple => exact (popMany _).bind fun vs => push _
  | buildSet => exact (popMembers _ _).bind fun vs => push _
  | buildDict => exact (popEntries _ _).bind fun es => push _
  | binary op =>
    refine pop.bind fun right => pop.bind fun left => (ofExcept (op.settled_apply _ _)).bind ?_
    exact fun v => (act (Act.markObject_returns v)).bind push
  | unary op =>
    refine pop.bind fun v => (ofExcept (op.settled_apply v)).bind ?_
    exact fun w => (act (Act.markObject_returns w)).bind push
  | index => exact pop.bind fun i => pop.bind fun v => (ofExcept (v.settled_index i)).bind push
  | extendedArg => exact pure ()
  | getIter => exact pop.bind fun v => (toIterator v).bind push

end Settles

/-- Every call that a run of `code` from the machine `m` makes comes back. -/
def CallsReturn (code : Code) (m : Machine) : Prop :=
  ∀ loaded high s b, Visits code m loaded high s → loaded.decode? s.pc = some (.callFunction, b) →
    Settled (outcome (execute loaded .callFunction (high * 256 + b)) (s.at (s.pc + 1))).1

end Exec

/-! ### Programs without loops -/

/-- How a run of code that jumps forward ends, with every bound greater than the number of
instructions: at the end of the code, or with the fault of an instruction. -/
theorem Code.Forward.runWithin_ends {code : Code} (h : code.Forward) (hc : code.WellFormed)
    (m : Machine) :
    ∃ loaded high s r m', Exec.Visits code m loaded high s ∧
      (∀ fuel, code.size < fuel → m.perform (Exec.runWithin fuel code) = (r, m')) ∧
      (s.pc = code.size ∧ m' = s ∧ r = (if s.stack.isEmpty then .ok () else .error .leftOver) ∨
        ∃ op b f, loaded.decode? s.pc = some (op, b) ∧
          outcome (Exec.execute loaded op (high * 256 + b)) (s.at (s.pc + 1)) = (.error f, m') ∧
          r = .error f ∧ (f = .endless → op = .callFunction)) := by
  obtain ⟨consts, w, hload, hsize⟩ := Exec.load_returns code m
  have hloaded := h.with_consts consts
  obtain ⟨⟨high, s⟩, k, hturns, hrests, hk, hrun⟩ := hloaded.comes_to_rest (hc.with_consts hsize)
    (0, Machine.at { m with world := w } 0) ⟨Nat.zero_le _, rfl⟩
  have hk : k ≤ code.size := hk.trans (Nat.sub_le _ _)
  have hperform : ∀ fuel, code.size < fuel → ∃ n, m.perform (Exec.runWithin fuel code) =
      chain (outcome (Exec.runFrom { code with consts } (n + 1) high) s) fun _ m' =>
        (if m'.stack.isEmpty then .ok () else .error .leftOver, m') := by
    intro fuel hfuel
    obtain ⟨n, rfl⟩ : ∃ n, fuel = n + 1 + k := ⟨fuel - (k + 1), by omega⟩
    exact ⟨n, by rw [Exec.perform_runWithin _ hload, hrun]⟩
  refine ⟨{ code with consts }, high, s, ?_⟩
  rcases hrests with hend | ⟨op, b, f, m', hd, hop, hfail⟩
  · have hfetch : ({ code with consts } : Code).fetch? s.pc = none := by
      by_contra hf
      exact absurd hend ((hc.with_consts hsize).lt_size_of_fetch? hend.le hf).ne
    refine ⟨_, s, ⟨_, hload, hturns⟩, fun fuel hfuel => ?_, .inl ⟨hend, rfl, rfl⟩⟩
    obtain ⟨n, hn⟩ := hperform fuel hfuel
    rw [hn, Exec.runFrom_end hfetch, chain_ok]
  · refine ⟨.error f, m', ⟨_, hload, hturns⟩, fun fuel hfuel => ?_,
      .inr ⟨op, b, f, hd, hfail, rfl, ?_⟩⟩
    · obtain ⟨n, hn⟩ := hperform fuel hfuel
      rw [hn, Exec.runFrom_execute hd hop, hfail, chain_error, chain_error]
    · rintro rfl
      by_contra hcall
      have hsettles := Exec.Settles.execute { code with consts } (high * 256 + b) hcall
        (fun hitem => hloaded.noItems _ _ (hitem ▸ hd)) (s.at (s.pc + 1))
      rw [hfail] at hsettles
      exact hsettles rfl

/-- Code of a tree without loops only jumps forward, to a place after that of the jump and not past
the end. In a run of it from any machine the loop comes to greater and greater places, so that no
instruction is executed twice. The run ends after no more turns than there are instructions, at the
end of the code or with the fault of an instruction; that it does not end can only be due to a
call. -/
theorem Tree.compile_terminates {t : Tree} {code : Code} (h : t.compile = .ok code)
    (hloop : ∀ s ∈ t.visited, s.isLoop = false) :
    (∀ kind s b, code.decode? s = some (JumpKind.opcode kind, b) →
      s < code.pending s * 256 + b ∧ code.pending s * 256 + b ≤ code.size) ∧
    ∀ m : Machine,
      (∀ loaded high s, Exec.Visits code m loaded high s →
        ∀ s', Relation.TransGen (Exec.Turn loaded) (high, s) s' → s.pc < s'.2.pc) ∧
      (∃ loaded high s r m', Exec.Visits code m loaded high s ∧
        (∀ fuel, code.size < fuel → m.perform (Exec.runWithin fuel code) = (r, m')) ∧
        (s.pc = code.size ∧ m' = s ∧ r = (if s.stack.isEmpty then .ok () else .error .leftOver) ∨
          ∃ op b f, loaded.decode? s.pc = some (op, b) ∧
            outcome (Exec.execute loaded op (high * 256 + b)) (s.at (s.pc + 1)) = (.error f, m') ∧
            r = .error f ∧ (f = .endless → op = .callFunction))) ∧
      (Exec.CallsReturn code m → ∃ r m', m.Halts code r m') := by
  have hc := wellFormed_code h
  have hforward := forward_code h hloop
  refine ⟨hforward.jump, fun m => ⟨?_, hforward.runWithin_ends hc m, fun hcalls => ?_⟩⟩
  · intro loaded high s hvisits s' hturns
    obtain ⟨consts, w, hsize, rfl, hbefore⟩ := hvisits.turns
    have hloaded := hc.with_consts hsize
    exact (hforward.with_consts consts).turns hloaded hturns
      (hloaded.turns hbefore ⟨Nat.zero_le _, rfl⟩)
  · obtain ⟨loaded, high, s, r, m', hvisits, hrun, hend⟩ := hforward.runWithin_ends hc m
    refine ⟨r, m', ?_, _, hrun _ (Nat.lt_succ_self _)⟩
    rintro rfl
    rcases hend with ⟨-, -, hr⟩ | ⟨op, b, f, hd, hfail, hr, hcall⟩
    · split at hr <;> cases hr
    · cases hr
      obtain rfl := hcall rfl
      have hsettled := hcalls loaded high s b hvisits hd
      rw [hfail] at hsettled
      exact hsettled rfl

/-- A choice in a branch of another one. -/
theorem Tree.compile_terminates_nested :
    ∃ code, (program [branch (var "a") [set "b" (.ifExp (var "c") (num 1) (num 2))]
        [.expr (callOf "print" [var "b"])]]).compile = .ok code ∧
      ∀ m : Machine, ∃ r m', ∀ fuel, code.size < fuel →
        m.perform (Exec.runWithin fuel code) = (r, m') := by
  refine exists_ok_and (by decide +kernel) fun code hcode m => ?_
  obtain ⟨_, _, _, r, m', -, hrun, -⟩ :=
    ((compile_terminates hcode (by decide +kernel)).2 m).2.1
  exact ⟨r, m', hrun⟩

end Stackwise
