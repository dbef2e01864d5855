import Stackwise.Proofs.Balance

/-!
# Calls

A call with arguments takes them and the function, whatever is beneath, and leaves the value of the
call in their place, or nothing if it fails. Where the code of a call expression is run to its end,
it has added one value to the stack. Without arguments this goes wrong: the instruction takes the
whole stack for arguments, finds no function and fails, so that such code is never run to its end.
All of this is `Tree.call_of_every_arity`.
-/
namespace Stackwise

/-- What a call makes of a function, its arguments and what lies beneath them. -/
theorem Exec.execute_call (code : Code) {m : Machine} {f : Value} {args beneath : List Value}
    (hne : args ≠ []) (hm : m.stack = args.reverse ++ f :: beneath) :
    outcome (execute code .callFunction args.length) m =
      match outcome (f.call args) m.world with
      | (.ok v, w) => (.ok (), { m with stack := v :: beneath, world := w })
      | (.error e, w) => (.error e, { m with stack := beneath, world := w }) := by
  have hlength : args.length ≠ 0 := fun h => hne (List.length_eq_zero_iff.1 h)
  have htake : m.stack.take args.length = args.reverse := by
    rw [hm, List.take_left' List.length_reverse]
  have hdrop : m.stack.drop args.length = f :: beneath := by
    rw [hm, List.drop_left' List.length_reverse]
  simp only [execute, popArguments, pop, outcome_bind, outcome_get, outcome_modify, outcome_pure,
    chain_ok, if_neg hlength, htake, hdrop, List.reverse_reverse, outcome_act]
  rcases outcome (f.call args) m.world with ⟨e | v, w⟩ <;> rfl

/-! ### Runs above other values -/

namespace Code.Tracks

variable {code : Code} {depth : Nat → Nat} (h : code.Tracks depth) {beneath : List Value}
include h

/-- A turn above other values is one without them, which stay where they are. -/
theorem turn_above {high : Nat} {u : Machine} {s' : Nat × Machine}
    (ht : Exec.Turn code (high, u.above beneath) s') (hu : code.Inside high u)
    (hdepth : u.stack.length = depth u.pc) :
    ∃ u', s'.2 = u'.above beneath ∧ Exec.Turn code (high, u) (s'.1, u') := by
  cases ht with
  | extend hd => exact ⟨u.at (u.pc + 1), rfl, .extend hd⟩
  | @execute _ b _ m' op hd hop hrun =>
    have hcall : ¬(op = .callFunction ∧ high * 256 + b = 0) := by
      rintro ⟨rfl, harg⟩
      rw [harg, Exec.execute_emptyCall] at hrun
      cases hrun
    have htakes : op.takes (high * 256 + b) ≤ (u.at (u.pc + 1)).stack.length := by
      rw [hu.2, Machine.at_stack, hdepth]
      exact h.takes _ _ _ hd
    have ignores : (Exec.execute code op (high * 256 + b)).IgnoresBeneath (u.at (u.pc + 1)) :=
      Exec.ignoresBeneath_execute htakes hcall
    rw [Machine.at_above, Machine.above_pc, ignores beneath] at hrun
    obtain ⟨hok, rfl⟩ := Prod.mk.inj hrun
    exact ⟨_, rfl, .execute hd hop (Prod.ext hok rfl)⟩

/-- A run above other values is one without them. -/
theorem turns_above (hwf : code.WellFormed) {high : Nat} {u : Machine} {s' : Nat × Machine}
    (hturns : Relation.ReflTransGen (Exec.Turn code) (high, u.above beneath) s')
    (hu : code.Inside high u) (hdepth : u.stack.length = depth u.pc) :
    ∃ u', s'.2 = u'.above beneath ∧
      Relation.ReflTransGen (Exec.Turn code) (high, u) (s'.1, u') := by
  induction hturns with
  | refl => exact ⟨u, rfl, .refl⟩
  | @tail s₁ s₂ _ ht ih =>
    obtain ⟨u₁, hs₁, hturns⟩ := ih
    have hdepth₁ := h.turns hwf hturns hu hdepth
    have ht' : Exec.Turn code (s₁.1, u₁.above beneath) s₂ := hs₁ ▸ ht
    obtain ⟨u₂, hs₂, ht₂⟩ := h.turn_above ht' (hwf.turns hturns hu) hdepth₁
    exact ⟨u₂, hs₂, hturns.tail ht₂⟩

end Code.Tracks

/-- Where code that adds values to the stack is run to its end, they lie above what was there. -/
theorem Tree.visits_effect {t : Tree} {code : Code} {k : Nat} (ht : Draft.Effect 0 k t.draft)
    (hcode : t.compile = .ok code) {m s : Machine} {loaded : Code} {high : Nat}
    (hv : Exec.Visits code m loaded high s) (hpc : s.pc = code.size) :
    ∃ vs, vs.length = k ∧ s.stack = vs ++ m.stack := by
  obtain ⟨ls, p, hd, hls⟩ := compile_eq_ok.1 hcode
  obtain ⟨xs, rfl, flows, lands⟩ := ht 0 {} ls p hd
  rw [Nat.zero_add, Nat.zero_add] at flows
  obtain ⟨consts, w, hsize, rfl, hturns⟩ := hv.turns
  have tracks := (hls.tracks flows lands).with_consts consts
  have hloaded := (wellFormed_code hcode).with_consts hsize
  -- The run starts on an empty stack, above what the stack holds before it.
  let start : Machine := Machine.at { m with world := w, stack := [] } 0
  have hstart : Code.Inside { code with consts } 0 start := ⟨Nat.zero_le _, rfl⟩
  have hfirst : start.stack.length = Line.depthAt k xs start.pc := flows.depthAt_zero.symm
  have habove : Relation.ReflTransGen (Exec.Turn { code with consts }) (0, start.above m.stack)
      (high, s) := hturns
  obtain ⟨u, rfl, hturns'⟩ := tracks.turns_above hloaded habove hstart hfirst
  have hlast : Line.depthAt k xs code.size = k := by
    simpa [hls.size_eq, Line.depthAt] using Line.depthAt_append k xs [] 0
  have hlength : u.stack.length = k := by
    rw [← hlast, ← hpc]
    exact tracks.turns hloaded hturns' hstart hfirst
  exact ⟨u.stack, hlength, rfl⟩

/-- Where the code of an expression is run to its end, it has added one value to the stack. -/
theorem Tree.Fits.visits_end {t : Tree} {code : Code} (ht : t.Fits true (.expression .load))
    (hcode : t.compile = .ok code) {m s : Machine} {loaded : Code} {high : Nat}
    (hv : Exec.Visits code m loaded high s) (hpc : s.pc = code.size) :
    ∃ v, s.stack = v :: m.stack := by
  obtain ⟨vs, hlength, hstack⟩ := visits_effect ht.hasEffect hcode hv hpc
  obtain ⟨v, rfl⟩ := List.length_eq_one_iff.1 hlength
  exact ⟨v, hstack⟩

/-- A loop that returns has come to the end of the code, and stops in the state there. -/
theorem Code.WellFormed.visits_returned {code loaded : Code} (h : code.WellFormed)
    {m m₀ s : Machine} {fuel : Nat} (hload : outcome (Exec.load code) m = (.ok loaded, m₀))
    (hrun : outcome (Exec.runFrom loaded fuel 0) (m₀.at 0) = (.ok (), s)) :
    ∃ high, Exec.Visits code m loaded high s ∧ s.pc = code.size := by
  obtain ⟨consts, w, hload', hsize⟩ := Exec.load_returns code m
  obtain ⟨rfl, rfl⟩ : { code with consts } = loaded ∧ { m with world := w } = m₀ := by
    simpa [hload'] using hload
  have hloaded := h.with_consts hsize
  obtain ⟨⟨high, u⟩, hturns, hends⟩ :=
    Exec.runFrom_ends { code with consts } fuel 0 (Machine.at { m with world := w } 0)
  have hinside := hloaded.turns hturns ⟨Nat.zero_le _, rfl⟩
  rw [hrun] at hends
  cases hends with
  | finished hf => exact ⟨high, ⟨_, hload', hturns⟩, hloaded.fetch?_eq_none hinside.1 hf⟩

/-- A loop that returns has come to the end of the code. -/
theorem Code.WellFormed.visits_of_returns {code loaded : Code} (h : code.WellFormed) {m : Machine}
    {fuel : Nat} (hload : (outcome (Exec.load code) m).1 = .ok loaded)
    (hrun : (outcome (Exec.runFrom loaded fuel 0) ((outcome (Exec.load code) m).2.at 0)).1.toBool) :
    ∃ high s, Exec.Visits code m loaded high s ∧ s.pc = code.size := by
  rcases hend : outcome (Exec.runFrom loaded fuel 0) ((outcome (Exec.load code) m).2.at 0) with
    ⟨f | _, s⟩
  · rw [hend] at hrun
    cases hrun
  · obtain ⟨high, hv, hpc⟩ := h.visits_returned (Prod.ext hload rfl) hend
    exact ⟨high, s, hv, hpc⟩

/-! ### The last line -/

theorem Line.width_pos_of_operation {l : Line} {op : Opcode} {arg : Nat}
    (h : l.operation? = some (op, arg)) : 0 < l.width := by
  rw [width_of_operation h]
  exact Nat.succ_pos _

/-- Behind a line there is another one that takes a place, unless it is the last. -/
theorem Line.eq_last_or_pos {ls pre post : List Line} {l l' : Line} (hwidth : 0 < l.width)
    (h : ls ++ [l] = pre ++ l' :: post) : l' = l ∨ 0 < totalWidth post := by
  rcases List.eq_nil_or_concat post with rfl | ⟨post', x, rfl⟩
  · obtain ⟨-, hlast⟩ := List.append_inj' h rfl
    exact .inl (List.singleton_inj.1 hlast).symm
  · rw [List.concat_eq_append, ← List.cons_append, ← List.append_assoc] at h
    obtain ⟨-, hlast⟩ := List.append_inj' h rfl
    right
    rw [← List.singleton_inj.1 hlast, List.concat_eq_append, totalWidth_append]
    simp only [totalWidth_cons]
    omega

namespace Code.Lists

variable {code : Code} {ls : List Line} {l : Line} {p : Pool} (h : code.Lists (ls ++ [l]) p)
  {op : Opcode} {arg : Nat} (hop : l.operation? = some (op, arg))
include h hop

/-- If the last line is an operation then no label is at the end. -/
theorem label_lt_size {m : Marker} {n : Nat}
    (hm : (Line.labelsFrom 0 (ls ++ [l])).lookup m = some n) : n < code.size := by
  obtain ⟨pre, post, hls, -, rfl⟩ := Line.lookup_labelsFrom hm
  have hwidth := Line.width_pos_of_operation hop
  rw [h.size_eq, hls, Line.totalWidth_append, Line.totalWidth_cons]
  rcases Line.eq_last_or_pos hwidth hls with rfl | hpost
  · cases hop
  · omega

/-- The last instruction is that of the last line. -/
theorem last_instruction {s b : Nat} {op' : Opcode} (hd : code.decode? s = some (op', b))
    (hs : s + 1 = code.size) : op' = op ∧ code.pending s * 256 + b = arg := by
  obtain ⟨pre, l', post, k, hls, rfl, hline⟩ := h.line_at hd
  have hwidth := Line.width_pos_of_operation hop
  rw [h.size_eq, hls, Line.totalWidth_append, Line.totalWidth_cons] at hs
  rcases hline with ⟨-, hk⟩ | ⟨hk, hline⟩
  · omega
  obtain rfl | hpost := Line.eq_last_or_pos hwidth hls
  · rcases hline with hop' | ⟨kind, m, rfl, -, -⟩
    · have heq := hop'.symm.trans hop
      simpa using heq
    · cases hop
  · omega

/-- A turn of the loop that leads to the end is the operation of the last line. -/
theorem turn_to_end {consts : Array Value} {s s' : Nat × Machine}
    (ht : Exec.Turn { code with consts } s s') (hs : Code.Inside { code with consts } s.1 s.2)
    (hend : s'.2.pc = code.size) :
    outcome (Exec.execute { code with consts } op arg) (s.2.at (s.2.pc + 1)) = (.ok (), s'.2) := by
  cases ht with
  | extend hd =>
    obtain ⟨rfl, -⟩ := h.last_instruction hop hd hend
    exact absurd rfl (Line.operation?_ordinary hop).1
  | @execute high b m m' op' hd hop' hrun =>
    obtain rfl : high = code.pending m.pc := hs.2.trans (pending_with_consts consts m.pc)
    rcases Exec.execute_pc hrun with hpc | ⟨⟨kind, rfl⟩, hpc⟩
    · obtain ⟨rfl, rfl⟩ := h.last_instruction hop hd (hpc.symm.trans hend)
      exact hrun
    · -- A jump leads to a label, and that is not at the end.
      obtain ⟨hext, -⟩ | ⟨l', -, hl'⟩ | ⟨-, m₁, -, -, hstart, hm₁⟩ := h.instruction_at hd
      · exact absurd hext hop'
      · exact absurd rfl ((Line.operation?_ordinary hl').2 kind)
      · have hlt := h.label_lt_size hop hm₁
        rw [pending_of_isStart hstart, Nat.zero_mul, Nat.zero_add] at hpc
        exact absurd (hpc.symm.trans hend) hlt.ne

/-- Code whose last operation always fails is never run to its end. -/
theorem visits_not_end {m s : Machine} {loaded : Code} {high : Nat}
    (hfails : ∀ c u, ∃ f u', outcome (Exec.execute c op arg) u = (.error f, u'))
    (hwf : code.WellFormed) (hv : Exec.Visits code m loaded high s) : s.pc ≠ code.size := by
  intro hpc
  obtain ⟨consts, w, hsize, rfl, hturns⟩ := hv.turns
  cases hturns with
  | refl =>
    have hwidth := Line.width_pos_of_operation hop
    have hzero : 0 = code.size := hpc
    rw [h.size_eq, Line.totalWidth_append, Line.totalWidth_cons] at hzero
    omega
  | @tail s₁ _ hturns ht =>
    have hinside := (hwf.with_consts hsize).turns hturns ⟨Nat.zero_le _, rfl⟩
    obtain ⟨f, u', hfail⟩ := hfails { code with consts } (s₁.2.at (s₁.2.pc + 1))
    have hrun := h.turn_to_end hop ht hinside hpc
    cases hfail.symm.trans hrun

end Code.Lists

namespace Tree

/-- The listing of a call ends in the instruction for it. -/
theorem draft_call {func keywords : Tree} {args : List Tree} {ls : List Line} {p q : Pool}
    (h : (Tree.call func (.list args) keywords).draft p = some (ls, q)) :
    ∃ ms, ls = ms ++ [Line.plain .callFunction args.length rfl] := by
  rw [draft] at h
  obtain ⟨ms, ns, r, -, hn, rfl⟩ := Draft.join_eq_some.1 h
  obtain ⟨rfl, -⟩ := Draft.lines_eq_some.1 hn
  exact ⟨ms, rfl⟩

/-- The code of a call without arguments is never run to its end. -/
theorem visits_emptyCall {func keywords : Tree} {code : Code}
    (h : (Tree.call func (.list []) keywords).compile = .ok code) {m s : Machine} {loaded : Code}
    {high : Nat} (hv : Exec.Visits code m loaded high s) : s.pc ≠ code.size := by
  obtain ⟨ls, p, hd, hls⟩ := compile_eq_ok.1 h
  obtain ⟨ms, rfl⟩ := draft_call hd
  have hfails : ∀ c u, ∃ f u', outcome (Exec.execute c .callFunction 0) u = (.error f, u') :=
    fun c u => ⟨_, _, Exec.execute_emptyCall c u⟩
  exact hls.visits_not_end rfl hfails (wellFormed_code h) hv

/-- Calls on any machine, by the number of their arguments. Above whatever is on the stack, a call
with arguments leaves the value of the function at these arguments, or nothing if the function
fails; one without arguments empties the stack and fails before anything is called. So a call
expression in which indices are wrapped adds one value to the stack where its code is run to the
end, and it has arguments then: if there are none, every run is endless or an instruction fails. -/
theorem call_of_every_arity (m : Machine) :
    (∀ (code : Code) (f : Value) (args beneath : List Value),
      m.stack = args.reverse ++ f :: beneath →
        outcome (Exec.execute code .callFunction args.length) m =
          if args.isEmpty then (.error .emptyStack, m.cleared)
          else match outcome (f.call args) m.world with
            | (.ok v, w) => (.ok (), { m with stack := v :: beneath, world := w })
            | (.error e, w) => (.error e, { m with stack := beneath, world := w })) ∧
    ∀ (func : Tree) (args : List Tree) (keywords : Tree) (code : Code),
      (Tree.call func (.list args) keywords).Fits true (.expression .load) →
      (Tree.call func (.list args) keywords).compile = .ok code →
        (∀ loaded high s, Exec.Visits code m loaded high s → s.pc = code.size →
          args ≠ [] ∧ ∃ v, s.stack = v :: m.stack) ∧
        ∀ fuel, ∃ loaded high s, Exec.Visits code m loaded high s ∧
          (s.pc = code.size ∧ m.perform (Exec.runWithin fuel code) = (.error .leftOver, s) ∨
            m.perform (Exec.runWithin fuel code) = (.error .endless, s) ∨
            ∃ op b f m', loaded.decode? s.pc = some (op, b) ∧
              outcome (Exec.execute loaded op (high * 256 + b)) (s.at (s.pc + 1)) =
                (.error f, m') ∧
              m.perform (Exec.runWithin fuel code) = (.error f, m')) := by
  refine ⟨fun code f args beneath hm => ?_, fun func args keywords code ht hcode => ?_⟩
  · cases args with
    | nil => exact Exec.execute_emptyCall code m
    | cons a args => exact Exec.execute_call code (List.cons_ne_nil a args) hm
  · refine ⟨fun loaded high s hv hpc => ⟨?_, ht.visits_end hcode hv hpc⟩, fun fuel => ?_⟩
    · rintro rfl
      exact visits_emptyCall hcode hv hpc
    · obtain ⟨loaded, high, s, hv, hend⟩ := (wellFormed_code hcode).runWithin_ends m fuel
      refine ⟨loaded, high, s, hv, ?_⟩
      rcases hend with ⟨hpc, hrun⟩ | hrun | ⟨op, b, f, m', hd, -, hfail, hrun⟩
      · obtain ⟨v, hstack⟩ := ht.visits_end hcode hv hpc
        refine .inl ⟨hpc, ?_⟩
        rw [hrun, hstack]
        rfl
      · exact .inr (.inl hrun)
      · exact .inr (.inr ⟨op, b, f, m', hd, hfail, hrun⟩)

/-- A call with a call among its arguments. -/
def longest : Tree := .callOf "max" [.num 2, .callOf "len" [.var "x"]]

theorem longest_fits : longest.Fits true (.expression .load) := by
  have hx : Fits true (.expression .load) (.var "x") := .name _ _
  have hlen : Fits true (.expression .load) (.callOf "len" [.var "x"]) :=
    .call _ (.name _ _) (List.forall_mem_singleton.2 hx)
  exact .call _ (.name _ _) (List.forall_mem_cons.2 ⟨.constant _, List.forall_mem_singleton.2 hlen⟩)

theorem call_of_every_arity_longest :
    outcome (Exec.execute default .callFunction 2)
        { stack := [.int 3, .int 2, .function .max, .int 7] } =
      (.ok (), { stack := [.int 3, .int 7] }) ∧
    outcome (Exec.execute default .callFunction 0) { stack := [.type .dict, .int 7] } =
      (.error .emptyStack, {}) ∧
    longest.Fits true (.expression .load) ∧
    ∃ code loaded high s, longest.compile = .ok code ∧
      Exec.Visits code { stack := [.int 7], globals := [(.text "x", .str "abc")] } loaded high s ∧
      s.pc = code.size ∧ ∃ v, s.stack = [v, .int 7] := by
  refine ⟨?_, ?_, longest_fits, ?_⟩
  · let m : Machine := { stack := [.int 3, .int 2, .function .max, .int 7] }
    have hcall := (call_of_every_arity m).1 default (.function .max) [.int 2, .int 3] [.int 7] rfl
    exact hcall.trans rfl
  · exact (call_of_every_arity _).1 default (.type .dict) [] [.int 7] rfl
  · let m : Machine := { stack := [.int 7], globals := [(.text "x", .str "abc")] }
    obtain ⟨code, hcode, loaded, hload, hrun⟩ : ∃ code, longest.compile = .ok code ∧
        ∃ loaded, (outcome (Exec.load code) m).1 = .ok loaded ∧
          (outcome (Exec.runFrom loaded 9 0) ((outcome (Exec.load code) m).2.at 0)).1.toBool := by
      decide +kernel
    obtain ⟨high, s, hv, hpc⟩ := (wellFormed_code hcode).visits_of_returns hload hrun
    have hend := ((call_of_every_arity m).2 _ _ _ code longest_fits hcode).1 loaded high s hv hpc
    exact ⟨code, loaded, high, s, hcode, hv, hpc, hend.2⟩

end Tree

end Stackwise
