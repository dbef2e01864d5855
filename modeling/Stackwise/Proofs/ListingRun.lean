import Stackwise.Proofs.WellFormed

/-!
# Running a listing

`Line.run` runs a listing as it is: the place in the code is the list of lines that are left, and a
jump goes on with the lines after a label. It counts turns as the machine does, so that the loop of
the machine on the bytes and this loop on the lines agree with every bound: `runFrom_eq_run`. What
is proved of compiled programs from here on never mentions positions or bytes.
-/
namespace Stackwise

open Exec

namespace Line

/-- The lines after the label of a marker. -/
def after (m : Marker) : List Line → List Line
  | [] => []
  | .label k :: ls => if k = m then ls else after m ls
  | _ :: ls => after m ls

/-- The number of prefixes of an operand. -/
def prefixes (arg : Nat) : Nat := (splitOperand arg).1.length

/-- Run the lines that are left of a listing, with the tables of a program. -/
def run (code : Code) (ls : List Line) : Nat → List Line → Exec Unit
  | 0, [] => throw .endless
  | _ + 1, [] => pure ()
  | fuel, .label _ :: rest => run code ls fuel rest
  | 0, _ :: _ => throw .endless
  | fuel + 1, .jump kind m :: rest => do
    if ← kind.taken then run code ls fuel (after m ls) else run code ls fuel rest
  | fuel + 1, .const i _ :: rest =>
    if prefixes i ≤ fuel then do
      execute code .loadConst i
      run code ls (fuel - prefixes i) rest
    else throw .endless
  | fuel + 1, .name use i _ :: rest =>
    if prefixes i ≤ fuel then do
      execute code use.opcode i
      run code ls (fuel - prefixes i) rest
    else throw .endless
  | fuel + 1, .plain op arg _ :: rest =>
    if prefixes arg ≤ fuel then do
      execute code op arg
      run code ls (fuel - prefixes arg) rest
    else throw .endless
termination_by fuel rest => (fuel, rest.length)

variable {code : Code} {ls : List Line} {fuel : Nat} {rest : List Line}

theorem run_label (m : Marker) : run code ls fuel (.label m :: rest) = run code ls fuel rest := by
  cases fuel <;> rw [run]

/-- Without a turn left nothing but labels is passed. -/
theorem run_zero {l : Line} (h : ∀ m, l ≠ .label m) :
    run code ls 0 (l :: rest) = throw .endless := by
  rw [run]
  intro m hm
  exact h m hm

theorem run_jump (kind : JumpKind) (m : Marker) :
    run code ls (fuel + 1) (.jump kind m :: rest) =
      kind.taken >>= fun b =>
        if b then run code ls fuel (after m ls) else run code ls fuel rest := by
  rw [run]

/-- An ordinary line takes as many turns as it has instructions and prefixes. -/
theorem run_operation {l : Line} {op : Opcode} {arg : Nat} (h : l.operation? = some (op, arg)) :
    run code ls (fuel + l.width) (l :: rest) =
      execute code op arg >>= fun _ => run code ls fuel rest := by
  have hw : fuel + l.width = (fuel + prefixes arg) + 1 := by
    rw [width_of_operation h, prefixes]
    omega
  rw [hw]
  cases l <;> cases h <;> rw [run, if_pos (by omega), Nat.add_sub_cancel]

/-- With fewer turns it is cut off. -/
theorem run_operation_cut {l : Line} {op : Opcode} {arg : Nat}
    (h : l.operation? = some (op, arg)) (hlt : fuel < l.width) :
    run code ls fuel (l :: rest) = throw .endless := by
  rw [width_of_operation h] at hlt
  cases fuel with
  | zero =>
    refine run_zero fun m hm => ?_
    subst hm
    cases h
  | succ fuel => cases l <;> cases h <;> rw [run, if_neg (by rw [prefixes]; omega)]

/-- Lines without the label of a marker do not matter. -/
theorem after_append {pre : List Line} {m : Marker} (h : m ∉ labels pre) (post : List Line) :
    after m (pre ++ post) = after m post := by
  induction pre with
  | nil => rfl
  | cons l pre ih =>
    cases l with
    | label k =>
      have hk : k ≠ m ∧ m ∉ labels pre := by
        simpa [labels, eq_comm] using h
      simp [after, hk.1, ih hk.2]
    | _ => exact ih (by simpa [labels] using h)

/-- The label of a marker that is defined once. -/
theorem after_eq {ls post : List Line} {m : Marker} (hn : (labels ls).Nodup)
    (h : .label m :: post <:+ ls) : after m ls = post := by
  obtain ⟨pre, rfl⟩ := h
  have hm : m ∉ labels pre := by
    intro hmem
    rw [labels_append] at hn
    exact (List.nodup_append.1 hn).2.2 m hmem m (by simp [labels]) rfl
  rw [after_append hm, after, if_pos rfl]

theorem after_suffix (m : Marker) (ls : List Line) : after m ls <:+ ls := by
  induction ls with
  | nil => exact List.suffix_rfl
  | cons l ls ih =>
    have hls : ls <:+ l :: ls := List.suffix_cons l ls
    cases l with
    | label k =>
      rw [after]
      split
      · exact hls
      · exact ih.trans hls
    | _ => exact ih.trans hls

end Line

/-! ### Lines and bytes -/

namespace Code.Lists

variable {code : Code} {ls : List Line} {p : Pool} (h : code.Lists ls p)
include h

section
variable {pre post : List Line} {l : Line} (hls : ls = pre ++ l :: post) {op : Opcode} {arg : Nat}
  (hop : l.operation? = some (op, arg))
include hls hop

/-- The machine reads the prefixes of a line one after the other. -/
theorem runFrom_prefixes (fuel : Nat) (m : Machine) {k : Nat}
    (hk : k ≤ (splitOperand arg).1.length) :
    outcome (runFrom code (fuel + k) 0) (m.at (Line.totalWidth pre)) =
      outcome (runFrom code fuel (prefixValue ((splitOperand arg).1.take k)))
        (m.at (Line.totalWidth pre + k)) := by
  rw [runFrom_eq_runWith, runFrom_eq_runWith]
  exact runWith_prefixes (fun _ hk => h.decode?_prefix hls hop hk) fuel m hk

/-- An ordinary line on the machine. -/
theorem runFrom_operation (fuel : Nat) (m : Machine) :
    outcome (runFrom code (fuel + l.width) 0) (m.at (Line.totalWidth pre)) =
      chain (outcome (execute code op arg) (m.at (Line.totalWidth pre + l.width))) fun _ m' =>
        outcome (runFrom code fuel 0) m' := by
  simp only [runFrom_eq_runWith, Line.width_of_operation hop]
  rw [runWith_instruction (fun _ hk => h.decode?_prefix hls hop hk) (h.decode?_operation hls hop)
    (Line.operation?_ordinary hop).1, splitOperand_value]

/-- A machine that has no turn left inside a line. -/
theorem runFrom_cut {fuel : Nat} (m : Machine) (hlt : fuel < l.width) :
    outcome (runFrom code fuel 0) (m.at (Line.totalWidth pre)) =
      (.error .endless, m.at (Line.totalWidth pre + fuel)) := by
  rw [Line.width_of_operation hop] at hlt
  have hread := h.runFrom_prefixes hls hop 0 m (k := fuel) (by omega)
  rw [Nat.zero_add] at hread
  exact hread

end

/-- A jump on the machine. -/
theorem runFrom_jump {pre post : List Line} {kind : JumpKind} {t : Marker}
    (hls : ls = pre ++ Line.jump kind t :: post) :
    ∃ pre' post', ls = pre' ++ Line.label t :: post' ∧ ∀ (fuel : Nat) (m : Machine),
      outcome (runFrom code (fuel + 1) 0) (m.at (Line.totalWidth pre)) =
        chain (outcome kind.taken (m.at (Line.totalWidth pre + 1))) fun b m' =>
          outcome (runFrom code fuel 0) (if b then m'.at (Line.totalWidth pre') else m') := by
  obtain ⟨n, hd, hm⟩ := h.decode?_line hls (Line.jump_cell kind t)
  obtain ⟨pre', post', hls', -, rfl⟩ := Line.lookup_labelsFrom hm
  refine ⟨pre', post', hls', fun fuel m => ?_⟩
  have hd : code.decode? (m.at (Line.totalWidth pre)).pc = _ := hd
  rw [runFrom_execute hd kind.opcode_ne_extendedArg, execute_jump, chain_chain]
  simp only [Nat.zero_mul, Nat.zero_add, chain_ok]
  rfl

/-- The loop of the machine on the bytes and the loop on the lines agree, but for the place where
they leave the machine. -/
theorem runFrom_eq_run (fuel : Nat) {pre rest : List Line} (hls : ls = pre ++ rest) (m : Machine) :
    placed (outcome (runFrom code fuel 0) (m.at (Line.totalWidth pre))) 0 =
      placed (outcome (Line.run code ls fuel rest) m) 0 := by
  induction fuel using Nat.strong_induction_on generalizing pre rest m with
  | _ fuel ihf =>
  induction rest generalizing pre m with
  | nil =>
    have hend : code.fetch? (m.at (Line.totalWidth pre)).pc = none := by
      rw [h.fetch?_eq_none, hls, List.append_nil]
      rfl
    cases fuel with
    | zero => simp [runFrom, Line.run, placed]
    | succ fuel => simp [runFrom_end hend, Line.run, placed]
  | cons l rest ih =>
    have hnext : ls = (pre ++ [l]) ++ rest := by simp [hls]
    have hwidth : Line.totalWidth (pre ++ [l]) = Line.totalWidth pre + l.width := by simp
    cases hop : l.operation? with
    | some o =>
      obtain ⟨op, arg⟩ := o
      by_cases hlt : fuel < l.width
      · rw [h.runFrom_cut hls hop m hlt, Line.run_operation_cut hop hlt]
        rfl
      · obtain ⟨k, rfl⟩ : ∃ k, fuel = k + l.width := ⟨fuel - l.width, by omega⟩
        have hpos := Line.width_of_operation hop
        rw [h.runFrom_operation hls hop, Line.run_operation hop, outcome_bind,
          Blind.execute code op arg (Line.operation?_ordinary hop).2 m]
        rcases outcome (execute code op arg) m with ⟨f | ⟨⟩, m'⟩
        · rfl
        · rw [← hwidth]
          exact ihf k (by omega) hnext m'
    | none =>
      cases l with
      | label t =>
        rw [Line.run_label, ← ih hnext, hwidth, Line.width_label]
        rfl
      | jump kind t =>
        cases fuel with
        | zero =>
          rw [Line.run_zero (by simp)]
          rfl
        | succ fuel =>
          obtain ⟨pre', post', hls', hjump⟩ := h.runFrom_jump hls
          rw [hjump, Line.run_jump, outcome_bind, Blind.taken kind m]
          rcases outcome kind.taken m with ⟨f | b, m'⟩
          · rfl
          · cases b with
            | true =>
              have hafter : Line.after t ls = post' := Line.after_eq h.labels ⟨pre', hls'.symm⟩
              have hto : ls = (pre' ++ [Line.label t]) ++ post' := by simp [hls']
              have := ihf fuel (by omega) hto m'
              simpa [placed, hafter] using this
            | false =>
              have := ihf fuel (by omega) hnext m'
              simpa [placed, hwidth] using this
      | _ => cases hop

/-- Lines that are cut off with a bound are cut off with every smaller one. -/
theorem run_endless_of_le {fuel : Nat} (fuel' : Nat) {rest : List Line} (hs : rest <:+ ls)
    {m : Machine}
    (hrun : (outcome (Line.run code ls fuel' rest) m).1 = .error .endless) (hle : fuel ≤ fuel') :
    (outcome (Line.run code ls fuel rest) m).1 = .error .endless := by
  obtain ⟨pre, hpre⟩ := hs
  have result : ∀ k, (outcome (runFrom code k 0) (m.at (Line.totalWidth pre))).1 =
      (outcome (Line.run code ls k rest) m).1 :=
    fun k => congrArg (·.1) (h.runFrom_eq_run k hpre.symm m)
  by_contra hne
  rw [← result] at hne hrun
  rw [runFrom_mono rfl hne hle] at hrun
  exact hne hrun

/-- A run of a program is a run of its listing from the first line. -/
theorem perform_runWithin {prog : Code} {m m₀ : Machine}
    (hload : outcome (load prog) m = (.ok code, m₀)) (fuel : Nat) :
    ∃ pc, m.perform (runWithin fuel prog) =
      chain (placed (outcome (Line.run code ls fuel ls) m₀) pc) fun _ m' =>
        (if m'.stack.isEmpty then .ok () else .error .leftOver, m') := by
  have heq := h.runFrom_eq_run fuel (List.nil_append ls).symm m₀
  exact ⟨_, by rw [Exec.perform_runWithin fuel hload, ← eq_placed heq]; rfl⟩

end Code.Lists
end Stackwise
