import Stackwise.Proofs.Simulation

/-!
# Two programs side by side

Two listings are run from the same machine. `Moves` is what both do until they are at related lines
again, with the same machine, or both end in the same way. If related lines always move together,
then a run of one ends exactly if a run of the other does: `Moves.exists_run`. What `Line.run` shows
of listings carries over to programs that come down to them (`Machine.Plays`), but for the place in
the code at the end.
-/
namespace Stackwise

open Exec

/-! ### Moving together -/

/-- What becomes of the lines that are left after some turns. With fewer turns they are cut off. -/
structure Turns (code : Code) (ls : List Line) (k : Nat) (xs : List Line) (m : Machine)
    (next : Nat → Except Fault Unit × Machine) : Prop where
  pos : 0 < k
  run : ∀ n, outcome (Line.run code ls (n + k) xs) m = next n
  cut : ∀ n < k, (outcome (Line.run code ls n xs) m).1 = .error .endless

namespace Turns

variable {code : Code} {ls xs ys : List Line} {p : Pool} {k : Nat} {m m' : Machine}
  {next : Nat → Except Fault Unit × Machine}

theorem of_leads (hls : code.Lists ls p) (hs : xs <:+ ls) (hk : 0 < k)
    (h : Leads code ls k xs m ys m') :
    Turns code ls k xs m fun n => outcome (Line.run code ls n ys) m' :=
  ⟨hk, h, fun n hn => h.lasts hls hs lasts_zero n (by omega)⟩

theorem nil : Turns code ls 1 [] m fun _ => (.ok (), m) :=
  ⟨Nat.one_pos, fun n => by rw [Line.run]; rfl, fun n hn => lasts_zero n (by omega)⟩

theorem label (t : Marker) (h : Turns code ls k xs m next) :
    Turns code ls k (.label t :: xs) m next :=
  ⟨h.pos, fun n => by rw [Line.run_label, h.run], fun n hn => by rw [Line.run_label, h.cut n hn]⟩

theorem jump (kind : JumpKind) (t : Marker) :
    Turns code ls 1 (.jump kind t :: xs) m fun n => chain (outcome kind.taken m) fun b m' =>
      outcome (Line.run code ls n (if b then Line.after t ls else xs)) m' where
  pos := Nat.one_pos
  run n := by
    rw [Line.run_jump, outcome_bind]
    congr 1
    funext b m'
    cases b <;> rfl
  cut n hn := lasts_zero n (by omega)

theorem operation {x : Line} {op : Opcode} {arg : Nat} (hop : x.operation? = some (op, arg)) :
    Turns code ls x.width (x :: xs) m fun n => chain (outcome (execute code op arg) m) fun _ m' =>
      outcome (Line.run code ls n xs) m' where
  pos := by
    rw [Line.width_of_operation hop]
    omega
  run n := by rw [Line.run_operation hop, outcome_bind]
  cut n hn := by
    rw [Line.run_operation_cut hop hn]
    rfl

end Turns

/-- Two listings with the same machine: both end in the same way, or both go on to lines that are
related, again with the same machine. -/
inductive Moves (R : List Line → List Line → Prop) (code : Code) (ls : List Line) (code' : Code)
    (ls' xs ys : List Line) (m : Machine) : Prop
  | ends {k k' : Nat} {r : Except Fault Unit} {m' : Machine}
    (left : Turns code ls k xs m fun _ => (r, m'))
    (right : Turns code' ls' k' ys m fun _ => (r, m'))
  | goes {k k' : Nat} {xs' ys' : List Line} {m' : Machine} (related : R xs' ys')
    (left : Turns code ls k xs m fun n => outcome (Line.run code ls n xs') m')
    (right : Turns code' ls' k' ys m fun n => outcome (Line.run code' ls' n ys') m')

namespace Moves

variable {R : List Line → List Line → Prop} {code code' : Code} {ls ls' xs ys : List Line}
  {m m' : Machine}

theorem swap (h : Moves R code ls code' ls' xs ys m) :
    Moves (fun ys xs => R xs ys) code' ls' code ls ys xs m := by
  cases h with
  | ends left right => exact .ends right left
  | goes related left right => exact .goes related right left

theorem label (t t' : Marker) (h : Moves R code ls code' ls' xs ys m) :
    Moves R code ls code' ls' (.label t :: xs) (.label t' :: ys) m := by
  cases h with
  | ends left right => exact .ends (left.label t) (right.label t')
  | goes related left right => exact .goes related (left.label t) (right.label t')

/-- If related lines always move together, a run that ends on one side ends on the other. -/
theorem exists_run (step : ∀ xs ys m, R xs ys → Moves R code ls code' ls' xs ys m)
    (related : R xs ys) {n : Nat} {r : Except Fault Unit}
    (hrun : outcome (Line.run code ls n xs) m = (r, m')) (hr : r ≠ .error .endless) :
    ∃ n', outcome (Line.run code' ls' n' ys) m = (r, m') := by
  induction n using Nat.strong_induction_on generalizing xs ys m with
  | _ n ih =>
  -- A run that ends has turns enough for the next move.
  have enough : ∀ {k next}, Turns code ls k xs m next → ∃ j, n = j + k := by
    intro k next h
    refine ⟨n - k, ?_⟩
    by_contra hne
    have hcut := h.cut n (by omega)
    rw [hrun] at hcut
    exact hr hcut
  cases step xs ys m related with
  | ends left right =>
    obtain ⟨j, rfl⟩ := enough left
    rw [left.run] at hrun
    exact ⟨0 + _, (right.run 0).trans hrun⟩
  | goes related left right =>
    obtain ⟨j, rfl⟩ := enough left
    rw [left.run] at hrun
    have hpos := left.pos
    obtain ⟨n', hn'⟩ := ih j (by omega) related hrun
    exact ⟨n' + _, (right.run n').trans hn'⟩

end Moves

/-! ### Programs -/

/-- A program is made of a listing and has its constants themselves in the table, none of which gets
a mark when it is loaded. -/
structure Code.ListsExactly (code : Code) (ls : List Line) (p : Pool) : Prop
    extends code.Lists ls p where
  loads : ∀ i v, Line.const i v ∈ ls → code.consts[i]? = some v
  anonymous : ∀ v ∈ code.consts.toList, v.Anonymous

/-- Only a constant depends on the table of constants. -/
theorem Exec.execute_congr {code code' : Code} (h : code.names = code'.names) {op : Opcode}
    (hop : op ≠ .loadConst) (arg : Nat) : execute code op arg = execute code' op arg := by
  cases op with
  | loadConst => exact absurd rfl hop
  | _ => simp only [execute, h]

/-- What a run of a program comes down to: after some turns, and but for the place in the code, it
is a computation with a bound, at the end of which the stack has to be empty. -/
def Machine.Plays (m : Machine) (code : Code) (run : Nat → Except Fault Unit × Machine) : Prop :=
  ∃ k, ∀ n, ∃ pc, m.perform (runWithin (n + k) code) =
    chain (placed (run n) pc) fun _ m' =>
      (if m'.stack.isEmpty then .ok () else .error .leftOver, m')

/-- A program whose constants get no marks comes down to its listing. -/
theorem Code.Lists.plays {code : Code} {ls : List Line} {p : Pool} {m : Machine}
    (h : code.Lists ls p) (hload : outcome (load code) m = (.ok code, m)) :
    m.Plays code fun n => outcome (Line.run code ls n ls) m :=
  ⟨0, h.perform_runWithin hload⟩

/-- What ends in one computation as in another, ends so in the programs that come down to them. -/
theorem Machine.Halts.of_plays {code code' : Code} {m₁ m₂ m' : Machine} {r : Except Fault Unit}
    {run run' : Nat → Except Fault Unit × Machine} (hrun₁ : m₁.Plays code run)
    (hrun₂ : m₂.Plays code' run')
    (hruns : ∀ {n r m'}, run n = (r, m') → r ≠ .error .endless → ∃ n', run' n' = (r, m'))
    (h : m₁.Halts code r m') : ∃ pc, m₂.Halts code' r (m'.at pc) := by
  obtain ⟨hr, n, hn⟩ := h
  obtain ⟨k, hk⟩ := hrun₁
  obtain ⟨k', hk'⟩ := hrun₂
  obtain ⟨pc, hpc⟩ := hk n
  rcases hout : run n with ⟨r₀, m₀⟩
  rw [hout, Machine.perform_mono hn hr (by omega)] at hpc
  have hr₀ : r₀ ≠ .error .endless := by
    rintro rfl
    exact hr (congrArg (·.1) hpc)
  obtain ⟨n', hn'⟩ := hruns hout hr₀
  obtain ⟨pc', hpc'⟩ := hk' n'
  rw [hn'] at hpc'
  refine ⟨pc', hr, n' + k', hpc'.trans ?_⟩
  cases r₀ <;> cases hpc <;> rfl

/-- What ends on one listing as on another, ends so when the programs are run. -/
theorem Machine.Halts.transfer {code code' : Code} {ls ls' : List Line} {p p' : Pool}
    {m m' : Machine} {r : Except Fault Unit} (hls : code.ListsExactly ls p)
    (hls' : code'.ListsExactly ls' p')
    (hrun : ∀ {n r m'}, outcome (Line.run code ls n ls) m = (r, m') → r ≠ .error .endless →
      ∃ n', outcome (Line.run code' ls' n' ls') m = (r, m'))
    (h : m.Halts code r m') : ∃ pc, m.Halts code' r (m'.at pc) :=
  h.of_plays (hls.plays (load_anonymous hls.anonymous m))
    (hls'.plays (load_anonymous hls'.anonymous m)) hrun

end Stackwise
