import Stackwise.Proofs.FoldedCode
import Stackwise.Proofs.Session
import Stackwise.Proofs.StackDepth

/-!
# Balanced runs

Depths that are told from the code are those of the stack: where the loop of the machine has come
to, the stack has the depth of that place (`Code.Tracks.turn`). So every instruction finds what
it takes, whatever is beneath makes no difference to it, and nothing is left at the end. A call
without arguments is the exception, since its operand of zero takes the whole stack.

Folding keeps the shape of a tree and the names it assigns to, so all of this holds of programs as
they are run: `Tree.toCode_balanced`.
-/
namespace Stackwise

namespace Exec

/-! ### What operations take and give -/

/-- Values beneath the stack of a machine make no difference to an operation, which leaves them
there, also when it fails. -/
def IgnoresBeneath {α : Type} (e : Exec α) (m : Machine) : Prop :=
  ∀ s, outcome e (m.above s) = ((outcome e m).1, (outcome e m).2.above s)

/-- An operation takes `n` values from the stack and does not look beneath them; if it returns `a`
it leaves `k a` values in their place. -/
def Uses {α : Type} (n : Nat) (k : α → Nat) (e : Exec α) : Prop :=
  ∀ m : Machine, n ≤ m.stack.length → IgnoresBeneath e m ∧
    ∀ a m', outcome e m = (.ok a, m') → m'.stack.length + n = m.stack.length + k a

namespace Uses

variable {α β : Type} {n : Nat} {k : α → Nat} {e : Exec α}

theorem pure {a : α} (h : k a = n) : Uses n k (pure a) := by
  refine fun m _ => ⟨fun s => rfl, ?_⟩
  rintro _ _ ⟨⟩
  rw [h]

theorem throw (f : Fault) : Uses n k (throw f : Exec α) := fun _ _ => ⟨fun _ => rfl, nofun⟩

theorem bind {j : β → Nat} {g : α → Exec β} (he : Uses n k e) (hg : ∀ a, Uses (k a) j (g a)) :
    Uses n j (e >>= g) := by
  intro m hm
  obtain ⟨ignores, length⟩ := he m hm
  simp only [IgnoresBeneath, outcome_bind]
  rcases hout : outcome e m with ⟨f | a, m₁⟩
  · refine ⟨fun s => ?_, nofun⟩
    rw [ignores s, hout]
    rfl
  · have hlength := length a m₁ hout
    obtain ⟨ignores', length'⟩ := hg a m₁ (by omega)
    refine ⟨fun s => ?_, fun b m₂ h => ?_⟩
    · rw [ignores s, hout]
      exact ignores' s
    · have hlength' := length' b m₂ h
      omega

theorem map {j : β → Nat} {g : α → β} (he : Uses n k e) (h : ∀ a, j (g a) = k a) :
    Uses n j (g <$> e) := by
  rw [← bind_pure_comp]
  exact he.bind fun a => pure (h a)

/-- Operations that leave the stack alone. -/
theorem of_stack (h : ∀ m, IgnoresBeneath e m ∧ (outcome e m).2.stack = m.stack) :
    Uses n (fun _ => n) e := by
  refine fun m _ => ⟨(h m).1, fun a m' hout => ?_⟩
  rw [← (h m).2, hout]

theorem act (a : Act α) : Uses n (fun _ => n) (act a) := of_stack fun _ => ⟨fun _ => rfl, rfl⟩

theorem ofExcept (r : Except Fault α) : Uses n (fun _ => n) (ofExcept r) := by
  cases r with
  | ok a => exact pure rfl
  | error f => exact throw f

theorem entryAt {table : Array α} (i : Nat) : Uses n (fun _ => n) (entryAt table i) := by
  unfold Exec.entryAt
  split
  · exact pure rfl
  · exact throw _

theorem push (v : Value) : Uses n (fun _ => n + 1) (push v) := by
  refine fun m _ => ⟨fun _ => rfl, ?_⟩
  rintro _ _ ⟨⟩
  simp only [List.length_cons]
  omega

theorem pop : Uses (n + 1) (fun _ => n) pop := by
  intro m hm
  rcases hstack : m.stack with _ | ⟨v, rest⟩
  · simp [hstack] at hm
  · refine ⟨fun s => by simp [Exec.pop, hstack, Machine.above], fun w m' h => ?_⟩
    simp only [Exec.pop, outcome_bind, outcome_get, chain_ok, hstack] at h
    obtain ⟨-, rfl⟩ := Prod.mk.inj h
    simp only [List.length_cons]
    omega

theorem top : Uses (n + 1) (fun _ => n + 1) top := by
  intro m hm
  rcases hstack : m.stack with _ | ⟨v, rest⟩
  · simp [hstack] at hm
  · refine ⟨fun s => by simp [Exec.top, hstack], fun w m' h => ?_⟩
    simp only [Exec.top, outcome_bind, outcome_get, chain_ok, hstack] at h
    obtain ⟨-, rfl⟩ := Prod.mk.inj h
    rw [hstack]

theorem popMany (i : Nat) : Uses (i + n) (fun _ => n) (popMany i) := by
  induction i with
  | zero =>
    rw [Nat.zero_add]
    exact pure rfl
  | succ i ih =>
    rw [Nat.succ_add]
    exact pop.bind fun v => ih.map fun _ => rfl

theorem popMembers (i : Nat) (xs : List Value) : Uses (i + n) (fun _ => n) (popMembers i xs) := by
  induction i generalizing xs with
  | zero =>
    rw [Nat.zero_add]
    exact pure rfl
  | succ i ih =>
    rw [Nat.succ_add]
    exact pop.bind fun v => (ofExcept _).bind fun _ => ih _

theorem popEntries (i : Nat) (es : List (Value × Value)) :
    Uses (2 * i + n) (fun _ => n) (popEntries i es) := by
  induction i generalizing es with
  | zero =>
    rw [Nat.mul_zero, Nat.zero_add]
    exact pure rfl
  | succ i ih =>
    rw [show 2 * (i + 1) + n = (2 * i + n) + 1 + 1 by omega]
    exact pop.bind fun k => pop.bind fun v => (ofExcept _).bind fun _ => ih _

theorem popArguments {i : Nat} (hi : i ≠ 0) : Uses (i + n) (fun _ => n) (popArguments i) := by
  intro m hm
  refine ⟨fun s => ?_, fun args m' h => ?_⟩
  · have htake : (m.stack ++ s).take i = m.stack.take i :=
      List.take_append_of_le_length (by omega)
    have hdrop : (m.stack ++ s).drop i = m.stack.drop i ++ s :=
      List.drop_append_of_le_length (by omega)
    simp [Exec.popArguments, if_neg hi, Machine.above, htake, hdrop]
  · simp only [Exec.popArguments, outcome_bind, outcome_get, chain_ok, outcome_modify,
      if_neg hi] at h
    obtain ⟨-, rfl⟩ := Prod.mk.inj h
    simp only [List.length_drop]
    omega

theorem lookup (name : Name) : Uses n (fun _ => n) (lookup name) := by
  refine (ofExcept _).bind fun _ => of_stack fun m => ?_
  simp only [IgnoresBeneath, outcome_bind, outcome_get, chain_ok, Machine.above_globals]
  cases m.globals.lookup name with
  | some v => exact ⟨fun _ => rfl, rfl⟩
  | none =>
    dsimp only
    cases predefined? name with
    | some v => exact ⟨fun _ => rfl, rfl⟩
    | none => cases name.repr <;> exact ⟨fun _ => rfl, rfl⟩

theorem store (name : Name) (v : Value) : Uses n (fun _ => n) (store name v) :=
  (ofExcept _).bind fun _ => of_stack fun _ => ⟨fun _ => rfl, rfl⟩

theorem delete (name : Name) : Uses n (fun _ => n) (delete name) := by
  refine (ofExcept _).bind fun _ => of_stack fun m => ?_
  simp only [IgnoresBeneath, outcome_bind, outcome_get, chain_ok, Machine.above_globals]
  cases m.globals.lookup name <;> exact ⟨fun _ => rfl, rfl⟩

theorem display (v : Value) : Uses n (fun _ => n) (display v) := by
  unfold Exec.display
  split
  · exact pure rfl
  · exact (ofExcept _).bind fun s => act _

/-- What a jump takes it leaves there, and an item with it if it is not taken. -/
theorem taken (kind : JumpKind) : Uses (kind.opcode.takes 0)
    (fun b => if b then kind.opcode.takes 0 else kind.opcode.gives) kind.taken := by
  cases kind with
  | always => exact pure rfl
  | ifFalse => exact top.map fun v => by cases v.truthy <;> rfl
  | atEnd =>
    refine top.bind fun v => ?_
    split
    · refine (act _).bind fun next => ?_
      cases next with
      | some v => exact (push v).bind fun _ => pure rfl
      | none => exact pure rfl
    · exact throw _

/-- Instructions take and give what they should, apart from calls without arguments. -/
theorem execute (code : Code) (op : Opcode) (arg : Nat) (hop : ∀ kind, op ≠ JumpKind.opcode kind)
    (hcall : ¬(op = .callFunction ∧ arg = 0)) :
    Uses (op.takes arg) (fun _ => op.gives) (execute code op arg) := by
  cases op with
  | jump => exact absurd rfl (hop .always)
  | jumpIfFalse => exact absurd rfl (hop .ifFalse)
  | forIter => exact absurd rfl (hop .atEnd)
  | loadConst => exact (entryAt _).bind push
  | printExpr => exact pop.bind display
  | dupTop => exact top.bind push
  | popTop => exact pop.bind fun _ => pure rfl
  | loadName => exact (entryAt _).bind fun n => (lookup n).bind push
  | storeName => exact (entryAt _).bind fun n => pop.bind fun v => store n v
  | delName => exact (entryAt _).bind delete
  | buildList => exact (popMany (n := 0) _).bind fun vs => push _
  | buildTuple => exact (popMany (n := 0) _).bind fun vs => push _
  | buildSet => exact (popMembers (n := 0) _ _).bind fun vs => push _
  | buildDict => exact (popEntries (n := 0) _ _).bind fun vs => push _
  | binary op =>
    exact pop.bind fun right => pop.bind fun left => (ofExcept _).bind fun v => (act _).bind push
  | unary op => exact pop.bind fun v => (ofExcept _).bind fun w => (act _).bind push
  | index => exact pop.bind fun i => pop.bind fun v => (ofExcept _).bind push
  | extendedArg => exact pure rfl
  | getIter => exact pop.bind fun v => (act _).bind push
  | callFunction =>
    have harg : arg ≠ 0 := fun h => hcall ⟨rfl, h⟩
    exact (popArguments harg).bind fun args => pop.bind fun f => (act _).bind push

end Uses

/-- A call without arguments takes all values for arguments, and then there is no function. -/
theorem execute_emptyCall (code : Code) (m : Machine) :
    outcome (execute code .callFunction 0) m = (.error .emptyStack, m.cleared) := by
  simp [execute, popArguments, pop, Machine.cleared]

/-- An instruction that returns has jumped and left the stack as deep as it was, or goes on and has
given what it gives for what it takes. -/
theorem length_of_execute {code : Code} {op : Opcode} {arg : Nat} {m m' : Machine}
    (htakes : op.takes arg ≤ m.stack.length)
    (h : outcome (execute code op arg) m = (.ok (), m')) :
    (∃ kind, op = JumpKind.opcode kind) ∧ m'.pc = arg ∧ m'.stack.length = m.stack.length ∨
      op ≠ .jump ∧ m'.pc = m.pc ∧
        m'.stack.length = m.stack.length - op.takes arg + op.gives := by
  by_cases hjump : ∃ kind, op = JumpKind.opcode kind
  · obtain ⟨kind, rfl⟩ := hjump
    have harg : kind.opcode.takes arg = kind.opcode.takes 0 := by cases kind <;> rfl
    rw [harg] at htakes ⊢
    rw [execute_jump, chain_eq_ok] at h
    obtain ⟨taken, m₁, htaken, hm⟩ := h
    have hlength := (Uses.taken kind m htakes).2 taken m₁ htaken
    cases hm
    cases taken with
    | true =>
      refine .inl ⟨⟨kind, rfl⟩, rfl, ?_⟩
      simpa using hlength
    | false =>
      refine .inr ⟨?_, (Blind.taken kind).pc_eq htaken, ?_⟩
      · cases kind with
        | always => cases htaken
        | _ => nofun
      · simp only [Bool.false_eq_true, if_false] at hlength ⊢
        omega
  · have hne : ∀ kind, op ≠ JumpKind.opcode kind := fun kind hkind => hjump ⟨kind, hkind⟩
    have hcall : ¬(op = .callFunction ∧ arg = 0) := by
      rintro ⟨rfl, rfl⟩
      rw [execute_emptyCall] at h
      cases h
    have hlength : m'.stack.length + op.takes arg = m.stack.length + op.gives :=
      (Uses.execute code op arg hne hcall m htakes).2 () m' h
    refine .inr ⟨hne .always, (Blind.execute code op arg hne).pc_eq h, ?_⟩
    omega

/-- Where there is enough on the stack, what is beneath makes no difference. -/
theorem ignoresBeneath_execute {code : Code} {op : Opcode} {arg : Nat} {m : Machine}
    (htakes : op.takes arg ≤ m.stack.length) (hcall : ¬(op = .callFunction ∧ arg = 0)) :
    IgnoresBeneath (execute code op arg) m := by
  by_cases hjump : ∃ kind, op = JumpKind.opcode kind
  · obtain ⟨kind, rfl⟩ := hjump
    have htaken := (Uses.taken kind m (by cases kind <;> exact htakes)).1
    intro s
    rw [execute_jump, execute_jump, htaken s]
    rcases outcome kind.taken m with ⟨f | _ | _, m₁⟩ <;> rfl
  · exact (Uses.execute code op arg (fun kind hkind => hjump ⟨kind, hkind⟩) hcall m htakes).1

end Exec

/-! ### Runs -/

namespace Code.Tracks

variable {code : Code} {depth : Nat → Nat} (h : code.Tracks depth)
include h

theorem with_consts (consts : Array Value) : Tracks { code with consts } depth where
  takes := by
    intro s op b hd
    rw [pending_with_consts]
    exact h.takes s op b hd
  next := by
    intro s op b hd hop
    rw [pending_with_consts]
    exact h.next s op b hd hop
  jump := by
    intro s kind b hd
    rw [pending_with_consts]
    exact h.jump s kind b hd

/-- Every turn of the loop leaves a stack of the depth of the place it leads to. -/
theorem turn {s s' : Nat × Machine} (ht : Exec.Turn code s s') (hs : code.Inside s.1 s.2)
    (hdepth : s.2.stack.length = depth s.2.pc) : s'.2.stack.length = depth s'.2.pc := by
  cases ht with
  | extend hd =>
    rw [Machine.at_pc, Machine.at_stack, hdepth, h.next _ _ _ hd nofun]
    rfl
  | @execute high b m m' op hd hop hrun =>
    obtain rfl : high = code.pending m.pc := hs.2
    replace hdepth : (m.at (m.pc + 1)).stack.length = depth m.pc := hdepth
    have htakes := h.takes _ _ _ hd
    rw [← hdepth] at htakes
    obtain ⟨⟨kind, rfl⟩, hpc, hlength⟩ | ⟨hne, hpc, hlength⟩ :=
      Exec.length_of_execute htakes hrun
    · rw [hpc, hlength, hdepth, h.jump _ kind _ hd]
    · rw [hpc, hlength, hdepth, Machine.at_pc, h.next _ _ _ hd hne]

/-- Wherever a run comes to, the stack has the depth of that place. -/
theorem turns (hwf : code.WellFormed) {s s' : Nat × Machine}
    (ht : Relation.ReflTransGen (Exec.Turn code) s s') (hs : code.Inside s.1 s.2)
    (hdepth : s.2.stack.length = depth s.2.pc) : s'.2.stack.length = depth s'.2.pc := by
  induction ht with
  | refl => exact hdepth
  | tail hturns ht ih => exact h.turn ht (hwf.turns hturns hs) ih

end Code.Tracks

namespace Code.HasDepths

variable {code : Code} {depth : Nat → Nat} (h : code.HasDepths depth)
include h

theorem with_consts (consts : Array Value) : HasDepths { code with consts } depth :=
  have tracks := h.tracks.with_consts consts
  ⟨h.first, h.last, tracks.takes, tracks.next, tracks.jump⟩

/-- A run from an empty stack comes to no place with another depth than the one it has. -/
theorem visits (hwf : code.WellFormed) {m s : Machine} {loaded : Code} {high : Nat}
    (hm : m.stack = []) (hv : Exec.Visits code m loaded high s) :
    loaded.HasDepths depth ∧ loaded.Inside high s ∧ s.stack.length = depth s.pc := by
  obtain ⟨consts, w, hsize, rfl, hturns⟩ := hv.turns
  have hloaded := hwf.with_consts hsize
  have hstart : Code.Inside { code with consts } 0 (Machine.at { m with world := w } 0) :=
    ⟨Nat.zero_le _, rfl⟩
  refine ⟨h.with_consts consts, hloaded.turns hturns hstart, ?_⟩
  refine (h.tracks.with_consts consts).turns hloaded hturns hstart ?_
  simp [hm, h.first]

end Code.HasDepths

/-! ### Folding -/

namespace Tree

theorem isName_foldNode {t t' : Tree} (h : t.foldNode = .ok t') (ht : t.isName = true) :
    t'.isName = true := by
  cases t with
  | name id ctx =>
    simp only [foldNode, bind_eq_ok, pure_eq_ok] at h
    obtain ⟨id', -, ctx', -, rfl⟩ := h
    rfl
  | _ => cases ht

theorem foldItems_forall {ts ts' : List Tree} {P : Tree → Prop} (hord : ∀ t ∈ ts, t.Ordinary)
    (h : foldItems ts = .ok ts') (hP : ∀ t ∈ ts, ∀ t', t.foldNode = .ok t' → P t') :
    ∀ t' ∈ ts', P t' := by
  have items := forall₂_foldItems (R := fun _ t' => P t') hord h hP
  clear hord h hP
  induction items with
  | nil => nofun
  | cons h _ ih => exact List.forall_mem_cons.2 ⟨h, ih⟩

theorem length_foldItems {ts ts' : List Tree} (hord : ∀ t ∈ ts, t.Ordinary)
    (h : foldItems ts = .ok ts') : ts.length = ts'.length :=
  (forall₂_foldItems (R := fun _ _ => True) hord h fun _ _ _ _ => trivial).length_eq

theorem lookup_foldFields {fields fields' : List (String × Tree)} {f : String}
    (h : foldFields fields = .ok fields') (hf : fields.lookup f = none) :
    fields'.lookup f = none := by
  induction fields generalizing fields' with
  | nil =>
    cases h
    rfl
  | cons e es ih =>
    obtain ⟨k, t⟩ := e
    simp only [foldFields, bind_eq_ok, pure_eq_ok] at h
    obtain ⟨t', -, es', hes, rfl⟩ := h
    rw [List.lookup_cons] at hf ⊢
    split at hf
    · cases hf
    · exact ih hes hf

/-- What folding keeps of a tree: its shape, and that only names are assigned to. -/
structure Kept (indexed : Bool) (r : Role) (t t' : Tree) : Prop where
  fits : t'.Fits indexed r
  names : t.AssignsNames → t'.AssignsNames

section
variable {indexed : Bool} {r : Role} {ts ts' : List Tree} (hts : ∀ t ∈ ts, t.Fits indexed r)
  (ih : ∀ t ∈ ts, ∀ t', t.foldNode = .ok t' → Kept indexed r t t')
  (h : foldItems ts = .ok ts')
include hts ih h

theorem foldItems_fits : ∀ t ∈ ts', t.Fits indexed r :=
  foldItems_forall (fun t ht => (hts t ht).ordinary) h fun t ht t' hfold => (ih t ht t' hfold).fits

theorem foldItems_names (hnames : (Tree.list ts).AssignsNames) :
    (Tree.list ts').AssignsNames := by
  rw [assignsNames_list] at hnames ⊢
  exact foldItems_forall (fun t ht => (hts t ht).ordinary) h fun t ht t' hfold =>
    (ih t ht t' hfold).names (hnames t ht)

end

theorem Fits.kept {indexed : Bool} {r : Role} {t : Tree} (h : t.Fits indexed r) :
    ∀ t', t.foldNode = .ok t' → Kept indexed r t t' := by
  induction h with
  | leaf v =>
    intro t' h
    cases h
    exact ⟨.leaf v, id⟩
  | module hbody ih =>
    intro t' h
    simp only [foldNode, bind_eq_ok, pure_eq_ok] at h
    obtain ⟨_, ⟨body', hfold, rfl⟩, rfl⟩ := h
    exact ⟨.module (foldItems_fits hbody ih hfold), foldItems_names hbody ih hfold⟩
  | interactive hbody ih =>
    intro t' h
    simp only [foldNode, bind_eq_ok, pure_eq_ok] at h
    obtain ⟨_, ⟨body', hfold, rfl⟩, rfl⟩ := h
    exact ⟨.interactive (foldItems_fits hbody ih hfold), foldItems_names hbody ih hfold⟩
  | expr _ ih =>
    intro t' h
    simp only [foldNode, bind_eq_ok, pure_eq_ok] at h
    obtain ⟨value', hvalue, rfl⟩ := h
    exact ⟨.expr (ih _ hvalue).fits, id⟩
  | assign htargets _ iht ihv =>
    intro t' h
    simp only [foldNode, bind_eq_ok, pure_eq_ok] at h
    obtain ⟨_, ⟨targets', htargets', rfl⟩, value', hvalue', rfl⟩ := h
    refine ⟨.assign (foldItems_fits htargets iht htargets') (ihv _ hvalue').fits, fun hnames => ?_⟩
    exact foldItems_forall (fun t ht => (htargets t ht).ordinary) htargets' fun t ht t' hfold =>
      isName_foldNode hfold (hnames t ht)
  | augAssign _ _ _ iht iho ihv =>
    intro t' h
    simp only [foldNode, bind_eq_ok, pure_eq_ok] at h
    obtain ⟨target', htarget', op', hop', value', hvalue', rfl⟩ := h
    exact ⟨.augAssign (iht _ htarget').fits (iho _ hop').fits (ihv _ hvalue').fits, id⟩
  | delete htargets ih =>
    intro t' h
    simp only [foldNode, bind_eq_ok, pure_eq_ok] at h
    obtain ⟨_, ⟨targets', htargets', rfl⟩, rfl⟩ := h
    exact ⟨.delete (foldItems_fits htargets ih htargets'), id⟩
  | pass =>
    intro t' h
    cases h
    exact ⟨.pass, id⟩
  | ifStmt _ hbody horelse iht ihb iho =>
    intro t' h
    simp only [foldNode, bind_eq_ok, pure_eq_ok] at h
    obtain ⟨test', htest', _, ⟨body', hbody', rfl⟩, _, ⟨orelse', horelse', rfl⟩, rfl⟩ := h
    refine ⟨.ifStmt (iht _ htest').fits (foldItems_fits hbody ihb hbody')
      (foldItems_fits horelse iho horelse'), fun hnames => ?_⟩
    rw [assignsNames_ifStmt] at hnames ⊢
    exact hnames.imp (foldItems_names hbody ihb hbody') (foldItems_names horelse iho horelse')
  | ifExp _ _ _ iht ihb iho =>
    intro t' h
    simp only [foldNode, bind_eq_ok, pure_eq_ok] at h
    obtain ⟨test', htest', body', hbody', orelse', horelse', rfl⟩ := h
    exact ⟨.ifExp (iht _ htest').fits (ihb _ hbody').fits (iho _ horelse').fits, id⟩
  | whileLoop orelse _ hbody iht ihb =>
    intro t' h
    simp only [foldNode, bind_eq_ok, pure_eq_ok] at h
    obtain ⟨test', htest', _, ⟨body', hbody', rfl⟩, orelse', -, rfl⟩ := h
    exact ⟨.whileLoop _ (iht _ htest').fits (foldItems_fits hbody ihb hbody'),
      foldItems_names hbody ihb hbody'⟩
  | forLoop orelse _ _ hbody iht ihi ihb =>
    intro t' h
    simp only [foldNode, bind_eq_ok, pure_eq_ok] at h
    obtain ⟨target', htarget', iter', hiter', _, ⟨body', hbody', rfl⟩, orelse', -, rfl⟩ := h
    refine ⟨.forLoop _ (iht _ htarget').fits (ihi _ hiter').fits
      (foldItems_fits hbody ihb hbody'), fun hnames => ?_⟩
    rw [assignsNames_forLoop] at hnames ⊢
    exact hnames.imp (isName_foldNode htarget') (foldItems_names hbody ihb hbody')
  | name id c =>
    intro t' h
    cases h
    exact ⟨.name id c, fun hnames => hnames⟩
  | constant v =>
    intro t' h
    cases h
    exact ⟨.constant v, id⟩
  | tuple helts ih =>
    intro t' h
    simp only [foldNode, bind_eq_ok, pure_eq_ok] at h
    obtain ⟨_, ⟨elts', helts', rfl⟩, ctx', ⟨⟩, h⟩ := h
    obtain rfl | ⟨vs, -, rfl⟩ := foldTuple_cases h
    · exact ⟨.tuple (foldItems_fits helts ih helts'), id⟩
    · exact ⟨.constant _, id⟩
  | listDisplay helts ih =>
    intro t' h
    simp only [foldNode, bind_eq_ok, pure_eq_ok] at h
    obtain ⟨_, ⟨elts', helts', rfl⟩, ctx', ⟨⟩, rfl⟩ := h
    exact ⟨.listDisplay (foldItems_fits helts ih helts'), id⟩
  | setDisplay helts ih =>
    intro t' h
    simp only [foldNode, bind_eq_ok, pure_eq_ok] at h
    obtain ⟨_, ⟨elts', helts', rfl⟩, rfl⟩ := h
    exact ⟨.setDisplay (foldItems_fits helts ih helts'), id⟩
  | dictDisplay hlength hkeys hvalues ihk ihv =>
    intro t' h
    simp only [foldNode, bind_eq_ok, pure_eq_ok] at h
    obtain ⟨_, ⟨keys', hkeys', rfl⟩, _, ⟨values', hvalues', rfl⟩, rfl⟩ := h
    refine ⟨.dictDisplay ?_ (foldItems_fits hkeys ihk hkeys')
      (foldItems_fits hvalues ihv hvalues'), id⟩
    rw [← length_foldItems (fun t ht => (hkeys t ht).ordinary) hkeys', hlength,
      length_foldItems (fun t ht => (hvalues t ht).ordinary) hvalues']
  | binOp _ _ _ ihl iho ihr =>
    intro t' h
    simp only [foldNode, bind_eq_ok] at h
    obtain ⟨left', hleft', op', hop', right', hright', h⟩ := h
    obtain rfl | ⟨o, a, b, c, -, -, -, -, rfl⟩ := foldBinOp_cases h
    · exact ⟨.binOp (ihl _ hleft').fits (iho _ hop').fits (ihr _ hright').fits, id⟩
    · exact ⟨.constant c, id⟩
  | unaryOp _ _ iho ih =>
    intro t' h
    simp only [foldNode, bind_eq_ok, pure_eq_ok] at h
    obtain ⟨op', hop', operand', hoperand', rfl⟩ := h
    exact ⟨.unaryOp (iho _ hop').fits (ih _ hoperand').fits, id⟩
  | subscript _ _ ihv ihs =>
    intro t' h
    simp only [foldNode, bind_eq_ok, pure_eq_ok] at h
    obtain ⟨value', hvalue', slice', hslice', ctx', ⟨⟩, rfl⟩ := h
    exact ⟨.subscript (ihv _ hvalue').fits (ihs _ hslice').fits, id⟩
  | index _ ih =>
    intro t' h
    simp only [foldNode, bind_eq_ok, pure_eq_ok] at h
    obtain ⟨value', hvalue', rfl⟩ := h
    exact ⟨.index (ih _ hvalue').fits, id⟩
  | call keywords _ hargs ihf iha =>
    intro t' h
    simp only [foldNode, bind_eq_ok, pure_eq_ok] at h
    obtain ⟨func', hfunc', _, ⟨args', hargs', rfl⟩, keywords', -, rfl⟩ := h
    exact ⟨.call _ (ihf _ hfunc').fits (foldItems_fits hargs iha hargs'), id⟩
  | binaryOperator op =>
    intro t' h
    cases h
    exact ⟨.binaryOperator op, id⟩
  | unaryOperator op =>
    intro t' h
    cases h
    exact ⟨.unaryOperator op, id⟩
  | other hcls hfields =>
    intro t' h
    simp only [foldNode, bind_eq_ok, pure_eq_ok] at h
    obtain ⟨fields', hfields', rfl⟩ := h
    exact ⟨.other hcls (lookup_foldFields hfields' hfields), id⟩

/-- The code of a folded program has depths. -/
theorem Fits.toCode_hasDepths {t : Tree} {code : Code} (ht : t.Fits true .program)
    (hnames : t.AssignsNames) (hcode : t.toCode true = .ok code) :
    code.WellFormed ∧ ∃ depth, code.HasDepths depth := by
  rw [toCode, if_pos rfl, bind_eq_ok] at hcode
  obtain ⟨t', hfold, hcompile⟩ := hcode
  have kept := ht.kept t' (foldNode_eq_ok hfold)
  obtain ⟨ls, p, hd, hls⟩ := compile_eq_ok.1 hcompile
  have grows := t'.draft_keeps (P := fun _ => True) (by simp) {} ls p hd
  obtain ⟨xs, rfl, flows, lands⟩ := kept.fits.hasEffect (kept.names hnames) 0 {} ls p hd
  exact ⟨hls.wellFormed grows.known, _, hls.hasDepths flows lands⟩

/-- Runs of programs that assign to names only are balanced. Whatever the variables are, a run from
an empty stack finds at each instruction the values that it takes. A call without arguments empties
the stack and fails there; to any other instruction it makes no difference what is beneath the
stack. So a run comes to the end of the code with an empty stack, unless it has no end or an
instruction fails. -/
theorem toCode_balanced {text : String} {t : Tree} {code : Code}
    (hread : read .program text = .ok t) (hnames : t.wrapIndices.AssignsNames)
    (hcode : t.wrapIndices.toCode true = .ok code) {m : Machine} (hm : m.stack = []) :
    (∀ loaded high s op b, Exec.Visits code m loaded high s →
      loaded.decode? s.pc = some (op, b) →
        op.takes (high * 256 + b) ≤ s.stack.length ∧
        if op = .callFunction ∧ high * 256 + b = 0 then
          outcome (Exec.execute loaded op (high * 256 + b)) (s.at (s.pc + 1)) =
            (.error .emptyStack, (s.at (s.pc + 1)).cleared)
        else (Exec.execute loaded op (high * 256 + b)).IgnoresBeneath (s.at (s.pc + 1))) ∧
    ∀ fuel, ∃ loaded high s, Exec.Visits code m loaded high s ∧
      (s.pc = code.size ∧ s.stack = [] ∧ m.perform (Exec.runWithin fuel code) = (.ok (), s) ∨
        m.perform (Exec.runWithin fuel code) = (.error .endless, s) ∨
        ∃ op b f m', loaded.decode? s.pc = some (op, b) ∧
          outcome (Exec.execute loaded op (high * 256 + b)) (s.at (s.pc + 1)) = (.error f, m') ∧
          m.perform (Exec.runWithin fuel code) = (.error f, m')) := by
  obtain ⟨hwf, depth, hdepth⟩ := (read_fits hread).wrapIndices.toCode_hasDepths hnames hcode
  refine ⟨fun loaded high s op b hv hd => ?_, fun fuel => ?_⟩
  · obtain ⟨hdepths, hinside, hlength⟩ := hdepth.visits hwf hm hv
    have htakes : op.takes (high * 256 + b) ≤ s.stack.length := by
      rw [hinside.2, hlength]
      exact hdepths.takes _ _ _ hd
    refine ⟨htakes, ?_⟩
    split
    · next hcall => rw [hcall.1, hcall.2, Exec.execute_emptyCall]
    · next hcall => exact Exec.ignoresBeneath_execute htakes hcall
  · obtain ⟨loaded, high, s, hv, hend⟩ := hwf.runWithin_ends m fuel
    obtain ⟨-, -, hlength⟩ := hdepth.visits hwf hm hv
    refine ⟨loaded, high, s, hv, ?_⟩
    rcases hend with ⟨hpc, hrun⟩ | hrun | ⟨op, b, f, m', hd, -, hfail, hrun⟩
    · have hstack : s.stack = [] := by
        rw [← List.length_eq_zero_iff, hlength, hpc, hdepth.last]
      refine .inl ⟨hpc, hstack, ?_⟩
      rw [hrun, hstack]
      rfl
    · exact .inr (.inl hrun)
    · exact .inr (.inr ⟨op, b, f, m', hd, hfail, hrun⟩)

/-- A loop in a loop, a choice, and a call and displays within others. -/
def tally : String :=
  "total = 0\nfor row in [(1, 2), (n, 3)]:\n    for x in row:\n" ++
  "        total += {0: 1}[0] if x else max(2, -x)"

theorem toCode_balanced_tally :
    ∃ t code, read .program tally = .ok t ∧ t.wrapIndices.AssignsNames ∧
      t.wrapIndices.toCode true = .ok code ∧
      ∀ loaded high s op b, Exec.Visits code {} loaded high s →
        loaded.decode? s.pc = some (op, b) → op.takes (high * 256 + b) ≤ s.stack.length := by
  obtain ⟨t, hread, hnames, code, hcode, -⟩ :
      ∃ t, read .program tally = .ok t ∧ t.wrapIndices.AssignsNames ∧
        ∃ code, t.wrapIndices.toCode true = .ok code ∧ 0 < code.size := by
    decide +kernel
  refine ⟨t, code, hread, hnames, hcode, fun loaded high s op b hv hd => ?_⟩
  exact ((toCode_balanced hread hnames hcode rfl).1 loaded high s op b hv hd).1

end Tree

end Stackwise
