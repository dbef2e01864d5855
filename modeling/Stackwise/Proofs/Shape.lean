import Stackwise.Syntax.Read

/-!
# The shape of trees that are read

A tree can be made by hand with anything in any field. One that is read from a text has a shape:
statements, expressions, targets and operators stand where they belong, a name has a text, and a
class without a rule has no identifier. `Tree.Fits` says this for each place, and `Tree.Ordinary` is
what is left of it without the places. `Yields` says what a parser returns if it returns, rule by
rule, and `Tree.read_fits` puts the rules together. Wrapping indices keeps the shape.
-/
namespace Stackwise

/-- Trees as they are read. What is below a class without a rule does not matter, and neither do
fields that have no instructions. -/
inductive Tree.Ordinary : Tree → Prop
  | leaf (v : Value) : Ordinary (.leaf v)
  | module {body : List Tree} (hbody : ∀ s ∈ body, Ordinary s) : Ordinary (.module (.list body))
  | interactive {body : List Tree} (hbody : ∀ s ∈ body, Ordinary s) :
    Ordinary (.interactive (.list body))
  | expr {value : Tree} (hvalue : Ordinary value) : Ordinary (.expr value)
  | assign {targets : List Tree} {value : Tree} (htargets : ∀ t ∈ targets, Ordinary t)
    (hvalue : Ordinary value) : Ordinary (.assign (.list targets) value)
  | augAssign {target op value : Tree} (htarget : Ordinary target) (hop : Ordinary op)
    (hvalue : Ordinary value) : Ordinary (.augAssign target op value)
  | delete {targets : List Tree} (htargets : ∀ t ∈ targets, Ordinary t) :
    Ordinary (.delete (.list targets))
  | pass : Ordinary .pass
  | ifStmt {test : Tree} {body orelse : List Tree} (htest : Ordinary test)
    (hbody : ∀ s ∈ body, Ordinary s) (horelse : ∀ s ∈ orelse, Ordinary s) :
    Ordinary (.ifStmt test (.list body) (.list orelse))
  | ifExp {test body orelse : Tree} (htest : Ordinary test) (hbody : Ordinary body)
    (horelse : Ordinary orelse) : Ordinary (.ifExp test body orelse)
  | whileLoop {test : Tree} {body : List Tree} (orelse : Tree) (htest : Ordinary test)
    (hbody : ∀ s ∈ body, Ordinary s) : Ordinary (.whileLoop test (.list body) orelse)
  | forLoop {target iter : Tree} {body : List Tree} (orelse : Tree) (htarget : Ordinary target)
    (hiter : Ordinary iter) (hbody : ∀ s ∈ body, Ordinary s) :
    Ordinary (.forLoop target iter (.list body) orelse)
  | name (id : Value) (ctx : Tree) : Ordinary (.name (.leaf id) ctx)
  | constant (v : Value) : Ordinary (.constant (some v))
  | tuple {elts : List Tree} (ctx : Tree) (helts : ∀ e ∈ elts, Ordinary e) :
    Ordinary (.tuple (.list elts) ctx)
  | listDisplay {elts : List Tree} (ctx : Tree) (helts : ∀ e ∈ elts, Ordinary e) :
    Ordinary (.listDisplay (.list elts) ctx)
  | setDisplay {elts : List Tree} (helts : ∀ e ∈ elts, Ordinary e) :
    Ordinary (.setDisplay (.list elts))
  | dictDisplay {keys values : List Tree} (hkeys : ∀ e ∈ keys, Ordinary e)
    (hvalues : ∀ e ∈ values, Ordinary e) : Ordinary (.dictDisplay (.list keys) (.list values))
  | binOp {left op right : Tree} (hleft : Ordinary left) (hop : Ordinary op)
    (hright : Ordinary right) : Ordinary (.binOp left op right)
  | unaryOp {op operand : Tree} (hop : Ordinary op) (hoperand : Ordinary operand) :
    Ordinary (.unaryOp op operand)
  | subscript {value slice : Tree} (ctx : Tree) (hvalue : Ordinary value)
    (hslice : Ordinary slice) : Ordinary (.subscript value slice ctx)
  | index {value : Tree} (hvalue : Ordinary value) : Ordinary (.index value)
  | call {func : Tree} {args : List Tree} (keywords : Tree) (hfunc : Ordinary func)
    (hargs : ∀ e ∈ args, Ordinary e) : Ordinary (.call func (.list args) keywords)
  | binaryOperator (op : BinaryOp) : Ordinary (.binaryOperator op)
  | unaryOperator (op : UnaryOp) : Ordinary (.unaryOperator op)
  | other {cls : String} {fields : List (String × Tree)} (hcls : cls ≠ "Index")
    (hfields : fields.lookup "id" = none) : Ordinary (.other cls fields)

theorem Tree.Ordinary.ne_list {t : Tree} (h : t.Ordinary) (items : List Tree) :
    t ≠ .list items := by
  rintro rfl
  cases h

/-- A place for a tree. -/
inductive Role where
  | program
  | statement
  /-- An expression that is used in a given way: for its value, or as a target. -/
  | expression (use : Context)
  /-- What follows the value in a subscript. -/
  | slice
  | binaryOperator
  | unaryOperator

/-- The role of an index, which is a node of its own where indices are wrapped. -/
def Role.ofIndex (indexed : Bool) : Role := if indexed then .slice else .expression .load

/-- Trees as they are read, by their place; in those that are `indexed` every index is wrapped. A
constant may stand for a target, since folding makes one of an empty tuple. What is below a class
without a rule does not matter, and neither do fields that have no instructions. -/
inductive Tree.Fits (indexed : Bool) : Role → Tree → Prop
  | leaf {r : Role} (v : Value) : Fits indexed r (.leaf v)
  | module {body : List Tree} (hbody : ∀ s ∈ body, Fits indexed .statement s) :
    Fits indexed .program (.module (.list body))
  | interactive {body : List Tree} (hbody : ∀ s ∈ body, Fits indexed .statement s) :
    Fits indexed .program (.interactive (.list body))
  | expr {value : Tree} (hvalue : Fits indexed (.expression .load) value) :
    Fits indexed .statement (.expr value)
  | assign {targets : List Tree} {value : Tree}
    (htargets : ∀ t ∈ targets, Fits indexed (.expression .store) t)
    (hvalue : Fits indexed (.expression .load) value) :
    Fits indexed .statement (.assign (.list targets) value)
  | augAssign {target op value : Tree} (htarget : Fits indexed (.expression .store) target)
    (hop : Fits indexed .binaryOperator op) (hvalue : Fits indexed (.expression .load) value) :
    Fits indexed .statement (.augAssign target op value)
  | delete {targets : List Tree} (htargets : ∀ t ∈ targets, Fits indexed (.expression .del) t) :
    Fits indexed .statement (.delete (.list targets))
  | pass : Fits indexed .statement .pass
  | ifStmt {test : Tree} {body orelse : List Tree} (htest : Fits indexed (.expression .load) test)
    (hbody : ∀ s ∈ body, Fits indexed .statement s)
    (horelse : ∀ s ∈ orelse, Fits indexed .statement s) :
    Fits indexed .statement (.ifStmt test (.list body) (.list orelse))
  | ifExp {test body orelse : Tree} (htest : Fits indexed (.expression .load) test)
    (hbody : Fits indexed (.expression .load) body)
    (horelse : Fits indexed (.expression .load) orelse) :
    Fits indexed (.expression .load) (.ifExp test body orelse)
  | whileLoop {test : Tree} {body : List Tree} (orelse : Tree)
    (htest : Fits indexed (.expression .load) test)
    (hbody : ∀ s ∈ body, Fits indexed .statement s) :
    Fits indexed .statement (.whileLoop test (.list body) orelse)
  | forLoop {target iter : Tree} {body : List Tree} (orelse : Tree)
    (htarget : Fits indexed (.expression .store) target)
    (hiter : Fits indexed (.expression .load) iter)
    (hbody : ∀ s ∈ body, Fits indexed .statement s) :
    Fits indexed .statement (.forLoop target iter (.list body) orelse)
  | name (id : String) (c : Context) :
    Fits indexed (.expression c) (.name (.leaf (.str id)) (.context c))
  | constant {c : Context} (v : Value) : Fits indexed (.expression c) (.constant (some v))
  | tuple {c : Context} {elts : List Tree} (helts : ∀ e ∈ elts, Fits indexed (.expression c) e) :
    Fits indexed (.expression c) (.tuple (.list elts) (.context c))
  | listDisplay {c : Context} {elts : List Tree}
    (helts : ∀ e ∈ elts, Fits indexed (.expression c) e) :
    Fits indexed (.expression c) (.listDisplay (.list elts) (.context c))
  | setDisplay {elts : List Tree} (helts : ∀ e ∈ elts, Fits indexed (.expression .load) e) :
    Fits indexed (.expression .load) (.setDisplay (.list elts))
  | dictDisplay {keys values : List Tree} (hlength : keys.length = values.length)
    (hkeys : ∀ e ∈ keys, Fits indexed (.expression .load) e)
    (hvalues : ∀ e ∈ values, Fits indexed (.expression .load) e) :
    Fits indexed (.expression .load) (.dictDisplay (.list keys) (.list values))
  | binOp {left op right : Tree} (hleft : Fits indexed (.expression .load) left)
    (hop : Fits indexed .binaryOperator op) (hright : Fits indexed (.expression .load) right) :
    Fits indexed (.expression .load) (.binOp left op right)
  | unaryOp {op operand : Tree} (hop : Fits indexed .unaryOperator op)
    (hoperand : Fits indexed (.expression .load) operand) :
    Fits indexed (.expression .load) (.unaryOp op operand)
  | subscript {c : Context} {value slice : Tree} (hvalue : Fits indexed (.expression .load) value)
    (hslice : Fits indexed (.ofIndex indexed) slice) :
    Fits indexed (.expression c) (.subscript value slice (.context c))
  | index {value : Tree} (hvalue : Fits indexed (.expression .load) value) :
    Fits indexed .slice (.index value)
  | call {func : Tree} {args : List Tree} (keywords : Tree)
    (hfunc : Fits indexed (.expression .load) func)
    (hargs : ∀ e ∈ args, Fits indexed (.expression .load) e) :
    Fits indexed (.expression .load) (.call func (.list args) keywords)
  | binaryOperator (op : BinaryOp) : Fits indexed .binaryOperator (.binaryOperator op)
  | unaryOperator (op : UnaryOp) : Fits indexed .unaryOperator (.unaryOperator op)
  | other {r : Role} {cls : String} {fields : List (String × Tree)} (hcls : cls ≠ "Index")
    (hfields : fields.lookup "id" = none) : Fits indexed r (.other cls fields)

/-- A tree that fits a place is ordinary. -/
theorem Tree.Fits.ordinary {indexed : Bool} {r : Role} {t : Tree} (h : t.Fits indexed r) :
    t.Ordinary := by
  induction h with
  | tuple _ ih => exact .tuple _ ih
  | listDisplay _ ih => exact .listDisplay _ ih
  | dictDisplay _ _ _ ihk ihv => exact .dictDisplay ihk ihv
  | subscript _ _ ihv ihs => exact .subscript _ ihv ihs
  | _ => constructor <;> assumption

namespace Grammar

/-! ### What parsers return -/

/-- What a parser returns satisfies a predicate. -/
def Yields {α : Type} (P : α → Prop) (p : Parser α) : Prop :=
  ∀ ts a rest, p ts = some (a, rest) → P a

namespace Yields

variable {α β : Type} {P : α → Prop} {Q : β → Prop} {p q : Parser α}

theorem pure {a : α} (h : P a) : Yields P (pure a) := by
  rintro ts _ rest ⟨⟩
  exact h

theorem failure : Yields P failure := by
  rintro ts a rest ⟨⟩

theorem bind {f : α → Parser β} (hp : Yields P p) (hf : ∀ a, P a → Yields Q (f a)) :
    Yields Q (p >>= f) := by
  intro ts b rest h
  obtain ⟨⟨a, ts'⟩, ha, hb⟩ := Option.bind_eq_some_iff.1 h
  exact hf a (hp ts a ts' ha) ts' b rest hb

/-- Whatever comes first. -/
theorem andThen {f : α → Parser β} (hf : ∀ a, Yields Q (f a)) : Yields Q (p >>= f) :=
  bind (P := fun _ => True) (fun _ _ _ _ => trivial) fun a _ => hf a

/-- Nothing comes after a failure. -/
theorem failure_bind {f : α → Parser β} : Yields Q ((Alternative.failure : Parser α) >>= f) :=
  failure.bind (P := fun _ => False) fun _ h => h.elim

theorem map {f : α → β} (hp : Yields P p) (hf : ∀ a, P a → Q (f a)) : Yields Q (f <$> p) := by
  rw [← bind_pure_comp]
  exact hp.bind fun a ha => pure (hf a ha)

theorem ite {c : Prop} [Decidable c] (hp : Yields P p) (hq : Yields P q) :
    Yields P (if c then p else q) := by
  split
  · exact hp
  · exact hq

theorem orElse (hp : Yields P p) (hq : Yields P q) : Yields P (p <|> q) := by
  intro ts a rest h
  change (p ts <|> q ts) = some (a, rest) at h
  cases hpts : p ts with
  | some r =>
    rw [hpts] at h
    cases h
    exact hp ts a rest hpts
  | none =>
    rw [hpts] at h
    exact hq ts a rest h

theorem optional (hp : Yields P p) : Yields (fun o => ∀ a, o = some a → P a) (optional p) := by
  refine orElse (hp.map fun a ha b hb => ?_) (pure nofun)
  cases hb
  exact ha

theorem liftM {o : Option α} (h : ∀ a, o = some a → P a) : Yields P (liftM o : Parser α) := by
  intro ts a rest ha
  cases o with
  | none => cases ha
  | some b =>
    cases ha
    exact h _ rfl

theorem many (hp : Yields P p) (fuel : Nat) : Yields (fun as => ∀ a ∈ as, P a) (many p fuel) := by
  induction fuel with
  | zero => exact pure (by simp)
  | succ fuel ih =>
    intro ts as rest h
    rw [Grammar.many] at h
    dsimp only at h
    cases hp₁ : p ts with
    | none =>
      rw [hp₁] at h
      cases h
      simp
    | some r =>
      obtain ⟨b, ts'⟩ := r
      cases hmore : Grammar.many p fuel ts' with
      | none => simp [hp₁, hmore] at h
      | some r' =>
        obtain ⟨bs, ts''⟩ := r'
        simp only [hp₁, hmore, Option.some.injEq, Prod.mk.injEq] at h
        obtain ⟨rfl, rfl⟩ := h
        exact List.forall_mem_cons.2 ⟨hp ts b ts' hp₁, ih ts' bs ts'' hmore⟩

theorem moreItems (sep : String) (hp : Yields P p) (fuel : Nat) :
    Yields (fun r => ∀ a ∈ r.1, P a) (moreItems sep p fuel) := by
  induction fuel with
  | zero => exact pure (by simp)
  | succ fuel ih =>
    refine andThen fun more => ite (hp.optional.bind fun o ho => ?_) (pure (by simp))
    cases o with
    | some a => exact ih.bind fun r hr => pure (List.forall_mem_cons.2 ⟨ho a rfl, hr⟩)
    | none => exact pure (by simp)

theorem items (sep : String) (hp : Yields P p) (fuel : Nat) :
    Yields (fun r => ∀ a ∈ r.1, P a) (items sep p fuel) :=
  hp.bind fun _ ha => (hp.moreItems sep fuel).bind fun _ hr =>
    pure (List.forall_mem_cons.2 ⟨ha, hr⟩)

end Yields
/-! ### Nodes -/

/-- An expression whose value is used. -/
abbrev Expression : Tree → Prop := Tree.Fits false (.expression .load)

abbrev Statement : Tree → Prop := Tree.Fits false .statement

/-- A node of a class without a rule, whose fields are known by name, fits everywhere. -/
theorem node_fits {r : Role} {cls : String} {fields : List (String × Tree)}
    (h : cls ≠ "Index" ∧ "id" ∉ fields.map (·.1)) : (node cls fields).Fits false r := by
  refine .other h.1 (List.lookup_eq_none_iff.2 fun f hf => ?_)
  rw [bne_iff_ne]
  intro hid
  exact h.2 (hid ▸ List.mem_map_of_mem hf)

theorem Yields.node {r : Role} {cls : String} {fields : List (String × Tree)}
    (h : cls ≠ "Index" ∧ "id" ∉ fields.map (·.1)) :
    Yields (Tree.Fits false r) (Pure.pure (Grammar.node cls fields)) :=
  .pure (node_fits h)

theorem nameNode_fits (s : String) : Expression (nameNode s) := .name s .load

theorem starredNode_fits (t : Tree) : Expression (starredNode t) := node_fits (by simp)

theorem attributeNode_fits (t : Tree) (s : String) : Expression (attributeNode t s) :=
  node_fits (by simp)

theorem tupleOf_fits {elts : List Tree} (h : ∀ e ∈ elts, Expression e) (trailing : Bool) :
    Expression (tupleOf elts trailing) := by
  unfold tupleOf
  split
  · exact h _ (by simp)
  · exact .tuple h

/-! ### Targets -/

section
variable {r : Role} {c : Context} {t : Tree}

theorem singleTarget?_fits {t' : Tree} (ht : t.Fits false r)
    (h : singleTarget? (.context c) t = some t') : t'.Fits false (.expression c) := by
  unfold singleTarget? at h
  split at h
  · cases h
    cases ht with
    | name id _ => exact .name id c
  · cases h
    cases ht with
    | subscript hvalue hslice => exact .subscript hvalue hslice
  · cases h
    exact node_fits (by simp)
  · cases h

theorem targets?_fits {stars : Bool} {ts ts' : List Tree}
    (h : ∀ t ∈ ts, ∀ t', target? stars (.context c) t = some t' → t'.Fits false (.expression c))
    (hts : targets? stars (.context c) ts = some ts') :
    ∀ t ∈ ts', t.Fits false (.expression c) := by
  induction ts generalizing ts' with
  | nil =>
    cases hts
    simp
  | cons t ts ih =>
    rw [targets?] at hts
    obtain ⟨t', ht', hrest⟩ := Option.bind_eq_some_iff.1 hts
    obtain ⟨us, hus, hcons⟩ := Option.bind_eq_some_iff.1 hrest
    cases hcons
    rw [List.forall_mem_cons] at h ⊢
    exact ⟨h.1 t' ht', ih h.2 hus⟩

/-- Whatever an expression was used for, as a target it is used as one. -/
theorem target?_fits {stars : Bool} (ht : t.Fits false r) :
    ∀ t', target? stars (.context c) t = some t' → t'.Fits false (.expression c) := by
  induction ht with
  | tuple _ ih =>
    intro t' h
    rw [target?] at h
    obtain ⟨es, hes, rfl⟩ := Option.map_eq_some_iff.1 h
    exact .tuple (targets?_fits ih hes)
  | listDisplay _ ih =>
    intro t' h
    rw [target?] at h
    obtain ⟨es, hes, rfl⟩ := Option.map_eq_some_iff.1 h
    exact .listDisplay (targets?_fits ih hes)
  | @other r _ _ hcls hfields =>
    intro t' h
    unfold target? at h
    split at h
    · next heq => cases heq
    · next heq => cases heq
    · split at h
      · obtain ⟨v, -, rfl⟩ := Option.map_eq_some_iff.1 h
        exact node_fits (by simp)
      · cases h
    · exact singleTarget?_fits (.other (r := r) hcls hfields) h
  | name id _ =>
    intro t' h
    cases h
    exact .name id c
  | subscript hvalue hslice =>
    intro t' h
    cases h
    exact .subscript hvalue hslice
  | _ =>
    intro t' h
    rw [target?] at h
    · cases h
    all_goals nofun

theorem assigned_yields (ht : t.Fits false r) :
    Yields (Tree.Fits false (.expression .store)) (assigned t) :=
  .liftM (target?_fits ht)

theorem assignedSingle_yields (ht : t.Fits false r) :
    Yields (Tree.Fits false (.expression .store)) (assignedSingle t) :=
  .liftM fun _ h => singleTarget?_fits ht h

theorem deleted_yields (ht : t.Fits false r) :
    Yields (Tree.Fits false (.expression .del)) (deleted t) :=
  .liftM (target?_fits ht)

end

/-! ### Expressions -/

theorem operatorIf_yields {r : Role} {ops : List (String × Tree)}
    (h : ∀ e ∈ ops, e.2.Fits false r) :
    Yields (fun o => ∀ op, o = some op → op.Fits false r) (operatorIf ops) := by
  refine .andThen fun t => ?_
  split
  · split
    · next op hop =>
      refine .andThen fun _ => .pure ?_
      rintro _ ⟨⟩
      obtain ⟨before, rest, rfl, -⟩ := List.lookup_eq_some_iff.1 hop
      exact h _ (List.mem_append_right before List.mem_cons_self)
    · exact .pure nofun
  · exact .pure nofun

theorem leftOperands_yields {ops : List (String × Tree)}
    (h : ∀ e ∈ ops, e.2.Fits false .binaryOperator) {operand : Parser Tree}
    (hoperand : Yields Expression operand) (fuel : Nat) {left : Tree} (hleft : Expression left) :
    Yields Expression (leftOperands ops operand fuel left) := by
  induction fuel generalizing left with
  | zero => exact .pure hleft
  | succ fuel ih =>
    refine (operatorIf_yields h).bind fun o ho => ?_
    cases o with
    | some op => exact hoperand.bind fun right hright => ih (.binOp hleft (ho op rfl) hright)
    | none => exact .pure hleft

theorem leveled_yields (fuel : Nat) {operand : Parser Tree} (hoperand : Yields Expression operand)
    {levels : List (List (String × Tree))}
    (h : ∀ ops ∈ levels, ∀ e ∈ ops, e.2.Fits false .binaryOperator) :
    Yields Expression (leveled fuel operand levels) := by
  induction levels with
  | nil => exact hoperand
  | cons ops levels ih =>
    rw [List.forall_mem_cons] at h
    exact (ih h.2).bind fun first hfirst => leftOperands_yields h.1 (ih h.2) fuel hfirst

theorem binaryLevels_fits : ∀ ops ∈ binaryLevels, ∀ e ∈ ops, e.2.Fits false .binaryOperator := by
  have matMult : (node "MatMult" []).Fits false .binaryOperator := node_fits (by simp)
  simp only [binaryLevels, List.forall_mem_cons, Tree.Fits.binaryOperator, matMult]
  simp

theorem boolean_yields (word cls : String) {operand : Parser Tree}
    (hoperand : Yields Expression operand) (fuel : Nat) :
    Yields Expression (boolean word cls operand fuel) :=
  hoperand.bind fun _ hfirst => .andThen fun _ =>
    .ite (.pure hfirst) (.node (by simp))

/-- A list of statements. -/
def IsBlock (t : Tree) : Prop := ∃ ss, t = .list ss ∧ ∀ s ∈ ss, Statement s

/-- What a nonterminal stands for. Patterns only occur below classes without a rule. -/
def Nonterminal.Promises : Nonterminal → Tree → Prop
  | .block, t => IsBlock t
  | .pattern, _ => True
  | .branch, t => Statement t
  | _, t => Expression t

/-- The nonterminals one level deeper keep their promises. -/
def Level.Sound (g : Level) : Prop := ∀ n, Yields n.Promises (g.parse n)

section
variable {g : Level} (hg : g.Sound)
include hg

theorem bitwiseOr_yields : Yields Expression (bitwiseOr g) :=
  leveled_yields g.fuel (hg .factor) binaryLevels_fits

theorem comparison_yields : Yields Expression (comparison g) :=
  (bitwiseOr_yields hg).bind fun _ hleft => .andThen fun _ =>
    .ite (.pure hleft) (.node (by simp))

theorem inversion_yields : Yields Expression (inversion g) :=
  .andThen fun _ => .ite
    ((hg .inversion).bind fun _ h => .pure (.unaryOp (.unaryOperator .not) h))
    (comparison_yields hg)

theorem disjunction_yields : Yields Expression (disjunction g) :=
  boolean_yields _ _ (boolean_yields _ _ (hg .inversion) g.fuel) g.fuel

theorem namedExpression_yields : Yields Expression (namedExpression g) :=
  .andThen fun _ => .ite
    (.andThen fun _ => .andThen fun _ => .andThen fun _ =>
      .node (by simp))
    (hg .expression)

theorem starExpression_yields : Yields Expression (starExpression g) :=
  .andThen fun _ => .ite (.andThen fun e => .pure (starredNode_fits e)) (hg .expression)

theorem starNamedExpression_yields : Yields Expression (starNamedExpression g) :=
  .andThen fun _ => .ite (.andThen fun e => .pure (starredNode_fits e))
    (namedExpression_yields hg)

theorem starExpressions_yields : Yields Expression (starExpressions g) :=
  ((starExpression_yields hg).items "," g.fuel).bind fun r hr => .pure (tupleOf_fits hr r.2)

omit hg in
theorem yieldExpression_yields : Yields Expression (yieldExpression g) := by
  refine .andThen fun _ => .andThen fun _ => .ite (.andThen fun _ => ?_) (.andThen fun o => ?_)
  · exact .node (by simp)
  · cases o <;> exact .node (by simp)

theorem valueExpression_yields : Yields Expression (valueExpression g) :=
  .andThen fun _ => .ite yieldExpression_yields (starExpressions_yields hg)

theorem expression_yields : Yields Expression (expression g) := by
  refine .andThen fun _ => .ite ?_ ((hg .disjunction).bind fun body hbody => ?_)
  · exact .andThen fun _ => .andThen fun _ => .andThen fun _ => .andThen fun _ =>
      .node (by simp)
  · have conditional : Yields Expression (do
        keyword "if"
        let test ← g.parse .disjunction
        keyword "else"
        let orelse ← g.parse .expression
        return .ifExp test body orelse) :=
      .andThen fun _ => (hg .disjunction).bind fun _ htest => .andThen fun _ =>
        (hg .expression).bind fun _ horelse => .pure (.ifExp htest hbody horelse)
    exact .andThen fun _ => .ite (conditional.orElse (.pure hbody)) (.pure hbody)

/-! ### Atoms -/

omit hg in
theorem textsTree_fits {ts : List TextLiteral} {t : Tree} (h : textsTree g ts = some t) :
    Expression t := by
  unfold textsTree at h
  split at h
  · obtain ⟨parts, -, ht⟩ := Option.bind_eq_some_iff.1 h
    cases ht
    exact .constant _
  · split at h
    · cases h
    · obtain ⟨pieces, -, ht⟩ := Option.bind_eq_some_iff.1 h
      split at ht <;> cases ht
      · exact node_fits (by simp)
      · exact .constant _

omit hg in
theorem texts_yields : Yields Expression (texts g) :=
  .andThen fun _ => .ite .failure (.liftM fun _ h => textsTree_fits h)

theorem loopTargets_yields :
    Yields (Tree.Fits false (.expression .store)) (loopTargets g) := by
  have one : Yields Expression (do
      if ← markIf "*" then return starredNode (← g.parse .primary) else g.parse .primary) :=
    .andThen fun _ => .ite (.andThen fun t => .pure (starredNode_fits t)) (hg .primary)
  exact (one.items "," g.fuel).bind fun r hr => assigned_yields (tupleOf_fits hr r.2)

theorem restOfItems_yields {first : Tree} (hfirst : Expression first) (close : String) :
    Yields (fun r => ∀ e ∈ r.1, Expression e) (restOfItems g first close) :=
  ((starNamedExpression_yields hg).moreItems "," g.fuel).bind fun _ hr => .andThen fun _ =>
    .pure (List.forall_mem_cons.2 ⟨hfirst, hr⟩)

theorem parenthesized_yields : Yields Expression (parenthesized g) := by
  refine .andThen fun _ => .ite (.pure (.tuple (by simp))) (.andThen fun _ => .ite ?_ ?_)
  · exact yieldExpression_yields.bind fun _ he => .andThen fun _ => .pure he
  refine (starNamedExpression_yields hg).bind fun first hfirst => .andThen fun _ => .ite ?_ ?_
  · exact .andThen fun _ => .andThen fun _ => .node (by simp)
  · refine (restOfItems_yields hg hfirst ")").bind fun ⟨es, trailing⟩ hr => ?_
    dsimp only
    split
    · exact .ite .failure (.pure (hr _ (by simp)))
    · exact .pure (.tuple hr)

theorem bracketed_yields : Yields Expression (bracketed g) := by
  refine .andThen fun _ => .ite (.pure (.listDisplay (by simp))) ?_
  refine (starNamedExpression_yields hg).bind fun first hfirst => .andThen fun _ => .ite ?_ ?_
  · exact .andThen fun _ => .andThen fun _ => .node (by simp)
  · exact (restOfItems_yields hg hfirst "]").bind fun _ hr => .pure (.listDisplay hr)

theorem entry_yields : Yields (fun e => Expression e.1 ∧ Expression e.2) (entry g) :=
  .andThen fun _ => .ite
    ((bitwiseOr_yields hg).bind fun _ hvalue => .pure ⟨.leaf .none, hvalue⟩)
    ((hg .expression).bind fun _ hkey => .andThen fun _ =>
      (hg .expression).bind fun _ hvalue => .pure ⟨hkey, hvalue⟩)

theorem restOfEntries_yields {first : Tree × Tree}
    (hfirst : Expression first.1 ∧ Expression first.2) :
    Yields Expression (restOfEntries g first) := by
  refine ((entry_yields hg).moreItems "," g.fuel).bind fun r hr => .andThen fun _ => .pure ?_
  have hall : ∀ e ∈ first :: r.1, Expression e.1 ∧ Expression e.2 :=
    List.forall_mem_cons.2 ⟨hfirst, hr⟩
  refine .dictDisplay (by simp) (List.forall_mem_map.2 fun e he => ?_)
    (List.forall_mem_map.2 fun e he => ?_)
  · exact (hall e he).1
  · exact (hall e he).2

theorem braced_yields : Yields Expression (braced g) := by
  refine .andThen fun _ => .ite (.pure (.dictDisplay rfl (by simp) (by simp))) ?_
  refine .andThen fun _ => .ite ((entry_yields hg).bind fun _ => restOfEntries_yields hg) ?_
  refine .andThen fun _ => (starNamedExpression_yields hg).bind fun first hfirst => ?_
  refine .andThen fun _ => .ite ((hg .expression).bind fun value hvalue => ?_) ?_
  · refine .andThen fun _ => .ite ?_ (restOfEntries_yields hg ⟨hfirst, hvalue⟩)
    exact .andThen fun _ => .andThen fun _ => .node (by simp)
  · refine .andThen fun _ => .ite ?_ ?_
    · exact .andThen fun _ => .andThen fun _ => .node (by simp)
    · exact (restOfItems_yields hg hfirst "\x7d").bind fun _ hr => .pure (.setDisplay hr)

theorem atom_yields : Yields Expression (atom g) := by
  refine .andThen fun t => ?_
  split
  · exact .andThen fun _ => .pure (nameNode_fits _)
  · exact .andThen fun _ => .pure (.constant _)
  · exact texts_yields
  · exact .andThen fun _ => .pure (.constant _)
  · exact .andThen fun _ => .pure (.constant _)
  · exact .andThen fun _ => .pure (.constant _)
  · exact .andThen fun _ => .pure (.constant _)
  · exact .andThen fun _ => parenthesized_yields hg
  · exact .andThen fun _ => bracketed_yields hg
  · exact .andThen fun _ => braced_yields hg
  · exact .failure

/-! ### Calls and indices -/

theorem argumentsUntil_yields (sole : Bool) (fuel : Nat) (phase : ArgumentPhase)
    {args : List Tree} (hargs : ∀ e ∈ args, Expression e) (keywords : List Tree) :
    Yields (fun r => ∀ e ∈ r.1, Expression e) (argumentsUntil g sole fuel phase args keywords) := by
  induction fuel generalizing phase args keywords with
  | zero => exact .failure
  | succ fuel ih =>
    have hreverse : ∀ {as : List Tree}, (∀ e ∈ as, Expression e) → ∀ e ∈ as.reverse, Expression e :=
      fun h e he => h e (List.mem_reverse.1 he)
    have go : ∀ (phase : ArgumentPhase) (as keywords : List Tree), (∀ e ∈ as, Expression e) →
        Yields (fun r => ∀ e ∈ r.1, Expression e) (do
          if ← markIf "," then argumentsUntil g sole fuel phase as keywords
          else if ← seesMark ")" then return (as.reverse, keywords.reverse)
          else failure : Parser (List Tree × List Tree)) := fun phase as keywords has =>
      .andThen fun _ => .ite (ih phase has keywords)
        (.andThen fun _ => .ite (.pure (hreverse has)) .failure)
    refine .andThen fun _ => .ite (.pure (hreverse hargs)) ?_
    refine .andThen fun _ => .ite (.andThen fun _ => go _ _ _ hargs) ?_
    refine .andThen fun _ => .ite ?_ ?_
    · have starred := fun e => go phase (starredNode e :: args) keywords
        (List.forall_mem_cons.2 ⟨starredNode_fits e, hargs⟩)
      exact .ite .failure_bind (.andThen starred)
    refine .andThen fun _ => .ite ?_ (.ite ?_ .failure)
    · exact .andThen fun _ => .andThen fun _ => .andThen fun _ => go _ args _ hargs
    · refine (namedExpression_yields hg).bind fun e he => .andThen fun _ => .ite ?_ ?_
      · refine .andThen fun _ => .andThen fun _ => .ite (.pure ?_) .failure
        exact List.forall_mem_cons.2 ⟨node_fits (by simp), by simp⟩
      · exact go phase (e :: args) keywords (List.forall_mem_cons.2 ⟨he, hargs⟩)

theorem arguments_yields (sole : Bool) :
    Yields (fun r => ∀ e ∈ r.1, Expression e) (arguments g sole) :=
  (argumentsUntil_yields hg sole g.fuel .positional (by simp) []).bind fun _ hr =>
    .andThen fun _ => .pure hr

theorem slicePart_yields : Yields Expression (slicePart g) := by
  have slice : ∀ lower upper step : Tree,
      Expression (node "Slice" [("lower", lower), ("upper", upper), ("step", step)]) :=
    fun _ _ _ => node_fits (by simp)
  refine .andThen fun _ => .ite ?_ (.andThen fun _ => .ite (namedExpression_yields hg) ?_)
  · exact .andThen fun _ => .andThen fun _ => .andThen fun _ =>
      .ite (.andThen fun _ => .pure (slice _ _ _)) (.andThen fun _ => .pure (slice _ _ _))
  · refine (hg .expression).bind fun e he => .andThen fun _ => .ite ?_ (.pure he)
    exact .andThen fun _ => .andThen fun _ => .andThen fun _ =>
      .ite (.andThen fun _ => .pure (slice _ _ _)) (.andThen fun _ => .pure (slice _ _ _))

theorem slices_yields : Yields Expression (slices g) := by
  have part : Yields Expression (do
      if ← markIf "*" then return starredNode (← g.parse .expression) else slicePart g) :=
    .andThen fun _ => .ite (.andThen fun e => .pure (starredNode_fits e)) (slicePart_yields hg)
  refine (part.items "," g.fuel).bind fun ⟨ps, trailing⟩ hps => ?_
  dsimp only
  split
  · exact .ite (.pure (.tuple hps)) (.pure (hps _ (by simp)))
  · exact .pure (.tuple hps)

theorem suffixes_yields (fuel : Nat) {t : Tree} (ht : Expression t) :
    Yields Expression (suffixes g fuel t) := by
  induction fuel generalizing t with
  | zero => exact .pure ht
  | succ fuel ih =>
    refine .andThen fun _ => .ite (.andThen fun s => ih (attributeNode_fits t s)) ?_
    refine .andThen fun _ => .ite ?_ (.andThen fun _ => .ite ?_ (.pure ht))
    · exact (arguments_yields hg true).bind fun _ hr => ih (.call _ ht hr)
    · exact (slices_yields hg).bind fun i hi => .andThen fun _ => ih (.subscript ht hi)

theorem primary_yields : Yields Expression (primary g) :=
  (atom_yields hg).bind fun _ ha => suffixes_yields hg g.fuel ha

theorem power_yields : Yields Expression (power g) := by
  have raised : ∀ base : Tree, Expression base → Yields Expression (do
      if ← markIf "**" then return .binOp base (.binaryOperator .pow) (← g.parse .factor)
      else return base) := fun base hbase =>
    .andThen fun _ => .ite
      ((hg .factor).bind fun _ h => .pure (.binOp hbase (.binaryOperator .pow) h)) (.pure hbase)
  have await : ∀ value : Tree, Expression (node "Await" [("value", value)]) :=
    fun _ => node_fits (by simp)
  exact .andThen fun _ => .ite (.andThen fun value => .bind (.pure (await value)) raised)
    ((primary_yields hg).bind raised)

omit hg in
theorem signs_fits : ∀ e ∈ signs, e.2.Fits false .unaryOperator := by
  simp [signs, Tree.Fits.unaryOperator]

theorem factor_yields : Yields Expression (factor g) := by
  refine (operatorIf_yields signs_fits).bind fun o ho => ?_
  cases o with
  | some op => exact (hg .factor).bind fun _ h => .pure (.unaryOp (ho op rfl) h)
  | none => exact power_yields hg

/-! ### Simple statements -/

theorem assignmentChain_yields (fuel : Nat) {last : Tree} (hlast : Expression last)
    {targets : List Tree} (htargets : ∀ t ∈ targets, t.Fits false (.expression .store)) :
    Yields Statement (assignmentChain g fuel last targets) := by
  induction fuel generalizing last targets with
  | zero => exact .failure
  | succ fuel ih =>
    refine (assigned_yields hlast).bind fun target htarget =>
      (valueExpression_yields hg).bind fun next hnext => ?_
    have hall := List.forall_mem_cons.2 ⟨htarget, htargets⟩
    refine .andThen fun _ => .ite (ih hnext hall) ?_
    exact .pure (.assign (fun t ht => hall t (List.mem_reverse.1 ht)) hnext)

omit hg in
theorem annotatedAssignment_yields (target : Tree) (simple : Bool) :
    Yields Statement (annotatedAssignment g target simple) :=
  .andThen fun _ => .andThen fun _ => .andThen fun _ => .andThen fun _ =>
    .ite (.andThen fun _ => .node (by simp)) (.andThen fun _ => .node (by simp))

omit hg in
theorem assignmentOperators_fits : ∀ e ∈ assignmentOperators, e.2.Fits false .binaryOperator := by
  have matMult : (node "MatMult" []).Fits false .binaryOperator := node_fits (by simp)
  simp only [assignmentOperators, List.forall_mem_cons, Tree.Fits.binaryOperator, matMult]
  simp

theorem expressionStatement_yields : Yields Statement (expressionStatement g) := by
  refine .andThen fun simple => (valueExpression_yields hg).bind fun e he => ?_
  refine .andThen fun _ => .ite (assignmentChain_yields hg g.fuel he (by simp)) ?_
  refine .andThen fun _ => .ite (annotatedAssignment_yields e simple) ?_
  refine (operatorIf_yields assignmentOperators_fits).bind fun o ho => ?_
  cases o with
  | some op =>
    exact (assignedSingle_yields he).bind fun _ htarget =>
      (valueExpression_yields hg).bind fun _ hvalue => .pure (.augAssign htarget (ho op rfl) hvalue)
  | none => exact .pure (.expr he)

theorem deleteStatement_yields : Yields Statement (deleteStatement g) := by
  have one : Yields (Tree.Fits false (.expression .del)) (do deleted (← g.parse .primary)) :=
    (hg .primary).bind fun _ ht => deleted_yields ht
  exact .andThen fun _ => (one.items "," g.fuel).bind fun _ hr => .pure (.delete hr)

omit hg in
theorem returnStatement_yields : Yields Statement (returnStatement g) := by
  refine .andThen fun _ => .andThen fun o => ?_
  cases o <;> exact .node (by simp)

omit hg in
theorem raiseStatement_yields : Yields Statement (raiseStatement g) := by
  refine .andThen fun _ => .andThen fun o => ?_
  cases o with
  | none => exact .node (by simp)
  | some e =>
    exact .andThen fun _ =>
      .ite (.andThen fun _ => .node (by simp)) (.andThen fun _ => .node (by simp))

omit hg in
theorem importStatement_yields : Yields Statement (importStatement g) :=
  .andThen fun _ => .andThen fun _ => .node (by simp)

omit hg in
theorem importFromStatement_yields : Yields Statement (importFromStatement g) := by
  have names : ∀ (module : Tree) (level : Nat), Yields Statement (do
      keyword "import"
      let names ← importedNames g
      return node "ImportFrom"
        [("module", module), ("names", .list names), ("level", .leaf (.int level))]) :=
    fun _ _ => .andThen fun _ => .andThen fun _ => .node (by simp)
  exact .andThen fun _ => .andThen fun _ => .andThen fun _ =>
    .ite (.andThen fun _ => names _ _) (.andThen fun _ => .andThen fun _ => names _ _)

omit hg in
theorem assertStatement_yields : Yields Statement (assertStatement g) :=
  .andThen fun _ => .andThen fun _ => .andThen fun _ =>
    .ite (.andThen fun _ => .node (by simp)) (.andThen fun _ => .node (by simp))

theorem simpleStatement_yields : Yields Statement (simpleStatement g) := by
  refine .andThen fun t => ?_
  split
  · exact .andThen fun _ => .pure .pass
  · exact .andThen fun _ => .node (by simp)
  · exact .andThen fun _ => .node (by simp)
  · exact deleteStatement_yields hg
  · exact returnStatement_yields
  · exact raiseStatement_yields
  · exact importStatement_yields
  · exact importFromStatement_yields
  · exact assertStatement_yields
  · exact .andThen fun _ => .andThen fun _ => .node (by simp)
  · exact .andThen fun _ => .andThen fun _ => .node (by simp)
  · exact expressionStatement_yields hg

theorem simpleStatements_yields :
    Yields (fun ss => ∀ s ∈ ss, Statement s) (simpleStatements g) :=
  ((simpleStatement_yields hg).items ";" g.fuel).bind fun _ hr => .andThen fun _ => .pure hr

/-! ### Compound statements -/

theorem suite_yields : Yields IsBlock (suite g) := .andThen fun _ => hg .block

theorem elsePart_yields : Yields IsBlock (elsePart g) :=
  .andThen fun _ => .ite (suite_yields hg) (.pure ⟨[], rfl, by simp⟩)

theorem branch_yields : Yields Statement (branch g) := by
  refine (namedExpression_yields hg).bind fun test htest => (suite_yields hg).bind fun _ hbody => ?_
  obtain ⟨body, rfl, hbody⟩ := hbody
  have finish : ∀ orelse : Tree, IsBlock orelse →
      Yields Statement (pure (.ifStmt test (.list body) orelse)) := by
    rintro _ ⟨orelse, rfl, horelse⟩
    exact .pure (.ifStmt htest hbody horelse)
  refine .andThen fun _ => .ite ?_ ((elsePart_yields hg).bind finish)
  refine (hg .branch).bind fun b hb => .bind (.pure ⟨[b], rfl, fun s hs => ?_⟩) finish
  exact List.mem_singleton.1 hs ▸ hb

theorem whileStatement_yields : Yields Statement (whileStatement g) := by
  refine .andThen fun _ => (namedExpression_yields hg).bind fun test htest => ?_
  refine (suite_yields hg).bind fun _ hbody => .andThen fun orelse => ?_
  obtain ⟨body, rfl, hbody⟩ := hbody
  exact .pure (.whileLoop orelse htest hbody)

theorem forStatement_yields (isAsync : Bool) : Yields Statement (forStatement g isAsync) := by
  refine .andThen fun _ => (loopTargets_yields hg).bind fun target htarget => .andThen fun _ => ?_
  refine (starExpressions_yields hg).bind fun iter hiter => ?_
  refine (suite_yields hg).bind fun _ hbody => .andThen fun orelse => .ite (.node (by simp)) ?_
  obtain ⟨body, rfl, hbody⟩ := hbody
  exact .pure (.forLoop orelse htarget hiter hbody)

omit hg in
theorem tryStatement_yields : Yields Statement (tryStatement g) := by
  have cls : ∀ starred : Bool, (if starred then "TryStar" else "Try") ≠ "Index" := by decide
  refine .andThen fun _ => .andThen fun body => ?_
  refine .andThen fun _ => .ite (.andThen fun _ => .node (by simp)) (.andThen fun _ => ?_)
  refine .andThen fun _ => .andThen fun _ => .andThen fun _ => .andThen fun _ => ?_
  exact .ite (.andThen fun _ => .node ⟨cls _, by simp⟩) (.andThen fun _ => .node ⟨cls _, by simp⟩)

omit hg in
theorem withStatement_yields (isAsync : Bool) : Yields Statement (withStatement g isAsync) := by
  refine .andThen fun _ => .andThen fun _ => .andThen fun _ => .node ?_
  cases isAsync <;> simp

omit hg in
theorem functionStatement_yields (isAsync : Bool) (decorators : List Tree) :
    Yields Statement (functionStatement g isAsync decorators) := by
  refine .andThen fun _ => .andThen fun _ => .andThen fun _ => .andThen fun _ => ?_
  refine .andThen fun _ => .andThen fun _ => .ite (.andThen fun _ => ?_) (.andThen fun _ => ?_) <;>
    refine .andThen fun _ => .node ?_ <;> cases isAsync <;> simp

omit hg in
theorem classStatement_yields (decorators : List Tree) :
    Yields Statement (classStatement g decorators) :=
  .andThen fun _ => .andThen fun _ => .andThen fun _ =>
    .ite (.andThen fun _ => .andThen fun _ => .node (by simp))
      (.andThen fun _ => .andThen fun _ => .node (by simp))

omit hg in
theorem decorated_yields : Yields Statement (decorated g) :=
  .andThen fun _ => .andThen fun _ => .ite (classStatement_yields _) (.andThen fun _ =>
    .ite (functionStatement_yields _ _) (functionStatement_yields _ _))

theorem asyncStatement_yields : Yields Statement (asyncStatement g) :=
  .andThen fun _ => .andThen fun _ => .ite (functionStatement_yields _ _) (.andThen fun _ =>
    .ite (withStatement_yields true) (forStatement_yields hg true))

omit hg in
theorem matchStatement_yields : Yields Statement (matchStatement g) := by
  refine .andThen fun _ => .ite .failure_bind ?_
  refine .andThen fun _ => .andThen fun _ => .andThen fun _ => .andThen fun t => ?_
  dsimp only
  split
  · refine .andThen fun _ => .andThen fun _ => .andThen fun _ => .andThen fun t => ?_
    split
    · exact .andThen fun _ => .node (by simp)
    · exact .failure_bind
  · exact .failure_bind

theorem compoundStatement_yields :
    Yields (fun o => ∀ s, o = some s → Statement s) (compoundStatement g) := by
  have found : ∀ {p : Parser Tree}, Yields Statement p →
      Yields (fun o => ∀ s, o = some s → Statement s) (p >>= fun s => pure (some s)) := by
    refine fun hp => hp.bind fun s hs => .pure ?_
    rintro _ ⟨⟩
    exact hs
  refine .andThen fun t => ?_
  split
  · exact .andThen fun _ => found (branch_yields hg)
  · exact found (whileStatement_yields hg)
  · exact found (forStatement_yields hg false)
  · exact found tryStatement_yields
  · exact found (withStatement_yields false)
  · exact found (functionStatement_yields false [])
  · exact found (classStatement_yields [])
  · exact found (asyncStatement_yields hg)
  · exact found decorated_yields
  · exact matchStatement_yields.optional
  · exact .pure nofun

theorem statement_yields : Yields (fun ss => ∀ s ∈ ss, Statement s) (statement g) := by
  refine (compoundStatement_yields hg).bind fun o ho => ?_
  cases o with
  | some s => exact .pure (by simpa using ho s rfl)
  | none => exact simpleStatements_yields hg

theorem statements_yields : Yields (fun ss => ∀ s ∈ ss, Statement s) (statements g) := by
  refine ((statement_yields hg).many g.fuel).bind fun lines hlines => .pure fun s hs => ?_
  obtain ⟨ss, hss, hs⟩ := List.mem_flatten.1 hs
  exact hlines ss hss s hs

theorem block_yields : Yields IsBlock (block g) := by
  refine .andThen fun t => ?_
  split
  · refine .andThen fun _ => .andThen fun t => ?_
    dsimp only
    split
    · refine .andThen fun _ => (statements_yields hg).bind fun ss hss => ?_
      refine .ite .failure_bind (.andThen fun t => ?_)
      split
      · exact .andThen fun _ => .pure ⟨ss, rfl, hss⟩
      · exact .failure_bind
    · exact .failure_bind
  · exact (simpleStatements_yields hg).bind fun ss hss => .pure ⟨ss, rfl, hss⟩

theorem interactiveStatement_yields :
    Yields (fun ss => ∀ s ∈ ss, Statement s) (interactiveStatement g) := by
  refine (compoundStatement_yields hg).bind fun o ho => ?_
  cases o with
  | some s => exact .andThen fun _ => .pure (by simpa using ho s rfl)
  | none => exact simpleStatements_yields hg

theorem rule_sound (n : Nonterminal) : Yields n.Promises (rule g n) := by
  cases n with
  | expression => exact expression_yields hg
  | disjunction => exact disjunction_yields hg
  | inversion => exact inversion_yields hg
  | factor => exact factor_yields hg
  | primary => exact primary_yields hg
  | starExpressions => exact starExpressions_yields hg
  | block => exact block_yields hg
  | branch => exact branch_yields hg
  | pattern => exact fun _ _ _ _ => trivial

end

/-- The nonterminals keep their promises at any depth. -/
theorem parse_sound (depth : Nat) (n : Nonterminal) : Yields n.Promises (parse depth n) := by
  induction depth generalizing n with
  | zero => exact .failure
  | succ depth ih => exact rule_sound (g := ⟨depth + 1, parse depth⟩) ih n

theorem forLength_sound (n : Nat) : (forLength n).Sound := parse_sound _

end Grammar

namespace Tree

theorem read_eq_ok {mode : Mode} {text : String} {t : Tree} :
    read mode text = .ok t ↔ read? mode text = some t := by
  unfold read
  cases read? mode text <;> simp

/-- What reading a text in each mode comes to: the tokens, what the rule of the mode returns for
them, what may be left over, and the tree around it. -/
theorem read_cases {mode : Mode} {text : String} {t : Tree} (h : read mode text = .ok t) :
    let cs := text.toList
    let g := Grammar.forLength cs.length
    (∃ tokens body, mode = .program ∧ Lexer.statements cs = some tokens ∧
      Grammar.statements g tokens = some (body, [.ending]) ∧ t = .module (.list body)) ∨
    (∃ tokens body rest, mode = .single ∧ Lexer.interactive cs = some tokens ∧
      Grammar.interactiveStatement g tokens = some (body, rest) ∧
      rest.all Token.isLayout = true ∧ t = .interactive (.list body)) ∨
    ∃ tokens body rest, mode = .expression ∧ Lexer.expression cs = some tokens ∧
      Grammar.plainExpressions g tokens = some (body, rest) ∧
      rest.all Token.isBlank = true ∧ t = .other "Expression" [("body", body)] := by
  have hread := read_eq_ok.1 h
  cases mode with
  | program =>
    obtain ⟨tokens, htokens, h⟩ := Option.bind_eq_some_iff.1 hread
    obtain ⟨⟨body, rest⟩, hbody, h⟩ := Option.bind_eq_some_iff.1 h
    dsimp only at h
    split at h <;> cases h
    exact .inl ⟨tokens, body, rfl, htokens, hbody, rfl⟩
  | single =>
    obtain ⟨tokens, htokens, h⟩ := Option.bind_eq_some_iff.1 hread
    obtain ⟨⟨body, rest⟩, hbody, h⟩ := Option.bind_eq_some_iff.1 h
    dsimp only at h
    split at h <;> cases h
    exact .inr (.inl ⟨tokens, body, rest, rfl, htokens, hbody, ‹_›, rfl⟩)
  | expression =>
    obtain ⟨tokens, htokens, h⟩ := Option.bind_eq_some_iff.1 hread
    obtain ⟨⟨body, rest⟩, hbody, h⟩ := Option.bind_eq_some_iff.1 h
    dsimp only at h
    split at h <;> cases h
    exact .inr (.inr ⟨tokens, body, rest, rfl, htokens, hbody, ‹_›, rfl⟩)

/-- A tree that is read is a program in which everything fits its place. -/
theorem read_fits {mode : Mode} {text : String} {t : Tree} (h : read mode text = .ok t) :
    t.Fits false .program := by
  have hg := Grammar.forLength_sound text.toList.length
  obtain ⟨tokens, body, -, -, hbody, rfl⟩ | ⟨tokens, body, rest, -, -, hbody, -, rfl⟩ |
    ⟨tokens, body, rest, -, -, hbody, -, rfl⟩ := read_cases h
  · exact .module (Grammar.statements_yields hg _ _ _ hbody)
  · exact .interactive (Grammar.interactiveStatement_yields hg _ _ _ hbody)
  · exact .other (by decide) (by simp)

/-- A tree that is read is ordinary. -/
theorem read_ordinary {mode : Mode} {text : String} {t : Tree} (h : read mode text = .ok t) :
    t.Ordinary :=
  (read_fits h).ordinary

/-! ### Wrapped indices -/

theorem mem_wrapAll {ts : List Tree} {t : Tree} (h : t ∈ wrapAll ts) :
    ∃ s ∈ ts, t = s.wrapIndices := by
  induction ts with
  | nil => simp [wrapAll] at h
  | cons s ts ih =>
    rcases List.mem_cons.1 h with rfl | h
    · exact ⟨s, by simp, rfl⟩
    · obtain ⟨s', hs', rfl⟩ := ih h
      exact ⟨s', by simp [hs'], rfl⟩

theorem lookup_wrapFields {fields : List (String × Tree)} {f : String}
    (h : fields.lookup f = none) : (wrapFields fields).lookup f = none := by
  induction fields with
  | nil => rfl
  | cons e es ih =>
    obtain ⟨k, t⟩ := e
    rw [wrapFields, List.lookup_cons]
    rw [List.lookup_cons] at h
    split at h
    · cases h
    · exact ih h

theorem wrapAll_ordinary {ts : List Tree} (h : ∀ t ∈ ts, t.wrapIndices.Ordinary) :
    ∀ t ∈ wrapAll ts, t.Ordinary := by
  intro t ht
  obtain ⟨s, hs, rfl⟩ := mem_wrapAll ht
  exact h s hs

/-- Wrapping indices keeps a tree ordinary. -/
theorem Ordinary.wrapIndices {t : Tree} (h : t.Ordinary) : t.wrapIndices.Ordinary := by
  induction h with
  | leaf v => exact .leaf v
  | module _ ih => exact .module (wrapAll_ordinary ih)
  | interactive _ ih => exact .interactive (wrapAll_ordinary ih)
  | expr _ ih => exact .expr ih
  | assign _ _ iht ihv => exact .assign (wrapAll_ordinary iht) ihv
  | augAssign _ _ _ iht iho ihv => exact .augAssign iht iho ihv
  | delete _ ih => exact .delete (wrapAll_ordinary ih)
  | pass => exact .pass
  | ifStmt _ _ _ iht ihb iho => exact .ifStmt iht (wrapAll_ordinary ihb) (wrapAll_ordinary iho)
  | ifExp _ _ _ iht ihb iho => exact .ifExp iht ihb iho
  | whileLoop orelse _ _ iht ihb => exact .whileLoop _ iht (wrapAll_ordinary ihb)
  | forLoop orelse _ _ _ iht ihi ihb => exact .forLoop _ iht ihi (wrapAll_ordinary ihb)
  | name id ctx => exact .name id ctx
  | constant v => exact .constant v
  | tuple ctx _ ih => exact .tuple ctx (wrapAll_ordinary ih)
  | listDisplay ctx _ ih => exact .listDisplay ctx (wrapAll_ordinary ih)
  | setDisplay _ ih => exact .setDisplay (wrapAll_ordinary ih)
  | dictDisplay _ _ ihk ihv => exact .dictDisplay (wrapAll_ordinary ihk) (wrapAll_ordinary ihv)
  | binOp _ hop _ ihl _ ihr => exact .binOp ihl hop ihr
  | unaryOp hop _ _ ih => exact .unaryOp hop ih
  | subscript ctx _ _ ihv ihs =>
    rw [Tree.wrapIndices]
    refine .subscript ctx ihv ?_
    split
    · exact ihs
    · exact .index ihs
  | index _ ih => exact .index ih
  | call keywords _ _ ihf iha => exact .call _ ihf (wrapAll_ordinary iha)
  | binaryOperator op => exact .binaryOperator op
  | unaryOperator op => exact .unaryOperator op
  | other hcls hfields => exact .other hcls (lookup_wrapFields hfields)

theorem length_wrapAll (ts : List Tree) : (wrapAll ts).length = ts.length := by
  induction ts with
  | nil => rfl
  | cons t ts ih => rw [wrapAll, List.length_cons, List.length_cons, ih]

theorem wrapAll_fits {r : Role} {ts : List Tree} (h : ∀ t ∈ ts, t.wrapIndices.Fits true r) :
    ∀ t ∈ wrapAll ts, t.Fits true r := by
  intro t ht
  obtain ⟨s, hs, rfl⟩ := mem_wrapAll ht
  exact h s hs

/-- A slice that is not wrapped is of a class without a rule. -/
theorem Fits.of_slice {t : Tree} (h : t.Fits true (.expression .load))
    (hcls : t.className = "Slice") : t.Fits true .slice := by
  cases h with
  | leaf v => exact .leaf v
  | other hindex hfields => exact .other hindex hfields
  | _ => simp [className] at hcls

/-- There are no indices in operators. -/
theorem Fits.operator {r : Role} {op : Tree} (hr : r = .binaryOperator ∨ r = .unaryOperator)
    (h : op.Fits false r) : op.Fits true r := by
  cases h with
  | leaf v => exact .leaf v
  | binaryOperator op => exact .binaryOperator op
  | unaryOperator op => exact .unaryOperator op
  | other hcls hfields => exact .other hcls hfields
  | _ => simp at hr

/-- Wrapping indices makes a tree indexed. -/
theorem Fits.wrapIndices {r : Role} {t : Tree} (h : t.Fits false r) :
    t.wrapIndices.Fits true r := by
  induction h with
  | leaf v => exact .leaf v
  | module _ ih => exact .module (wrapAll_fits ih)
  | interactive _ ih => exact .interactive (wrapAll_fits ih)
  | expr _ ih => exact .expr ih
  | assign _ _ iht ihv => exact .assign (wrapAll_fits iht) ihv
  | augAssign _ _ _ iht iho ihv => exact .augAssign iht iho ihv
  | delete _ ih => exact .delete (wrapAll_fits ih)
  | pass => exact .pass
  | ifStmt _ _ _ iht ihb iho => exact .ifStmt iht (wrapAll_fits ihb) (wrapAll_fits iho)
  | ifExp _ _ _ iht ihb iho => exact .ifExp iht ihb iho
  | whileLoop orelse _ _ iht ihb => exact .whileLoop _ iht (wrapAll_fits ihb)
  | forLoop orelse _ _ _ iht ihi ihb => exact .forLoop _ iht ihi (wrapAll_fits ihb)
  | name id c => exact .name id c
  | constant v => exact .constant v
  | tuple _ ih => exact .tuple (wrapAll_fits ih)
  | listDisplay _ ih => exact .listDisplay (wrapAll_fits ih)
  | setDisplay _ ih => exact .setDisplay (wrapAll_fits ih)
  | dictDisplay hlength _ _ ihk ihv =>
    refine .dictDisplay ?_ (wrapAll_fits ihk) (wrapAll_fits ihv)
    rw [length_wrapAll, length_wrapAll, hlength]
  | binOp _ hop _ ihl _ ihr => exact .binOp ihl (hop.operator (.inl rfl)) ihr
  | unaryOp hop _ _ ih => exact .unaryOp (hop.operator (.inr rfl)) ih
  | subscript _ _ ihv ihs =>
    rw [Tree.wrapIndices]
    refine .subscript ihv ?_
    split
    · next hcls => exact ihs.of_slice (by simpa using hcls)
    · exact .index ihs
  | index _ ih => exact .index ih
  | call keywords _ _ ihf iha => exact .call _ ihf (wrapAll_fits iha)
  | binaryOperator op => exact .binaryOperator op
  | unaryOperator op => exact .unaryOperator op
  | other hcls hfields => exact .other hcls (lookup_wrapFields hfields)

end Tree
end Stackwise
