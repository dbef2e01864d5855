import Mathlib
import Stackwise.Proofs.Keys
import Stackwise.Proofs.Shape

/-!
# Trees that are read are whole

A tree that is handed in may lack a field anywhere, also below classes without a rule, where
`Tree.Ordinary` says nothing. One that is read lacks nothing: it is `Tree.Whole`. The rules of the
grammar are gone through with triples `⦃⌜True⌝⦄ p ⦃⇓? a => ⌜…⌝⦄`, which speak of what a parser
returns and allow it to fail; `ReadsWhole p` is the one that says that all trees in what `p` returns
are whole. `Tree.read_whole` puts the rules together.
-/
namespace Stackwise

set_option mvcgen.warning false

namespace Tree

/-- Whether a tree is a list. -/
def isList : Tree → Bool
  | .list _ => true
  | _ => false

mutual
/-- No field is missing at any depth, constants have values that can be keys, an assignment has a
target, and the items of a tuple are in a list. Nodes that are only made by hand are left out. -/
def Whole : Tree → Prop
  | .missing | .sealedIndex _ | .extended _ _ _ => False
  | .leaf _ | .pass | .binaryOperator _ | .unaryOperator _ | .context _ => True
  | .constant none => False
  | .constant (some v) => v.IsKey
  | .list items => WholeItems items
  | .module s | .interactive s | .expr s | .delete s | .setDisplay s | .index s => Whole s
  | .name s t | .listDisplay s t | .dictDisplay s t | .unaryOp s t => Whole s ∧ Whole t
  | .assign s t => s ≠ .list [] ∧ Whole s ∧ Whole t
  | .tuple s t => s.isList = true ∧ Whole s ∧ Whole t
  | .augAssign s t u | .ifStmt s t u | .ifExp s t u | .whileLoop s t u | .binOp s t u
  | .subscript s t u | .call s t u => Whole s ∧ Whole t ∧ Whole u
  | .forLoop s t u v => Whole s ∧ Whole t ∧ Whole u ∧ Whole v
  | .other _ fields => WholeFields fields
/-- Several whole trees. -/
def WholeItems : List Tree → Prop
  | [] => True
  | t :: ts => Whole t ∧ WholeItems ts
/-- Fields with whole trees. -/
def WholeFields : List (String × Tree) → Prop
  | [] => True
  | (_, t) :: fs => Whole t ∧ WholeFields fs
end

end Tree

namespace Grammar

open Std.Do

/-! ### What is returned -/

/-- Something that a parser returns, with trees in it. -/
class HasTrees (α : Type) where
  trees : α → List Tree

open HasTrees (trees)

/-- Something that a parser returns, without trees in it. -/
class Treeless (α : Type) extends HasTrees α where
  trees_eq_nil (a : α) : trees a = []

instance : HasTrees Tree := ⟨fun t => [t]⟩
instance : Treeless String := { trees _ := [], trees_eq_nil _ := rfl }
instance : Treeless Nat := { trees _ := [], trees_eq_nil _ := rfl }
instance : Treeless Bool := { trees _ := [], trees_eq_nil _ := rfl }
instance : Treeless Char := { trees _ := [], trees_eq_nil _ := rfl }
instance : Treeless Number := { trees _ := [], trees_eq_nil _ := rfl }
instance : Treeless TextLiteral := { trees _ := [], trees_eq_nil _ := rfl }

section
variable {α β : Type} [HasTrees α] [HasTrees β]

instance : HasTrees (List α) := ⟨fun as => as.flatMap trees⟩
instance : HasTrees (Option α) := ⟨fun o => o.toList.flatMap trees⟩
instance : HasTrees (α × β) := ⟨fun p => trees p.1 ++ trees p.2⟩
instance {α : Type} [Treeless α] : Treeless (List α) where
  trees_eq_nil _ := List.flatMap_eq_nil_iff.2 fun a _ => Treeless.trees_eq_nil a

/-- All trees in a value are whole. -/
def AllWhole (a : α) : Prop := ∀ t ∈ trees a, t.Whole

@[simp] theorem allWhole_tree {t : Tree} : AllWhole t ↔ t.Whole := by simp [AllWhole, trees]

@[simp] theorem allWhole_treeless {α : Type} [Treeless α] (a : α) : AllWhole a := by
  simp [AllWhole, Treeless.trees_eq_nil]

@[simp] theorem allWhole_prod {p : α × β} : AllWhole p ↔ AllWhole p.1 ∧ AllWhole p.2 :=
  List.forall_mem_append

@[simp] theorem allWhole_none : AllWhole (none : Option α) := by simp [AllWhole, trees]

@[simp] theorem allWhole_some {a : α} : AllWhole (some a) ↔ AllWhole a := by
  simp [AllWhole, trees]

theorem allWhole_list {as : List α} : AllWhole as ↔ ∀ a ∈ as, AllWhole a :=
  List.forall_mem_flatMap

@[simp] theorem allWhole_nil : AllWhole ([] : List α) := by simp [allWhole_list]

@[simp] theorem allWhole_cons {a : α} {as : List α} :
    AllWhole (a :: as) ↔ AllWhole a ∧ AllWhole as := by
  simp [allWhole_list]

@[simp] theorem allWhole_append {as bs : List α} :
    AllWhole (as ++ bs) ↔ AllWhole as ∧ AllWhole bs := by
  simp only [allWhole_list, List.forall_mem_append]

@[simp] theorem allWhole_reverse {as : List α} : AllWhole as.reverse ↔ AllWhole as := by
  simp [allWhole_list]

@[simp] theorem allWhole_flatten {as : List (List α)} : AllWhole as.flatten ↔ AllWhole as := by
  simp only [allWhole_list, List.forall_mem_flatten]

theorem allWhole_map {f : α → β} {as : List α} (hf : ∀ a, AllWhole a → AllWhole (f a))
    (h : AllWhole as) : AllWhole (as.map f) := by
  rw [allWhole_list] at h ⊢
  exact List.forall_mem_map.2 fun a ha => hf a (h a ha)

@[simp] theorem allWhole_fsts {ps : List (α × β)} (h : AllWhole ps) :
    AllWhole (ps.map (·.1)) :=
  allWhole_map (fun _ hp => (allWhole_prod.1 hp).1) h

@[simp] theorem allWhole_snds {ps : List (α × β)} (h : AllWhole ps) :
    AllWhole (ps.map (·.2)) :=
  allWhole_map (fun _ hp => (allWhole_prod.1 hp).2) h

end

@[simp] theorem wholeItems_iff {ts : List Tree} : Tree.WholeItems ts ↔ AllWhole ts := by
  induction ts with
  | nil => simp [Tree.WholeItems]
  | cons t ts ih => rw [Tree.WholeItems, ih, allWhole_cons, allWhole_tree]

@[simp] theorem wholeFields_iff {fs : List (String × Tree)} :
    Tree.WholeFields fs ↔ AllWhole fs := by
  induction fs with
  | nil => simp [Tree.WholeFields]
  | cons f fs ih => simp [Tree.WholeFields, ih]

/-! ### Triples -/

theorem wp_apply {α : Type} (p : Parser α)
    (Q : PostCond α (.arg (List Token) (.except PUnit .pure))) (ts : List Token) :
    wp⟦p⟧ Q ts = match p ts with
      | some (a, rest) => Q.1 a rest
      | none => Q.2.1 ⟨⟩ := by
  change (wp (p ts)).apply _ = _
  cases h : p ts with
  | none => rfl
  | some r => rfl

theorem triple_iff {α : Type} {P : α → Prop} {p : Parser α} :
    (⦃⌜True⌝⦄ p ⦃⇓? a => ⌜P a⌝⦄) ↔ Yields P p := by
  constructor
  · intro h ts a rest hp
    have hpost := h ts trivial
    rw [wp_apply, hp] at hpost
    exact hpost
  · intro h ts _
    rw [wp_apply]
    cases hp : p ts with
    | none => trivial
    | some r => exact h ts r.1 r.2 hp

/-- All trees in what is returned, if anything is, are whole. -/
abbrev ReadsWhole {m : Type → Type} {ps : PostShape} [WP m ps] {α : Type} [HasTrees α] (x : m α) :
    Prop :=
  ⦃⌜True⌝⦄ x ⦃⇓? a => ⌜AllWhole a⌝⦄

/-- Nothing is said of what a parser returns. -/
theorem returns {α : Type} (p : Parser α) : ⦃⌜True⌝⦄ p ⦃⇓? _ => ⌜True⌝⦄ :=
  triple_iff.2 fun _ _ _ _ => trivial

/-- Nothing is said of a result that may be missing. -/
theorem finds {α : Type} (o : Option α) : ⦃⌜True⌝⦄ o ⦃⇓? _ => ⌜True⌝⦄ := by
  cases o <;> exact fun _ => trivial

theorem readsWhole_option {α : Type} [HasTrees α] {o : Option α} :
    ReadsWhole o ↔ ∀ a, o = some a → AllWhole a := by
  cases o with
  | none => exact ⟨fun _ => nofun, fun _ _ => trivial⟩
  | some a => exact ⟨fun h b hb => Option.some.inj hb ▸ h trivial, fun h _ => h a rfl⟩

@[spec] theorem none_spec {α : Type} :
    ⦃⌜True⌝⦄ (none : Option α) ⦃⇓? _ => ⌜False⌝⦄ := fun _ => trivial

@[spec] theorem some_spec {α : Type} {a : α} {Q : PostCond α (.except PUnit .pure)} :
    ⦃Q.1 a⦄ some a ⦃Q⦄ := fun h => h

@[spec] theorem map_spec {α β : Type} {f : α → β} {o : Option α}
    {Q : PostCond β (.except PUnit .pure)} :
    ⦃wp⟦o⟧ (fun a => Q.1 (f a), Q.2)⦄ o.map f ⦃Q⦄ := by
  cases o <;> exact fun h => h

@[spec] theorem failure_spec {α : Type} :
    ⦃⌜True⌝⦄ (failure : Parser α) ⦃⇓? _ => ⌜False⌝⦄ := triple_iff.2 .failure

section
variable {α : Type} [HasTrees α] {p q : Parser α}

@[spec] theorem optional_spec (hp : ReadsWhole p) : ReadsWhole (optional p) := by
  refine triple_iff.2 fun ts o rest h => ?_
  have ho := (triple_iff.1 hp).optional ts o rest h
  cases o with
  | none => exact allWhole_none
  | some a => exact allWhole_some.2 (ho a rfl)

@[spec] theorem orElse_spec (hp : ReadsWhole p) (hq : ReadsWhole q) : ReadsWhole (p <|> q) :=
  triple_iff.2 ((triple_iff.1 hp).orElse (triple_iff.1 hq))

@[spec] theorem many_spec (hp : ReadsWhole p) (fuel : Nat) : ReadsWhole (many p fuel) :=
  triple_iff.2 fun ts as rest h => allWhole_list.2 ((triple_iff.1 hp).many fuel ts as rest h)

@[spec] theorem moreItems_spec (sep : String) (hp : ReadsWhole p) (fuel : Nat) :
    ReadsWhole (moreItems sep p fuel) := by
  refine triple_iff.2 fun ts r rest h => allWhole_prod.2 ⟨?_, allWhole_treeless _⟩
  exact allWhole_list.2 ((triple_iff.1 hp).moreItems sep fuel ts r rest h)

@[spec] theorem items_spec (sep : String) (hp : ReadsWhole p) (fuel : Nat) :
    ReadsWhole (items sep p fuel) := by
  mvcgen [items, hp] with simp_all

@[spec] theorem separated_spec (sep : String) (hp : ReadsWhole p) (fuel : Nat) :
    ReadsWhole (separated sep p fuel) := by
  mvcgen [separated, hp] with simp_all

@[spec] theorem mapM_spec {β : Type} {f : β → Option α} (bs : List β)
    (h : ∀ b, ReadsWhole (f b)) : ReadsWhole (bs.mapM f) := by
  induction bs with
  | nil =>
    rw [List.mapM_nil]
    exact fun _ => allWhole_nil
  | cons b bs ih =>
    rw [List.mapM_cons]
    mvcgen [h, ih] with simp_all

end

/-! Of parsers that return no trees, it does not matter what they return. -/

@[spec] theorem peek_spec : ⦃⌜True⌝⦄ peek ⦃⇓? _ => ⌜True⌝⦄ := returns _

@[spec] theorem seesMark_spec (s : String) : ⦃⌜True⌝⦄ seesMark s ⦃⇓? _ => ⌜True⌝⦄ := returns _

@[spec] theorem seesKeyword_spec (s : String) : ⦃⌜True⌝⦄ seesKeyword s ⦃⇓? _ => ⌜True⌝⦄ :=
  returns _

@[spec] theorem skip_spec : ⦃⌜True⌝⦄ skip ⦃⇓? _ => ⌜True⌝⦄ := returns _

@[spec] theorem mark_spec (s : String) : ⦃⌜True⌝⦄ mark s ⦃⇓? _ => ⌜True⌝⦄ := returns _

@[spec] theorem markIf_spec (s : String) : ⦃⌜True⌝⦄ markIf s ⦃⇓? _ => ⌜True⌝⦄ := returns _

@[spec] theorem keyword_spec (s : String) : ⦃⌜True⌝⦄ keyword s ⦃⇓? _ => ⌜True⌝⦄ := returns _

@[spec] theorem keywordIf_spec (s : String) : ⦃⌜True⌝⦄ keywordIf s ⦃⇓? _ => ⌜True⌝⦄ := returns _

@[spec] theorem name_spec : ⦃⌜True⌝⦄ name ⦃⇓? _ => ⌜True⌝⦄ := returns _

@[spec] theorem newline_spec : ⦃⌜True⌝⦄ newline ⦃⇓? _ => ⌜True⌝⦄ := returns _

@[spec] theorem seesNameThen_spec (s : String) : ⦃⌜True⌝⦄ seesNameThen s ⦃⇓? _ => ⌜True⌝⦄ :=
  returns _

@[spec] theorem comparisonIf_spec : ⦃⌜True⌝⦄ comparisonIf ⦃⇓? _ => ⌜True⌝⦄ := returns _

@[spec] theorem seesClause_spec : ⦃⌜True⌝⦄ seesClause ⦃⇓? _ => ⌜True⌝⦄ := returns _

@[spec] theorem captureName_spec : ⦃⌜True⌝⦄ captureName ⦃⇓? _ => ⌜True⌝⦄ := returns _

@[spec] theorem dottedName_spec (g : Level) : ⦃⌜True⌝⦄ dottedName g ⦃⇓? _ => ⌜True⌝⦄ := returns _

/-! ### Nodes -/

attribute [local simp] Tree.Whole Tree.isList

@[simp] theorem node_whole {cls : String} {fields : List (String × Tree)} :
    (node cls fields).Whole ↔ AllWhole fields := by
  simp [node]

@[simp] theorem load_whole : load.Whole := by simp [load]

@[simp] theorem store_whole : store.Whole := by simp [store]

@[simp] theorem absent_whole : Tree.absent.Whole := by simp [Tree.absent]

@[simp] theorem ofText_whole (s : String) : (Tree.ofText s).Whole := by simp [Tree.ofText]

@[simp] theorem const_whole {v : Value} : (Tree.const v).Whole ↔ v.IsKey := by simp [Tree.const]

@[simp] theorem nameNode_whole (s : String) : (nameNode s).Whole := by simp [nameNode]

@[simp] theorem starredNode_whole {t : Tree} : (starredNode t).Whole ↔ t.Whole := by
  simp [starredNode]

@[simp] theorem attributeNode_whole {t : Tree} {s : String} :
    (attributeNode t s).Whole ↔ t.Whole := by
  simp [attributeNode]

@[simp] theorem tupleOf_whole {elts : List Tree} {trailing : Bool} (h : AllWhole elts) :
    (tupleOf elts trailing).Whole := by
  unfold tupleOf
  split
  · simpa using h
  · simp [h]

@[simp] theorem getD_absent_whole {o : Option Tree} (h : AllWhole o) :
    (o.getD .absent).Whole := by
  cases o with
  | none => exact absent_whole
  | some t => simpa using h

/-! ### Targets -/

@[spec] theorem singleTarget?_spec {ctx t : Tree} (hctx : ctx.Whole) (ht : t.Whole) :
    ReadsWhole (singleTarget? ctx t) := by
  mvcgen [singleTarget?] with simp_all

@[spec] theorem target?_spec (stars : Bool) {ctx t : Tree} (hctx : ctx.Whole) (ht : t.Whole) :
    ReadsWhole (target? stars ctx t) := by
  refine target?.induct stars (fun t => t.Whole → ReadsWhole (target? stars ctx t))
    (fun ts => AllWhole ts → ReadsWhole (targets? stars ctx ts)) ?tuple ?display ?starred ?refused
    ?single ?nil ?cons t ht
  case tuple =>
    intro elts _ ih h
    have helts := ih (by simp_all)
    mvcgen [target?, helts] with simp_all
  case display =>
    intro elts _ ih h
    have helts := ih (by simp_all)
    mvcgen [target?, helts] with simp_all
  case starred =>
    intro value _ hstars ih h
    have hvalue := ih (by simp_all)
    mvcgen [target?, hvalue] with simp_all
  case refused =>
    intro value _ hstars h
    mvcgen [target?] with simp_all
  case single =>
    intro t htuple hdisplay hstarred h
    rw [target?]
    · mvcgen
    all_goals assumption
  case nil =>
    intro h
    mvcgen [targets?]
  case cons =>
    intro t ts iht ihts h
    rw [allWhole_cons, allWhole_tree] at h
    have hfirst := iht h.1
    have hrest := ihts h.2
    mvcgen [targets?, hfirst, hrest] with simp_all

@[spec] theorem assigned_spec {t : Tree} (ht : t.Whole) : ReadsWhole (assigned t) := by
  mvcgen [assigned]

@[spec] theorem assignedSingle_spec {t : Tree} (ht : t.Whole) :
    ReadsWhole (assignedSingle t) := by
  mvcgen [assignedSingle]

@[spec] theorem deleted_spec {t : Tree} (ht : t.Whole) : ReadsWhole (deleted t) := by
  mvcgen [deleted]

/-! ### Operators -/

theorem lookup_whole {ops : List (String × Tree)} (h : AllWhole ops) {s : String} {op : Tree}
    (hop : ops.lookup s = some op) : op.Whole := by
  obtain ⟨before, rest, rfl, -⟩ := List.lookup_eq_some_iff.1 hop
  simp_all

@[spec] theorem operatorIf_spec {ops : List (String × Tree)} (h : AllWhole ops) :
    ReadsWhole (operatorIf ops) := by
  mvcgen [operatorIf] with simp
  exact lookup_whole h ‹_›

@[spec] theorem leftOperands_spec {ops : List (String × Tree)} (h : AllWhole ops)
    {operand : Parser Tree} (hoperand : ReadsWhole operand) (fuel : Nat) {left : Tree}
    (hleft : left.Whole) : ReadsWhole (leftOperands ops operand fuel left) := by
  induction fuel generalizing left with
  | zero => exact triple_iff.2 (.pure (allWhole_tree.2 hleft))
  | succ fuel ih => mvcgen [leftOperands, hoperand, ih] with simp_all

@[spec] theorem leveled_spec (fuel : Nat) {operand : Parser Tree} (hoperand : ReadsWhole operand)
    {levels : List (List (String × Tree))} (h : AllWhole levels) :
    ReadsWhole (leveled fuel operand levels) := by
  induction levels with
  | nil => exact hoperand
  | cons ops levels ih =>
    rw [allWhole_cons] at h
    have hinner := ih h.2
    mvcgen [leveled, hinner] with simp_all

@[spec] theorem boolean_spec (word cls : String) {operand : Parser Tree}
    (hoperand : ReadsWhole operand) (fuel : Nat) :
    ReadsWhole (boolean word cls operand fuel) := by
  mvcgen [boolean, hoperand] with simp_all

/-! ### Names and imports -/

@[spec] theorem dottedFrom_spec (g : Level) (first : String) : ReadsWhole (dottedFrom g first) := by
  mvcgen [dottedFrom] with simp_all
  exact List.foldlRecOn _ _ (nameNode_whole first) fun t ht s _ => attributeNode_whole.2 ht

@[spec] theorem nameList_spec (g : Level) : ReadsWhole (nameList g) := by
  mvcgen [nameList] with simp_all
  exact allWhole_map (by simp) (allWhole_treeless _)

@[spec] theorem aliasPart_spec (what : String) : ReadsWhole (aliasPart what) := by
  mvcgen [aliasPart] with simp_all

@[spec] theorem importStatement_spec (g : Level) : ReadsWhole (importStatement g) := by
  mvcgen [importStatement] with simp_all

@[spec] theorem importedNames_spec (g : Level) : ReadsWhole (importedNames g) := by
  mvcgen [importedNames] with simp_all

@[spec] theorem importFromStatement_spec (g : Level) : ReadsWhole (importFromStatement g) := by
  mvcgen [importFromStatement] with simp_all

/-! ### Formatted texts -/

instance : HasTrees Piece where
  trees
    | .literal _ => []
    | .value t => [t]

@[simp] theorem allWhole_literal (cs : List Char) : AllWhole (Piece.literal cs) := by
  simp [AllWhole, trees]

@[simp] theorem allWhole_value {t : Tree} : AllWhole (Piece.value t) ↔ t.Whole := by
  simp [AllWhole, trees]

@[simp] theorem joinPieces_whole {ps : List Piece} (h : AllWhole ps) : (joinPieces ps).Whole := by
  rw [allWhole_list] at h
  have hpush : ∀ (text : List Char) {ts : List Tree}, AllWhole ts →
      AllWhole (if text.isEmpty then ts else .const (.str (String.ofList text)) :: ts) := by
    intro text ts hts
    split <;> simp [hts]
  simp only [joinPieces, node_whole, allWhole_cons, allWhole_prod, allWhole_treeless, allWhole_tree,
    allWhole_nil, Tree.Whole, wholeItems_iff, true_and, and_true]
  refine hpush _ (List.foldrRecOn (motive := fun r : List Char × List Tree => AllWhole r.2) ps _
    allWhole_nil ?_)
  rintro ⟨text, ts⟩ hts p hp
  cases p with
  | literal cs => exact hts
  | value t => exact allWhole_cons.2 ⟨by simpa using h _ hp, hpush text hts⟩

@[spec] theorem expressionText_spec (sure : Nat) (quote : Option (Char × Bool))
    (closers acc cs : List Char) :
    ⦃⌜True⌝⦄ expressionText sure quote closers acc cs ⦃⇓? _ => ⌜True⌝⦄ := finds _

@[spec] theorem plainPart_spec (raw layout : Bool) (cs : List Char) :
    ⦃⌜True⌝⦄ plainPart raw layout cs ⦃⇓? _ => ⌜True⌝⦄ := finds _

@[spec] theorem unescape_spec (raw : Bool) (cs : List Char) :
    ⦃⌜True⌝⦄ Literal.unescape raw cs ⦃⇓? _ => ⌜True⌝⦄ := finds _

@[spec] theorem conversionCode_spec (c : Char) :
    ⦃⌜True⌝⦄ conversionCode c ⦃⇓? _ => ⌜True⌝⦄ := finds _

@[spec] theorem characters?_spec (t : TextLiteral) :
    ⦃⌜True⌝⦄ t.characters? ⦃⇓? _ => ⌜True⌝⦄ := finds _

section
variable {inside : List Char → Option Tree} {layout : List Char → Option (Tree × List Char)}
  (hinside : ∀ cs, ReadsWhole (inside cs))
include hinside

@[spec] theorem fieldPart_spec (hlayout : ∀ cs, ReadsWhole (layout cs)) (cs : List Char) :
    ReadsWhole (fieldPart inside layout cs) := by
  mvcgen [fieldPart, hinside, hlayout] with simp_all +zetaDelta

@[spec] theorem formattedPieces_spec (raw nested : Bool) (hlayout : ∀ cs, ReadsWhole (layout cs))
    (fuel : Nat) (cs : List Char) :
    ReadsWhole (formattedPieces raw nested inside layout fuel cs) := by
  induction fuel generalizing cs with
  | zero => exact readsWhole_option.2 nofun
  | succ fuel ih => mvcgen [formattedPieces, ih, hinside, hlayout] with simp_all

@[spec] theorem formatted_spec (raw : Bool) (cs : List Char) :
    ReadsWhole (formatted raw inside cs) := by
  mvcgen [formatted, hinside] with simp_all +zetaDelta

end

/-! ### Expressions -/

/-- The nonterminals one level deeper return whole trees. -/
class Level.Whole (g : Level) : Prop where
  parse : ∀ n, ReadsWhole (g.parse n)

@[spec] theorem parse_spec (g : Level) [g.Whole] (n : Nonterminal) : ReadsWhole (g.parse n) :=
  Level.Whole.parse n

section
variable (g : Level) [g.Whole]

@[spec] theorem bitwiseOr_spec : ReadsWhole (bitwiseOr g) := by
  mvcgen [bitwiseOr]
  simp [binaryLevels]

@[spec] theorem comparison_spec : ReadsWhole (comparison g) := by
  mvcgen [comparison] with simp_all
  exact allWhole_map (by simp) ‹_›

@[spec] theorem inversion_spec : ReadsWhole (inversion g) := by
  mvcgen [inversion] with simp_all

@[spec] theorem disjunction_spec : ReadsWhole (disjunction g) := by
  mvcgen [disjunction]

@[spec] theorem namedExpression_spec : ReadsWhole (namedExpression g) := by
  mvcgen [namedExpression] with simp_all

@[spec] theorem starExpression_spec : ReadsWhole (starExpression g) := by
  mvcgen [starExpression] with simp_all

@[spec] theorem starNamedExpression_spec : ReadsWhole (starNamedExpression g) := by
  mvcgen [starNamedExpression] with simp_all

@[spec] theorem starExpressions_spec : ReadsWhole (starExpressions g) := by
  mvcgen [starExpressions] with simp_all

@[spec] theorem plainExpressions_spec : ReadsWhole (plainExpressions g) := by
  mvcgen [plainExpressions] with simp_all

@[spec] theorem yieldExpression_spec : ReadsWhole (yieldExpression g) := by
  mvcgen [yieldExpression] with simp_all

@[spec] theorem valueExpression_spec : ReadsWhole (valueExpression g) := by
  mvcgen [valueExpression]

/-! ### Parameters -/

instance : HasTrees Parameters where
  trees p := p.positional ++ p.ordinary ++ p.rest :: (p.keyed ++ p.keyedDefaults) ++
    p.keywords :: p.defaults

@[simp] theorem allWhole_parameters {p : Parameters} :
    AllWhole p ↔ AllWhole p.positional ∧ AllWhole p.ordinary ∧ p.rest.Whole ∧ AllWhole p.keyed ∧
      AllWhole p.keyedDefaults ∧ p.keywords.Whole ∧ AllWhole p.defaults := by
  simp [AllWhole, trees, or_imp, forall_and]

@[simp] theorem toTree_whole {p : Parameters} : p.toTree.Whole ↔ AllWhole p := by
  simp [Parameters.toTree]

@[spec] theorem parameter_spec (annotated starred : Bool) :
    ReadsWhole (parameter g annotated starred) := by
  mvcgen [parameter] with simp_all

@[spec] theorem defaultValue_spec : ReadsWhole (defaultValue g) := by
  mvcgen [defaultValue] with simp_all

@[spec] theorem nextParameter_spec (annotated : Bool) {p : Parameters} (hp : AllWhole p) :
    ReadsWhole (nextParameter g annotated p) := by
  mvcgen [nextParameter] with simp_all

@[spec] theorem parametersUntil_spec (annotated : Bool) (close : String) (fuel : Nat)
    {p : Parameters} (hp : AllWhole p) : ReadsWhole (parametersUntil g annotated close fuel p) := by
  induction fuel generalizing p with
  | zero => exact triple_iff.2 .failure
  | succ fuel ih => mvcgen [parametersUntil, ih] with simp_all

@[spec] theorem lambda_spec : ReadsWhole (lambda g) := by
  mvcgen [lambda] with simp_all

@[spec] theorem expression_spec : ReadsWhole (expression g) := by
  mvcgen [expression] with simp_all

/-! ### Atoms -/

@[spec] theorem insideField_spec (cs : List Char) : ReadsWhole (insideField g cs) := by
  refine readsWhole_option.2 fun t h => ?_
  obtain ⟨tokens, -, h⟩ := Option.bind_eq_some_iff.1 h
  obtain ⟨⟨e, rest⟩, he, h⟩ := Option.bind_eq_some_iff.1 h
  cases h
  exact triple_iff.1 (parse_spec g .starExpressions) tokens _ rest he

@[spec] theorem textPieces_spec (t : TextLiteral) : ReadsWhole (textPieces g t) := by
  mvcgen [textPieces] with simp_all

@[spec] theorem textsTree_spec (ts : List TextLiteral) : ReadsWhole (textsTree g ts) := by
  mvcgen [textsTree] with simp_all

@[spec] theorem texts_spec : ReadsWhole (texts g) := by
  mvcgen [texts] with simp_all

@[spec] theorem loopTargets_spec : ReadsWhole (loopTargets g) := by
  mvcgen [loopTargets] with simp_all

@[spec] theorem comprehensionClause_spec : ReadsWhole (comprehensionClause g) := by
  mvcgen [comprehensionClause] with simp_all

@[spec] theorem clauses_spec : ReadsWhole (clauses g) := by
  mvcgen [clauses] with simp_all

@[spec] theorem restOfItems_spec {first : Tree} (hfirst : first.Whole) (close : String) :
    ReadsWhole (restOfItems g first close) := by
  mvcgen [restOfItems] with simp_all

@[spec] theorem parenthesized_spec : ReadsWhole (parenthesized g) := by
  mvcgen [parenthesized] with simp_all

@[spec] theorem bracketed_spec : ReadsWhole (bracketed g) := by
  mvcgen [bracketed] with simp_all

@[spec] theorem entry_spec : ReadsWhole (entry g) := by
  mvcgen [entry] with simp_all

@[spec] theorem restOfEntries_spec {first : Tree × Tree} (hfirst : AllWhole first) :
    ReadsWhole (restOfEntries g first) := by
  mvcgen [restOfEntries] with simp_all +zetaDelta

@[spec] theorem braced_spec : ReadsWhole (braced g) := by
  mvcgen [braced] with simp_all

@[spec] theorem atom_spec : ReadsWhole (atom g) := by
  mvcgen [atom] with simp_all

/-! ### Calls and indices -/

@[spec] theorem argumentsUntil_spec (sole : Bool) (fuel : Nat) (phase : ArgumentPhase)
    {args keywords : List Tree} (hargs : AllWhole args) (hkeywords : AllWhole keywords) :
    ReadsWhole (argumentsUntil g sole fuel phase args keywords) := by
  induction fuel generalizing phase args keywords with
  | zero => exact triple_iff.2 .failure
  | succ fuel ih => mvcgen [argumentsUntil, ih] with simp_all

@[spec] theorem arguments_spec (sole : Bool) : ReadsWhole (arguments g sole) := by
  mvcgen [arguments] with simp_all

@[spec] theorem slicePart_spec : ReadsWhole (slicePart g) := by
  mvcgen [slicePart] with simp_all

@[spec] theorem slices_spec : ReadsWhole (slices g) := by
  mvcgen [slices] with simp_all

@[spec] theorem suffixes_spec (fuel : Nat) {t : Tree} (ht : t.Whole) :
    ReadsWhole (suffixes g fuel t) := by
  induction fuel generalizing t with
  | zero => exact triple_iff.2 (.pure (allWhole_tree.2 ht))
  | succ fuel ih => mvcgen [suffixes, ih] with simp_all

@[spec] theorem primary_spec : ReadsWhole (primary g) := by
  mvcgen [primary] with simp_all

@[spec] theorem power_spec : ReadsWhole (power g) := by
  mvcgen [power] with simp_all

@[spec] theorem factor_spec : ReadsWhole (factor g) := by
  mvcgen [factor] with simp_all [signs]

/-! ### Patterns -/

@[spec] theorem signedNumber_spec : ReadsWhole signedNumber := by
  mvcgen [signedNumber] with simp_all +zetaDelta
  split <;> simp

@[spec] theorem numberLiteral_spec : ReadsWhole numberLiteral := by
  mvcgen [numberLiteral] with simp_all

@[simp] theorem singleton_whole (v : Value) : (singleton v).Whole := by simp [singleton]

@[simp] theorem valuePattern_whole {t : Tree} : (valuePattern t).Whole ↔ t.Whole := by
  simp [valuePattern]

@[simp] theorem bindPattern_whole {s t : Tree} :
    (bindPattern s t).Whole ↔ s.Whole ∧ t.Whole := by
  simp [bindPattern]

@[simp] theorem sequencePattern_whole {ts : List Tree} :
    (sequencePattern ts).Whole ↔ AllWhole ts := by
  simp [sequencePattern]

@[spec] theorem starPattern_spec : ReadsWhole (starPattern g) := by
  mvcgen [starPattern] with simp_all

@[spec] theorem groupedPattern_spec : ReadsWhole (groupedPattern g) := by
  mvcgen [groupedPattern] with simp_all

@[spec] theorem mappingKey_spec : ReadsWhole (mappingKey g) := by
  mvcgen [mappingKey] with simp_all

@[spec] theorem mappingEntries_spec (fuel : Nat) {acc : List (Tree × Tree)} (hacc : AllWhole acc) :
    ReadsWhole (mappingEntries g fuel acc) := by
  induction fuel generalizing acc with
  | zero => exact triple_iff.2 .failure
  | succ fuel ih => mvcgen [mappingEntries, ih] with simp_all +zetaDelta

@[spec] theorem classEntries_spec {cls : Tree} (hcls : cls.Whole) (fuel : Nat) {ps : List Tree}
    (hps : AllWhole ps) {ks : List (String × Tree)} (hks : AllWhole ks) :
    ReadsWhole (classEntries g cls fuel ps ks) := by
  induction fuel generalizing ps ks with
  | zero => exact triple_iff.2 .failure
  | succ fuel ih =>
    have hnames : AllWhole (ks.map fun k => Tree.ofText k.1) := allWhole_map (by simp) hks
    mvcgen [classEntries, ih] with simp_all +zetaDelta

@[spec] theorem namedPattern_spec (s : String) : ReadsWhole (namedPattern g s) := by
  mvcgen [namedPattern] with simp_all

@[spec] theorem closedPattern_spec : ReadsWhole (closedPattern g) := by
  mvcgen [closedPattern] with simp_all

@[spec] theorem pattern_spec : ReadsWhole (pattern g) := by
  mvcgen [pattern] with simp_all
  all_goals
    dsimp +zetaDelta only
    split <;> simp_all

@[spec] theorem casePattern_spec : ReadsWhole (casePattern g) := by
  mvcgen [casePattern] with simp_all

/-! ### Statements -/

@[spec] theorem assignmentChain_spec (fuel : Nat) {last : Tree} (hlast : last.Whole)
    {targets : List Tree} (htargets : AllWhole targets) :
    ReadsWhole (assignmentChain g fuel last targets) := by
  induction fuel generalizing last targets with
  | zero => exact triple_iff.2 .failure
  | succ fuel ih => mvcgen [assignmentChain, ih] with simp_all

@[spec] theorem annotatedAssignment_spec {target : Tree} (htarget : target.Whole) (simple : Bool) :
    ReadsWhole (annotatedAssignment g target simple) := by
  mvcgen [annotatedAssignment] with simp_all

@[spec] theorem expressionStatement_spec : ReadsWhole (expressionStatement g) := by
  mvcgen [expressionStatement] with simp_all [assignmentOperators]

@[spec] theorem raiseStatement_spec : ReadsWhole (raiseStatement g) := by
  mvcgen [raiseStatement] with simp_all

@[spec] theorem assertStatement_spec : ReadsWhole (assertStatement g) := by
  mvcgen [assertStatement] with simp_all

@[spec] theorem deleteStatement_spec : ReadsWhole (deleteStatement g) := by
  mvcgen [deleteStatement] with simp_all

@[spec] theorem returnStatement_spec : ReadsWhole (returnStatement g) := by
  mvcgen [returnStatement] with simp_all

@[spec] theorem simpleStatement_spec : ReadsWhole (simpleStatement g) := by
  mvcgen [simpleStatement] with simp_all

@[spec] theorem simpleStatements_spec : ReadsWhole (simpleStatements g) := by
  mvcgen [simpleStatements] with simp_all

@[spec] theorem suite_spec : ReadsWhole (suite g) := by
  mvcgen [suite]

@[spec] theorem elsePart_spec : ReadsWhole (elsePart g) := by
  mvcgen [elsePart] with simp_all

@[spec] theorem branch_spec : ReadsWhole (branch g) := by
  mvcgen [branch] with simp_all

@[spec] theorem whileStatement_spec : ReadsWhole (whileStatement g) := by
  mvcgen [whileStatement] with simp_all

@[spec] theorem forStatement_spec (isAsync : Bool) : ReadsWhole (forStatement g isAsync) := by
  mvcgen [forStatement] with simp_all

@[spec] theorem handler_spec (starred : Bool) : ReadsWhole (handler g starred) := by
  mvcgen [handler] with simp_all

@[spec] theorem finallyPart_spec : ReadsWhole (finallyPart g) := by
  mvcgen [finallyPart]

@[spec] theorem tryStatement_spec : ReadsWhole (tryStatement g) := by
  mvcgen [tryStatement] with simp_all +zetaDelta

@[spec] theorem withItem_spec : ReadsWhole (withItem g) := by
  mvcgen [withItem] with simp_all +zetaDelta

@[spec] theorem withItems_spec : ReadsWhole (withItems g) := by
  mvcgen [withItems] with simp_all

@[spec] theorem withStatement_spec (isAsync : Bool) : ReadsWhole (withStatement g isAsync) := by
  mvcgen [withStatement] with simp_all

@[spec] theorem functionStatement_spec (isAsync : Bool) {decorators : List Tree}
    (h : AllWhole decorators) : ReadsWhole (functionStatement g isAsync decorators) := by
  mvcgen [functionStatement] with simp_all

@[spec] theorem classStatement_spec {decorators : List Tree} (h : AllWhole decorators) :
    ReadsWhole (classStatement g decorators) := by
  mvcgen [classStatement] with simp_all

@[spec] theorem decorated_spec : ReadsWhole (decorated g) := by
  mvcgen [decorated] with simp_all

@[spec] theorem asyncStatement_spec : ReadsWhole (asyncStatement g) := by
  mvcgen [asyncStatement] with simp_all

@[spec] theorem matchCase_spec : ReadsWhole (matchCase g) := by
  mvcgen [matchCase] with simp_all

@[spec] theorem matchSubject_spec : ReadsWhole (matchSubject g) := by
  mvcgen [matchSubject] with simp_all

@[spec] theorem matchStatement_spec : ReadsWhole (matchStatement g) := by
  mvcgen [matchStatement] with simp_all

@[spec] theorem compoundStatement_spec : ReadsWhole (compoundStatement g) := by
  mvcgen [compoundStatement] with simp_all

@[spec] theorem statement_spec : ReadsWhole (statement g) := by
  mvcgen [statement]

@[spec] theorem statements_spec : ReadsWhole (statements g) := by
  mvcgen [statements] with simp_all

@[spec] theorem block_spec : ReadsWhole (block g) := by
  mvcgen [block] with simp_all

@[spec] theorem interactiveStatement_spec : ReadsWhole (interactiveStatement g) := by
  mvcgen [interactiveStatement]

theorem rule_spec (n : Nonterminal) : ReadsWhole (rule g n) := by
  cases n <;> mvcgen [rule]

end

instance (n : Nat) : (forLength n).Whole where
  parse := by
    have hparse : ∀ depth n, ReadsWhole (parse depth n) := by
      intro depth
      induction depth with
      | zero => exact fun _ => triple_iff.2 .failure
      | succ depth ih =>
        have : Level.Whole ⟨depth + 1, parse depth⟩ := ⟨ih⟩
        exact rule_spec _
    exact hparse _

end Grammar

namespace Tree

/-- A tree that is read is whole. -/
theorem read_whole {mode : Mode} {text : String} {t : Tree} (h : read mode text = .ok t) :
    t.Whole := by
  obtain ⟨tokens, body, -, -, hbody, rfl⟩ | ⟨tokens, body, rest, -, -, hbody, -, rfl⟩ |
    ⟨tokens, body, rest, -, -, hbody, -, rfl⟩ := read_cases h
  · have hwhole := Grammar.triple_iff.1 (Grammar.statements_spec _) _ _ _ hbody
    simpa [Whole] using hwhole
  · have hwhole := Grammar.triple_iff.1 (Grammar.interactiveStatement_spec _) _ _ _ hbody
    simpa [Whole] using hwhole
  · have hwhole := Grammar.triple_iff.1 (Grammar.plainExpressions_spec _) _ _ _ hbody
    simpa [Whole] using hwhole

/-! ### Wrapped indices -/

theorem wrapIndices_ne_nil {t : Tree} (h : t ≠ .list []) : t.wrapIndices ≠ .list [] := by
  cases t with
  | list items =>
    cases items with
    | nil => exact absurd rfl h
    | cons t ts => simp [wrapIndices, wrapAll]
  | _ => simp [wrapIndices]

theorem isList_wrapIndices (t : Tree) : t.wrapIndices.isList = t.isList := by
  cases t <;> simp [wrapIndices, isList]

/-- A whole tree stays whole when its indices are wrapped. -/
theorem Whole.wrapIndices : ∀ {t : Tree}, t.Whole → t.wrapIndices.Whole := by
  apply wrapIndices.induct (fun t => t.Whole → t.wrapIndices.Whole)
    (fun fs => WholeFields fs → WholeFields (wrapFields fs))
    (fun ts => WholeItems ts → WholeItems (wrapAll ts))
  case case7 =>
    intro targets value iht ihv h
    simp only [Whole] at h
    simp only [Tree.wrapIndices, Whole]
    exact ⟨wrapIndices_ne_nil h.1, iht h.2.1, ihv h.2.2⟩
  case case23 =>
    intro value slice ctx ihs ihv h
    simp only [Whole] at h
    have hslice := ihs h.2.1
    simp only [Tree.wrapIndices, Whole]
    refine ⟨ihv h.1, ?_, h.2.2⟩
    split
    · exact hslice
    · simpa only [Whole] using hslice
  all_goals
    simp_all [Whole, WholeItems, WholeFields, Tree.wrapIndices, wrapAll, wrapFields,
      isList_wrapIndices]

end Tree
end Stackwise
