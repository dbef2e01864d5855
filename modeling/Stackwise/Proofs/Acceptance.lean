import Mathlib
import Stackwise.Proofs.Effects
import Stackwise.Proofs.Whole

/-!
# What can be compiled

A visit comes to the nodes of a tree in one order, and to some of them only for their identifiers
(`Tree.encounters`). Of a tree that is read, wrapped or not, it can go through everything exactly if
each of these is one that there is a rule for (`Encounter.accepted`); otherwise it stops at the
first that is not, with the fault that belongs to it (`Encounter.fault`).
-/
namespace Stackwise

/-- Something that a visit comes to. -/
inductive Encounter where
  /-- A node that is visited. -/
  | node (t : Tree)
  /-- A node that is changed or deleted, and of which only the identifier is read. -/
  | target (t : Tree)

namespace Encounter

/-- Whether a visit can go on: nodes are of certain classes, loops over items have no else part,
and what is changed or deleted is a name. -/
def accepted : Encounter → Bool
  | .node t =>
    match t with
    | .module _ | .interactive _ => true
    | .expr _ | .assign _ _ | .augAssign _ _ _ | .delete _ | .pass => true
    | .ifStmt _ _ _ | .whileLoop _ _ _ => true
    | .forLoop _ _ _ orelse => !orelse.truthy
    | .constant _ | .name _ _ => true
    | .tuple _ _ | .listDisplay _ _ | .setDisplay _ | .dictDisplay _ _ => true
    | .binOp _ _ _ | .unaryOp _ _ | .ifExp _ _ _ => true
    | .subscript _ _ _ | .index _ | .sealedIndex _ | .call _ _ _ => true
    | .binaryOperator _ | .unaryOperator _ => true
    | .missing | .leaf _ | .list _ | .context _ | .extended _ _ _ | .other _ _ => false
  | .target (.name _ _) => true
  | .target _ => false

/-- The fault of a visit that stops here. -/
def fault : Encounter → Fault
  | .node (.forLoop _ _ _ _) => .loopElse
  | .node t => .noRule t.className
  | .target t => .noField t.className "id"

/-- The first of several that is not accepted. -/
def refused? (cs : List Encounter) : Option Encounter := cs.find? fun c => !c.accepted

/-- Those of the entries of a dictionary, each value before its key. -/
def entries : List (List Encounter) → List (List Encounter) → List Encounter
  | k :: ks, v :: vs => v ++ (k ++ entries ks vs)
  | _, _ => []

end Encounter

namespace Tree

mutual
/-- What a visit comes to, in order. It never comes to contexts, to the else part of a loop or to
named arguments, nor to the parts of what is changed or deleted. -/
def encounters : Tree → List Encounter
  | .list items => (encountersOfEach items).flatten
  | .module body => .node (.module body) :: encounters body
  | .interactive body => .node (.interactive body) :: encounters body
  | .expr value => .node (.expr value) :: encounters value
  | .assign targets value =>
    .node (.assign targets value) :: (encounters value ++ encounters targets)
  | .augAssign target op value =>
    .node (.augAssign target op value) :: .target target :: (encounters value ++ encounters op)
  | .delete (.list targets) => .node (.delete (.list targets)) :: targets.map .target
  | .ifStmt test body orelse =>
    .node (.ifStmt test body orelse) ::
      (encounters test ++ (encounters body ++ encounters orelse))
  | .ifExp test body orelse =>
    .node (.ifExp test body orelse) :: (encounters test ++ (encounters body ++ encounters orelse))
  | .whileLoop test body orelse =>
    .node (.whileLoop test body orelse) :: (encounters test ++ encounters body)
  | .forLoop target iter body orelse =>
    .node (.forLoop target iter body orelse) ::
      (encounters iter ++ (encounters target ++ encounters body))
  | .tuple elts ctx => .node (.tuple elts ctx) :: encounters elts
  | .listDisplay elts ctx => .node (.listDisplay elts ctx) :: encounters elts
  | .setDisplay elts => .node (.setDisplay elts) :: encounters elts
  | .dictDisplay keys values =>
    .node (.dictDisplay keys values) ::
      Encounter.entries (encounterParts keys) (encounterParts values)
  | .binOp left op right =>
    .node (.binOp left op right) :: (encounters left ++ (encounters right ++ encounters op))
  | .unaryOp op operand => .node (.unaryOp op operand) :: (encounters operand ++ encounters op)
  | .subscript value slice ctx =>
    .node (.subscript value slice ctx) :: (encounters value ++ encounters slice)
  | .index value => .node (.index value) :: encounters value
  | .sealedIndex value => .node (.sealedIndex value) :: encounters value
  | .call func args keywords =>
    .node (.call func args keywords) :: (encounters func ++ encounters args)
  | t => [.node t]
/-- What a visit comes to in each item of a field. -/
def encounterParts : Tree → List (List Encounter)
  | .list items => encountersOfEach items
  | _ => []
/-- What a visit comes to in each of several trees. -/
def encountersOfEach : List Tree → List (List Encounter)
  | [] => []
  | t :: ts => encounters t :: encountersOfEach ts
end

end Tree

/-! ### Effects and what they come from -/

/-- Effects end with the fault of the first encounter that is not accepted, if there is one. -/
def Encounter.Foretell (cs : List Encounter) (es : List Effect) : Prop :=
  Effect.end? es = (Encounter.refused? cs).map Encounter.fault

namespace Encounter.Foretell

variable {c : Encounter} {cs ds : List Encounter} {e : Effect} {es fs : List Effect}

theorem nil : Foretell [] [] := rfl

theorem append (h : Foretell cs es) (h' : Foretell ds fs) : Foretell (cs ++ ds) (es ++ fs) := by
  unfold Foretell at *
  rw [Effect.end?_append, h, h', ← Option.map_or]
  exact congrArg _ List.find?_append.symm

/-- An encounter that is accepted has no fault. -/
theorem cons (hc : c.accepted = true) (h : Foretell cs es) : Foretell (c :: cs) es := by
  simpa [Foretell, refused?, hc] using h

/-- An effect without a fault. -/
theorem effect (he : e.fault? = none) (h : Foretell cs es) : Foretell cs (e :: es) := by
  unfold Foretell at *
  rw [← h, Effect.end?, List.findSome?_cons, he]
  rfl

/-- Nothing is done after an encounter that is not accepted. -/
theorem refuse (hc : c.accepted = false) : Foretell (c :: cs) (.fault c.fault :: es) := by
  simp [Foretell, refused?, hc, Effect.end?, List.findSome?_cons, Effect.fault?]

end Encounter.Foretell

namespace Tree

open Encounter (Foretell)

theorem foretell_each {ts : List Tree} (h : ∀ t ∈ ts, Foretell t.encounters t.effects) :
    Foretell (encountersOfEach ts).flatten (effectsOfEach ts).flatten := by
  induction ts with
  | nil => simpa [encountersOfEach, effectsOfEach] using Foretell.nil
  | cons t ts ih =>
    simp only [encountersOfEach, effectsOfEach, List.flatten_cons]
    exact (h t List.mem_cons_self).append (ih fun s hs => h s (List.mem_cons_of_mem t hs))

theorem effectsOfItems_eq {ts : List Tree} (h : ∀ t ∈ ts, t.Ordinary) :
    effectsOfItems ts = (effectsOfEach ts).flatten := by
  induction ts with
  | nil => simp [effectsOfItems, effectsOfEach]
  | cons t ts ih =>
    have ht := (h t List.mem_cons_self).ne_list
    rw [effectsOfItems, effectsOfEach, List.flatten_cons,
      ih fun s hs => h s (List.mem_cons_of_mem t hs)]
    exact ht

theorem foretell_entries {ks vs : List Tree} (hlength : ks.length = vs.length)
    (hk : ∀ t ∈ ks, Foretell t.encounters t.effects)
    (hv : ∀ t ∈ vs, Foretell t.encounters t.effects) :
    Foretell (Encounter.entries (encountersOfEach ks) (encountersOfEach vs))
      (Effect.entries (effectsOfEach ks) (effectsOfEach vs)) := by
  induction ks generalizing vs with
  | nil => simpa [encountersOfEach, effectsOfEach, Encounter.entries, Effect.entries] using .nil
  | cons k ks ih =>
    cases vs with
    | nil => cases hlength
    | cons v vs =>
      simp only [List.forall_mem_cons] at hk hv
      simp only [encountersOfEach, effectsOfEach, Encounter.entries, Effect.entries]
      exact hv.1.append (hk.1.append (ih (by simpa using hlength) hk.2 hv.2))

/-! ### Trees that are read -/

section
variable {indexed : Bool} {r : Role} {c : Context} {t : Tree} {ts : List Tree}

@[simp] theorem required_list (cls field : String) : (list ts).required cls field = [] := rfl

theorem Fits.required (h : t.Fits indexed r) (cls field : String) : t.required cls field = [] := by
  cases h <;> rfl

theorem Whole.required (h : t.Whole) (cls field : String) : t.required cls field = [] := by
  cases t with
  | missing => simp only [Whole] at h
  | _ => rfl

theorem wholeItems_iff_forall : WholeItems ts ↔ ∀ t ∈ ts, t.Whole := by
  simp [Grammar.allWhole_list]

/-- A target is a name, or the visit stops at it. -/
theorem Fits.foretell_target (h : t.Fits indexed (.expression c)) {cs : List Encounter}
    {es : List Effect} (hrest : Foretell cs es) :
    Foretell (.target t :: cs) (t.identified :: es) := by
  cases h with
  | name id c => exact .cons rfl (.effect rfl hrest)
  | other hcls hfields =>
    rw [identified, identifier, hfields]
    exact .refuse rfl
  | _ => exact .refuse rfl

theorem Fits.foretell_targets (h : ∀ t ∈ ts, t.Fits indexed (.expression c)) :
    Foretell (ts.map .target) (ts.map identified) := by
  induction ts with
  | nil => exact .nil
  | cons t ts ih =>
    rw [List.forall_mem_cons] at h
    exact h.1.foretell_target (ih h.2)

/-- A list of nodes that is visited as a whole. -/
theorem Fits.foretell_block (hfits : ∀ t ∈ ts, t.Fits indexed r)
    (h : ∀ t ∈ ts, Foretell t.encounters t.effects) :
    Foretell (list ts).encounters (list ts).effects := by
  rw [encounters, effects, effectsOfItems_eq fun t ht => (hfits t ht).ordinary]
  exact foretell_each h

/-- Where a tree that fits a place and is whole has a fault is where something is not accepted. What
is deleted is never visited. -/
theorem Fits.foretell (h : t.Fits indexed r) (hwhole : t.Whole) (hr : r ≠ .expression .del) :
    Foretell t.encounters t.effects := by
  induction h with
  | leaf v =>
    simp only [encounters, effects]
    exact .refuse rfl
  | module _ ih | interactive _ ih =>
    simp only [Whole, wholeItems_iff_forall] at hwhole
    simp only [encounters, effects, effectParts, required_list, List.nil_append]
    exact .cons rfl (foretell_each fun s hs => ih s hs (hwhole s hs) (by simp))
  | expr hvalue ih =>
    simp only [Whole] at hwhole
    simp only [encounters, effects, hvalue.required, List.nil_append]
    exact .cons rfl (ih hwhole (by simp))
  | @assign targets _ _ hvalue iht ihv =>
    simp only [Whole, wholeItems_iff_forall] at hwhole
    obtain ⟨hne, htargets, hv⟩ := hwhole
    have htruthy : (list targets).truthy = true := by
      cases targets with
      | nil => exact absurd rfl hne
      | cons => rfl
    simp only [encounters, effects, effectParts, sliced, htruthy, if_true,
      hvalue.required, required_list, List.nil_append]
    refine .cons rfl ((ihv hv (by simp)).append ?_)
    exact foretell_each fun t ht => iht t ht (htargets t ht) (by simp)
  | augAssign htarget hop hvalue _ iho ihv =>
    simp only [Whole] at hwhole
    simp only [encounters, effects, htarget.required, hop.required, hvalue.required,
      List.nil_append]
    refine .cons rfl (htarget.foretell_target ?_)
    exact (ihv hwhole.2.2 (by simp)).append (iho hwhole.2.1 (by simp))
  | delete htargets _ =>
    simp only [encounters, effects, required_list, List.nil_append]
    exact .cons rfl (foretell_targets htargets)
  | pass =>
    simp only [encounters, effects]
    exact .cons rfl .nil
  | ifStmt htest hbody horelse iht ihb iho =>
    simp only [Whole, wholeItems_iff_forall] at hwhole
    have hb := foretell_block hbody fun s hs => ihb s hs (hwhole.2.1 s hs) (by simp)
    have ho := foretell_block horelse fun s hs => iho s hs (hwhole.2.2 s hs) (by simp)
    rw [encounters, effects, htest.required, required_list, required_list]
    exact .cons rfl ((iht hwhole.1 (by simp)).append (hb.append ho))
  | ifExp htest hbody horelse iht ihb iho =>
    simp only [Whole] at hwhole
    simp only [encounters, effects, htest.required, hbody.required, horelse.required,
      List.nil_append]
    refine .cons rfl ((iht hwhole.1 (by simp)).append ?_)
    exact (ihb hwhole.2.1 (by simp)).append (iho hwhole.2.2 (by simp))
  | whileLoop orelse htest hbody iht ihb =>
    simp only [Whole, wholeItems_iff_forall] at hwhole
    have hb := foretell_block hbody fun s hs => ihb s hs (hwhole.2.1 s hs) (by simp)
    rw [encounters, effects, htest.required, required_list]
    exact .cons rfl ((iht hwhole.1 (by simp)).append hb)
  | forLoop orelse htarget hiter hbody iht ihi ihb =>
    simp only [Whole, wholeItems_iff_forall] at hwhole
    have hb := foretell_block hbody fun s hs => ihb s hs (hwhole.2.2.1 s hs) (by simp)
    rw [encounters, effects, hwhole.2.2.2.required, htarget.required, hiter.required,
      required_list, List.nil_append]
    cases helse : orelse.truthy with
    | true => exact .refuse (by simp [Encounter.accepted, helse])
    | false =>
      refine .cons (by simp [Encounter.accepted, helse]) ((ihi hwhole.2.1 (by simp)).append ?_)
      exact (iht hwhole.1 (by simp)).append hb
  | name id c =>
    simp only [encounters, effects]
    refine .cons rfl (.effect rfl ?_)
    cases c with
    | load | store => exact .nil
    | del => exact absurd rfl hr
  | constant v =>
    simp only [Whole] at hwhole
    simp only [encounters, effects]
    refine .cons rfl (.effect ?_ .nil)
    simp [Effect.fault?, Value.checkKey_eq_ok.2 hwhole]
  | tuple _ ih =>
    simp only [Whole, wholeItems_iff_forall] at hwhole
    simp only [encounters, effects, effectParts, required_list, List.nil_append]
    exact .cons rfl (foretell_each fun e he => ih e he (hwhole.2.1 e he) hr)
  | listDisplay _ ih =>
    simp only [Whole, wholeItems_iff_forall] at hwhole
    simp only [encounters, effects, effectParts, required_list, List.nil_append]
    exact .cons rfl (foretell_each fun e he => ih e he (hwhole.1 e he) hr)
  | setDisplay _ ih =>
    simp only [Whole, wholeItems_iff_forall] at hwhole
    simp only [encounters, effects, effectParts, required_list, List.nil_append]
    exact .cons rfl (foretell_each fun e he => ih e he (hwhole e he) hr)
  | @dictDisplay keys values hlength _ _ ihk ihv =>
    simp only [Whole, wholeItems_iff_forall] at hwhole
    have hentries := foretell_entries hlength
      (fun e he => ihk e he (hwhole.1 e he) hr) fun e he => ihv e he (hwhole.2 e he) hr
    simp only [encounters, encounterParts, effects, effectsAt, countable, subscripted, count?,
      required_list, List.nil_append]
    cases keys with
    | nil => exact .cons rfl hentries
    | cons => exact .cons rfl hentries
  | binOp hleft hop hright ihl iho ihr =>
    simp only [Whole] at hwhole
    simp only [encounters, effects, hleft.required, hop.required, hright.required, List.nil_append]
    refine .cons rfl ((ihl hwhole.1 hr).append ?_)
    exact (ihr hwhole.2.2 hr).append (iho hwhole.2.1 (by simp))
  | unaryOp hop hoperand iho ihx =>
    simp only [Whole] at hwhole
    simp only [encounters, effects, hop.required, hoperand.required, List.nil_append]
    exact .cons rfl ((ihx hwhole.2 hr).append (iho hwhole.1 (by simp)))
  | subscript hvalue hslice ihv ihs =>
    simp only [Whole] at hwhole
    simp only [encounters, effects, hvalue.required, hslice.required, List.nil_append]
    refine .cons rfl ((ihv hwhole.1 (by simp)).append (ihs hwhole.2.1 ?_))
    cases indexed <;> simp [Role.ofIndex]
  | index hvalue ih =>
    simp only [Whole] at hwhole
    simp only [encounters, effects, hvalue.required, List.nil_append]
    exact .cons rfl (ih hwhole (by simp))
  | call keywords hfunc hargs ihf iha =>
    simp only [Whole, wholeItems_iff_forall] at hwhole
    have ha := foretell_block hargs fun e he => iha e he (hwhole.2.1 e he) hr
    rw [encounters, effects, hfunc.required, required_list, countable, count?, List.append_nil]
    exact .cons rfl ((ihf hwhole.1 hr).append ha)
  | binaryOperator | unaryOperator =>
    simp only [encounters, effects]
    exact .cons rfl .nil
  | other hcls _ =>
    simp only [encounters, effects, beq_iff_eq, hcls, if_false]
    exact .refuse rfl

end

/-- Visiting a tree from an empty assembler ends with the fault that its effects end with. -/
theorem emit_ends (t : Tree) : faultOf? (outcome t.emit {}).1 = Effect.end? t.effects :=
  (emit_enacts t {} (by simp [Assembler.Fresh]) (by simp [Assembler.Unlabelled])).1

end Tree

namespace Encounter

/-- Whether this is a loop over items with an else part. -/
def hasElse : Encounter → Bool
  | .node (.forLoop _ _ _ orelse) => orelse.truthy
  | _ => false

theorem errorClass_fault {c : Encounter} (h : c.accepted = false) :
    c.fault.errorClass = if c.hasElse then .assertionError else .attributeError := by
  cases c with
  | target t => rfl
  | node t =>
    cases t with
    | forLoop _ _ _ orelse =>
      have helse : orelse.truthy = true := by simpa [accepted] using h
      rw [hasElse, helse]
      rfl
    | _ => rfl

theorem refused?_eq_none {cs : List Encounter} :
    refused? cs = none ↔ ∀ c ∈ cs, c.accepted = true := by
  simp [refused?]

theorem refused?_append_cons {c : Encounter} {before : List Encounter} (after : List Encounter)
    (hbefore : ∀ d ∈ before, d.accepted = true) (hc : c.accepted = false) :
    refused? (before ++ c :: after) = some c := by
  rw [refused?, List.find?_append, List.find?_eq_none.2 (by simpa using hbefore)]
  simp [hc]

end Encounter

namespace Tree

/-- Of the trees that are read, wrapped or not, exactly those can be visited in which all that the
visit comes to is accepted. A visit of any other stops at the first node or target that is not, with
a failed assertion if that is a loop over items with an else part and with a missing attribute
otherwise. -/
theorem visit_accepts_iff {mode : Mode} {text : String} {t₀ t : Tree}
    (hread : read mode text = .ok t₀) (ht : t = t₀ ∨ t = t₀.wrapIndices) :
    ((∃ a, outcome t.emit {} = (.ok (), a)) ↔ ∀ c ∈ t.encounters, c.accepted = true) ∧
    ∀ before c after, t.encounters = before ++ c :: after →
      (∀ d ∈ before, d.accepted = true) → c.accepted = false →
      (∃ a, outcome t.emit {} = (.error c.fault, a)) ∧
      c.fault.errorClass = if c.hasElse then .assertionError else .attributeError := by
  have hends : Effect.end? t.effects = (Encounter.refused? t.encounters).map Encounter.fault := by
    obtain rfl | rfl := ht
    · exact (read_fits hread).foretell (read_whole hread) (by simp)
    · exact (read_fits hread).wrapIndices.foretell (read_whole hread).wrapIndices (by simp)
  rw [← emit_ends] at hends
  rcases hout : outcome t.emit {} with ⟨result, a⟩
  rw [hout] at hends
  constructor
  · rw [← Encounter.refused?_eq_none, ← Option.map_eq_none_iff, ← hends]
    cases result <;> simp
  · intro before c after hsplit hbefore hc
    refine ⟨⟨a, ?_⟩, Encounter.errorClass_fault hc⟩
    rw [hsplit, Encounter.refused?_append_cons after hbefore hc] at hends
    cases result with
    | ok _ => cases hends
    | error f =>
      cases hends
      rfl

/-- An else part, before and after other things that are not accepted. -/
def loopsWithElse : String :=
  "while x:\n    pass\nelse:\n    x @ x\nfor y in f(x[0], end=a.b):\n    x @ y\nelse:\n    pass"

theorem visit_accepts_iff_loopsWithElse :
    ∃ t, read .program loopsWithElse = .ok t ∧
      ∃ f a, outcome t.wrapIndices.emit {} = (.error f, a) ∧ f.errorClass = .assertionError := by
  obtain ⟨t, hread, hrefused⟩ : ∃ t, read .program loopsWithElse = .ok t ∧
      (Encounter.refused? t.wrapIndices.encounters).any Encounter.hasElse = true := by
    decide +kernel
  obtain ⟨c, hc, helse⟩ := (Option.any_eq_true _ _).1 hrefused
  obtain ⟨hrefuse, before, after, hsplit, hbefore⟩ := List.find?_eq_some_iff_append.1 hc
  obtain ⟨⟨a, hout⟩, herror⟩ := (visit_accepts_iff hread (.inr rfl)).2 before c after hsplit
    (by simpa using hbefore) (by simpa using hrefuse)
  exact ⟨t, hread, c.fault, a, hout, by rw [herror, helse, if_pos rfl]⟩

end Tree
end Stackwise
