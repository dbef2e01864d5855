import Stackwise.Proofs.DraftInduction
import Stackwise.Proofs.Layout
import Stackwise.Proofs.Shape

/-!
# The table of names

Compiling goes through a program and puts every name that it comes across into a table. `Draft.Adds`
says which names a draft adds; for a tree that is read they are those it mentions, each of them once
(`Tree.Fits.adds`). What is not gone through can be seen from the table: the part of a loop that
follows a failed condition and the keywords of a call have no instructions, and the names in them
are missing unless they are also somewhere else: `Tree.compile_names`.
-/
namespace Stackwise

/-! ### Tables -/

/-- A table of names that are texts, each of them once. -/
def Name.IsTable (names : Array Name) : Prop :=
  names.toList.Nodup ∧ ∀ n ∈ names, ∃ s, n = .text s

/-- A table has some names besides those it had before. -/
def Name.Adds (ns : List Name) (before after : Array Name) : Prop :=
  IsTable before → IsTable after ∧ ∀ n, n ∈ after ↔ n ∈ before ∨ n ∈ ns

theorem Name.Adds.refl (names : Array Name) : Adds [] names names :=
  fun h => ⟨h, fun n => by simp⟩

theorem Name.Adds.trans {ns ms : List Name} {a b c : Array Name} (h : Adds ns a b)
    (h' : Adds ms b c) : Adds (ns ++ ms) a c := by
  intro ha
  obtain ⟨hb, mem⟩ := h ha
  obtain ⟨hc, mem'⟩ := h' hb
  exact ⟨hc, fun n => by rw [mem', mem, List.mem_append, or_assoc]⟩

/-- A draft adds names to the table. -/
def Draft.Adds (ns : List Name) (d : Draft (List Line)) : Prop :=
  ∀ p ls q, d p = some (ls, q) → Name.Adds ns p.names q.names

namespace Draft

/-- A text gets an entry in the table if it has none. -/
theorem addName_adds {s : String} {p q : Pool} {i : Nat}
    (h : addName (.text s) p = some (i, q)) : Name.Adds [.text s] p.names q.names := by
  rintro ⟨nodup, texts⟩
  obtain ⟨-, ⟨hi, rfl⟩ | ⟨hnone, -, rfl⟩⟩ := addName_eq_some.1 h
  · obtain ⟨hlt, hbeq, -⟩ := List.findIdx?_eq_some_iff_getElem.1 hi
    have hmem : q.names.toList[i] ∈ q.names := by simp
    rw [Name.beq_text_iff.1 hbeq] at hmem
    refine ⟨⟨nodup, texts⟩, fun n => ⟨.inl, ?_⟩⟩
    rintro (hn | hn)
    · exact hn
    · rwa [List.mem_singleton.1 hn]
  · rw [List.findIdx?_eq_none_iff] at hnone
    have hnew : Name.text s ∉ p.names.toList := fun hmem => by
      have hfalse : (s == s) = false := hnone _ hmem
      simp at hfalse
    refine ⟨⟨?_, ?_⟩, ?_⟩
    · rw [Array.toList_push, List.nodup_append]
      refine ⟨nodup, by simp, ?_⟩
      rintro n hn m hm rfl
      exact hnew (List.mem_singleton.1 hm ▸ hn)
    · simpa [or_imp, forall_and] using texts
    · simp

namespace Adds

variable {ns ms ks : List Name} {d e f : Draft (List Line)}

theorem failure : Adds ns failure := nofun

theorem congr (h : Adds ns d) (hmem : ∀ n, n ∈ ns ↔ n ∈ ms) : Adds ms d := by
  intro p ls q hd hp
  obtain ⟨hq, mem⟩ := h p ls q hd hp
  exact ⟨hq, fun n => by rw [mem, hmem]⟩

theorem lines (ls : List Line) : Adds [] (lines ls) := by
  intro p ms q h
  obtain ⟨-, rfl⟩ := lines_eq_some.1 h
  exact .refl _

theorem join (hd : Adds ns d) (he : Adds ms e) : Adds (ns ++ ms) (d ++ e) := by
  intro p ls q h
  obtain ⟨ds, es, r, hds, hes, rfl⟩ := join_eq_some.1 h
  exact (hd _ _ _ hds).trans (he _ _ _ hes)

/-- Lines that follow make no difference. -/
theorem before (hd : Adds ns d) (ls : List Line) : Adds ns (d ++ Draft.lines ls) := by
  simpa using hd.join (lines ls)

theorem counted (hd : Adds ns d) (op : Opcode) (isPlain : op.isPlain = true) (n? : Option Nat) :
    Adds ns (d ++ Draft.counted op isPlain n?) := by
  cases n? with
  | some n => exact hd.before _
  | none =>
    have hfails : Adds [] (Draft.counted op isPlain none) := failure
    simpa using hd.join hfails

theorem const (v : Value) : Adds [] (do let i ← addConst v; Draft.lines [.const i v]) := by
  intro p ls q h
  obtain ⟨i, r, hi, hl⟩ := bind_eq_some.1 h
  obtain ⟨-, rfl⟩ := lines_eq_some.1 hl
  obtain ⟨-, ⟨-, rfl⟩ | ⟨-, -, rfl⟩⟩ := addConst_eq_some.1 hi
  · exact .refl _
  · exact .refl _

theorem useName (use : NameUse) (s : String) : Adds [.text s] (useName use (.text s)) := by
  intro p ls q h
  obtain ⟨i, r, hi, hl⟩ := bind_eq_some.1 h
  obtain ⟨-, rfl⟩ := lines_eq_some.1 hl
  exact addName_adds hi

theorem update (s : String) (hd : Adds ns d) (he : Adds ms e) :
    Adds ([Name.text s] ++ (ns ++ ms)) (update (some (.text s)) d e) := by
  intro p ls q h
  obtain ⟨i, r, ds, es, p₁, hi, hds, hes, rfl⟩ := update_eq_some.1 h
  exact (addName_adds hi).trans ((hd _ _ _ hds).trans (he _ _ _ hes))

theorem conditional (hd : Adds ns d) (he : Adds ms e) (hf : Adds ks f) :
    Adds (ns ++ ms ++ ks) (conditional d e f) := by
  intro p ls q h
  obtain ⟨ds, es, fs, p₁, p₂, hds, hes, hfs, rfl⟩ := conditional_eq_some.1 h
  exact ((hd _ _ _ hds).trans (he _ _ _ hes)).trans (hf _ _ _ hfs)

theorem whileLoop (hd : Adds ns d) (he : Adds ms e) : Adds (ns ++ ms) (whileLoop d e) := by
  intro p ls q h
  obtain ⟨ds, es, p₁, hds, hes, rfl⟩ := whileLoop_eq_some.1 h
  exact (hd _ _ _ hds).trans (he _ _ _ hes)

theorem forLoop (hd : Adds ns d) (he : Adds ms e) (hf : Adds ks f) :
    Adds (ns ++ ms ++ ks) (forLoop d e f) := by
  intro p ls q h
  obtain ⟨ds, es, fs, p₁, p₂, hds, hes, hfs, rfl⟩ := forLoop_eq_some.1 h
  exact ((hd _ _ _ hds).trans (he _ _ _ hes)).trans (hf _ _ _ hfs)

end Adds
end Draft

/-! ### Names in trees -/

namespace Tree

mutual
/-- The names that stand in a tree, in the whole of it or only where there are instructions: not in
the part of a loop that follows a failed condition, nor in the keywords of a call. -/
def mentions (whole : Bool) : Tree → List Name
  | .missing | .leaf _ | .pass | .constant _ | .binaryOperator _ | .unaryOperator _ => []
  | .context _ => []
  | .list items => mentionsOf whole items
  | .module body | .interactive body => mentions whole body
  | .expr value | .index value | .sealedIndex value => mentions whole value
  | .assign targets value => mentions whole value ++ mentions whole targets
  | .augAssign target op value =>
    mentions whole target ++ (mentions whole value ++ mentions whole op)
  | .delete targets => mentions whole targets
  | .ifStmt test body orelse | .ifExp test body orelse =>
    mentions whole test ++ mentions whole body ++ mentions whole orelse
  | .whileLoop test body orelse =>
    mentions whole test ++ mentions whole body ++ if whole then mentions whole orelse else []
  | .forLoop target iter body orelse =>
    mentions whole iter ++ mentions whole target ++ mentions whole body ++ mentions whole orelse
  | .name id _ => nameIn id
  | .tuple elts _ | .listDisplay elts _ | .setDisplay elts => mentions whole elts
  | .dictDisplay keys values => mentions whole keys ++ mentions whole values
  | .binOp left op right => mentions whole left ++ mentions whole right ++ mentions whole op
  | .unaryOp op operand => mentions whole operand ++ mentions whole op
  | .subscript value slice _ => mentions whole value ++ mentions whole slice
  | .call func args keywords =>
    mentions whole func ++ mentions whole args ++ if whole then mentions whole keywords else []
  | .extended _ note node => mentions whole note ++ mentions whole node
  | .other _ fields => mentionsIn whole fields
/-- The names in several trees. -/
def mentionsOf (whole : Bool) : List Tree → List Name
  | [] => []
  | t :: ts => mentions whole t ++ mentionsOf whole ts
/-- The names in fields. -/
def mentionsIn (whole : Bool) : List (String × Tree) → List Name
  | [] => []
  | (_, t) :: fs => mentions whole t ++ mentionsIn whole fs
end

mutual
theorem mentions_sublist : ∀ t : Tree, (t.mentions false).Sublist (t.mentions true)
  | .missing | .leaf _ | .pass | .constant _ | .binaryOperator _ | .unaryOperator _
  | .context _ => .slnil
  | .name _ _ => .refl _
  | .list items => mentionsOf_sublist items
  | .module t | .interactive t | .expr t | .index t | .sealedIndex t | .delete t
  | .setDisplay t | .tuple t _ | .listDisplay t _ => mentions_sublist t
  | .assign s t | .unaryOp s t => (mentions_sublist t).append (mentions_sublist s)
  | .dictDisplay s t | .subscript s t _ | .extended _ s t =>
    (mentions_sublist s).append (mentions_sublist t)
  | .augAssign target op value =>
    (mentions_sublist target).append ((mentions_sublist value).append (mentions_sublist op))
  | .ifStmt s t u | .ifExp s t u | .binOp s u t =>
    ((mentions_sublist s).append (mentions_sublist t)).append (mentions_sublist u)
  | .whileLoop s t _ | .call s t _ =>
    ((mentions_sublist s).append (mentions_sublist t)).append (List.nil_sublist _)
  | .forLoop target iter body orelse =>
    (((mentions_sublist iter).append (mentions_sublist target)).append
      (mentions_sublist body)).append (mentions_sublist orelse)
  | .other _ fields => mentionsIn_sublist fields
theorem mentionsOf_sublist : ∀ ts : List Tree, (mentionsOf false ts).Sublist (mentionsOf true ts)
  | [] => .slnil
  | t :: ts => (mentions_sublist t).append (mentionsOf_sublist ts)
theorem mentionsIn_sublist :
    ∀ fs : List (String × Tree), (mentionsIn false fs).Sublist (mentionsIn true fs)
  | [] => .slnil
  | (_, t) :: fs => (mentions_sublist t).append (mentionsIn_sublist fs)
end

theorem concat_map_adds {ts : List Tree} {f : Tree → Draft (List Line)}
    (h : ∀ t ∈ ts, Draft.Adds (t.mentions false) (f t)) :
    Draft.Adds (mentionsOf false ts) (Draft.concat (ts.map f)) := by
  induction ts with
  | nil => exact .lines []
  | cons t ts ih =>
    rw [List.forall_mem_cons] at h
    exact h.1.join (ih h.2)

section
variable {ts : List Tree} (h : ∀ t ∈ ts, Draft.Adds (t.mentions false) t.draft)
include h

theorem concat_adds : Draft.Adds (mentionsOf false ts) (Draft.concat (draftEach ts)) := by
  rw [draftEach_eq_map]
  exact concat_map_adds h

theorem targets_adds : Draft.Adds (mentionsOf false ts) (Draft.targets (draftEach ts)) := by
  induction ts with
  | nil => exact .lines []
  | cons t ts ih =>
    rw [List.forall_mem_cons] at h
    cases ts with
    | nil => simpa [mentionsOf, draftEach, Draft.targets] using h.1
    | cons s ts =>
      have copy := Draft.Adds.lines [.plain .dupTop 0 rfl]
      exact (copy.join h.1).join (ih h.2)

/-- A block lists its statements one after the other. -/
theorem block_adds {indexed : Bool} {r : Role} (hts : ∀ t ∈ ts, t.Fits indexed r) :
    Draft.Adds (mentionsOf false ts) (Tree.list ts).draft := by
  rw [draft, draftItems_eq_concat fun t ht => (hts t ht).ordinary.ne_list]
  exact concat_adds h

theorem entries_adds {vs : List Tree} (hvs : ∀ t ∈ vs, Draft.Adds (t.mentions false) t.draft)
    (hlength : ts.length = vs.length) :
    Draft.Adds (mentionsOf false ts ++ mentionsOf false vs)
      (Draft.entries (draftEach ts) (draftEach vs)) := by
  induction ts generalizing vs with
  | nil =>
    obtain rfl : vs = [] := List.length_eq_zero_iff.1 hlength.symm
    exact .lines []
  | cons k ks ih =>
    cases vs with
    | nil => cases hlength
    | cons v vs =>
      rw [List.forall_mem_cons] at h hvs
      have entry := (hvs.1.join h.1).join (ih h.2 hvs.2 (Nat.succ.inj hlength))
      refine entry.congr fun n => ?_
      simp only [mentionsOf, List.mem_append]
      grind

end

/-- Only a name has an identifier. -/
theorem Fits.identifier? {indexed : Bool} {c : Context} {t : Tree}
    (h : t.Fits indexed (.expression c)) :
    (∃ s ctx, t = .name (.leaf (.str s)) ctx) ∨ t.identifier? = none := by
  cases h with
  | name s c => exact .inl ⟨s, _, rfl⟩
  | other hcls hfields =>
    exact .inr (by simp [Tree.identifier?, identifier, hfields, Except.toOption])
  | _ => exact .inr rfl

theorem Fits.draftDelete_adds {indexed : Bool} {c : Context} {t : Tree}
    (h : t.Fits indexed (.expression c)) : Draft.Adds (t.mentions false) t.draftDelete := by
  rcases h.identifier? with ⟨s, ctx, rfl⟩ | hnone
  · exact .useName .delete s
  · rw [draftDelete, hnone]
    exact .failure

/-- There are no names in nothing. -/
theorem mentions_of_falsy {t : Tree} (h : (t.isPresent && !t.truthy) = true) :
    t.mentions false = [] := by
  cases t with
  | leaf v => rfl
  | list items =>
    obtain rfl : items = [] := by simpa [isPresent, truthy] using h
    rfl
  | _ => simp [isPresent, truthy] at h

/-- Code of a tree that is read adds the names that stand where there are instructions. -/
theorem Fits.adds {indexed : Bool} {r : Role} {t : Tree} (h : t.Fits indexed r) :
    Draft.Adds (t.mentions false) t.draft := by
  induction h with
  | leaf v => exact .failure
  | module _ ih => exact concat_adds ih
  | interactive _ ih => exact concat_adds ih
  | expr _ ih => exact ih.before _
  | assign _ _ iht ihv =>
    rw [draft]
    split
    · exact ihv.join (targets_adds iht)
    · exact .failure
  | augAssign htarget _ _ _ iho ihv =>
    rw [draft]
    rcases htarget.identifier? with ⟨s, ctx, rfl⟩ | hnone
    · exact .update s ihv iho
    · rw [hnone]
      exact .failure
  | delete htargets _ => exact concat_map_adds fun t ht => (htargets t ht).draftDelete_adds
  | pass => exact .lines []
  | ifStmt _ hbody horelse iht ihb iho =>
    exact .conditional iht (block_adds ihb hbody) (block_adds iho horelse)
  | ifExp _ _ _ iht ihb iho => exact .conditional iht ihb iho
  | whileLoop orelse _ hbody iht ihb =>
    simpa [mentions, draft] using Draft.Adds.whileLoop iht (block_adds ihb hbody)
  | forLoop orelse _ _ hbody iht ihi ihb =>
    rw [draft]
    split
    · next hnone =>
      have loop := Draft.Adds.forLoop ihi iht (block_adds ihb hbody)
      simpa [mentions, mentions_of_falsy hnone] using loop
    · exact .failure
  | name s c =>
    cases c with
    | load => exact .useName .load s
    | store => exact .useName .store s
    | del => exact .failure
  | constant v => exact .const v
  | tuple _ ih => exact (concat_adds ih).counted _ _ _
  | listDisplay _ ih => exact (concat_adds ih).counted _ _ _
  | setDisplay _ ih => exact (concat_adds ih).counted _ _ _
  | @dictDisplay keys values hlength _ _ ihk ihv =>
    refine Draft.Adds.counted ?_ _ _ _
    split
    · next hcount =>
      obtain rfl : keys = [] := by simpa [count?] using hcount
      exact entries_adds ihk ihv hlength
    · exact entries_adds ihk ihv hlength
  | binOp _ _ _ ihl iho ihr => exact (ihl.join ihr).join iho
  | unaryOp _ _ iho ih => exact ih.join iho
  | subscript _ _ ihv ihs => exact ihv.join ihs
  | index _ ih => exact ih.before _
  | call keywords _ hargs ihf iha =>
    simpa [mentions, draft] using (ihf.join (block_adds iha hargs)).counted .callFunction rfl _
  | binaryOperator op => exact .lines _
  | unaryOperator op => exact .lines _
  | other hcls _ =>
    rw [draft, if_neg (by simpa using hcls)]
    exact .failure

/-- The names of a program that is read and compiled are, each of them once, those that stand where
there are instructions. So they are the names of the whole program exactly if every name in the part
of a loop that follows a failed condition, or in a keyword of a call, also stands elsewhere. -/
theorem compile_names {mode : Mode} {text : String} {t₀ t : Tree} {code : Code}
    (hread : read mode text = .ok t₀) (ht : t = t₀ ∨ t = t₀.wrapIndices)
    (hcode : t.compile = .ok code) :
    code.names.toList.Nodup ∧ (∀ n, n ∈ code.names ↔ n ∈ t.mentions false) ∧
      ((∀ n, n ∈ code.names ↔ n ∈ t.mentions true) ↔ t.mentions true ⊆ t.mentions false) := by
  have hadds : Draft.Adds (t.mentions false) t.draft := by
    rcases ht with rfl | rfl
    · exact (read_fits hread).adds
    · exact (read_fits hread).wrapIndices.adds
  obtain ⟨ls, p, hd, hls⟩ := compile_eq_ok.1 hcode
  obtain ⟨⟨nodup, -⟩, mem⟩ := hadds {} ls p hd ⟨by simp, by simp⟩
  have hmem : ∀ n, n ∈ code.names ↔ n ∈ t.mentions false := by simpa [hls.names] using mem
  refine ⟨hls.names ▸ nodup, hmem, fun hwhole n hn => ?_, fun hsubset n => ?_⟩
  · exact (hmem n).1 ((hwhole n).2 hn)
  · rw [hmem]
    exact ⟨fun hn => t.mentions_sublist.subset hn, fun hn => hsubset hn⟩

/-- Two names in parts without instructions, one of which stands elsewhere too. -/
def lossy : String := "while x:\n    x -= 1\nelse:\n    y\nprint(x, end=x)"

theorem compile_names_lossy :
    ∃ t code, read .program lossy = .ok t ∧ t.compile = .ok code ∧ code.names.toList.Nodup ∧
      (∀ n, n ∈ code.names ↔ n ∈ t.mentions false) ∧
      ¬∀ n, n ∈ code.names ↔ n ∈ t.mentions true := by
  obtain ⟨t, hread, ⟨code, hcode, -⟩, hthere, hmissing⟩ :
      ∃ t, read .program lossy = .ok t ∧ (∃ code, t.compile = .ok code ∧ 0 < code.size) ∧
        (t.mentions true).any (· == .text "y") = true ∧
        (t.mentions false).any (· == .text "y") = false := by
    decide +kernel
  obtain ⟨nodup, mem, whole_iff⟩ := compile_names hread (.inl rfl) hcode
  refine ⟨t, code, hread, hcode, nodup, mem, fun hwhole => ?_⟩
  obtain ⟨n, hn, hy⟩ := List.any_eq_true.1 hthere
  exact List.any_eq_false.1 hmissing n (whole_iff.1 hwhole hn) hy

end Tree

end Stackwise
