import Std.Data.HashMap
import Stackwise.Text.Compatible
import Stackwise.Text.Composite

/-!
# Normal forms of names

Names that look alike are one name: a name stands for its normal form, in which compatible
characters are replaced, marks are in order, and characters with marks are composed. Syllables of
Hangul are composed by arithmetic, everything else by tables.
-/
namespace Stackwise.Text

/-- What a character stands for in plain text. -/
def compatible : Std.HashMap Nat (List Nat) :=
  let runs := (tableRows compatibleRunTable).flatMap fun row =>
    match row with
    | [first, size, target] => (List.range size).map fun i => (first + i, [target + i])
    | _ => []
  let several := (tableRows ligatureTable).filterMap fun row =>
    match row with
    | c :: parts => some (c, parts)
    | [] => none
  Std.HashMap.ofList (runs ++ several)

/-- The two parts of a composite character. -/
def parts : Std.HashMap Nat (Nat × Nat) :=
  Std.HashMap.ofList ((tableRows compositeTable).filterMap fun row =>
    match row with
    | [c, a, b] => some (c, a, b)
    | _ => none)

/-- The composite character of two parts. -/
def composites : Std.HashMap (Nat × Nat) Nat :=
  Std.HashMap.ofList (parts.toList.map fun (c, p) => (p, c))

/-- The classes of marks. -/
def markClasses : Std.HashMap Nat Nat :=
  Std.HashMap.ofList ((tableRows markTable).flatMap fun row =>
    match row with
    | [first, last, cls] => (List.range (last + 1 - first)).map fun i => (first + i, cls)
    | _ => [])

/-- The class of a mark; zero for characters that are no marks. -/
def markClass (c : Nat) : Nat := markClasses.getD c 0

namespace Hangul

def firstSyllable : Nat := 0xAC00
def syllableCount : Nat := 11172
def firstLead : Nat := 0x1100
def leadCount : Nat := 19
def firstVowel : Nat := 0x1161
def vowelCount : Nat := 21
/-- One below the first final consonant, so that no final consonant counts as zero. -/
def finalBase : Nat := 0x11A7
def finalCount : Nat := 28

/-- The letters of a syllable. -/
def letters? (c : Nat) : Option (List Nat) :=
  if c < firstSyllable || firstSyllable + syllableCount ≤ c then none
  else
    let i := c - firstSyllable
    let lead := firstLead + i / (vowelCount * finalCount)
    let vowel := firstVowel + i / finalCount % vowelCount
    some (if i % finalCount = 0 then [lead, vowel] else [lead, vowel, finalBase + i % finalCount])

/-- The syllable of a consonant and a vowel, or of a syllable and a final consonant. -/
def syllable? (a b : Nat) : Option Nat :=
  if firstLead ≤ a && a < firstLead + leadCount
      && firstVowel ≤ b && b < firstVowel + vowelCount then
    some (firstSyllable + ((a - firstLead) * vowelCount + (b - firstVowel)) * finalCount)
  else if firstSyllable ≤ a && a < firstSyllable + syllableCount
      && (a - firstSyllable) % finalCount = 0 && finalBase < b && b < finalBase + finalCount then
    some (a + (b - finalBase))
  else none

end Hangul

/-- Take a character apart, down to a depth. -/
def expand : Nat → Nat → List Nat
  | 0, c => [c]
  | depth + 1, c =>
    match compatible[c]?, Hangul.letters? c, parts[c]? with
    | some cs, _, _ => cs.flatMap (expand depth)
    | none, some cs, _ => cs
    | none, none, some (a, b) => expand depth a ++ expand depth b
    | none, none, none => [c]

/-- Add a character to a reversed text, a mark behind the marks of its own and lower classes. -/
def insertMark : List Nat → Nat → List Nat
  | [], c => [c]
  | p :: acc, c =>
    if 0 < markClass c && markClass c < markClass p then p :: insertMark acc c else c :: p :: acc

/-- Compose a text that begins with `base`. `marks` stand between it and the rest, the last of them
first, and did not compose. -/
def composeFrom (base : Nat) (marks : List Nat) : List Nat → List Nat
  | [] => base :: marks.reverse
  | c :: r =>
    let reaches := marks.head?.all fun m => decide (markClass m < markClass c)
    let composite := (Hangul.syllable? base c).or composites[(base, c)]?
    match reaches, composite with
    | true, some d => composeFrom d marks r
    | _, _ =>
      if markClass c = 0 then base :: marks.reverse ++ composeFrom c [] r
      else composeFrom base (c :: marks) r

/-- Compose a text. -/
def compose : List Nat → List Nat
  | [] => []
  | c :: r => if markClass c = 0 then composeFrom c [] r else c :: compose r

/-- Characters are taken apart in fewer steps than this. -/
def maxExpansion : Nat := 8

/-- The normal form of a name. -/
def normalName (s : String) : String :=
  if s.toList.all fun c => c.toNat < 128 then s
  else
    let apart := s.toList.flatMap fun c => expand maxExpansion c.toNat
    String.ofList ((compose (apart.foldl insertMark []).reverse).map Char.ofNat)

end Stackwise.Text
