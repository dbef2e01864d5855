/-!
# Digits

Runs of digits, and the numbers they write.
-/
namespace Stackwise.Text

/-- Digits up to the first character that is none, without the underscores between them. -/
def digitRun (isDigit : Char → Bool) : List Char → List Char → Option (List Char × List Char)
  | acc, [] => some (acc.reverse, [])
  | acc, '_' :: c :: r => if isDigit c then digitRun isDigit (c :: acc) r else none
  | _, ['_'] => none
  | acc, c :: r =>
    if isDigit c then digitRun isDigit (c :: acc) r else some (acc.reverse, c :: r)

/-- The value of a letter or digit as a digit. -/
def digitOf (c : Char) : Nat :=
  if c.isDigit then c.toNat - '0'.toNat
  else if c.isLower then c.toNat - 'a'.toNat + 10
  else if c.isUpper then c.toNat - 'A'.toNat + 10
  else 36

/-- The number that digits write in a base. -/
def natOf (base : Nat) (digits : List Char) : Nat :=
  digits.foldl (fun n c => n * base + digitOf c) 0

/-- The digits after a point. -/
def readFraction : List Char → Option (List Char × List Char)
  | c :: r => if c.isDigit then digitRun Char.isDigit [] (c :: r) else some ([], c :: r)
  | [] => some ([], [])

end Stackwise.Text
