import Stackwise.Value.Basic

/-!
# Faults

Why a program fails: one constructor for each cause, with what the message needs to name. The
wording is in `Fault.message`, and the class of error that a program would see in
`Fault.errorClass`.
-/
namespace Stackwise

/-- Sequences that can be indexed past their end. -/
inductive Indexed where
  | list | tuple | str | bytes | range
  deriving DecidableEq, Repr

/-- Divisions by zero. -/
inductive ZeroDivision where
  | quotient | floor | remainder | floatQuotient | floatFloor | floatRemainder | floatPair | power
  | complexQuotient | complexPower
  deriving DecidableEq, Repr

/-- Results and arguments out of range. -/
inductive Overflow where
  | intToFloat | quotientToFloat | floatPower | infinityToInt | indexSize | shiftSize | textSize
  | bytesSize | complexPower | complexSize | charCode | sizeCode | wordCode | formatChar
  | roundedSize
  deriving DecidableEq, Repr

/-- Faults of text formatting. -/
inductive FormatFault where
  | tooFewArguments
  | tooManyArguments (kind : String)
  | wantsNumber (conversion : Char) (ty : String)
  | wantsInteger (conversion : Char) (ty : String)
  | wantsReal (ty : String)
  | wantsFloat (ty : String)
  | wantsChar
  | wantsByteChar
  | charRange
  | byteRange
  | incomplete
  | incompleteKey
  | unknownConversion (c : Char) (index : Nat)
  | wantsMapping
  | wantsStar
  | wantsBytes (ty : String)
  | widthRange
  | precisionRange
  /-- A layout for a class that has none. -/
  | noLayout (ty : String)
  | unknownCode (c : Char) (ty : String)
  | invalidLayout (spec : String) (ty : String)
  /-- A part of a layout that the kind of value does not take. -/
  | notAllowed (part : String) (kind : String)
  | withCharCode (part : String)
  | grouping (mark : Char) (code : Char)
  | bothGroupings
  | missingPrecision
  | tooManyDigits
  | complexZeroPadding
  | complexEqualsSign
  deriving DecidableEq, Repr

/-- Faults in the arguments of a call. -/
inductive CallFault where
  | exactlyOne (function : String) (given : Nat)
  | expected (function : String) (wanted given : Nat)
  | expectedAtLeast (function : String) (wanted given : Nat)
  | expectedAtMost (function : String) (wanted given : Nat)
  | takesAtMost (function : String) (wanted given : Nat)
  | takesAtLeastOne (function : String)
  | missing (function name : String) (position : Nat)
  | emptySequence (function : String)
  | invalidInt (base : Int) (shown : String)
  | invalidFloat (shown : String)
  | intArgument (ty : String)
  | intBaseText
  | intBaseRange
  | floatArgument (ty : String)
  | complexText
  | invalidComplex (shown : String)
  | complexFirst (ty : String)
  | complexSecond (ty : String)
  | complexSecondText
  | complexTextSecond
  | noRound (ty : String)
  | codePoint
  | characterLength (length : Nat)
  | wantsCharacter (ty : String)
  | zeroStep
  | bytesFrom (ty : String)
  | textNeedsEncoding
  | encodingWithoutText
  | negativeCount
  | textArgument (function name ty : String)
  | decodedText
  | decodedKind (ty : String)
  | unknownEncoding (name : String)
  | unknownHandler (name : String)
  | undecodable (codec : String) (first last : Nat) (byte : UInt8) (reason : String)
  | unencodable (codec : String) (first last : Nat) (c : Char) (limit : Nat)
  | entryNotSequence (index : Nat)
  | entryLength (index length : Nat)
  | notInteger (ty : String)
  | sumText
  | sumBytes
  | modulusKinds
  | modulusZero
  | modulusOperands (left right third : String)
  | notInvertible
  | complexModulo
  | classInfo
  | subclassFirst
  | subclassSecond
  | parameterizedClass (function : String)
  | notReversible (ty : String)
  | iterCallable
  | mapArguments
  | typeArguments
  | classArgument (position : Nat) (wanted ty : String)
  | layoutKind (ty : String)
  | quitArguments (given : Nat)
  | errorArguments (wanted given : Nat)
  | errorArgumentsLeast (wanted given : Nat)
  | errorArgumentsMost (wanted given : Nat)
  /-- An argument of an error that has to be a text. -/
  | errorText (position : Nat) (ty : String)
  | bytesLike (ty : String)
  | endOffset
  | writtenSize
  | groupArguments (cls : String) (given : Nat)
  | groupMessage (cls : String) (ty : String)
  | groupSequence
  | groupEmpty
  | groupItem (index : Nat)
  | groupNesting
  | takesNone (shown : String)
  | notCreatable (ty : String)
  | unusable (name : String)
  | sliceIndices
  | sliceStepZero
  deriving DecidableEq, Repr

/-- Why a program fails. -/
inductive Fault where
  -- reading a program
  | invalidProgram
  -- building code
  | noField (cls field : String)
  | noRule (cls : String)
  | noTarget
  | loopElse
  | strangeContext (shown : String)
  | labelTwice
  | unlabelled (marker : Nat)
  | byteRange
  -- the machine
  | emptyStack
  | noTop
  | noInstruction
  | noEntry
  | undefinedName (shown : String)
  | leftOver
  | endless
  | exit (code : Value)
  | outOfLines
  -- values
  | missingKey (key : Value)
  | missingNode (shown : String)
  | unhashable (ty : String)
  | notIterable (ty : String)
  | notIterator (ty : String)
  | notCallable (ty : String)
  | notSubscriptable (ty : String)
  | classNotSubscriptable (cls : String)
  | notGeneric (shown : String)
  | noLength (ty : String)
  | indexRange (what : Indexed)
  | indexKind (what : Indexed) (ty : String)
  | indexSize
  | exhausted
  | unordered (symbol left right : String)
  -- arithmetic
  | operands (symbol left right : String)
  /-- Something shifted into the printing function. -/
  | shiftedPrint (left right : String)
  | unaryOperand (symbol ty : String)
  | noAbs (ty : String)
  | concat (kind other : String)
  | concatBytes (other : String)
  | repeatBy (ty : String)
  | zeroDivision (d : ZeroDivision)
  | overflow (o : Overflow)
  | nanToInt
  | negativeShift
  | outOfMemory
  | tooManyDigits
  | tooManyDigitsIn (digits : Nat)
  -- text and calls
  | format (f : FormatFault)
  | call (c : CallFault)
  -- workloads
  | unexpectedKeyword (function keyword : String)
  deriving Inhabited

end Stackwise
