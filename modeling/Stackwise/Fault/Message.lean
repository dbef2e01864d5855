import Stackwise.Value.Show

/-!
# Wording of faults

`Fault.errorClass` is the class of error that a fault is, `Fault.message` its text.
-/
namespace Stackwise

/-- A text between single quotes, as it is. -/
def named (s : String) : String := "'" ++ s ++ "'"

/-- A text cut to a number of bytes. A character that is cut in two leaves a mark. -/
def clipped (limit : Nat) (s : String) : String := String.ofList (go limit s.toList)
where
  go : Nat → List Char → List Char
    | _, [] => []
    | n, c :: cs =>
      if n = 0 then [] else if c.utf8Size ≤ n then c :: go (n - c.utf8Size) cs else ['\uFFFD']

/-- The name of a class between single quotes, where messages cut it short. -/
def namedClass (s : String) : String := named (clipped 200 s)

/-- A count of arguments in words. -/
def countedArguments (n : Nat) : String :=
  decimalText n ++ (if n = 1 then " argument" else " arguments")

namespace Indexed

/-- The name of a sequence where an index is past its end. -/
def rangeText : Indexed → String
  | .list => "list index out of range"
  | .tuple => "tuple index out of range"
  | .str => "string index out of range"
  | .bytes => "index out of range"
  | .range => "range object index out of range"

/-- The text for an index of a wrong class. -/
def kindText (ty : String) : Indexed → String
  | .list => "list indices must be integers or slices, not " ++ ty
  | .tuple => "tuple indices must be integers or slices, not " ++ ty
  | .str => "string indices must be integers, not " ++ named ty
  | .bytes => "byte indices must be integers or slices, not " ++ ty
  | .range => "range indices must be integers or slices, not " ++ ty

end Indexed

def ZeroDivision.message : ZeroDivision → String
  | .quotient => "division by zero"
  | .floor => "integer division or modulo by zero"
  | .remainder => "integer modulo by zero"
  | .floatQuotient => "float division by zero"
  | .floatFloor => "float floor division by zero"
  | .floatRemainder => "float modulo"
  | .floatPair => "float divmod()"
  | .power => "0.0 cannot be raised to a negative power"
  | .complexQuotient => "complex division by zero"
  | .complexPower => "0.0 to a negative or complex power"

def Overflow.message : Overflow → String
  | .intToFloat => "int too large to convert to float"
  | .quotientToFloat => "integer division result too large for a float"
  | .floatPower => "(34, 'Numerical result out of range')"
  | .infinityToInt => "cannot convert float infinity to integer"
  | .indexSize => "cannot fit 'int' into an index-sized integer"
  | .shiftSize => "too many digits in integer"
  | .textSize => "repeated string is too long"
  | .bytesSize => "repeated bytes are too long"
  | .complexPower => "complex exponentiation"
  | .complexSize => "absolute value too large"
  | .charCode => "Python int too large to convert to C int"
  | .sizeCode => "Python int too large to convert to C ssize_t"
  | .wordCode => "Python int too large to convert to C long"
  | .roundedSize => "rounded value too large to represent"
  | .formatChar => "%c arg not in range(0x110000)"

/-- A letter of a template or layout in a message, by its number if it cannot be printed. -/
def codeText (c : Char) : String :=
  if 32 < c.toNat && c.toNat < 128 then String.singleton c else "\\x" ++ Text.hexText c.toNat 1

namespace FormatFault

def errorClass : FormatFault → ErrorClass
  | .tooFewArguments | .tooManyArguments _ | .wantsNumber _ _ | .wantsInteger _ _ | .wantsReal _
  | .wantsFloat _ | .wantsChar | .wantsByteChar | .wantsMapping | .wantsStar | .wantsBytes _
  | .noLayout _ => .typeError
  | .charRange | .byteRange => .overflowError
  | _ => .valueError

def message : FormatFault → String
  | .tooFewArguments => "not enough arguments for format string"
  | .tooManyArguments kind => "not all arguments converted during " ++ kind ++ " formatting"
  | .wantsNumber c ty =>
    "%" ++ String.singleton c ++ " format: a real number is required, not " ++ ty
  | .wantsInteger c ty =>
    "%" ++ String.singleton c ++ " format: an integer is required, not " ++ ty
  | .wantsReal ty => "must be real number, not " ++ ty
  | .wantsFloat ty => "float argument required, not " ++ ty
  | .wantsChar => "%c requires int or char"
  | .wantsByteChar => "%c requires an integer in range(256) or a single byte"
  | .charRange => "%c arg not in range(0x110000)"
  | .byteRange => "%c arg not in range(256)"
  | .incomplete => "incomplete format"
  | .incompleteKey => "incomplete format key"
  | .unknownConversion c i =>
    let shown := if 31 ≤ c.toNat && c.toNat ≤ 126 then c else '?'
    "unsupported format character " ++ named (String.singleton shown) ++ " (0x"
      ++ Text.hexText c.toNat 1 ++ ") at index " ++ decimalText i
  | .wantsMapping => "format requires a mapping"
  | .wantsStar => "* wants int"
  | .wantsBytes ty =>
    "%b requires a bytes-like object, or an object that implements __bytes__, not " ++ named ty
  | .widthRange => "width too big"
  | .precisionRange => "precision too big"
  | .noLayout ty => "unsupported format string passed to " ++ ty ++ ".__format__"
  | .unknownCode c ty =>
    "Unknown format code " ++ named (codeText c) ++ " for object of type " ++ named ty
  | .invalidLayout spec ty =>
    "Invalid format specifier " ++ named spec ++ " for object of type " ++ named ty
  | .notAllowed part kind => part ++ " not allowed in " ++ kind ++ " format specifier"
  | .withCharCode part => part ++ " not allowed with integer format specifier 'c'"
  | .grouping mark code =>
    "Cannot specify " ++ named (String.singleton mark) ++ " with " ++ named (codeText code) ++ "."
  | .bothGroupings => "Cannot specify both ',' and '_'."
  | .missingPrecision => "Format specifier missing precision"
  | .tooManyDigits => "Too many decimal digits in format string"
  | .complexZeroPadding => "Zero padding is not allowed in complex format specifier"
  | .complexEqualsSign => "'=' alignment flag is not allowed in complex format specifier"

end FormatFault

namespace CallFault

def errorClass : CallFault → ErrorClass
  | .emptySequence _ | .invalidInt _ _ | .invalidFloat _ | .intBaseRange | .complexText
  | .invalidComplex _ | .codePoint
  | .zeroStep | .negativeCount | .entryLength _ _ | .modulusZero | .notInvertible | .complexModulo
  | .sliceStepZero | .writtenSize | .groupEmpty | .groupItem _ => .valueError
  | .unknownEncoding _ | .unknownHandler _ => .lookupError
  | .undecodable _ _ _ _ _ => .unicodeDecodeError
  | .unencodable _ _ _ _ _ => .unicodeEncodeError
  | .unusable _ => .notImplementedError
  | _ => .typeError

/-- The place of a fault in a text: one position, or the first and the last. -/
def spanText (first last : Nat) : String :=
  decimalText first ++ (if first = last then "" else "-" ++ decimalText last)

def message : CallFault → String
  | .exactlyOne f n => f ++ "() takes exactly one argument (" ++ decimalText n ++ " given)"
  | .expected f w n => f ++ " expected " ++ countedArguments w ++ ", got " ++ decimalText n
  | .expectedAtLeast f w n =>
    f ++ " expected at least " ++ countedArguments w ++ ", got " ++ decimalText n
  | .expectedAtMost f w n =>
    f ++ " expected at most " ++ countedArguments w ++ ", got " ++ decimalText n
  | .takesAtMost f w n =>
    f ++ "() takes at most " ++ countedArguments w ++ " (" ++ decimalText n ++ " given)"
  | .takesAtLeastOne f => f ++ "() takes at least 1 positional argument (0 given)"
  | .missing f name i =>
    f ++ "() missing required argument " ++ named name ++ " (pos " ++ decimalText i ++ ")"
  | .emptySequence f => f ++ "() arg is an empty sequence"
  | .invalidInt base shown =>
    "invalid literal for int() with base " ++ decimalText base.natAbs ++ ": " ++ shown
  | .invalidFloat shown => "could not convert string to float: " ++ shown
  | .intArgument ty =>
    "int() argument must be a string, a bytes-like object or a real number, not " ++ named ty
  | .intBaseText => "int() can't convert non-string with explicit base"
  | .intBaseRange => "int() base must be >= 2 and <= 36, or 0"
  | .floatArgument ty => "float() argument must be a string or a real number, not " ++ named ty
  | .invalidComplex s => "could not convert string to complex: " ++ s
  | .complexText => "complex() arg is a malformed string"
  | .complexFirst ty => "complex() first argument must be a string or a number, not " ++ named ty
  | .complexSecond ty => "complex() second argument must be a number, not " ++ named ty
  | .complexSecondText => "complex() second arg can't be a string"
  | .complexTextSecond => "complex() can't take second arg if first is a string"
  | .noRound ty => "type " ++ ty ++ " doesn't define __round__ method"
  | .codePoint => "chr() arg not in range(0x110000)"
  | .characterLength n =>
    "ord() expected a character, but string of length " ++ decimalText n ++ " found"
  | .wantsCharacter ty => "ord() expected string of length 1, but " ++ ty ++ " found"
  | .zeroStep => "range() arg 3 must not be zero"
  | .bytesFrom ty => "cannot convert " ++ named ty ++ " object to bytes"
  | .textNeedsEncoding => "string argument without an encoding"
  | .encodingWithoutText => "encoding without a string argument"
  | .negativeCount => "negative count"
  | .textArgument f name ty => f ++ "() argument " ++ named name ++ " must be str, not " ++ ty
  | .decodedText => "decoding str is not supported"
  | .decodedKind ty => "decoding to str: need a bytes-like object, " ++ ty ++ " found"
  | .unknownEncoding name => "unknown encoding: " ++ name
  | .unknownHandler name => "unknown error handler name " ++ named name
  | .undecodable codec first last byte reason =>
    named codec ++ " codec can't decode "
      ++ (if first = last then "byte 0x" ++ Text.hexText byte.toNat 2 else "bytes")
      ++ " in position " ++ spanText first last ++ ": " ++ reason
  | .unencodable codec first last c limit =>
    named codec ++ " codec can't encode "
      ++ (if first = last then "character " ++ named (Text.numericEscape c.toNat) else "characters")
      ++ " in position " ++ spanText first last
      ++ ": ordinal not in range(" ++ decimalText limit ++ ")"
  | .entryNotSequence i =>
    "cannot convert dictionary update sequence element #" ++ decimalText i ++ " to a sequence"
  | .entryLength i n =>
    "dictionary update sequence element #" ++ decimalText i ++ " has length " ++ decimalText n
      ++ "; 2 is required"
  | .notInteger ty => named ty ++ " object cannot be interpreted as an integer"
  | .sumText => "sum() can't sum strings [use ''.join(seq) instead]"
  | .sumBytes => "sum() can't sum bytes [use b''.join(seq) instead]"
  | .modulusKinds => "pow() 3rd argument not allowed unless all arguments are integers"
  | .modulusZero => "pow() 3rd argument cannot be 0"
  | .modulusOperands a b c =>
    "unsupported operand type(s) for ** or pow(): " ++ named a ++ ", " ++ named b ++ ", " ++ named c
  | .notInvertible => "base is not invertible for the given modulus"
  | .complexModulo => "complex modulo"
  | .classInfo => "isinstance() arg 2 must be a type, a tuple of types, or a union"
  | .subclassFirst => "issubclass() arg 1 must be a class"
  | .parameterizedClass f => f ++ "() argument 2 cannot be a parameterized generic"
  | .subclassSecond => "issubclass() arg 2 must be a class, a tuple of classes, or a union"
  | .notReversible ty => named ty ++ " object is not reversible"
  | .iterCallable => "iter(v, w): v must be callable"
  | .mapArguments => "map() must have at least two arguments."
  | .typeArguments => "type() takes 1 or 3 arguments"
  | .classArgument i wanted ty =>
    "type.__new__() argument " ++ decimalText i ++ " must be " ++ wanted ++ ", not " ++ ty
  | .layoutKind ty => "format() argument 2 must be str, not " ++ ty
  | .quitArguments n =>
    "Quitter.__call__() takes from 1 to 2 positional arguments but " ++ decimalText (n + 1)
      ++ " were given"
  | .errorArguments wanted n =>
    "function takes exactly " ++ countedArguments wanted ++ " (" ++ decimalText n ++ " given)"
  | .errorArgumentsLeast wanted n =>
    "function takes at least " ++ countedArguments wanted ++ " (" ++ decimalText n ++ " given)"
  | .errorArgumentsMost wanted n =>
    "function takes at most " ++ countedArguments wanted ++ " (" ++ decimalText n ++ " given)"
  | .errorText i ty => "argument " ++ decimalText i ++ " must be str, not " ++ ty
  | .bytesLike ty => "a bytes-like object is required, not " ++ named ty
  | .endOffset => "end_offset must be provided when end_lineno is provided"
  | .writtenSize => "cannot fit 'int' into an index-sized integer"
  | .groupMessage cls ty => cls ++ ".__new__() argument 1 must be str, not " ++ ty
  | .groupSequence => "second argument (exceptions) must be a sequence"
  | .groupEmpty => "second argument (exceptions) must be a non-empty sequence"
  | .groupItem i =>
    "Item " ++ decimalText i ++ " of second argument (exceptions) is not an exception"
  | .groupNesting => "Cannot nest BaseExceptions in an ExceptionGroup"
  | .groupArguments cls n =>
    cls ++ ".__new__() takes exactly 2 arguments (" ++ decimalText n ++ " given)"
  | .takesNone shown => shown ++ " takes no arguments"
  | .notCreatable ty => "cannot create " ++ named ty ++ " instances"
  | .unusable name => name
  | .sliceIndices => "slice indices must be integers or None or have an __index__ method"
  | .sliceStepZero => "slice step cannot be zero"

end CallFault

namespace Fault

/-- The class of error that a fault is. -/
def errorClass : Fault → ErrorClass
  | .invalidProgram => .syntaxError
  | .noField _ _ | .noRule _ => .attributeError
  | .noTarget | .loopElse | .strangeContext _ | .labelTwice | .leftOver => .assertionError
  | .unlabelled _ | .missingKey _ | .missingNode _ => .keyError
  | .byteRange | .negativeShift | .nanToInt | .tooManyDigits | .tooManyDigitsIn _ => .valueError
  | .emptyStack | .noTop | .noInstruction | .noEntry | .indexRange _ | .indexSize => .indexError
  | .undefinedName _ => .nameError
  | .endless => .timeoutError
  | .exit _ => .systemExit
  | .outOfLines => .endOfFileError
  | .exhausted => .stopIteration
  | .zeroDivision _ => .zeroDivisionError
  | .overflow _ => .overflowError
  | .outOfMemory => .memoryError
  | .format f => f.errorClass
  | .call c => c.errorClass
  | _ => .typeError

/-- The text of a value in a message, where it has one. -/
def shown (r : Except Fault String) : String := r.toOption.getD ""

/-- The text of a fault. -/
def message : Fault → String
  | .invalidProgram => "invalid syntax"
  | .noField cls field => named (clipped 50 cls) ++ " object has no attribute " ++ named field
  | .noRule cls => "'Compiler' object has no attribute " ++ named ("visit_" ++ cls)
  | .noTarget => "need at least one target!"
  | .loopElse => "we don't support this."
  | .strangeContext s => s
  | .labelTwice => ""
  | .unlabelled n => "<object object at " ++ addressText n ++ ">"
  | .byteRange => "bytes must be in range(0, 256)"
  | .emptyStack => "pop from empty list"
  | .noTop => "list index out of range"
  | .noInstruction => "list index out of range"
  | .noEntry => "tuple index out of range"
  | .undefinedName s => "name " ++ s ++ " is not defined"
  | .leftOver => "stack should be empty!"
  | .endless => "the program does not end"
  | .exit code => shown code.text
  | .outOfLines => "EOF when reading a line"
  | .missingKey k => shown k.repr
  | .missingNode s => s
  | .unhashable ty => "unhashable type: " ++ named ty
  | .notIterable ty => namedClass ty ++ " object is not iterable"
  | .notIterator ty => named ty ++ " object is not an iterator"
  | .notCallable ty => named ty ++ " object is not callable"
  | .notSubscriptable ty => namedClass ty ++ " object is not subscriptable"
  | .classNotSubscriptable cls => "type " ++ named cls ++ " is not subscriptable"
  | .notGeneric s => s ++ " is not a generic class"
  | .noLength ty => "object of type " ++ namedClass ty ++ " has no len()"
  | .indexRange what => what.rangeText
  | .indexKind what ty => what.kindText ty
  | .indexSize => "cannot fit 'int' into an index-sized integer"
  | .exhausted => ""
  | .unordered symbol a b =>
    named symbol ++ " not supported between instances of " ++ named a ++ " and " ++ named b
  | .operands symbol a b =>
    "unsupported operand type(s) for " ++ symbol ++ ": " ++ named a ++ " and " ++ named b
  | .shiftedPrint a b =>
    "unsupported operand type(s) for >>: " ++ named a ++ " and " ++ named b ++
      ". Did you mean \"print(<message>, file=<output_stream>)\"?"
  | .unaryOperand symbol ty => "bad operand type for unary " ++ symbol ++ ": " ++ named ty
  | .noAbs ty => "bad operand type for abs(): " ++ named ty
  | .concat kind other =>
    "can only concatenate " ++ kind ++ " (not \"" ++ other ++ "\") to " ++ kind
  | .concatBytes other => "can't concat " ++ other ++ " to bytes"
  | .repeatBy ty => "can't multiply sequence by non-int of type " ++ named ty
  | .zeroDivision d => d.message
  | .overflow o => o.message
  | .nanToInt => "cannot convert float NaN to integer"
  | .negativeShift => "negative shift count"
  | .outOfMemory => ""
  | .tooManyDigits =>
    "Exceeds the limit (4300 digits) for integer string conversion; "
      ++ "use sys.set_int_max_str_digits() to increase the limit"
  | .tooManyDigitsIn n =>
    "Exceeds the limit (4300 digits) for integer string conversion: value has " ++ decimalText n
      ++ " digits; use sys.set_int_max_str_digits() to increase the limit"
  | .format f => f.message
  | .call c => c.message
  | .unexpectedKeyword f k => f ++ "() got an unexpected keyword argument " ++ named k

end Fault
end Stackwise
