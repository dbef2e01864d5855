/-!
# Classes of errors

The classes an error can belong to, with their names and their places in the hierarchy. Programs can
also hold errors as values, so the classes are needed apart from the faults of the machine.
-/
namespace Stackwise

/-- A class of errors. -/
inductive ErrorClass where
  | baseException
  | baseExceptionGroup
  | exceptionGroup
  | exception
  | arithmeticError
  | floatingPointError
  | overflowError
  | zeroDivisionError
  | assertionError
  | attributeError
  | bufferError
  | endOfFileError
  | importError
  | moduleNotFoundError
  | lookupError
  | indexError
  | keyError
  | memoryError
  | nameError
  | unboundLocalError
  | systemCallError
  | blockingTransferError
  | childProcessError
  | connectionError
  | brokenPipeError
  | connectionAbortedError
  | connectionRefusedError
  | connectionResetError
  | fileExistsError
  | fileNotFoundError
  | interruptedError
  | isADirectoryError
  | notADirectoryError
  | permissionError
  | processLookupError
  | timeoutError
  | referenceError
  | runtimeError
  | notImplementedError
  | recursionError
  | stopAsyncIteration
  | stopIteration
  | syntaxError
  | indentationError
  | tabError
  | systemError
  | typeError
  | valueError
  | unicodeError
  | unicodeDecodeError
  | unicodeEncodeError
  | unicodeTranslateError
  | warning
  | bytesWarning
  | deprecationWarning
  | encodingWarning
  | futureWarning
  | importWarning
  | pendingDeprecationWarning
  | resourceWarning
  | runtimeWarning
  | syntaxWarning
  | unicodeWarning
  | userWarning
  | generatorExit
  | keyboardInterrupt
  | systemExit
  deriving DecidableEq, Repr, Inhabited

namespace ErrorClass

/-- The name programs use for the class. -/
def name : ErrorClass → String
  | .baseException => "BaseException"
  | .baseExceptionGroup => "BaseExceptionGroup"
  | .exceptionGroup => "ExceptionGroup"
  | .exception => "Exception"
  | .arithmeticError => "ArithmeticError"
  | .floatingPointError => "FloatingPointError"
  | .overflowError => "OverflowError"
  | .zeroDivisionError => "ZeroDivisionError"
  | .assertionError => "AssertionError"
  | .attributeError => "AttributeError"
  | .bufferError => "BufferError"
  | .endOfFileError => "EOFError"
  | .importError => "ImportError"
  | .moduleNotFoundError => "ModuleNotFoundError"
  | .lookupError => "LookupError"
  | .indexError => "IndexError"
  | .keyError => "KeyError"
  | .memoryError => "MemoryError"
  | .nameError => "NameError"
  | .unboundLocalError => "UnboundLocalError"
  | .systemCallError => "OSError"
  | .blockingTransferError => "BlockingIOError"
  | .childProcessError => "ChildProcessError"
  | .connectionError => "ConnectionError"
  | .brokenPipeError => "BrokenPipeError"
  | .connectionAbortedError => "ConnectionAbortedError"
  | .connectionRefusedError => "ConnectionRefusedError"
  | .connectionResetError => "ConnectionResetError"
  | .fileExistsError => "FileExistsError"
  | .fileNotFoundError => "FileNotFoundError"
  | .interruptedError => "InterruptedError"
  | .isADirectoryError => "IsADirectoryError"
  | .notADirectoryError => "NotADirectoryError"
  | .permissionError => "PermissionError"
  | .processLookupError => "ProcessLookupError"
  | .timeoutError => "TimeoutError"
  | .referenceError => "ReferenceError"
  | .runtimeError => "RuntimeError"
  | .notImplementedError => "NotImplementedError"
  | .recursionError => "RecursionError"
  | .stopAsyncIteration => "StopAsyncIteration"
  | .stopIteration => "StopIteration"
  | .syntaxError => "SyntaxError"
  | .indentationError => "IndentationError"
  | .tabError => "TabError"
  | .systemError => "SystemError"
  | .typeError => "TypeError"
  | .valueError => "ValueError"
  | .unicodeError => "UnicodeError"
  | .unicodeDecodeError => "UnicodeDecodeError"
  | .unicodeEncodeError => "UnicodeEncodeError"
  | .unicodeTranslateError => "UnicodeTranslateError"
  | .warning => "Warning"
  | .bytesWarning => "BytesWarning"
  | .deprecationWarning => "DeprecationWarning"
  | .encodingWarning => "EncodingWarning"
  | .futureWarning => "FutureWarning"
  | .importWarning => "ImportWarning"
  | .pendingDeprecationWarning => "PendingDeprecationWarning"
  | .resourceWarning => "ResourceWarning"
  | .runtimeWarning => "RuntimeWarning"
  | .syntaxWarning => "SyntaxWarning"
  | .unicodeWarning => "UnicodeWarning"
  | .userWarning => "UserWarning"
  | .generatorExit => "GeneratorExit"
  | .keyboardInterrupt => "KeyboardInterrupt"
  | .systemExit => "SystemExit"

/-- The class directly above; the root has none. A group of errors also counts as a group of any
kind. -/
def parents : ErrorClass → List ErrorClass
  | .baseException => []
  | .baseExceptionGroup => [.baseException]
  | .exceptionGroup => [.baseExceptionGroup, .exception]
  | .exception => [.baseException]
  | .arithmeticError => [.exception]
  | .floatingPointError => [.arithmeticError]
  | .overflowError => [.arithmeticError]
  | .zeroDivisionError => [.arithmeticError]
  | .assertionError => [.exception]
  | .attributeError => [.exception]
  | .bufferError => [.exception]
  | .endOfFileError => [.exception]
  | .importError => [.exception]
  | .moduleNotFoundError => [.importError]
  | .lookupError => [.exception]
  | .indexError => [.lookupError]
  | .keyError => [.lookupError]
  | .memoryError => [.exception]
  | .nameError => [.exception]
  | .unboundLocalError => [.nameError]
  | .systemCallError => [.exception]
  | .blockingTransferError => [.systemCallError]
  | .childProcessError => [.systemCallError]
  | .connectionError => [.systemCallError]
  | .brokenPipeError => [.connectionError]
  | .connectionAbortedError => [.connectionError]
  | .connectionRefusedError => [.connectionError]
  | .connectionResetError => [.connectionError]
  | .fileExistsError => [.systemCallError]
  | .fileNotFoundError => [.systemCallError]
  | .interruptedError => [.systemCallError]
  | .isADirectoryError => [.systemCallError]
  | .notADirectoryError => [.systemCallError]
  | .permissionError => [.systemCallError]
  | .processLookupError => [.systemCallError]
  | .timeoutError => [.systemCallError]
  | .referenceError => [.exception]
  | .runtimeError => [.exception]
  | .notImplementedError => [.runtimeError]
  | .recursionError => [.runtimeError]
  | .stopAsyncIteration => [.exception]
  | .stopIteration => [.exception]
  | .syntaxError => [.exception]
  | .indentationError => [.syntaxError]
  | .tabError => [.indentationError]
  | .systemError => [.exception]
  | .typeError => [.exception]
  | .valueError => [.exception]
  | .unicodeError => [.valueError]
  | .unicodeDecodeError => [.unicodeError]
  | .unicodeEncodeError => [.unicodeError]
  | .unicodeTranslateError => [.unicodeError]
  | .warning => [.exception]
  | .bytesWarning => [.warning]
  | .deprecationWarning => [.warning]
  | .encodingWarning => [.warning]
  | .futureWarning => [.warning]
  | .importWarning => [.warning]
  | .pendingDeprecationWarning => [.warning]
  | .resourceWarning => [.warning]
  | .runtimeWarning => [.warning]
  | .syntaxWarning => [.warning]
  | .unicodeWarning => [.warning]
  | .userWarning => [.warning]
  | .generatorExit => [.baseException]
  | .keyboardInterrupt => [.baseException]
  | .systemExit => [.baseException]

/-- All classes, each before its subclasses. -/
def all : List ErrorClass :=
  [.baseException, .baseExceptionGroup, .exceptionGroup, .exception, .arithmeticError,
   .floatingPointError, .overflowError, .zeroDivisionError, .assertionError, .attributeError,
   .bufferError, .endOfFileError, .importError, .moduleNotFoundError, .lookupError, .indexError,
   .keyError, .memoryError, .nameError, .unboundLocalError, .systemCallError,
   .blockingTransferError, .childProcessError, .connectionError, .brokenPipeError,
   .connectionAbortedError, .connectionRefusedError, .connectionResetError, .fileExistsError,
   .fileNotFoundError, .interruptedError, .isADirectoryError, .notADirectoryError,
   .permissionError, .processLookupError, .timeoutError, .referenceError, .runtimeError,
   .notImplementedError, .recursionError, .stopAsyncIteration, .stopIteration, .syntaxError,
   .indentationError, .tabError, .systemError, .typeError, .valueError, .unicodeError,
   .unicodeDecodeError, .unicodeEncodeError, .unicodeTranslateError, .warning, .bytesWarning,
   .deprecationWarning, .encodingWarning, .futureWarning, .importWarning,
   .pendingDeprecationWarning, .resourceWarning, .runtimeWarning, .syntaxWarning,
   .unicodeWarning, .userWarning, .generatorExit, .keyboardInterrupt, .systemExit]

/-- Whether the first class is the second or lies below it. The hierarchy is at most six deep. -/
def isBelow (c d : ErrorClass) : Bool := go 6 c
where
  go : Nat → ErrorClass → Bool
    | 0, c => c == d
    | n + 1, c => c == d || c.parents.any (go n)

/-- The class of a name. Two names of the system call class are kept for old programs. -/
def ofName? (s : String) : Option ErrorClass :=
  if s == "EnvironmentError" || s == "IOError" then some .systemCallError
  else all.find? fun c => c.name == s

end ErrorClass
end Stackwise
