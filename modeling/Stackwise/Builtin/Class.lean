import Stackwise.Builtin.Text

/-!
# Functions on classes

Membership in classes, and making errors as values.
-/
namespace Stackwise.Builtin

/-- Values that can be called. -/
def isCallable : Value → Bool
  | .type _ | .alias _ _ | .function _ | .quitter _ => true
  | _ => false

mutual
/-- Whether a class is below a class, below one of a tuple of classes, or in a union. `refused` is
the fault of anything else. -/
def belowAny (t : Ty) (refused : CallFault) : Value → Except Fault Bool
  | .type u => .ok (t.isBelow u)
  | .union us => .ok (us.any fun u => t.isBelow u)
  | .alias _ _ =>
    let function := if refused = .classInfo then "isinstance" else "issubclass"
    .error (.call (.parameterizedClass function))
  | .tuple vs => belowSome t refused vs
  | _ => .error (.call refused)
/-- The same for one of several, from the left. -/
def belowSome (t : Ty) (refused : CallFault) : List Value → Except Fault Bool
  | [] => .ok false
  | v :: vs => do
    if ← belowAny t refused v then return true else belowSome t refused vs
end

def isInstance (v cls : Value) : Except Fault Value := do
  return .bool (← belowAny v.ty .classInfo cls)

def isSubclass (sub cls : Value) : Except Fault Value :=
  match sub, cls with
  | .type t, cls => do return .bool (← belowAny t .subclassSecond cls)
  | _, .tuple [] => .ok (.bool false)
  | _, _ => .error (.call .subclassFirst)

/-- The class of the error for a number of a failed system call. -/
def systemCallClass (n : Int) : ErrorClass :=
  if n = 1 || n = 13 then .permissionError
  else if n = 2 then .fileNotFoundError
  else if n = 3 then .processLookupError
  else if n = 4 then .interruptedError
  else if n = 10 then .childProcessError
  else if n = 11 || n = 114 || n = 115 then .blockingTransferError
  else if n = 17 then .fileExistsError
  else if n = 20 then .notADirectoryError
  else if n = 21 then .isADirectoryError
  else if n = 32 || n = 108 then .brokenPipeError
  else if n = 103 then .connectionAbortedError
  else if n = 104 then .connectionResetError
  else if n = 110 then .timeoutError
  else if n = 111 then .connectionRefusedError
  else .systemCallError

/-! ### Making errors -/

/-- An argument of an error that has to be a text. -/
def checkText (position : Nat) (v : Value) : Except Fault Unit :=
  match v with
  | .str _ => .ok ()
  | v => .error (.call (.errorText position (argumentName v)))

/-- An argument of an error that has to be a place in a text. -/
def checkPlace (v : Value) : Except Fault Unit := do
  let n ← needInt v
  if maxIndex < n || n < -maxIndex - 1 then throw (.overflow .sizeCode)

/-- The arguments of an error in a text or its encoding. -/
def checkEncodingError (c : ErrorClass) (args : List Value) : Except Fault Unit :=
  match c, args with
  | .unicodeDecodeError, [codec, object, first, stop, reason] => do
    checkText 1 codec
    checkPlace first
    checkPlace stop
    checkText 5 reason
    match object with
    | .bytes _ => return ()
    | v => throw (.call (.bytesLike v.tyName))
  | .unicodeEncodeError, [codec, object, first, stop, reason] => do
    checkText 1 codec
    checkText 2 object
    checkPlace first
    checkPlace stop
    checkText 5 reason
  | .unicodeTranslateError, [object, first, stop, reason] => do
    checkText 1 object
    checkPlace first
    checkPlace stop
    checkText 4 reason
  | .unicodeTranslateError, args => .error (.call (.errorArguments 4 args.length))
  | _, args => .error (.call (.errorArguments 5 args.length))

/-- The class of an error of a system call, which its number may make narrower. -/
def systemErrorClass (c : ErrorClass) (args : List Value) : ErrorClass :=
  match args with
  | n :: _ :: rest =>
    if c == .systemCallError && decide (rest.length ≤ 3) then
      (n.asInt?.map systemCallClass).getD c
    else c
  | _ => c

/-- A count in the place of a file has to fit. -/
def checkWritten (c : ErrorClass) (args : List Value) : Except Fault Unit :=
  match args with
  | _ :: _ :: v :: rest =>
    if c == .blockingTransferError && decide (rest.length ≤ 2) && v.number?.isSome then do
      let n ← needInt v
      if maxIndex < n || n < -maxIndex - 1 then throw (.call .writtenSize)
    else .ok ()
  | _ => .ok ()

/-- The place in a program, if an error is given one. -/
def checkLocation : List Value → Except Fault Unit
  | [_, v] => do
    let n ←
      match v with
      | .iterator _ _ => pure 4
      | .range a b c => pure (rangeLength a b c)
      | v =>
        match v.items? with
        | some xs => pure xs.length
        | none => throw (.notIterable v.tyName)
    if n < 4 then throw (.call (.errorArgumentsLeast 4 n))
    if 6 < n then throw (.call (.errorArgumentsMost 6 n))
    if n = 5 then throw (.call .endOffset)
  | _ => .ok ()

/-- The classes of the errors in a group. -/
def groupClasses : Nat → List Value → Except Fault (List ErrorClass)
  | _, [] => .ok []
  | i, .error _ c _ :: vs => do return c :: (← groupClasses (i + 1) vs)
  | i, _ :: _ => .error (.call (.groupItem i))

/-- A group of errors: of the narrower class if all of them allow it. -/
def groupClass (c : ErrorClass) (args : List Value) : Except Fault ErrorClass := do
  match args with
  | [.str _, v] =>
    let items ←
      match v with
      | .list xs | .tuple xs => pure xs
      | .str s => pure (Value.characters s)
      | .bytes b => pure (b.map fun x => .int x.toNat)
      | .range a b c => pure (List.replicate (min (rangeLength a b c) 1) .none)
      | _ => throw (.call .groupSequence)
    if items.isEmpty then throw (.call .groupEmpty)
    let classes ← groupClasses 0 items
    if classes.all fun d => d.isBelow .exception then return .exceptionGroup
    if c == .exceptionGroup then throw (.call .groupNesting)
    return c
  | [v, _] => throw (.call (.groupMessage "BaseExceptionGroup" (argumentName v)))
  | args => throw (.call (.groupArguments "BaseExceptionGroup" args.length))

/-- An error as a value. -/
def makeError (c : ErrorClass) (args : List Value) : Except Fault Value := do
  match c with
  | .unicodeDecodeError | .unicodeEncodeError | .unicodeTranslateError =>
    checkEncodingError c args
    return .error 0 c args
  | .baseExceptionGroup | .exceptionGroup => return .error 0 (← groupClass c args) args
  | c =>
    if c.isBelow .syntaxError then checkLocation args
    let c := systemErrorClass c args
    checkWritten c args
    return .error 0 c args

end Stackwise.Builtin
