import Stackwise.Builtin.Class
import Stackwise.Builtin.Collection
import Stackwise.Builtin.Text

/-!
# Calls

What calling a value does: functions compute, classes make values of themselves, and the two objects
that end a session raise their fault. Arguments are positional. Functions and classes that are known
only by their names are left out, as those that open files or run texts: a call of one fails.
-/
namespace Stackwise
namespace Builtin

/-- A function of exactly one argument. -/
def unary (name : String) (args : List Value) (f : Value → Act Value) : Act Value :=
  match args with
  | [v] => f v
  | args => throw (.call (.exactlyOne name args.length))

/-- A function of exactly one argument that leaves the world alone. -/
def unaryPure (name : String) (args : List Value) (f : Value → Except Fault Value) : Act Value :=
  unary name args fun v => Act.ofExcept (f v)

/-- A class that is made from at most one value. -/
def atMostOne (name : String) (args : List Value) (empty : Value) (f : Value → Act Value) :
    Act Value :=
  match args with
  | [] => return empty
  | [v] => f v
  | args => throw (.call (.expectedAtMost name 1 args.length))

/-- A layout may be left out, and so may a number of digits; nothing stands for none. -/
def given? : Value → Option Value
  | .none => none
  | v => some v

/-- What a function gives. -/
def applyFunction (r : Reach) (f : Function) (args : List Value) : Act Value :=
  match f with
  | .abs => unaryPure "abs" args abs
  | .all => unary "all" args (all r)
  | .any => unary "any" args (any r)
  | .ascii => unaryPure "ascii" args ascii
  | .bin => unaryPure "bin" args (basedText "0b" 2)
  | .oct => unaryPure "oct" args (basedText "0o" 8)
  | .hex => unaryPure "hex" args (basedText "0x" 16)
  | .callable => unaryPure "callable" args fun v => .ok (.bool (isCallable v))
  | .chr => unaryPure "chr" args chr
  | .ord => unaryPure "ord" args ord
  | .hash => unaryPure "hash" args hash
  | .len => unaryPure "len" args len
  | .repr => unaryPure "repr" args fun v => v.repr.map .str
  | .divmod =>
    match args with
    | [a, b] => Act.ofExcept (divmod a b)
    | args => throw (.call (.expected "divmod" 2 args.length))
  | .format =>
    match args with
    | [] => throw (.call (.expectedAtLeast "format" 1 0))
    | [v] => Act.ofExcept (format v (.str ""))
    | [v, spec] => Act.ofExcept (format v spec)
    | args => throw (.call (.expectedAtMost "format" 2 args.length))
  | .input =>
    match args with
    | [] => input none
    | [prompt] => input (some prompt)
    | args => throw (.call (.expectedAtMost "input" 1 args.length))
  | .isinstance =>
    match args with
    | [v, c] => Act.ofExcept (isInstance v c)
    | args => throw (.call (.expected "isinstance" 2 args.length))
  | .issubclass =>
    match args with
    | [t, c] => Act.ofExcept (isSubclass t c)
    | args => throw (.call (.expected "issubclass" 2 args.length))
  | .iter =>
    match args with
    | [] => throw (.call (.expectedAtLeast "iter" 1 0))
    | [v] => v.toIterator
    | [f, sentinel] =>
      if isCallable f then iteratorOf .callableIterator (.repeated f sentinel)
      else throw (.call .iterCallable)
    | args => throw (.call (.expectedAtMost "iter" 2 args.length))
  | .max => choose r "max" .greater args
  | .min => choose r "min" .less args
  | .next =>
    match args with
    | [] => throw (.call (.expectedAtLeast "next" 1 0))
    | [v] => next r v none
    | [v, d] => next r v (some d)
    | args => throw (.call (.expectedAtMost "next" 2 args.length))
  | .pow =>
    match args with
    | [] => throw (.call (.missing "pow" "base" 1))
    | [_] => throw (.call (.missing "pow" "exp" 2))
    | [a, b] => Act.ofExcept (BinaryOp.pow.apply a b)
    | [a, b, c] =>
      Act.ofExcept (match given? c with
        | none => BinaryOp.pow.apply a b
        | some c => powWith a b c)
    | args => throw (.call (.takesAtMost "pow" 3 args.length))
  | .print => do
    printItems args
    return .none
  | .round =>
    match args with
    | [] => throw (.call (.missing "round" "number" 1))
    | [v] => Act.ofExcept (round v none)
    | [v, d] => Act.ofExcept (round v (given? d))
    | args => throw (.call (.takesAtMost "round" 2 args.length))
  | .sorted =>
    match args with
    | [v] => sorted r v
    | args => throw (.call (.expected "sorted" 1 args.length))
  | .sum =>
    match args with
    | [] => throw (.call (.takesAtLeastOne "sum"))
    | [v] => sum r v (.int 0)
    | [v, start] => sum r v start
    | args => throw (.call (.takesAtMost "sum" 2 args.length))
  | .other name => throw (.call (.unusable name))

/-- A value of a class. -/
def construct (r : Reach) (t : Ty) (args : List Value) : Act Value :=
  match t with
  | .bool => atMostOne "bool" args (.bool false) fun v => return .bool v.truthy
  | .int =>
    match args with
    | [] => return .int 0
    | [v] => Act.ofExcept (toInt v)
    | [v, base] => Act.ofExcept (toIntIn v base)
    | args => throw (.call (.takesAtMost "int" 2 args.length))
  | .float => atMostOne "float" args (.float (.zero false)) fun v => Act.ofExcept (toFloat v)
  | .complex =>
    match args with
    | [] => return .complex (.zero false) (.zero false)
    | [v] => Act.ofExcept (toComplex v)
    | [a, b] => Act.ofExcept (toComplexOf a b)
    | args => throw (.call (.takesAtMost "complex" 2 args.length))
  | .str =>
    match args with
    | [] => return .str ""
    | [v] => Act.ofExcept (v.text.map .str)
    | [v, e] => Act.ofExcept (decoded v e none)
    | [v, e, h] => Act.ofExcept (decoded v e (some h))
    | args => throw (.call (.takesAtMost "str" 3 args.length))
  | .bytes =>
    match args with
    | [] => return .bytes []
    | [v] => toBytes r v
    | [v, e] => Act.ofExcept (encoded v e none)
    | [v, e, h] => Act.ofExcept (encoded v e (some h))
    | args => throw (.call (.takesAtMost "bytes" 3 args.length))
  | .list => atMostOne "list" args (.list []) fun v => return .list (← collect r v)
  | .tuple => atMostOne "tuple" args (.tuple []) fun v => return .tuple (← collect r v)
  | .set => atMostOne "set" args (.set []) fun v => return .set (← toMembers r v)
  | .frozenset =>
    atMostOne "frozenset" args (.frozenset []) fun v => return .frozenset (← toMembers r v)
  | .dict => atMostOne "dict" args (.dict []) (toDict r)
  | .range => Act.ofExcept (range args)
  | .slice => Act.ofExcept (slice args)
  | .enumerate =>
    match args with
    | [] => throw (.call (.missing "enumerate" "iterable" 1))
    | [v] => enumerate v none
    | [v, start] => enumerate v (some start)
    | args => throw (.call (.takesAtMost "enumerate" 2 args.length))
  | .zip => zip args
  | .map => map args
  | .filter =>
    match args with
    | [f, v] => filter f v
    | args => throw (.call (.expected "filter" 2 args.length))
  | .reversed =>
    match args with
    | [v] => reversed v
    | args => throw (.call (.expected "reversed" 1 args.length))
  | .type =>
    match args with
    | [v] => return .type v.ty
    | [.str _, .tuple _, .dict _] => throw (.call (.unusable "type"))
    | [.str _, .tuple _, v] => throw (.call (.classArgument 3 "dict" (argumentName v)))
    | [.str _, v, _] => throw (.call (.classArgument 2 "tuple" (argumentName v)))
    | [v, _, _] => throw (.call (.classArgument 1 "str" (argumentName v)))
    | _ => throw (.call .typeArguments)
  | .error c => Act.ofExcept (makeError c args)
  | .noneType => if args.isEmpty then return .none else throw (.call (.takesNone "NoneType"))
  | .ellipsisType =>
    if args.isEmpty then return .ellipsis else throw (.call (.takesNone "EllipsisType"))
  | .notImplementedType =>
    if args.isEmpty then return .notImplemented
    else throw (.call (.takesNone "NotImplementedType"))
  | .object => throw (.call (if args.isEmpty then .unusable "object" else .takesNone "object()"))
  | .quitter => throw (.call (.unusable "Quitter"))
  | .other name => throw (.call (.unusable name))
  | t => throw (.call (.notCreatable t.name))

/-- What calling a value gives. New objects get their marks. -/
def callWith (r : Reach) (f : Value) (args : List Value) : Act Value := do
  match f with
  | .function g =>
    match ← applyFunction r g args with
    | .tuple xs => return .tuple (← Act.markItems xs)
    | v => Act.markObject v
  | .type t | .alias t _ => Act.markObject (← construct r t args)
  | .quitter _ =>
    match args with
    | [] => throw (.exit .none)
    | [code] => throw (.exit code)
    | args => throw (.call (.quitArguments args.length))
  | v => throw (.notCallable v.tyName)

end Builtin

/-- Calls and iterators to a bounded depth of functions in iterators. -/
def reach : Nat → Reach
  | 0 => ⟨fun _ _ => throw .endless, fun _ => throw .endless⟩
  | depth + 1 =>
    ⟨fun f args => Builtin.callWith (reach depth) f args, fun ref => pullWith (reach depth) ref⟩

/-- Deeper than any chain of iterators in practice. -/
def maxDepth : Nat := 100000

/-- Call a value. -/
def Value.call (f : Value) (args : List Value) : Act Value := (reach maxDepth).call f args

/-- The next item of an iterator. -/
def pull (ref : Nat) : Act (Option Value) := (reach maxDepth).pull ref

/-- The values that names have unless a program sets them. -/
def builtin? (name : String) : Option Value :=
  match name with
  | "None" => some .none
  | "True" => some (.bool true)
  | "False" => some (.bool false)
  | "Ellipsis" => some .ellipsis
  | "NotImplemented" => some .notImplemented
  | "__name__" => some (.str "__main__")
  | "__debug__" => some (.bool true)
  | "__package__" => some (.str "")
  | "exit" => some (.quitter "exit")
  | "quit" => some (.quitter "quit")
  | s =>
    match Function.ofName? s with
    | some f => some (.function f)
    | none => (Ty.ofName? s).map .type

end Stackwise
