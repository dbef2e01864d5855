import Stackwise.Binary64.Basic
import Stackwise.ErrorClass

/-!
# Values

The values a program computes with, and their classes. Containers hold their items in insertion
order. No operation of the language changes a container in place, so a container is its contents;
the one kind of object with a life of its own is the iterator, which is a reference into a store.

Undefined floats and error objects are told apart by marks, see `Binary64.nan`.
-/
namespace Stackwise

/-- The class of a value. -/
inductive Ty where
  | noneType
  | ellipsisType
  | notImplementedType
  | object
  | bool
  | int
  | float
  | complex
  | str
  | bytes
  | list
  | tuple
  | set
  | frozenset
  | dict
  | range
  | slice
  | type
  | union
  | alias
  | function
  | quitter
  | enumerate
  | filter
  | map
  | reversed
  | zip
  | listIterator
  | listReverseIterator
  | tupleIterator
  | strIterator
  | asciiIterator
  | bytesIterator
  | setIterator
  | dictKeyIterator
  | dictReverseKeyIterator
  | rangeIterator
  | longRangeIterator
  | callableIterator
  | error (c : ErrorClass)
  /-- A class that programs can name but not make use of. -/
  | other (name : String)
  deriving DecidableEq, Repr, Inhabited

namespace Ty

/-- The name of the class in messages. -/
def name : Ty → String
  | .noneType => "NoneType"
  | .ellipsisType => "ellipsis"
  | .notImplementedType => "NotImplementedType"
  | .object => "object"
  | .bool => "bool"
  | .int => "int"
  | .float => "float"
  | .complex => "complex"
  | .str => "str"
  | .bytes => "bytes"
  | .list => "list"
  | .tuple => "tuple"
  | .set => "set"
  | .frozenset => "frozenset"
  | .dict => "dict"
  | .range => "range"
  | .slice => "slice"
  | .type => "type"
  | .union => "types.UnionType"
  | .alias => "types.GenericAlias"
  | .function => "builtin_function_or_method"
  | .quitter => "Quitter"
  | .enumerate => "enumerate"
  | .filter => "filter"
  | .map => "map"
  | .reversed => "reversed"
  | .zip => "zip"
  | .listIterator => "list_iterator"
  | .listReverseIterator => "list_reverseiterator"
  | .tupleIterator => "tuple_iterator"
  | .strIterator => "str_iterator"
  | .asciiIterator => "str_ascii_iterator"
  | .bytesIterator => "bytes_iterator"
  | .setIterator => "set_iterator"
  | .dictKeyIterator => "dict_keyiterator"
  | .dictReverseKeyIterator => "dict_reversekeyiterator"
  | .rangeIterator => "range_iterator"
  | .longRangeIterator => "longrange_iterator"
  | .callableIterator => "callable_iterator"
  | .error c => c.name
  | .other s => s

/-- The name of the class by itself. -/
def label : Ty → String
  | .union => "UnionType"
  | .alias => "GenericAlias"
  | t => t.name

/-- Classes that programs can call by name, the classes of errors apart. -/
def named : List Ty :=
  [.bool, .int, .float, .complex, .str, .bytes, .list, .tuple, .set, .frozenset, .dict, .range,
    .slice, .type, .object, .enumerate, .filter, .map, .reversed, .zip, .other "bytearray",
    .other "classmethod", .other "memoryview", .other "property", .other "staticmethod",
    .other "super"]

/-- The class of a name. -/
def ofName? (s : String) : Option Ty :=
  match named.find? (fun t => t.name == s) with
  | some t => some t
  | none => (ErrorClass.ofName? s).map .error

/-- Classes that take parameters in brackets. -/
def isGeneric : Ty → Bool
  | .list | .tuple | .set | .frozenset | .dict | .enumerate | .type => true
  | .error c => c == .baseExceptionGroup || c == .exceptionGroup
  | _ => false

/-- Whether every member of the first class is one of the second. -/
def isBelow (t u : Ty) : Bool :=
  t == u || u == .object ||
    match t, u with
    | .bool, .int => true
    | .error c, .error d => c.isBelow d
    | _, _ => false

end Ty

/-- A function that is there from the start. -/
inductive Function where
  | abs | all | any | ascii | bin | callable | chr | divmod | format | hash | hex | input
  | isinstance | issubclass | iter | len | max | min | next | oct | ord | pow | print | repr | round
  | sorted | sum
  /-- A function that programs can name but that this library leaves out: what it does is not
  modelled, and a call of it is a fault. -/
  | other (name : String)
  deriving DecidableEq, Repr, Inhabited

namespace Function

def name : Function → String
  | .abs => "abs"
  | .all => "all"
  | .any => "any"
  | .ascii => "ascii"
  | .bin => "bin"
  | .callable => "callable"
  | .chr => "chr"
  | .divmod => "divmod"
  | .format => "format"
  | .hash => "hash"
  | .hex => "hex"
  | .input => "input"
  | .isinstance => "isinstance"
  | .issubclass => "issubclass"
  | .iter => "iter"
  | .len => "len"
  | .max => "max"
  | .min => "min"
  | .next => "next"
  | .oct => "oct"
  | .ord => "ord"
  | .pow => "pow"
  | .print => "print"
  | .repr => "repr"
  | .round => "round"
  | .sorted => "sorted"
  | .sum => "sum"
  | .other s => s

/-- All functions. -/
def named : List Function :=
  [.abs, .all, .any, .ascii, .bin, .callable, .chr, .divmod, .format, .hash, .hex, .input,
    .isinstance, .issubclass, .iter, .len, .max, .min, .next, .oct, .ord, .pow, .print, .repr,
    .round, .sorted, .sum, .other "__build_class__", .other "__import__", .other "aiter",
    .other "anext", .other "breakpoint", .other "compile", .other "delattr", .other "dir",
    .other "eval", .other "exec", .other "getattr", .other "globals", .other "hasattr",
    .other "id", .other "locals", .other "open", .other "setattr", .other "vars"]

/-- The function of a name. -/
def ofName? (s : String) : Option Function := named.find? fun f => f.name == s

end Function

/-- What a program computes with. -/
inductive Value where
  | none
  | ellipsis
  | notImplemented
  | bool (b : Bool)
  | int (n : Int)
  | float (x : Binary64)
  | complex (re im : Binary64)
  | str (s : String)
  | bytes (b : List UInt8)
  | list (items : List Value)
  | tuple (items : List Value)
  | set (items : List Value)
  | frozenset (items : List Value)
  | dict (entries : List (Value × Value))
  | range (start stop step : Int)
  | slice (start stop step : Value)
  | type (t : Ty)
  /-- One class or another. -/
  | union (members : List Ty)
  /-- A class with parameters in brackets. -/
  | alias (origin : Ty) (parameters : List Value)
  | function (f : Function)
  /-- The objects that end a session when called, by name. -/
  | quitter (name : String)
  | error (mark : Nat) (c : ErrorClass) (args : List Value)
  /-- A reference to the state of an iterator. -/
  | iterator (ref : Nat) (kind : Ty)
  deriving Inhabited

/-- The number of items of a range. -/
def rangeLength (start stop step : Int) : Nat :=
  if 0 < step then (if start < stop then ((stop - start - 1) / step + 1).toNat else 0)
  else if step < 0 then (if stop < start then ((start - stop - 1) / (-step) + 1).toNat else 0)
  else 0

namespace Value

/-- The class of a value. -/
def ty : Value → Ty
  | .none => .noneType
  | .ellipsis => .ellipsisType
  | .notImplemented => .notImplementedType
  | .bool _ => .bool
  | .int _ => .int
  | .float _ => .float
  | .complex _ _ => .complex
  | .str _ => .str
  | .bytes _ => .bytes
  | .list _ => .list
  | .tuple _ => .tuple
  | .set _ => .set
  | .frozenset _ => .frozenset
  | .dict _ => .dict
  | .range _ _ _ => .range
  | .slice _ _ _ => .slice
  | .type _ => .type
  | .union _ => .union
  | .alias _ _ => .alias
  | .function _ => .function
  | .quitter _ => .quitter
  | .error _ c _ => .error c
  | .iterator _ kind => kind

/-- The name of the class of a value. -/
def tyName (v : Value) : String := v.ty.name

/-- Whether a condition on the value holds: zero and empty containers fail it. -/
def truthy : Value → Bool
  | .none => false
  | .bool b => b
  | .int n => n != 0
  | .float x => !x.isZero
  | .complex re im => !(re.isZero && im.isZero)
  | .str s => !s.isEmpty
  | .bytes b => !b.isEmpty
  | .list xs => !xs.isEmpty
  | .tuple xs => !xs.isEmpty
  | .set xs => !xs.isEmpty
  | .frozenset xs => !xs.isEmpty
  | .dict es => !es.isEmpty
  | .range a b c => rangeLength a b c != 0
  | _ => true

/-- Integers and truth values as integers. -/
def asInt? : Value → Option Int
  | .bool b => some (if b then 1 else 0)
  | .int n => some n
  | _ => Option.none

/-- The characters of a text as texts. -/
def characters (s : String) : List Value := s.toList.map fun c => .str (String.singleton c)

/-- The items of a container that is there as a whole. -/
def items? : Value → Option (List Value)
  | .str s => some (characters s)
  | .bytes b => some (b.map fun x => .int x.toNat)
  | .list xs => some xs
  | .tuple xs => some xs
  | .set xs => some xs
  | .frozenset xs => some xs
  | .dict es => some (es.map (·.1))
  | _ => Option.none

end Value

/-- A number in the least of the three kinds that hold it. -/
inductive Number where
  | int (n : Int)
  | float (x : Binary64)
  | complex (re im : Binary64)
  deriving DecidableEq, Repr

/-- The number a value is, if it is one. -/
def Value.number? : Value → Option Number
  | .bool b => some (.int (if b then 1 else 0))
  | .int n => some (.int n)
  | .float x => some (.float x)
  | .complex re im => some (.complex re im)
  | _ => Option.none

/-- A number as a value. -/
def Number.toValue : Number → Value
  | .int n => .int n
  | .float x => .float x
  | .complex re im => .complex re im

/-- Two numbers are one object or have one value, whatever their kinds. -/
def Number.same : Number → Number → Bool
  | .int a, .int b => a == b
  | .int a, .float y => y.compareInt? a == some .eq
  | .float x, .int b => x.compareInt? b == some .eq
  | .float x, .float y => x.same y
  | .int a, .complex re im => im.isZero && re.compareInt? a == some .eq
  | .complex re im, .int b => im.isZero && re.compareInt? b == some .eq
  | .float x, .complex re im => im.isZero && x.eq re
  | .complex re im, .float y => im.isZero && re.eq y
  | .complex a b, .complex c d => a.same c && b.same d

end Stackwise
