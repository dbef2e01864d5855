import Stackwise.Builtin.Number
import Stackwise.Session
import Stackwise.Syntax.Build

/-!
# Workloads

Programs of a given size that put the compiler and the machine to work, each with a result that can
be predicted. A workload is prepared once for a size and then run any number of times, every time on
a machine of its own.
-/
namespace Stackwise

/-- A kind of work. -/
inductive Workload where
  /-- Compile a long program. -/
  | compiling
  /-- Compile and run a program whose constants need long operands. -/
  | wideOperands
  /-- Read, compile and run a program text. -/
  | pipeline
  /-- Run a loop of arithmetic. -/
  | arithmetic
  /-- Run a loop that builds containers and goes through them. -/
  | collections
  /-- Run a long sequence of look-ups in a list. -/
  | subscripts
  deriving DecidableEq, Repr

namespace Workload

open Stackwise.Tree (var num integer str op sign tupleOf listOf setOf dictOf callOf itemOf setAll
  set update branch repeatWhile forEach program)

/-! ### The programs -/

/-- Every construct once, in a program with two branches and two loops. -/
def mixedHead : List Tree :=
  let a := var "a"
  let b := var "b"
  let c := var "c"
  let d := var "d"
  let k := var "k"
  let y := var "y"
  let low := var "low"
  [set "a" (num 1), set "b" (num 2), set "c" (num 3),
    branch a [set "d" (op .add a b)] [set "d" (op .sub a b)],
    set "e" (.ifExp c d (str "none")),
    set "f" (num 10),
    repeatWhile (var "f") [update "f" .sub (num 1)],
    set "g" (num 0),
    forEach "h" (tupleOf [num 4, num 5, num 6]) [update "g" .add (var "h")],
    set "i" (op .div (op .mult a b) c),
    set "j" (op .mod (op .floorDiv d b) c),
    set "k" (op .pow b c),
    set "l" (op .lshift a c),
    set "m" (op .rshift k a),
    set "n" (op .bitAnd k c),
    set "o" (op .bitOr k a),
    set "p" (op .bitXor k b),
    set "q" (sign .minus a), set "r" (sign .plus b),
    set "s" (sign .invert c), set "t" (sign .not a),
    set "u" (tupleOf [a, b, c]),
    set "v" (listOf [a, b, c, d, var "i", var "j", k, var "l"]),
    set "w" (setOf [a, b, c, d]),
    set "x" (dictOf [(str "one", a), (str "two", b), (str "three", c)]),
    set "y" (callOf "len" [var "v"]),
    set "z" (callOf "max" [a, b, c]),
    set "low" (callOf "min" [d, var "g", k]),
    set "high" (op .add (var "z") (op .mult low (num 8))),
    setAll ["total", "count"] (num 0),
    branch y [set "count" y] [set "count" (num 9)],
    set "low" (op .add (op .sub (var "high") (op .mult low (var "count"))) (sign .minus c))]

/-- A statement that brings no name and no constant of its own. -/
def filler : Tree :=
  set "total" (op .sub (op .add (var "total") (op .mult (var "a") (var "b"))) (var "c"))

/-- Look-ups in a list of eight items, added up. -/
def lookups (acc items : String) (n : Nat) : List Tree :=
  (List.range n).map fun i => update acc .add (itemOf items (i % 8))

/-- A long program: the mixed one, some statements more, and look-ups. -/
def compilingProgram (extra : Nat) : Tree :=
  program (mixedHead ++ List.replicate extra filler ++ lookups "total" "v" 16)

/-- The sum of the numbers up to `m`, one statement for each. -/
def wideOperandsProgram (m : Nat) : Tree :=
  program (set "acc" (num 0) ::
    (List.range' 1 m).map fun k => set "acc" (op .add (var "acc") (num k)))

/-- The text of a loop that adds a constant expression. -/
def pipelineText (n : Int) : String :=
  let count := (if n < 0 then "-" else "") ++ decimalText n.natAbs
  "total = 0\ncount = 0\nn = " ++ count
    ++ "\nwhile n:\n    total += (2 + 3) * 3 + 2\n    count += 1\n    n -= 1\n"

/-- A loop of arithmetic that comes to one sum in two ways. -/
def arithmeticProgram (n : Int) : Tree :=
  let left := var "n"
  program
    [set "n" (integer n), setAll ["total", "check"] (num 0),
      repeatWhile left
        [update "total" .add (op .add (op .mod left (op .add left (num 1))) (num 7)),
          set "check" (op .add (var "check")
            (op .rshift (op .add (op .lshift left (num 2)) (num 28)) (num 2))),
          update "n" .sub (num 1)]]

/-- A loop that goes through a list, chooses, and builds containers of every kind. -/
def collectionsProgram (n : Int) : Tree :=
  let i := var "i"
  program
    [set "n" (integer n), set "i" (num 0), set "total" (num 0),
      repeatWhile (op .sub (var "n") i)
        [update "i" .add (num 1),
          forEach "x" (listOf [i, op .add i (num 1), op .add i (num 2), op .add i (num 3)])
            [update "total" .add (var "x")],
          set "p" (.ifExp (var "total") i (num 0)),
          branch (var "p") [set "q" (listOf [var "p", i])] [set "q" (listOf [i])],
          set "r" (callOf "len"
            [tupleOf [i, var "q", setOf [i, num 1], dictOf [(str "i", i)]]])]]

/-- The list of the numbers from one to eight. -/
def oneToEight : Tree := listOf ((List.range 8).map fun i => num (i + 1))

/-- Look-ups in a list of the numbers from one to eight. -/
def subscriptsProgram (n : Nat) : Tree :=
  program ([set "items" oneToEight, set "acc" (num 0)] ++ lookups "acc" "items" n)

/-! ### Preparing and running -/

/-- A workload of a certain size. -/
inductive Job where
  /-- Compile, and count bytes, names and constants. -/
  | measure (program : Tree)
  /-- Run, and take the final values of variables. -/
  | finals (program : Tree) (names : List String)
  /-- Run, and take the final value of a variable and the number of constants. -/
  | finalAndConstants (program : Tree) (name : String)
  /-- Run a text, and take the final values of variables. -/
  | finalsOfText (text : String) (names : List String)

/-- The final value of a variable. -/
def final (m : Machine) (name : String) : Except Fault Value :=
  match m.globals.lookup (.text name) with
  | some v => .ok v
  | none => .error (.missingKey (.str name))

/-- A new machine after a program, which executes at most a number of instructions. -/
def runFresh (fuel : Nat) (code : Code) : Except Fault Machine :=
  match ({} : Machine).perform (Exec.runWithin fuel code) with
  | (.ok (), m) => .ok m
  | (.error f, _) => .error f

/-- Final values of variables: one alone, several as a tuple. -/
def finalsOf (m : Machine) (names : List String) : Except Fault Value := do
  match ← names.mapM (final m) with
  | [v] => return v
  | vs => return .tuple vs

/-- The result of one run of at most a number of instructions. -/
def Job.runWithin (fuel : Nat) : Job → Except Fault Value
  | .measure t => do
    let code ← t.toCode true
    return .tuple [.int code.bytes.size, .int code.names.size, .int code.consts.size]
  | .finals t names => do
    let m ← runFresh fuel (← t.toCode true)
    finalsOf m names
  | .finalAndConstants t name => do
    let code ← t.toCode true
    let v ← final (← runFresh fuel code) name
    return .tuple [v, .int code.consts.size]
  | .finalsOfText text names => do
    let m ← runFresh fuel (← Code.ofText text)
    finalsOf m names

/-- The result of one run. -/
def Job.run (job : Job) : Except Fault Value := job.runWithin Exec.maxSteps

/-- The least number of statements of the program for compiling. -/
def leastStatements : Int := 50

/-- The least number of constants for wide operands. -/
def leastConstants : Int := 260

/-- The greater of a size and a least value, as programs compare them. -/
def atLeast (least : Int) (v : Value) : Except Fault Value := do
  if ← v.compares .greater (.int least) then return v else return .int least

/-- A workload for a size. Sizes may be of any class; the workload says what it can use. -/
def prepare (w : Workload) (size : Value) : Except Fault Job := do
  match w with
  | .compiling =>
    let extra ← atLeast 0 (← BinaryOp.sub.apply size (.int leastStatements))
    match extra.asInt? with
    | some n => return .measure (compilingProgram n.toNat)
    | none => throw (.repeatBy extra.tyName)
  | .wideOperands =>
    let m ← Builtin.needInt (← atLeast leastConstants size)
    return .finalAndConstants (wideOperandsProgram m.toNat) "acc"
  | .pipeline =>
    let n ← Format.integerOf 'd' size
    return .finalsOfText (pipelineText n) ["total", "count"]
  | .arithmetic =>
    let n ← Format.integerOf 'd' size
    return .finals (arithmeticProgram n) ["total", "check"]
  | .collections =>
    let n ← Format.integerOf 'd' size
    return .finals (collectionsProgram n) ["total", "r"]
  | .subscripts =>
    let n ← Builtin.needInt size
    return .finals (subscriptsProgram n.toNat) ["acc"]

/-- The name of a workload. -/
def name : Workload → String
  | .compiling => "bench_compile_program"
  | .wideOperands => "bench_extended_arg"
  | .pipeline => "bench_full_pipeline"
  | .arithmetic => "bench_vm_arithmetic"
  | .collections => "bench_vm_collections"
  | .subscripts => "bench_vm_subscript"

/-- The name of its size. -/
def parameter : Workload → String
  | .compiling => "n_stmts"
  | .wideOperands => "n_consts"
  | .pipeline => "n_iters"
  | .arithmetic => "n_iters"
  | .collections => "n_iters"
  | .subscripts => "n_lookups"

/-- The size where none is given. -/
def usualSize : Workload → Nat
  | .compiling => 800
  | .wideOperands => 400
  | .pipeline => 500
  | .arithmetic => 300
  | .collections => 200
  | .subscripts => 2000

/-- All workloads in the order of their names. -/
def all : List Workload :=
  [.compiling, .wideOperands, .pipeline, .arithmetic, .collections, .subscripts]

def ofName? (s : String) : Option Workload := all.find? fun w => w.name == s

/-- The size among named arguments, or else the usual one. -/
def sizeArgument (w : Workload) (args : List (String × Value)) : Except Fault Value :=
  match args.find? fun a => a.1 != w.parameter with
  | some a => .error (.unexpectedKeyword w.name a.1)
  | none => .ok ((args.lookup w.parameter).getD (.int w.usualSize))

/-- The results of a number of runs. -/
def run (w : Workload) (args : List (String × Value)) (runs : Nat) : Except Fault (List Value) := do
  let job ← w.prepare (← w.sizeArgument args)
  (List.replicate runs job).mapM Job.run

end Workload
end Stackwise
