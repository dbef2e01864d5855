import Stackwise.Syntax.Tree

/-!
# Building trees

Short names for the trees that programs are put together from.
-/
namespace Stackwise.Tree

/-- A variable that is read. -/
def var (s : String) : Tree := .name (.ofText s) (.context .load)

/-- A variable that is set. -/
def target (s : String) : Tree := .name (.ofText s) (.context .store)

/-- A natural number. -/
def num (n : Nat) : Tree := .const (.int n)

/-- An integer as programs write it: a minus before a natural number. -/
def integer (n : Int) : Tree :=
  if n < 0 then .unaryOp (.unaryOperator .minus) (num n.natAbs) else num n.natAbs

/-- A text. -/
def str (s : String) : Tree := .const (.str s)

/-- An operation on two expressions. -/
def op (o : BinaryOp) (a b : Tree) : Tree := .binOp a (.binaryOperator o) b

/-- An operation on one expression. -/
def sign (o : UnaryOp) (a : Tree) : Tree := .unaryOp (.unaryOperator o) a

def tupleOf (es : List Tree) : Tree := .tuple (.list es) (.context .load)

def listOf (es : List Tree) : Tree := .listDisplay (.list es) (.context .load)

def setOf (es : List Tree) : Tree := .setDisplay (.list es)

def dictOf (es : List (Tree × Tree)) : Tree :=
  .dictDisplay (.list (es.map (·.1))) (.list (es.map (·.2)))

/-- A call of a variable. -/
def callOf (f : String) (args : List Tree) : Tree := .call (var f) (.list args) (.list [])

/-- An item of a variable by its place, which folding leaves alone. -/
def itemOf (s : String) (i : Nat) : Tree :=
  .subscript (var s) (.sealedIndex (num i)) (.context .load)

/-- Set variables to one value. -/
def setAll (names : List String) (e : Tree) : Tree := .assign (.list (names.map target)) e

/-- Set a variable. -/
def set (s : String) (e : Tree) : Tree := setAll [s] e

/-- Change a variable by an operation. -/
def update (s : String) (o : BinaryOp) (e : Tree) : Tree :=
  .augAssign (target s) (.binaryOperator o) e

/-- A conditional statement. -/
def branch (test : Tree) (body orelse : List Tree) : Tree :=
  .ifStmt test (.list body) (.list orelse)

/-- A loop on a condition. -/
def repeatWhile (test : Tree) (body : List Tree) : Tree := .whileLoop test (.list body) (.list [])

/-- A loop over items. -/
def forEach (s : String) (iter : Tree) (body : List Tree) : Tree :=
  .forLoop (target s) iter (.list body) (.list [])

/-- A program of statements. -/
def program (body : List Tree) : Tree := .module (.list body)

end Stackwise.Tree
