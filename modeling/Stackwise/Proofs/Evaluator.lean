import Stackwise.Proofs.Listing
import Stackwise.Syntax.Build

/-!
# An evaluator for trees

What programs mean, without code and without a stack. An environment has the variables and the
world. Operands are evaluated from the left to the right, in a dictionary each value before its key;
the members of sets and the entries of dictionaries are inserted from the last to the first. A name
is a variable or else what it stands for from the start. `x op= e` is `x = x op e`.

Expressions always end; statements take a bound on the rounds of each loop, and `Evaluates` leaves
it out. `IsExpression`, `IsStatement` and `IsProgram` are the trees that the evaluator is about.
-/
namespace Stackwise

/-- What a program can see and change. -/
structure Env where
  /-- Variables in the order in which they were set. -/
  globals : List (Name × Value)
  world : World

/-- The environment of a machine. -/
def Machine.env (m : Machine) : Env := ⟨m.globals, m.world⟩

/-- An evaluation that may fail. -/
abbrev Eval := ExceptT Fault (StateM Env)

namespace Eval

/-- An operation on the world. -/
def act {α : Type} (a : Act α) : Eval α := fun env =>
  let (r, w) := (a.run env.world).run
  (r, { env with world := w })

/-- A result that changes nothing. -/
def ofExcept {α : Type} : Except Fault α → Eval α
  | .ok a => pure a
  | .error f => throw f

/-- The value of a name. -/
def lookup (name : String) : Eval Value := do
  match (← get).globals.lookup (.text name) with
  | some v => return v
  | none =>
    match builtin? name with
    | some v => return v
    | none => throw (.undefinedName (Text.quoted name))

/-- Set a variable. -/
def store (v : Value) (name : String) : Eval Unit :=
  modify fun env => { env with globals := setGlobal env.globals (.text name) v }

/-- Delete a variable. -/
def delete (name : String) : Eval Unit := do
  match (← get).globals.lookup (.text name) with
  | some _ => modify fun env => { env with globals := dropGlobal env.globals (.text name) }
  | none => throw (.missingKey (.str name))

/-- Show a value on a line of its own, unless there is none to show. -/
def display : Value → Eval Unit
  | .none => pure ()
  | v => do
    let s ← ofExcept v.repr
    act (Act.write (s ++ "\n"))

/-- The result of an operation on two values. -/
def binary (op : BinaryOp) (left right : Value) : Eval Value := do
  let v ← ofExcept (op.apply left right)
  act (Act.markObject v)

/-- The result of an operation on one value. -/
def unary (op : UnaryOp) (v : Value) : Eval Value := do
  let w ← ofExcept (op.apply v)
  act (Act.markObject w)

/-- Several values, from the first to the last. -/
def all : List (Eval Value) → Eval (List Value)
  | [] => return []
  | e :: es => do
    let v ← e
    return v :: (← all es)

/-- The entries of a dictionary, each value before its key. -/
def entries : List (Eval Value) → List (Eval Value) → Eval (List (Value × Value))
  | k :: ks, v :: vs => do
    let value ← v
    let key ← k
    return (key, value) :: (← entries ks vs)
  | _, _ => return []

/-- Insert values into a set, from the first to the last. -/
def insertAll (xs : List Value) : List Value → Except Fault (List Value)
  | [] => .ok xs
  | v :: vs => do
    v.checkKey
    insertAll (Value.addMember xs v) vs

/-- Insert entries into a dictionary, from the first to the last. -/
def insertEntries (es : List (Value × Value)) :
    List (Value × Value) → Except Fault (List (Value × Value))
  | [] => .ok es
  | (k, v) :: rest => do
    k.checkKey
    insertEntries (Value.insertKey es k v) rest

/-- A loop on a condition, with a bound on its rounds. -/
def whileLoop (test : Eval Value) (body : Eval Unit) : Nat → Eval Unit
  | 0 => throw .endless
  | rounds + 1 => do
    if (← test).truthy then
      body
      whileLoop test body rounds

/-- A loop over the items of an iterator, with a bound on its rounds. -/
def forLoop (name : String) (ref : Nat) (body : Eval Unit) : Nat → Eval Unit
  | 0 => throw .endless
  | rounds + 1 => do
    match ← act (pull ref) with
    | none => pure ()
    | some v =>
      store v name
      body
      forLoop name ref body rounds

end Eval

namespace Tree

/-- The text of an identifier. -/
def identText : Tree → String
  | .name (.leaf (.str s)) _ => s
  | _ => ""

mutual
/-- The value of an expression. -/
def eval : Tree → Eval Value
  | .constant (some v) => return v
  | .name (.leaf (.str s)) _ => Eval.lookup s
  | .tuple (.list es) _ => do return .tuple (← Eval.all (evalEach es))
  | .listDisplay (.list es) _ => do return .list (← Eval.all (evalEach es))
  | .setDisplay (.list es) => do
    let vs ← Eval.all (evalEach es)
    return .set (← Eval.ofExcept (Eval.insertAll [] vs.reverse))
  | .dictDisplay (.list ks) (.list vs) => do
    let es ← Eval.entries (evalEach ks) (evalEach vs)
    return .dict (← Eval.ofExcept (Eval.insertEntries [] es.reverse))
  | .binOp left (.binaryOperator op) right => do
    let a ← eval left
    let b ← eval right
    Eval.binary op a b
  | .unaryOp (.unaryOperator op) operand => do
    let v ← eval operand
    Eval.unary op v
  | .ifExp test body orelse => do
    if (← eval test).truthy then eval body else eval orelse
  | .subscript value (.index i) _ | .subscript value (.sealedIndex i) _ => do
    let v ← eval value
    let i ← eval i
    Eval.ofExcept (v.index i)
  | .call func (.list args) _ => do
    let f ← eval func
    let vs ← Eval.all (evalEach args)
    Eval.act (f.call vs)
  | t => throw (.noRule t.className)
/-- The evaluations of several expressions. -/
def evalEach : List Tree → List (Eval Value)
  | [] => []
  | t :: ts => eval t :: evalEach ts
end

mutual
/-- What a statement does, with a bound on the rounds of each loop. -/
def exec (rounds : Nat) : Tree → Eval Unit
  | .expr value => do
    let v ← eval value
    Eval.display v
  | .assign (.list targets) value => do
    let v ← eval value
    (targets.map identText).forM (Eval.store v)
  | .augAssign target (.binaryOperator op) value => do
    let a ← Eval.lookup target.identText
    let b ← eval value
    let v ← Eval.binary op a b
    Eval.store v target.identText
  | .delete (.list targets) => (targets.map identText).forM Eval.delete
  | .pass => pure ()
  | .ifStmt test (.list body) (.list orelse) => do
    if (← eval test).truthy then execAll rounds body else execAll rounds orelse
  | .whileLoop test (.list body) _ => Eval.whileLoop (eval test) (execAll rounds body) rounds
  | .forLoop target iter (.list body) _ => do
    let v ← eval iter
    let (ref, _) ← Eval.act v.iterate
    Eval.forLoop target.identText ref (execAll rounds body) rounds
  | .module (.list body) => execAll rounds body
  | t => throw (.noRule t.className)
/-- What several statements do, one after the other. -/
def execAll (rounds : Nat) : List Tree → Eval Unit
  | [] => pure ()
  | t :: ts => do
    exec rounds t
    execAll rounds ts
end

/-- A program ends with a result and an environment when its loops have no bound. -/
def Evaluates (t : Tree) (env : Env) (r : Except Fault Unit) (env' : Env) : Prop :=
  r ≠ .error .endless ∧ ∃ rounds, outcome (t.exec rounds) env = (r, env')

/-! ### The trees the evaluator is about -/

/-- A constant of a program: nothing, a truth value, an integer, a text or bytes. -/
inductive IsLiteral : Value → Prop
  | none : IsLiteral .none
  | bool (b : Bool) : IsLiteral (.bool b)
  | int (n : Int) : IsLiteral (.int n)
  | str (s : String) : IsLiteral (.str s)
  | bytes (b : List UInt8) : IsLiteral (.bytes b)

instance : DecidablePred IsLiteral
  | .none => .isTrue .none
  | .bool b => .isTrue (.bool b)
  | .int n => .isTrue (.int n)
  | .str s => .isTrue (.str s)
  | .bytes b => .isTrue (.bytes b)
  | .ellipsis | .notImplemented | .float _ | .complex _ _ | .list _ | .tuple _ | .set _
  | .frozenset _ | .dict _ | .range _ _ _ | .slice _ _ _ | .type _ | .union _ | .alias _ _
  | .function _ | .quitter _ | .error _ _ _ | .iterator _ _ => .isFalse nofun

/-- An expression. -/
inductive IsExpression : Tree → Prop
  | constant {v : Value} (h : IsLiteral v) : IsExpression (.const v)
  | name (s : String) : IsExpression (.var s)
  | tuple {es : List Tree} {c : Context} (h : ∀ e ∈ es, IsExpression e) :
    IsExpression (.tuple (.list es) (.context c))
  | list {es : List Tree} {c : Context} (h : ∀ e ∈ es, IsExpression e) :
    IsExpression (.listDisplay (.list es) (.context c))
  | set {es : List Tree} (h : ∀ e ∈ es, IsExpression e) : IsExpression (.setDisplay (.list es))
  | dict {es : List (Tree × Tree)} (hk : ∀ e ∈ es, IsExpression e.1)
    (hv : ∀ e ∈ es, IsExpression e.2) : IsExpression (.dictOf es)
  | binOp {left right : Tree} {o : BinaryOp} (hl : IsExpression left) (hr : IsExpression right) :
    IsExpression (.op o left right)
  | unaryOp {operand : Tree} {o : UnaryOp} (h : IsExpression operand) :
    IsExpression (.sign o operand)
  | ifExp {test body orelse : Tree} (ht : IsExpression test) (hb : IsExpression body)
    (he : IsExpression orelse) : IsExpression (.ifExp test body orelse)
  | subscript {value i : Tree} {c : Context} (hv : IsExpression value) (hi : IsExpression i) :
    IsExpression (.subscript value (.index i) (.context c))
  | sealedSubscript {value i : Tree} {c : Context} (hv : IsExpression value)
    (hi : IsExpression i) : IsExpression (.subscript value (.sealedIndex i) (.context c))
  | call {func : Tree} {args : List Tree} (hne : args ≠ []) (hf : IsExpression func)
    (ha : ∀ e ∈ args, IsExpression e) : IsExpression (.call func (.list args) (.list []))

/-- A statement. -/
inductive IsStatement : Tree → Prop
  | expr {value : Tree} (h : IsExpression value) : IsStatement (.expr value)
  | assign {names : List String} {value : Tree} (hne : names ≠ []) (h : IsExpression value) :
    IsStatement (.setAll names value)
  | augAssign {name : String} {o : BinaryOp} {value : Tree} (h : IsExpression value) :
    IsStatement (.update name o value)
  | delete (names : List String) :
    IsStatement (.delete (.list (names.map fun s => .name (.ofText s) (.context .del))))
  | pass : IsStatement .pass
  | ifStmt {test : Tree} {body orelse : List Tree} (ht : IsExpression test)
    (hb : ∀ s ∈ body, IsStatement s) (he : ∀ s ∈ orelse, IsStatement s) :
    IsStatement (.branch test body orelse)
  | whileLoop {test : Tree} {body : List Tree} (ht : IsExpression test)
    (hb : ∀ s ∈ body, IsStatement s) : IsStatement (.repeatWhile test body)
  | forLoop {name : String} {iter : Tree} {body : List Tree} (hi : IsExpression iter)
    (hb : ∀ s ∈ body, IsStatement s) : IsStatement (.forEach name iter body)

/-- A program. -/
inductive IsProgram : Tree → Prop
  | mk {body : List Tree} (h : ∀ s ∈ body, IsStatement s) : IsProgram (.program body)

end Tree
end Stackwise
