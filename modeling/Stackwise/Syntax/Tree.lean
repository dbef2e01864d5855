import Stackwise.Operator
import Stackwise.Value.Basic

/-!
# Syntax trees

A tree is a program or a part of one. The classes that can be compiled have a constructor each;
every other class is `other`, with its fields in order. Trees can be handed in from outside, so any
field may be `missing`, a plain value or a list where a node belongs, and it is the reader of a
field who finds out.

`className`, `fields` and `ofFields` are the uniform view: a class name and named fields.
-/
namespace Stackwise

/-- How a name or a display is used. -/
inductive Context where
  | load | store | del
  deriving DecidableEq, Repr, Inhabited

namespace Context

def className : Context → String
  | .load => "Load"
  | .store => "Store"
  | .del => "Del"

def all : List Context := [.load, .store, .del]

end Context

/-- A program, a part of one, or what stands in its place. -/
inductive Tree where
  /-- A field that is not there. -/
  | missing
  /-- A plain value in the place of a node: a name, a number, nothing. -/
  | leaf (v : Value)
  | list (items : List Tree)
  | module (body : Tree)
  | interactive (body : Tree)
  | expr (value : Tree)
  | assign (targets value : Tree)
  | augAssign (target op value : Tree)
  | delete (targets : Tree)
  | pass
  | ifStmt (test body orelse : Tree)
  | ifExp (test body orelse : Tree)
  | whileLoop (test body orelse : Tree)
  | forLoop (target iter body orelse : Tree)
  | name (id ctx : Tree)
  | constant (value : Option Value)
  | tuple (elts ctx : Tree)
  | listDisplay (elts ctx : Tree)
  | setDisplay (elts : Tree)
  | dictDisplay (keys values : Tree)
  | binOp (left op right : Tree)
  | unaryOp (op operand : Tree)
  | subscript (value slice ctx : Tree)
  | index (value : Tree)
  /-- An index that folding does not look into. -/
  | sealedIndex (value : Tree)
  | call (func args keywords : Tree)
  | binaryOperator (op : BinaryOp)
  | unaryOperator (op : UnaryOp)
  | context (c : Context)
  /-- A node with more than its class has: an identifier, which is read where a name is changed or
  deleted, and a note, which is folded. -/
  | extended (id note node : Tree)
  | other (cls : String) (fields : List (String × Tree))
  deriving Inhabited

namespace Tree

/-- The class of a tree, as messages name it. -/
def className : Tree → String
  | .missing => "NoneType"
  | .leaf v => v.tyName
  | .list _ => "list"
  | .module _ => "Module"
  | .interactive _ => "Interactive"
  | .expr _ => "Expr"
  | .assign _ _ => "Assign"
  | .augAssign _ _ _ => "AugAssign"
  | .delete _ => "Delete"
  | .pass => "Pass"
  | .ifStmt _ _ _ => "If"
  | .ifExp _ _ _ => "IfExp"
  | .whileLoop _ _ _ => "While"
  | .forLoop _ _ _ _ => "For"
  | .name _ _ => "Name"
  | .constant _ => "Constant"
  | .tuple _ _ => "Tuple"
  | .listDisplay _ _ => "List"
  | .setDisplay _ => "Set"
  | .dictDisplay _ _ => "Dict"
  | .binOp _ _ _ => "BinOp"
  | .unaryOp _ _ => "UnaryOp"
  | .subscript _ _ _ => "Subscript"
  | .index _ => "Index"
  | .sealedIndex _ => "Index"
  | .call _ _ _ => "Call"
  | .binaryOperator op => op.className
  | .unaryOperator op => op.className
  | .context c => c.className
  | .extended _ _ node => node.className
  | .other cls _ => cls

/-- Whether a tree is a node, rather than a plain value, a list or nothing. -/
def isNode : Tree → Bool
  | .missing | .leaf _ | .list _ => false
  | _ => true

/-- The fields of a node in order. A constant's value is not a field. -/
def allFields : Tree → List (String × Tree)
  | .module body => [("body", body)]
  | .interactive body => [("body", body)]
  | .expr value => [("value", value)]
  | .assign targets value => [("targets", targets), ("value", value)]
  | .augAssign target op value => [("target", target), ("op", op), ("value", value)]
  | .delete targets => [("targets", targets)]
  | .ifStmt test body orelse => [("test", test), ("body", body), ("orelse", orelse)]
  | .ifExp test body orelse => [("test", test), ("body", body), ("orelse", orelse)]
  | .whileLoop test body orelse => [("test", test), ("body", body), ("orelse", orelse)]
  | .forLoop target iter body orelse =>
    [("target", target), ("iter", iter), ("body", body), ("orelse", orelse)]
  | .name id ctx => [("id", id), ("ctx", ctx)]
  | .tuple elts ctx => [("elts", elts), ("ctx", ctx)]
  | .listDisplay elts ctx => [("elts", elts), ("ctx", ctx)]
  | .setDisplay elts => [("elts", elts)]
  | .dictDisplay keys values => [("keys", keys), ("values", values)]
  | .binOp left op right => [("left", left), ("op", op), ("right", right)]
  | .unaryOp op operand => [("op", op), ("operand", operand)]
  | .subscript value slice ctx => [("value", value), ("slice", slice), ("ctx", ctx)]
  | .index value => [("value", value)]
  | .sealedIndex value => [("value", value)]
  | .call func args keywords => [("func", func), ("args", args), ("keywords", keywords)]
  | .extended _ _ node => node.allFields
  | .other _ fields => fields
  | _ => []

/-- Whether a field is there. -/
def isPresent : Tree → Bool
  | .missing => false
  | _ => true

/-- The fields of a node in order, missing ones left out. -/
def fields (t : Tree) : List (String × Tree) := t.allFields.filter fun f => f.2.isPresent

/-- The fields of the classes that have no constructor, in order. -/
def classFields : List (String × List String) :=
  [("AnnAssign", ["target", "annotation", "value", "simple"]),
    ("Assert", ["test", "msg"]),
    ("AsyncFor", ["target", "iter", "body", "orelse", "type_comment"]),
    ("AsyncFunctionDef", ["name", "args", "body", "decorator_list", "returns", "type_comment"]),
    ("AsyncWith", ["items", "body", "type_comment"]),
    ("Attribute", ["value", "attr", "ctx"]),
    ("Await", ["value"]),
    ("BoolOp", ["op", "values"]),
    ("ClassDef", ["name", "bases", "keywords", "body", "decorator_list"]),
    ("Compare", ["left", "ops", "comparators"]),
    ("DictComp", ["key", "value", "generators"]),
    ("ExceptHandler", ["type", "name", "body"]),
    ("Expression", ["body"]),
    ("FormattedValue", ["value", "conversion", "format_spec"]),
    ("FunctionDef", ["name", "args", "body", "decorator_list", "returns", "type_comment"]),
    ("FunctionType", ["argtypes", "returns"]),
    ("GeneratorExp", ["elt", "generators"]),
    ("Global", ["names"]),
    ("Import", ["names"]),
    ("ImportFrom", ["module", "names", "level"]),
    ("JoinedStr", ["values"]),
    ("Lambda", ["args", "body"]),
    ("ListComp", ["elt", "generators"]),
    ("Match", ["subject", "cases"]),
    ("MatchAs", ["pattern", "name"]),
    ("MatchClass", ["cls", "patterns", "kwd_attrs", "kwd_patterns"]),
    ("MatchMapping", ["keys", "patterns", "rest"]),
    ("MatchOr", ["patterns"]),
    ("MatchSequence", ["patterns"]),
    ("MatchSingleton", ["value"]),
    ("MatchStar", ["name"]),
    ("MatchValue", ["value"]),
    ("NamedExpr", ["target", "value"]),
    ("Nonlocal", ["names"]),
    ("Raise", ["exc", "cause"]),
    ("Return", ["value"]),
    ("SetComp", ["elt", "generators"]),
    ("Slice", ["lower", "upper", "step"]),
    ("Starred", ["value", "ctx"]),
    ("Try", ["body", "handlers", "orelse", "finalbody"]),
    ("TryStar", ["body", "handlers", "orelse", "finalbody"]),
    ("TypeIgnore", ["lineno", "tag"]),
    ("With", ["items", "body", "type_comment"]),
    ("Yield", ["value"]),
    ("YieldFrom", ["value"]),
    ("alias", ["name", "asname"]),
    ("arg", ["arg", "annotation", "type_comment"]),
    ("arguments",
      ["posonlyargs", "args", "vararg", "kwonlyargs", "kw_defaults", "kwarg", "defaults"]),
    ("comprehension", ["target", "iter", "ifs", "is_async"]),
    ("keyword", ["arg", "value"]),
    ("match_case", ["pattern", "guard", "body"]),
    ("withitem", ["context_expr", "optional_vars"])]

/-- Fields that hold nothing where they are not given. -/
def optionalFields : List (String × List String) :=
  [("AnnAssign", ["value"]), ("Assert", ["msg"]), ("AsyncFunctionDef", ["returns"]),
    ("ExceptHandler", ["type", "name"]), ("FormattedValue", ["format_spec"]),
    ("FunctionDef", ["returns"]), ("ImportFrom", ["module", "level"]),
    ("MatchAs", ["pattern", "name"]), ("MatchMapping", ["rest"]), ("MatchStar", ["name"]),
    ("Raise", ["exc", "cause"]), ("Return", ["value"]), ("Slice", ["lower", "upper", "step"]),
    ("Yield", ["value"]), ("alias", ["asname"]), ("arg", ["annotation"]),
    ("arguments", ["vararg", "kwarg"]), ("keyword", ["arg"]), ("match_case", ["guard"]),
    ("withitem", ["optional_vars"])]

/-- Classes without fields that have no constructor either. The last ones are kinds of nodes rather
than nodes. -/
def bareClasses : List String :=
  ["And", "Break", "Continue", "Eq", "Gt", "GtE", "In", "Is", "IsNot", "Lt", "LtE", "MatMult",
    "NotEq", "NotIn", "Or", "AugLoad", "AugStore", "Param", "Suite", "AST", "boolop", "cmpop",
    "excepthandler", "expr", "expr_context", "mod", "operator", "pattern", "slice", "stmt",
    "type_ignore", "unaryop"]

/-- Whether a node is of a class that nobody knows. -/
def isForeign : Tree → Bool
  | .index _ => true
  | .extended _ _ node => node.isForeign
  | .other cls _ => (classFields.lookup cls).isNone && !bareClasses.contains cls
  | _ => false

/-- The classes of constants. All but the first are older names for it. -/
def constantClasses : List String := ["Constant", "Num", "Str", "Bytes", "NameConstant", "Ellipsis"]

/-- The fields that hold the value of a constant. All but the first are older names for it. -/
def constantFields : List String := ["value", "n", "s"]

mutual
/-- The plain value of a tree that is one. -/
def plain? : Tree → Option Value
  | .leaf v => some v
  | .list items => (plainAll? items).map .list
  | _ => none
/-- The plain values of several trees. -/
def plainAll? : List Tree → Option (List Value)
  | [] => some []
  | t :: ts => do
    let v ← plain? t
    return v :: (← plainAll? ts)
end

/-- The value of a constant: the field that comes last counts. -/
def constantOf (cls : String) (fs : List (String × Tree)) : Option Value :=
  fs.foldl (fun acc f => if constantFields.contains f.1 then f.2.plain? <|> acc else acc)
    (if cls == "Ellipsis" then some .ellipsis else none)

/-- The field of a class that is folded and otherwise ignored, if it has one. -/
def noteField? (cls : String) : Option String :=
  if cls == "Module" then some "type_ignores"
  else if cls == "Assign" || cls == "For" then some "type_comment"
  else if constantClasses.contains cls then some "kind"
  else none

/-- A node without the identifier that its class does not have. -/
def withoutId : Tree → Tree
  | .extended _ .missing node => node
  | .extended _ note node => .extended .missing note node
  | t => t

/-- A field whose nodes do not need such identifiers. -/
def withoutIds : Tree → Tree
  | .list items => .list (items.map withoutId)
  | t => t.withoutId

/-- A node with an identifier and a note, if there are any. -/
def extend (id note node : Tree) : Tree :=
  if id.isPresent || note.isPresent then .extended id note node else node

/-- A node of a class from its fields, in any order. -/
def ofOwnFields (cls : String) (fs : List (String × Tree)) : Tree :=
  let target (f : String) : Tree := (fs.lookup f).getD .missing
  let get (f : String) : Tree := (target f).withoutIds
  match cls with
  | "Module" => .module (get "body")
  | "Interactive" => .interactive (get "body")
  | "Expr" => .expr (get "value")
  | "Assign" => .assign (get "targets") (get "value")
  | "AugAssign" => .augAssign (target "target") (get "op") (get "value")
  | "Delete" => .delete (target "targets")
  | "Pass" => .pass
  | "If" => .ifStmt (get "test") (get "body") (get "orelse")
  | "IfExp" => .ifExp (get "test") (get "body") (get "orelse")
  | "While" => .whileLoop (get "test") (get "body") (get "orelse")
  | "For" => .forLoop (get "target") (get "iter") (get "body") (get "orelse")
  | "Name" => .name (get "id") (get "ctx")
  | "Tuple" => .tuple (get "elts") (get "ctx")
  | "List" => .listDisplay (get "elts") (get "ctx")
  | "Set" => .setDisplay (get "elts")
  | "Dict" => .dictDisplay (get "keys") (get "values")
  | "BinOp" => .binOp (get "left") (get "op") (get "right")
  | "UnaryOp" => .unaryOp (get "op") (get "operand")
  | "Subscript" => .subscript (get "value") (get "slice") (get "ctx")
  | "Index" =>
    match fs with
    | [("value", value)] => .index value.withoutIds
    | fs => .other cls (fs.map fun f => (f.1, f.2.withoutIds))
  | "Call" => .call (get "func") (get "args") (get "keywords")
  | "ExtSlice" => .tuple ((fs.lookup "dims").elim (.list []) withoutIds) (.context .load)
  | cls =>
    if constantClasses.contains cls then .constant (constantOf cls fs)
    else
      match BinaryOp.all.find? (fun o => o.className == cls) with
      | some op => .binaryOperator op
      | none =>
        match UnaryOp.all.find? (fun o => o.className == cls) with
        | some op => .unaryOperator op
        | none =>
          match Context.all.find? (fun c => c.className == cls) with
          | some c => .context c
          | none =>
            match classFields.lookup cls with
            | some names =>
              let optional := (optionalFields.lookup cls).getD []
              .other cls (names.filterMap fun f =>
                match fs.lookup f with
                | some t => some (f, t.withoutIds)
                | none => if optional.contains f then some (f, .leaf .none) else none)
            | none =>
              .other cls (if bareClasses.contains cls then []
                else fs.map fun f => (f.1, f.2.withoutIds))

/-- The note among the fields of a class, if there are nodes in it. -/
def noteOf (cls : String) (fs : List (String × Tree)) : Tree :=
  match (noteField? cls).bind fun f => fs.lookup f with
  | some (.list items) => if items.any isNode then withoutIds (.list items) else .missing
  | some t => if t.isNode then t.withoutId else .missing
  | none => .missing

/-- A node from its class and its fields, in any order. A class that nobody knows keeps its fields
as they are; a known class takes its own and ignores the rest, but for an identifier. -/
def ofFields (cls : String) (fs : List (String × Tree)) : Tree :=
  let node := ofOwnFields cls fs
  let id := if node.fields.any fun f => f.1 == "id" then none else fs.lookup "id"
  extend (id.getD .missing) (noteOf cls fs) node

mutual
/-- Wrap every subscript's index in an index node; slices stay as they are. -/
def wrapIndices : Tree → Tree
  | .missing => .missing
  | .leaf v => .leaf v
  | .list items => .list (wrapAll items)
  | .module body => .module (wrapIndices body)
  | .interactive body => .interactive (wrapIndices body)
  | .expr value => .expr (wrapIndices value)
  | .assign targets value => .assign (wrapIndices targets) (wrapIndices value)
  | .augAssign target op value =>
    .augAssign (wrapIndices target) (wrapIndices op) (wrapIndices value)
  | .delete targets => .delete (wrapIndices targets)
  | .pass => .pass
  | .ifStmt test body orelse =>
    .ifStmt (wrapIndices test) (wrapIndices body) (wrapIndices orelse)
  | .ifExp test body orelse => .ifExp (wrapIndices test) (wrapIndices body) (wrapIndices orelse)
  | .whileLoop test body orelse =>
    .whileLoop (wrapIndices test) (wrapIndices body) (wrapIndices orelse)
  | .forLoop target iter body orelse =>
    .forLoop (wrapIndices target) (wrapIndices iter) (wrapIndices body) (wrapIndices orelse)
  | .name id ctx => .name id ctx
  | .constant value => .constant value
  | .tuple elts ctx => .tuple (wrapIndices elts) ctx
  | .listDisplay elts ctx => .listDisplay (wrapIndices elts) ctx
  | .setDisplay elts => .setDisplay (wrapIndices elts)
  | .dictDisplay keys values => .dictDisplay (wrapIndices keys) (wrapIndices values)
  | .binOp left op right => .binOp (wrapIndices left) op (wrapIndices right)
  | .unaryOp op operand => .unaryOp op (wrapIndices operand)
  | .subscript value slice ctx =>
    let inner := wrapIndices slice
    .subscript (wrapIndices value)
      (if inner.className == "Slice" then inner else .index inner) ctx
  | .index value => .index (wrapIndices value)
  | .sealedIndex value => .sealedIndex value
  | .call func args keywords => .call (wrapIndices func) (wrapIndices args) (wrapIndices keywords)
  | .binaryOperator op => .binaryOperator op
  | .unaryOperator op => .unaryOperator op
  | .context c => .context c
  | .extended id note node => .extended id note (wrapIndices node)
  | .other cls fields => .other cls (wrapFields fields)
/-- Wrap the indices in several trees. -/
def wrapAll : List Tree → List Tree
  | [] => []
  | t :: ts => wrapIndices t :: wrapAll ts
/-- Wrap the indices in named fields. -/
def wrapFields : List (String × Tree) → List (String × Tree)
  | [] => []
  | (f, t) :: fs => (f, wrapIndices t) :: wrapFields fs
end

/-- A list of nodes. -/
def ofList (ts : List Tree) : Tree := .list ts

/-- Nothing, where a node may be left out. -/
def absent : Tree := .leaf .none

/-- A text in the place of a node. -/
def ofText (s : String) : Tree := .leaf (.str s)

/-- A constant. -/
def const (v : Value) : Tree := .constant (some v)

end Tree
end Stackwise
