import Stackwise.Syntax.Grammar.Basic

/-!
# Targets

What can be assigned to or deleted is read as an expression first; these functions accept the forms
that are targets and mark how they are used.
-/
namespace Stackwise.Grammar

/-- A name, an attribute or an item, used in a given way. -/
def singleTarget? (ctx : Tree) : Tree → Option Tree
  | .name id _ => some (.name id ctx)
  | .subscript value slice _ => some (.subscript value slice ctx)
  | .other "Attribute" [("value", value), ("attr", attr), _] =>
    some (node "Attribute" [("value", value), ("attr", attr), ("ctx", ctx)])
  | _ => none

mutual
/-- A target used in a given way: a single one, or a tuple or list of targets. Where `stars` are
accepted, a starred target takes what is left. -/
def target? (stars : Bool) (ctx : Tree) : Tree → Option Tree
  | .tuple (.list elts) _ => (targets? stars ctx elts).map fun es => .tuple (.list es) ctx
  | .listDisplay (.list elts) _ =>
    (targets? stars ctx elts).map fun es => .listDisplay (.list es) ctx
  | .other "Starred" [("value", value), _] =>
    if stars then
      (target? stars ctx value).map fun v => node "Starred" [("value", v), ("ctx", ctx)]
    else none
  | t => singleTarget? ctx t
/-- Several targets. -/
def targets? (stars : Bool) (ctx : Tree) : List Tree → Option (List Tree)
  | [] => some []
  | t :: ts => do
    let t ← target? stars ctx t
    return t :: (← targets? stars ctx ts)
end

/-- A target of an assignment. -/
def assigned (t : Tree) : Parser Tree := liftM (target? true store t)

/-- A target of an assignment that is neither a tuple nor a list. -/
def assignedSingle (t : Tree) : Parser Tree := liftM (singleTarget? store t)

/-- A target of a deletion. -/
def deleted (t : Tree) : Parser Tree := liftM (target? false (.context .del) t)

end Stackwise.Grammar
