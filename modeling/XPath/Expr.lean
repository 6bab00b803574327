import XPath.Axis
import XPath.Binary64
import XPath.Operator

/-! The trees that expressions denote. -/
namespace XPath

inductive NodeKind
  | text
  | node
  | comment
  deriving DecidableEq

/-- What a step asks of a node on its axis. Names are resolved: `uri` is the namespace of a name that
was written with a colon. -/
inductive NodeTest
  | name (localName : String) (uri : Option String)
  | wildcard
  | namespaceWildcard (uri : String)
  | kind (k : NodeKind)
  | processingInstruction (target : Option String)
  deriving DecidableEq

/-- One step of a path over expressions `α`. -/
structure Step (α : Type) where
  axis : Axis
  test : NodeTest
  predicates : List α

namespace Step
variable {α : Type}

/-- A step to nodes of any kind without predicates. -/
def anyNode (axis : Axis) : Step α :=
  ⟨axis, .kind .node, []⟩

/-- The step that `//` abbreviates. -/
def descendantOrSelf : Step α :=
  anyNode .descendantOrSelf

end Step

inductive Expr
  | literal (s : String)
  | number (x : Binary64)
  | var (name : String)
  | call (name : String) (args : List Expr)
  | filter (primary : Expr) (predicates : List Expr)
  | binary (op : BinaryOp) (left right : Expr)
  | negate (operand : Expr)
  /-- A path from the root or from the context node. -/
  | path (absolute : Bool) (steps : List (Step Expr))
  /-- A path from the nodes that an expression selects. -/
  | pathFrom (start : Expr) (steps : List (Step Expr))

namespace Expr

def isPath : Expr → Bool
  | path .. | pathFrom .. => true
  | _ => false

def isBinary : Expr → Bool
  | binary .. => true
  | _ => false

end Expr
end XPath
